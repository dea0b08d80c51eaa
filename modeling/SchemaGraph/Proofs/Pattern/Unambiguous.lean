import SchemaGraph.Proofs.Pattern.Spelling
import SchemaGraph.Proofs.Text.Blank

-- Patterns that can match in one way only, given what the text goes on with.
namespace SchemaGraph

namespace Cursor

variable {p : Char → Bool}

-- A run could go on from every place that it can reach but the furthest one.
theorem pairwise_stops (p : Char → Bool) (before : Option Char) (pos : Nat) (cs : List Char) :
    (stops p before pos cs).Pairwise fun near _ => ∃ c ∈ near.rest.head?, p c := by
  induction cs generalizing before pos
  case nil          => exact List.pairwise_singleton _ _
  case cons c cs hi =>
    rw [stops]
    split
    case isTrue hc => exact .cons (fun _ _ => ⟨c, rfl, hc⟩) (hi _ _)
    case isFalse   => exact List.pairwise_singleton _ _

end Cursor

namespace Pattern

variable {γ : Type}

def Then (a : Pattern γ) (p : List Char → Prop) (text : List Char) : Prop :=
  ∃ before w rest, text = w ++ rest ∧ a.Matches before w rest ∧ p rest

-- At most one of the ways of a pattern leads to a text in `p`.
def Unambiguous (a : Pattern γ) (p : List Char → Prop) : Prop :=
  ∀ s, (a.ways s).Pairwise fun t u => ¬ (p t.rest ∧ p u.rest)

variable {a b : Pattern γ} {p q : List Char → Prop} {r : Char → Bool} {s t : Progress γ}
variable {text : List Char} {word : String}

theorem then_of_mem_ways (h : t ∈ a.ways s) (hp : p t.rest) : a.Then p s.rest :=
  have ⟨w, hw, hm⟩ := a.exact.sound h
  ⟨s.before, w, t.rest, hw.rest_eq, hm, hp⟩

theorem then_of_mem_rounds {n : Nat} (h : t ∈ rounds a.ways n s) (hp : p t.rest) :
    (repeated a).Then p s.rest :=
  have ⟨w, hw, hm⟩ := a.exact.rounds_sound h
  ⟨s.before, w, t.rest, hw.rest_eq, hm, hp⟩

theorem Fails.not_then (h : ∀ before, a.Fails before text) : ¬ a.Then p text :=
  fun ⟨before, w, rest, ht, hm, _⟩ => h before w rest ht hm

namespace Then

theorem of_seq (h : (a ++ b).Then p text) : a.Then (b.Then p) text :=
  have ⟨before, _, rest, ht, ⟨u, v, hw, hu, hv⟩, hp⟩ := h
  ⟨before, u,
    v ++ rest, by rw [ht, hw, List.append_assoc], hu, behind before u, v, rest, rfl, hv, hp⟩

theorem of_alt (h : (a <|> b).Then p text) : a.Then p text ∨ b.Then p text :=
  have ⟨before, w, rest, ht, hm, hp⟩ := h
  hm.imp (⟨before, w, rest, ht, ·, hp⟩) (⟨before, w, rest, ht, ·, hp⟩)

theorem of_empty (h : (empty : Pattern γ).Then p text) : p text := by
  obtain ⟨_, w, rest, ht, hm, hp⟩ := h
  obtain rfl : w = [] := hm
  exact ht ▸ hp

theorem of_opt (h : (opt a).Then p text) : a.Then p text ∨ p text :=
  h.of_alt.imp_right of_empty

theorem head_of_char (h : (char r : Pattern γ).Then p text) : ∃ c ∈ text.head?, r c := by
  obtain ⟨_, w, rest, rfl, ⟨c, rfl, hc⟩, _⟩ := h
  exact ⟨c, rfl, hc⟩

theorem head_of_only {c : Char} (h : (only c : Pattern γ).Then p text) : text.head? = some c := by
  obtain ⟨d, hd, hc⟩ := h.head_of_char
  rwa [eq_of_beq hc] at hd

theorem not_blank_of_only {c : Char} (h : (only c : Pattern γ).Then p text)
    (hc : Text.isBlank c = false) :
    ∀ d ∈ text.head?, ¬ Text.isBlank d := by
  intro d hd
  obtain rfl : c = d := Option.some.inj (h.head_of_only.symm.trans hd)
  simp [hc]

theorem head_of_many (h : (many r : Pattern γ).Then p text) : ∃ c ∈ text.head?, r c :=
  h.of_seq.head_of_char

-- What follows a run begins where the run must end.
theorem dropWhile_of_run (h : (run r : Pattern γ).Then p text)
    (hp : ∀ text, p text → ∀ c ∈ text.head?, ¬ r c) : p (text.dropWhile r) := by
  obtain ⟨_, w, rest, rfl, hw, hrest⟩ := h
  rwa [List.dropWhile_append_of_pos hw, Text.dropWhile_eq_self (hp rest hrest)]

theorem beginsWith (h : (keyword word : Pattern γ).Then p text) (hk : isKeyword word) :
    BeginsWith [word] text :=
  have ⟨_, w, rest, ht, hm, _⟩ := h
  ⟨word, List.mem_singleton.mpr rfl, w, rest, (keyword_matches_iff hk).mp hm, ht⟩

end Then

namespace Unambiguous

theorem mono (h : a.Unambiguous q) (hpq : ∀ text, p text → q text) : a.Unambiguous p :=
  fun s => (h s).imp fun hn ⟨ht, hu⟩ => hn ⟨hpq _ ht, hpq _ hu⟩

theorem length_le (h : a.Unambiguous fun _ => True) (s : Progress γ) : (a.ways s).length ≤ 1 := by
  match hw : a.ways s with
  | []          => exact Nat.zero_le _
  | [_]         => exact Nat.le_refl _
  | t :: u :: _ =>
    have hp := h s
    rw [hw] at hp
    exact absurd ⟨trivial, trivial⟩ (List.rel_of_pairwise_cons hp List.mem_cons_self)

theorem empty : (Pattern.empty : Pattern γ).Unambiguous p :=
  fun _ => List.pairwise_singleton _ _

theorem wordEdge : (Pattern.wordEdge : Pattern γ).Unambiguous p := by
  intro s
  rw [ways]
  split
  case isTrue  => exact List.pairwise_singleton _ _
  case isFalse => exact .nil

theorem char : (Pattern.char r : Pattern γ).Unambiguous p := by
  intro s
  rw [ways]
  split
  case h_1 => exact .nil
  case h_2 =>
    split
    case isTrue  => exact List.pairwise_singleton _ _
    case isFalse => exact .nil

theorem run (hp : ∀ text, p text → ∀ c ∈ text.head?, ¬ r c) :
    (Pattern.run r : Pattern γ).Unambiguous p := by
  intro s
  rw [ways, List.pairwise_map, Cursor.runs_eq, List.pairwise_reverse]
  refine (Cursor.pairwise_stops ..).imp fun hnear hboth => ?_
  obtain ⟨c, hc, hr⟩ := hnear
  exact hp _ hboth.right c hc hr

theorem seq (ha : a.Unambiguous (b.Then p)) (hb : b.Unambiguous p) : (a ++ b).Unambiguous p := by
  intro s
  refine List.pairwise_flatMap.mpr ⟨fun t _ => hb t, ?_⟩
  exact (ha s).imp fun hn x hx y hy ⟨hpx, hpy⟩ =>
    hn ⟨then_of_mem_ways hx hpx, then_of_mem_ways hy hpy⟩

theorem alt (ha : a.Unambiguous p) (hb : b.Unambiguous p)
    (h : ∀ text, a.Then p text → ¬ b.Then p text) : (a <|> b).Unambiguous p := by
  intro s
  refine List.pairwise_append.mpr ⟨ha s, hb s, ?_⟩
  exact fun x hx y hy ⟨hpx, hpy⟩ => h s.rest (then_of_mem_ways hx hpx) (then_of_mem_ways hy hpy)

theorem opt (ha : a.Unambiguous p) (h : ∀ text, p text → ¬ a.Then p text) :
    (Pattern.opt a).Unambiguous p :=
  .alt ha .empty fun text hthen he => h text he.of_empty hthen

theorem group (ha : a.Unambiguous p) (label : γ) : (Pattern.group label a).Unambiguous p :=
  fun s => List.pairwise_map.mpr (ha s)

-- A repetition must end where what follows it can begin.
theorem repeated (ha : a.Unambiguous ((Pattern.repeated a).Then p))
    (h : ∀ text, p text → ¬ a.Then ((Pattern.repeated a).Then p) text) :
    (Pattern.repeated a).Unambiguous p := by
  have key (n : Nat) (s : Progress γ) :
      (rounds a.ways n s).Pairwise fun t u => ¬ (p t.rest ∧ p u.rest) := by
    induction n generalizing s
    case zero      => exact List.pairwise_singleton _ _
    case succ n hi =>
      have follows {t x : Progress γ} (hx : x ∈ if s.pos < t.pos then rounds a.ways n t else [])
          (hp : p x.rest) : (Pattern.repeated a).Then p t.rest := by
        split at hx
        case isTrue  => exact then_of_mem_rounds hx hp
        case isFalse => cases hx
      refine List.pairwise_append.mpr ⟨List.pairwise_flatMap.mpr ⟨fun t _ => ?round, ?rounds⟩,
        List.pairwise_singleton _ _, ?leave⟩
      case round =>
        split
        case isTrue  => exact hi t
        case isFalse => exact .nil
      case rounds =>
        exact (ha s).imp fun hn x hx y hy ⟨hpx, hpy⟩ => hn ⟨follows hx hpx, follows hy hpy⟩
      case leave =>
        intro x hx y hy ⟨hpx, hpy⟩
        obtain ⟨t, ht, hx⟩ := List.mem_flatMap.mp hx
        obtain rfl := List.mem_singleton.mp hy
        exact h y.rest hpy (then_of_mem_ways ht (follows hx hpx))
  exact fun s => key s.rest.length s

theorem many (hp : ∀ text, p text → ∀ c ∈ text.head?, ¬ r c) :
    (Pattern.many r : Pattern γ).Unambiguous p :=
  .seq .char (.run hp)

theorem keyword : (Pattern.keyword word : Pattern γ).Unambiguous p := by
  unfold Pattern.keyword
  induction word.toList generalizing p
  case nil          => exact .empty
  case cons l ls hi => exact .seq .char hi

theorem gap_keyword (hk : [word].all fun word => isKeyword word && word != "") :
    (Pattern.gap : Pattern γ).Unambiguous ((Pattern.keyword word : Pattern γ).Then p) :=
  .many fun _ h => (h.beginsWith (by simp at hk; exact hk.left)).not_blank hk

end Unambiguous

end Pattern
end SchemaGraph
