import SchemaGraph.Proofs.Pattern.Ways

namespace SchemaGraph

def behind (before : Option Char) : List Char → Option Char
  | []      => before
  | c :: cs => behind (some c) cs

@[simp]
theorem behind_nil (before : Option Char) : behind before [] = before :=
  rfl

@[simp]
theorem behind_cons (before : Option Char) (c : Char) (cs : List Char) :
    behind before (c :: cs) = behind (some c) cs :=
  rfl

@[simp]
theorem behind_append (before : Option Char) (u v : List Char) :
    behind before (u ++ v) = behind (behind before u) v := by
  induction u generalizing before
  case nil           => rfl
  case cons c cs hi => exact hi _

theorem behind_of_ne_nil {before : Option Char} {w : List Char} (h : w ≠ []) :
    behind before w = w.getLast? := by
  obtain ⟨l, c, rfl⟩ := (List.eq_nil_or_concat w).resolve_left h
  rw [List.concat_eq_append, behind_append, List.getLast?_concat]
  rfl

theorem behind_none (w : List Char) : behind none w = w.getLast? := by
  cases w
  case nil  => rfl
  case cons => exact behind_of_ne_nil (by simp)

namespace Cursor

structure Reaches (cur stop : Cursor) (w : List Char) : Prop where
  before_eq : stop.before = behind cur.before w
  rest_eq   : cur.rest = w ++ stop.rest
  pos_eq    : stop.pos = cur.pos + w.length

variable {cur mid stop : Cursor} {u v : List Char}

namespace Reaches

theorem refl (cur : Cursor) : cur.Reaches cur [] :=
  ⟨rfl, rfl, rfl⟩

theorem trans (hu : cur.Reaches mid u) (hv : mid.Reaches stop v) : cur.Reaches stop (u ++ v) where
  before_eq := by rw [hv.before_eq, hu.before_eq, behind_append]
  rest_eq := by rw [hu.rest_eq, hv.rest_eq, List.append_assoc]
  pos_eq := by rw [hv.pos_eq, hu.pos_eq, List.length_append, Nat.add_assoc]

theorem textTo_eq (h : cur.Reaches stop u) : cur.textTo stop = u := by
  rw [textTo, h.rest_eq, h.pos_eq, Nat.add_sub_cancel_left, List.take_left]

theorem eq_mk (h : cur.Reaches stop u) (hr : cur.rest = u ++ v) :
    stop = ⟨behind cur.before u, v, cur.pos + u.length⟩ := by
  have ⟨hb, hv, hp⟩ := h
  have hv := List.append_cancel_left (hv.symm.trans hr)
  rw [←hb, ←hv, ←hp]

end Reaches

variable {p : Char → Bool} {before : Option Char} {pos : Nat} {c d : Char} {cs w : List Char}

theorem reaches_nil_iff : cur.Reaches stop [] ↔ stop = cur where
  mp h := h.eq_mk rfl
  mpr h := h ▸ .refl stop

theorem reaches_cons_iff : Reaches ⟨before, c :: cs, pos⟩ stop (d :: w) ↔
    d = c ∧ Reaches ⟨some c, cs, pos + 1⟩ stop w where
  mp h := by
    have ⟨hb, hr, hp⟩ := h
    have ⟨hc, hr'⟩ := List.cons.inj hr
    subst hc
    exact ⟨rfl, hb, hr', by rw [hp, List.length_cons, Nat.add_assoc, Nat.add_comm 1]⟩
  mpr := by
    intro ⟨hd, h⟩
    subst hd
    have step : Reaches ⟨before, d :: cs, pos⟩ ⟨some d, cs, pos + 1⟩ [d] := ⟨rfl, rfl, rfl⟩
    exact step.trans h

def stops (p : Char → Bool) (before : Option Char) (pos : Nat) : List Char → List Cursor
  | []      => [⟨before, [], pos⟩]
  | c :: cs => ⟨before, c :: cs, pos⟩ :: if p c then stops p (some c) (pos + 1) cs else []

theorem runs_eq (p : Char → Bool) (cur : Cursor) :
    cur.runs p = (stops p cur.before cur.pos cur.rest).reverse := by
  have key (before pos cs nearer) :
      runs.go p before pos cs nearer = (stops p before pos cs).reverse ++ nearer := by
    induction cs generalizing before pos nearer
    case nil => rfl
    case cons c cs hi =>
      unfold runs.go stops
      by_cases hc : p c <;> simp [hc, hi]
  rw [runs, key, List.append_nil]

theorem mem_stops_iff : stop ∈ stops p before pos cs ↔
    ∃ w, (∀ c ∈ w, p c) ∧ Reaches ⟨before, cs, pos⟩ stop w := by
  induction cs generalizing before pos
  case nil =>
    rw [stops, List.mem_singleton, ←reaches_nil_iff]
    refine ⟨fun h => ⟨[], by simp, h⟩, fun ⟨w, _, h⟩ => ?_⟩
    exact (List.append_eq_nil_iff.mp h.rest_eq.symm).left ▸ h
  case cons c cs hi =>
    rw [stops, List.mem_cons, ←reaches_nil_iff]
    constructor
    case mp =>
      intro h
      cases h
      case inl h => exact ⟨[], by simp, h⟩
      case inr h =>
        split at h
        case isFalse  => simp at h
        case isTrue hc =>
          have ⟨w, hw, h⟩ := hi.mp h
          exact ⟨c :: w, by simpa [hc] using hw, reaches_cons_iff.mpr ⟨rfl, h⟩⟩
    case mpr =>
      intro ⟨w, hw, h⟩
      cases w
      case nil => exact .inl h
      case cons d w =>
        have ⟨hd, h⟩ := reaches_cons_iff.mp h
        have ⟨hc, hw⟩ := List.forall_mem_cons.mp hw
        rw [if_pos (hd ▸ hc)]
        exact .inr (hi.mpr ⟨w, hw, h⟩)

theorem mem_runs_iff : stop ∈ cur.runs p ↔ ∃ w, (∀ c ∈ w, p c) ∧ cur.Reaches stop w := by
  rw [runs_eq, List.mem_reverse, mem_stops_iff]

theorem getLast?_stops (h : ∀ c ∈ w, p c) (hc : ∀ c ∈ cs.head?, ¬ p c) :
    (stops p before pos (w ++ cs)).getLast? = some ⟨behind before w, cs, pos + w.length⟩ := by
  induction w generalizing before pos
  case nil =>
    cases cs
    case nil       => rfl
    case cons c cs => simp [stops, hc c (by simp)]
  case cons d w hi =>
    have ⟨hd, hw⟩ := List.forall_mem_cons.mp h
    rw [List.cons_append, stops, if_pos hd, List.getLast?_cons, hi hw]
    simp [Nat.add_assoc, Nat.add_comm 1]

theorem head?_runs (hr : cur.rest = w ++ cs) (h : ∀ c ∈ w, p c) (hc : ∀ c ∈ cs.head?, ¬ p c) :
    (cur.runs p).head? = some ⟨behind cur.before w, cs, cur.pos + w.length⟩ := by
  rw [runs_eq, List.head?_reverse, hr, getLast?_stops h hc]

end Cursor

namespace Pattern

variable {γ : Type}

inductive Repeats (m : Option Char → List Char → List Char → Prop) :
    Option Char → List Char → List Char → Prop
  | nil {before rest} : Repeats m before [] rest
  | cons {before u v rest} : m before u (v ++ rest) → Repeats m (behind before u) v rest →
      Repeats m before (u ++ v) rest

-- What a pattern means: whether it can match `w` after `before` and in front of `rest`.
def Matches : Pattern γ → (before : Option Char) → (w rest : List Char) → Prop
  | empty,     _,      w, _    => w = []
  | char p,    _,      w, _    => ∃ c, w = [c] ∧ p c
  | run p,     _,      w, _    => ∀ c ∈ w, p c
  | seq a b,   before, w, rest =>
    ∃ u v, w = u ++ v ∧ a.Matches before u (v ++ rest) ∧ b.Matches (behind before u) v rest
  | alt a b,   before, w, rest => a.Matches before w rest ∨ b.Matches before w rest
  | repeated a, before, w, rest => Repeats a.Matches before w rest
  | group _ a, before, w, rest => a.Matches before w rest
  | wordEdge,  before, w, rest => w = [] ∧ Cursor.atWordEdge ⟨before, rest, 0⟩
  | textEnd,   before, w, rest => w = [] ∧ Cursor.atTextEnd ⟨before, rest, 0⟩
  | notAhead a, before, w, rest =>
    w = [] ∧ ∀ u v, rest = u ++ v → ¬ a.Matches before u v

structure Exact (a : Pattern γ) : Prop where
  sound    : ∀ {s t}, t ∈ a.ways s → ∃ w, s.Reaches t.toCursor w ∧ a.Matches s.before w t.rest
  complete : ∀ {s : Progress γ} {w rest}, s.rest = w ++ rest → a.Matches s.before w rest →
    ∃ t ∈ a.ways s, s.Reaches t.toCursor w

variable {a b : Pattern γ} {p : Char → Bool} {s t : Progress γ} {before : Option Char}
variable {w rest : List Char}

namespace Exact

theorem char (p : Char → Bool) : (Pattern.char p : Pattern γ).Exact where
  sound {s t} h := by
    obtain ⟨⟨before, rest, pos⟩, groups⟩ := s
    cases rest
    case nil => cases h
    case cons c cs =>
      by_cases hc : p c <;> simp [ways, hc] at h
      case pos => exact ⟨[c], h ▸ ⟨rfl, rfl, rfl⟩, c, rfl, hc⟩
  complete {s w rest} hr h := by
    obtain ⟨c, hw, hc⟩ := h
    obtain ⟨⟨before, rest, pos⟩, groups⟩ := s
    cases hr
    subst hw
    exact ⟨⟨⟨some c, _, pos + 1⟩, groups⟩, by simp [ways, hc, Progress.moveTo], rfl, rfl, rfl⟩

theorem run (p : Char → Bool) : (Pattern.run p : Pattern γ).Exact where
  sound h := by
    have ⟨cur, hm, ht⟩ := List.mem_map.mp h
    have ⟨w, hw, hr⟩ := Cursor.mem_runs_iff.mp hm
    exact ⟨w, ht ▸ hr, hw⟩
  complete {s w rest} hr h := by
    have hs : s.Reaches ⟨behind s.before w, rest, s.pos + w.length⟩ w := ⟨rfl, hr, rfl⟩
    exact ⟨_, List.mem_map_of_mem (Cursor.mem_runs_iff.mpr ⟨w, h, hs⟩), hs⟩

theorem seq (ha : a.Exact) (hb : b.Exact) : (Pattern.seq a b).Exact where
  sound h := by
    have ⟨t, ht, h⟩ := List.mem_flatMap.mp h
    have ⟨u, hu, hau⟩ := ha.sound ht
    have ⟨v, hv, hbv⟩ := hb.sound h
    exact ⟨u ++ v, hu.trans hv, u, v, rfl, hv.rest_eq ▸ hau, hu.before_eq ▸ hbv⟩
  complete {s w rest} hr h := by
    have ⟨u, v, hw, hau, hbv⟩ := h
    have hr : s.rest = u ++ (v ++ rest) := by rw [hr, hw, List.append_assoc]
    have ⟨t, ht, hu⟩ := ha.complete hr hau
    have hv : t.rest = v ++ rest := List.append_cancel_left (hu.rest_eq.symm.trans hr)
    have ⟨t', ht', hv⟩ := hb.complete hv (hu.before_eq ▸ hbv)
    exact ⟨t', List.mem_flatMap.mpr ⟨t, ht, ht'⟩, hw ▸ hu.trans hv⟩

theorem alt (ha : a.Exact) (hb : b.Exact) : (Pattern.alt a b).Exact where
  sound h := by
    cases List.mem_append.mp h
    case inl h =>
      have ⟨w, hw, hm⟩ := ha.sound h
      exact ⟨w, hw, .inl hm⟩
    case inr h =>
      have ⟨w, hw, hm⟩ := hb.sound h
      exact ⟨w, hw, .inr hm⟩
  complete hr h := by
    cases h
    case inl h =>
      have ⟨t, ht, hw⟩ := ha.complete hr h
      exact ⟨t, List.mem_append_left _ ht, hw⟩
    case inr h =>
      have ⟨t, ht, hw⟩ := hb.complete hr h
      exact ⟨t, List.mem_append_right _ ht, hw⟩

theorem rounds_sound (ha : a.Exact) {n : Nat} (h : t ∈ rounds a.ways n s) :
    ∃ w, s.Reaches t.toCursor w ∧ Repeats a.Matches s.before w t.rest := by
  have here {s t : Progress γ} (h : t ∈ [s]) :
      ∃ w, s.Reaches t.toCursor w ∧ Repeats a.Matches s.before w t.rest :=
    List.mem_singleton.mp h ▸ ⟨[], .refl _, .nil⟩
  induction n generalizing s
  case zero => exact here h
  case succ n hi =>
    cases List.mem_append.mp h
    case inr h => exact here h
    case inl h =>
      have ⟨s', hs', h⟩ := List.mem_flatMap.mp h
      split at h
      case isFalse => cases h
      case isTrue  =>
        have ⟨u, hu, hau⟩ := ha.sound hs'
        have ⟨v, hv, hrv⟩ := hi h
        exact ⟨u ++ v, hu.trans hv, .cons (hv.rest_eq ▸ hau) (hu.before_eq ▸ hrv)⟩

-- A round that matches nothing is left out, so that each one takes a character.
theorem rounds_complete (ha : a.Exact) (h : Repeats a.Matches before w rest) {n : Nat}
    (hb : s.before = before) (hr : s.rest = w ++ rest) (hn : w.length ≤ n) :
    ∃ t ∈ rounds a.ways n s, s.Reaches t.toCursor w := by
  induction h generalizing n s
  case nil => exact ⟨s, by cases n <;> simp [rounds], .refl _⟩
  case cons before u v rest hau _ hi =>
    cases u
    case nil       => exact hi hb hr hn
    case cons c cs =>
      cases n
      case zero   => simp at hn
      case succ n =>
        rw [List.append_assoc] at hr
        obtain ⟨t, ht, hu⟩ := ha.complete hr (hb ▸ hau)
        have hp : s.pos < t.pos := by simp [hu.pos_eq]
        have hv : t.rest = v ++ rest := List.append_cancel_left (hu.rest_eq.symm.trans hr)
        have hl : v.length ≤ n := by simp at hn; omega
        obtain ⟨t', ht', hv⟩ := hi (hb ▸ hu.before_eq) hv hl
        refine ⟨t', List.mem_append_left _ <| List.mem_flatMap.mpr ⟨t, ht, ?_⟩, hu.trans hv⟩
        rwa [if_pos hp]

theorem repeated (ha : a.Exact) : (Pattern.repeated a).Exact where
  sound h := ha.rounds_sound h
  complete hr h := ha.rounds_complete h rfl hr (by simp [hr])

theorem group (ha : a.Exact) (label : γ) : (Pattern.group label a).Exact where
  sound h := by
    have ⟨t, ht, he⟩ := List.mem_map.mp h
    have ⟨w, hw, hm⟩ := ha.sound ht
    exact ⟨w, he ▸ hw, he ▸ hm⟩
  complete hr h := by
    have ⟨t, ht, hw⟩ := ha.complete hr h
    exact ⟨_, List.mem_map_of_mem ht, hw⟩

theorem of_test {test : Cursor → Prop}
    (hw : ∀ s, (test s.toCursor ∧ a.ways s = [s]) ∨ (¬ test s.toCursor ∧ a.ways s = []))
    (hm : ∀ (s : Progress γ) w rest, s.rest = w ++ rest →
      (a.Matches s.before w rest ↔ w = [] ∧ test s.toCursor)) : a.Exact where
  sound {s t} h := by
    cases hw s
    case inr hs => simp [hs.right] at h
    case inl hs =>
      rw [hs.right, List.mem_singleton] at h
      exact ⟨[], h ▸ .refl _, h ▸ (hm t [] t.rest rfl).mpr ⟨rfl, h ▸ hs.left⟩⟩
  complete {s w rest} hr h := by
    have ⟨he, ht⟩ := (hm s w rest hr).mp h
    cases hw s
    case inl hs => exact ⟨s, by simp [hs.right], he ▸ .refl _⟩
    case inr hs => exact absurd ht hs.left

theorem empty : (Pattern.empty : Pattern γ).Exact :=
  @of_test _ _ (fun _ => True) (fun _ => .inl ⟨trivial, rfl⟩) fun _ _ _ _ => by simp [Matches]

theorem wordEdge : (Pattern.wordEdge : Pattern γ).Exact := by
  refine @of_test _ _ (·.atWordEdge) (fun s => ?_) (fun s w rest hr => ?_)
  · by_cases h : s.atWordEdge <;> simp [ways, h]
  · refine and_congr_right fun hw => ?_
    subst hw
    rw [←List.nil_append rest, ←hr]
    exact Iff.rfl

theorem textEnd : (Pattern.textEnd : Pattern γ).Exact := by
  refine @of_test _ _ (·.atTextEnd) (fun s => ?_) (fun s w rest hr => ?_)
  · by_cases h : s.atTextEnd <;> simp [ways, h]
  · refine and_congr_right fun hw => ?_
    subst hw
    rw [←List.nil_append rest, ←hr]
    exact Iff.rfl

theorem notAhead (ha : a.Exact) : (Pattern.notAhead a).Exact := by
  refine @of_test _ _ (fun cur => ∀ u v, cur.rest = u ++ v → ¬ a.Matches cur.before u v)
    (fun s => ?_) (fun s w rest hr => ?_)
  · by_cases he : a.ways s = []
    case pos =>
      refine .inl ⟨fun u v hr hm => ?_, by simp [ways, he]⟩
      obtain ⟨t, ht, _⟩ := ha.complete hr hm
      simp [he] at ht
    case neg =>
      obtain ⟨t, ht⟩ := List.exists_mem_of_ne_nil _ he
      obtain ⟨u, hu, hm⟩ := ha.sound ht
      exact .inr ⟨fun h => h u t.rest hu.rest_eq hm, by simp [ways, he]⟩
  · refine and_congr_right fun hw => ?_
    subst hw
    rw [hr, List.nil_append]

end Exact

-- The matcher finds exactly what a pattern means.
theorem exact : (a : Pattern γ) → a.Exact
  | .empty         => .empty
  | .char p        => .char p
  | .run p         => .run p
  | .seq a b       => a.exact.seq b.exact
  | .alt a b       => a.exact.alt b.exact
  | .repeated a    => a.exact.repeated
  | .group label a => a.exact.group label
  | .wordEdge      => .wordEdge
  | .textEnd       => .textEnd
  | .notAhead a    => a.exact.notAhead

namespace Matches

variable {u v : List Char}

theorem seq (ha : a.Matches before u (v ++ rest)) (hb : b.Matches (behind before u) v rest) :
    (a ++ b).Matches before (u ++ v) rest :=
  ⟨u, v, rfl, ha, hb⟩

-- Two patterns of which one takes nothing.

theorem seq_nil (ha : a.Matches before w rest) (hb : b.Matches (behind before w) [] rest) :
    (a ++ b).Matches before w rest :=
  ⟨w, [], (List.append_nil w).symm, ha, hb⟩

theorem nil_seq (ha : a.Matches before [] (w ++ rest)) (hb : b.Matches before w rest) :
    (a ++ b).Matches before w rest :=
  ⟨[], w, rfl, ha, hb⟩

end Matches

def Fails (a : Pattern γ) (before : Option Char) (text : List Char) : Prop :=
  ∀ w rest, text = w ++ rest → ¬ a.Matches before w rest

theorem fails_iff (s : Progress γ) : a.Fails s.before s.rest ↔ a.ways s = [] := by
  constructor
  case mp =>
    intro h
    apply List.eq_nil_iff_forall_not_mem.mpr
    intro t ht
    have ⟨w, hw, hm⟩ := a.exact.sound ht
    exact h w t.rest hw.rest_eq hm
  case mpr =>
    intro h w rest hr hm
    have ⟨t, ht, _⟩ := a.exact.complete hr hm
    simp [h] at ht

theorem Fails.match?_eq_none {cur : Cursor} (h : a.Fails cur.before cur.rest) :
    a.match? cur = none := by
  rw [match?_eq_head?, (fails_iff (.ofCursor cur)).mp h, List.head?_nil]

end Pattern
end SchemaGraph
