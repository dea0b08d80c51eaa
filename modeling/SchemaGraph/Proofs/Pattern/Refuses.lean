import Mathlib.Data.List.TakeWhile
import SchemaGraph.Proofs.Pattern.Takes

namespace SchemaGraph.Pattern

variable {γ : Type} {a b : Pattern γ} {before : Option Char} {text : List Char} {p : Char → Bool}

namespace Fails

theorem seq_left (h : a.Fails before text) : (a ++ b).Fails before text := by
  intro w rest ht ⟨u, v, hw, hu, _⟩
  exact h u (v ++ rest) (by rw [ht, hw, List.append_assoc]) hu

theorem seq_right (h : ∀ u v, text = u ++ v → a.Matches before u v → b.Fails (behind before u) v) :
    (a ++ b).Fails before text := by
  intro w rest ht ⟨u, v, hw, hu, hv⟩
  exact h u (v ++ rest) (by rw [ht, hw, List.append_assoc]) hu v rest rfl hv

theorem alt (ha : a.Fails before text) (hb : b.Fails before text) :
    (a <|> b).Fails before text := by
  intro w rest ht h
  cases h
  case inl h => exact ha w rest ht h
  case inr h => exact hb w rest ht h

theorem char (h : ∀ c ∈ text.head?, ¬ p c) : (Pattern.char p : Pattern γ).Fails before text := by
  intro w rest ht ⟨c, hw, hc⟩
  exact h c (by simp [ht, hw]) hc

theorem only {c : Char} (h : text.head? ≠ some c) :
    (Pattern.only c : Pattern γ).Fails before text :=
  .char fun d hd hc => h (by simp at hc; rwa [←hc])

theorem wordEdge_seq (h : b.Fails before text) : (wordEdge ++ b).Fails before text := by
  refine .seq_right fun u v ht hu => ?_
  have hn : u = [] := hu.left
  subst hn ht
  exact h

end Fails

-- In front of a text that begins with the given character, or that is empty, `stays` means that a
-- pattern cannot take any text, and `refuses` that it cannot match.
mutual

def stays : Pattern γ → Option Char → Bool
  | empty,      _    => true
  | char p,     next => next.all (!p ·)
  | run p,      next => next.all (!p ·)
  | seq a b,    next => refuses a next || stays a next && stays b next
  | alt a b,    next => stays a next && stays b next
  | repeated a, next => stays a next
  | group _ a,  next => stays a next
  | wordEdge,   _    => true
  | textEnd,    _    => true
  | notAhead _, _    => true

def refuses : Pattern γ → Option Char → Bool
  | char p,     next => next.all (!p ·)
  | seq a b,    next => refuses a next || stays a next && refuses b next
  | alt a b,    next => refuses a next && refuses b next
  | group _ a,  next => refuses a next
  | _,          _    => false

end

theorem Repeats.eq_nil {m : Option Char → List Char → List Char → Prop} {w rest : List Char}
    (h : Repeats m before w rest) (hm : ∀ before u v, w ++ rest = u ++ v → m before u v → u = []) :
    w = [] := by
  induction h
  case nil => rfl
  case cons before u v rest hu _ hi =>
    have hn : u = [] := hm before u (v ++ rest) (List.append_assoc ..) hu
    subst hn
    exact hi hm

theorem not_head?_of_all {w rest : List Char} {c : Char} (h : text.head?.all (!p ·))
    (ht : text = c :: w ++ rest) : ¬ p c := by
  simpa [ht] using h

theorem stays_and_refuses (a : Pattern γ) :
    (a.stays text.head? → ∀ before w rest, text = w ++ rest → a.Matches before w rest → w = []) ∧
      (a.refuses text.head? → ∀ before, a.Fails before text) := by
  induction a
  case empty => exact ⟨fun _ _ _ _ _ h => h, fun h => by cases h⟩
  case char p =>
    have key (h : text.head?.all (!p ·)) (before) :
        (Pattern.char p : Pattern γ).Fails before text :=
      fun w rest ht ⟨c, hw, hc⟩ => not_head?_of_all h (hw ▸ ht) hc
    exact ⟨fun h before w rest ht hm => absurd hm (key h before w rest ht), key⟩
  case run p =>
    refine ⟨fun h before w rest ht hm => ?_, fun h => by cases h⟩
    cases w
    case nil       => rfl
    case cons c cs => exact absurd (hm c List.mem_cons_self) (not_head?_of_all h ht)
  case seq a b ha hb =>
    have refused (h : a.refuses text.head?) (before) : (a ++ b).Fails before text :=
      (ha.right h before).seq_left
    constructor
    case left =>
      intro h before w rest ht hm
      have ⟨u, v, hw, hu, hv⟩ := hm
      cases Bool.or_eq_true _ _ ▸ h
      case inl h => exact absurd hm (refused h before w rest ht)
      case inr h =>
        have ⟨h₁, h₂⟩ := Bool.and_eq_true _ _ ▸ h
        have hn := ha.left h₁ before u (v ++ rest) (by rw [ht, hw, List.append_assoc]) hu
        subst hn
        rw [hw, hb.left h₂ before v rest (by rw [ht, hw, List.nil_append]) hv, List.nil_append]
    case right =>
      intro h before
      cases Bool.or_eq_true _ _ ▸ h
      case inl h => exact refused h before
      case inr h =>
        have ⟨h₁, h₂⟩ := Bool.and_eq_true _ _ ▸ h
        refine .seq_right fun u v ht hu => ?_
        have hn := ha.left h₁ before u v ht hu
        subst hn ht
        exact hb.right h₂ before
  case alt a b ha hb =>
    constructor
    case left =>
      intro h before w rest ht hm
      have ⟨h₁, h₂⟩ := Bool.and_eq_true _ _ ▸ h
      cases hm
      case inl hm => exact ha.left h₁ before w rest ht hm
      case inr hm => exact hb.left h₂ before w rest ht hm
    case right =>
      intro h before
      have ⟨h₁, h₂⟩ := Bool.and_eq_true _ _ ▸ h
      exact (ha.right h₁ before).alt (hb.right h₂ before)
  case repeated a ha =>
    exact ⟨fun h before w rest ht hm => hm.eq_nil fun before u v hu =>
      ha.left h before u v (ht ▸ hu),
      fun h => by cases h⟩
  case group label a ha => exact ha
  case wordEdge      => exact ⟨fun _ _ _ _ _ h => h.left, fun h => by cases h⟩
  case textEnd       => exact ⟨fun _ _ _ _ _ h => h.left, fun h => by cases h⟩
  case notAhead a ha => exact ⟨fun _ _ _ _ _ h => h.left, fun h => by cases h⟩

theorem fails_of_refuses (h : a.refuses text.head?) : a.Fails before text :=
  (stays_and_refuses a).right h before

-- After a run of characters that the rest refuses, only what follows the whole run counts.
theorem Fails.run_seq (hb : ∀ before, b.Fails before (text.dropWhile p))
    (hp : ∀ c, p c → b.refuses (some c)) : (Pattern.run p ++ b).Fails before text := by
  refine .seq_right fun u v ht hu => ?_
  cases v
  case nil =>
    rw [ht, List.append_nil, List.dropWhile_eq_nil_iff.mpr hu] at hb
    exact hb _
  case cons c cs =>
    by_cases hc : p c
    case pos => exact fails_of_refuses (hp c hc)
    case neg =>
      rw [ht, List.dropWhile_append_of_pos hu, List.dropWhile_cons_of_neg hc] at hb
      exact hb _

theorem Fails.many_seq (hb : ∀ before, b.Fails before (text.dropWhile p))
    (hp : ∀ c, p c → b.refuses (some c)) : (many p ++ b).Fails before text := by
  intro w rest ht ⟨u, v, hw, ⟨u₁, u₂, hu, ⟨c, hc, hpc⟩, hu₂⟩, hv⟩
  subst hu hc hw
  have hd : text.dropWhile p = (u₂ ++ v ++ rest).dropWhile p := by simp [ht, hpc]
  exact run_seq (hd ▸ hb) hp (u₂ ++ v) rest rfl ⟨u₂, v, rfl, hu₂, by simpa using hv⟩

end SchemaGraph.Pattern
