import Mathlib.Data.List.Induction

-- Texts in which parentheses never close below the depth they started at.
namespace SchemaGraph.Scan

def NeverBelow (cs : List Char) : Prop :=
  ∀ u, u <+: cs → u.count ')' ≤ u.count '('

-- As many parentheses open as close, and none closes before one is open.
structure Balanced (cs : List Char) : Prop where
  count_eq   : cs.count '(' = cs.count ')'
  neverBelow : NeverBelow cs

variable {u v cs : List Char} {c d : Char}

namespace NeverBelow

theorem nil : NeverBelow [] := by
  simp [NeverBelow]

theorem count_le (h : NeverBelow cs) : cs.count ')' ≤ cs.count '(' :=
  h cs (List.prefix_refl cs)

theorem of_prefix (h : NeverBelow cs) (hu : u <+: cs) : NeverBelow u :=
  fun w hw => h w (hw.trans hu)

theorem left (h : NeverBelow (u ++ v)) : NeverBelow u :=
  h.of_prefix (List.prefix_append u v)

theorem append (hu : NeverBelow u) (hv : NeverBelow v) : NeverBelow (u ++ v) := by
  intro w ⟨x, hx⟩
  cases List.append_eq_append_iff.mp hx
  case inl h =>
    have ⟨y, hy, _⟩ := h
    exact hu w ⟨y, hy.symm⟩
  case inr h =>
    have ⟨y, hy, hx⟩ := h
    have := hu.count_le
    have := hv y ⟨x, hx.symm⟩
    simp only [hy, List.count_append]
    omega

theorem concat (h : NeverBelow cs) (hc : c = ')' → cs.count ')' < cs.count '(') :
    NeverBelow (cs ++ [c]) := by
  intro u hu
  cases List.prefix_concat_iff.mp hu
  case inr hu => exact h u hu
  case inl he =>
    have := h.count_le
    by_cases hd : c = ')'
    case pos =>
      have := hc hd
      simp [he, hd]
      omega
    case neg =>
      simp [he, hd]
      omega

theorem of_not_mem (h : ')' ∉ cs) : NeverBelow cs := by
  intro u hu
  rw [List.count_eq_zero_of_not_mem fun hm => h (hu.subset hm)]
  exact Nat.zero_le _

end NeverBelow

namespace Balanced

theorem nil : Balanced [] :=
  ⟨rfl, .nil⟩

theorem append (hu : Balanced u) (hv : Balanced v) : Balanced (u ++ v) where
  count_eq := by rw [List.count_append, List.count_append, hu.count_eq, hv.count_eq]
  neverBelow := hu.neverBelow.append hv.neverBelow

theorem of_not_mem (ho : '(' ∉ cs) (hc : ')' ∉ cs) : Balanced cs where
  count_eq := by rw [List.count_eq_zero_of_not_mem ho, List.count_eq_zero_of_not_mem hc]
  neverBelow := .of_not_mem hc

theorem wrap (h : Balanced cs) : Balanced ('(' :: cs ++ [')']) where
  count_eq := by simp [h.count_eq]
  neverBelow := by
    intro u hu
    cases u
    case nil => simp
    case cons c u =>
      have ⟨hc, hp⟩ := List.cons_prefix_cons.mp hu
      subst hc
      cases List.prefix_concat_iff.mp hp
      case inl he => simp [he, h.count_eq]
      case inr hu =>
        have := h.neverBelow u hu
        simp
        omega

theorem append_close_inj {u v u' v' : List Char} (hu : Balanced u) (hu' : Balanced u')
    (h : u ++ ')' :: v = u' ++ ')' :: v') : u = u' := by
  have key {w x : List Char} (hw : Balanced w) (hx : Balanced x) : ¬ (w ++ [')']) <+: x := by
    intro hp
    have := hx.neverBelow _ hp
    have := hw.count_eq
    simp at *
    omega
  cases List.append_eq_append_iff.mp h
  case inl h =>
    have ⟨w, hw, he⟩ := h
    cases w
    case nil => simpa using hw.symm
    case cons c w =>
      have hc : c = ')' := (List.cons.inj he).left.symm
      exact absurd ⟨w, by simp [hw, hc]⟩ (key hu hu')
  case inr h =>
    have ⟨w, hw, he⟩ := h
    cases w
    case nil => simpa using hw
    case cons c w =>
      have hc : c = ')' := (List.cons.inj he).left.symm
      exact absurd ⟨w, by simp [hw, hc]⟩ (key hu' hu)

end Balanced

def ClosesAtMost (n : Nat) (cs : List Char) : Prop :=
  ∀ u, u <+: cs → u.count ')' ≤ u.count '(' + n

namespace ClosesAtMost

variable {n : Nat}

theorem of_neverBelow (h : NeverBelow cs) (n : Nat) : ClosesAtMost n cs :=
  fun u hu => Nat.le_add_right_of_le (h u hu)

theorem after_open (h : ClosesAtMost n ('(' :: cs)) : ClosesAtMost (n + 1) cs := by
  intro u hu
  have := h ('(' :: u) (List.cons_prefix_cons.mpr ⟨rfl, hu⟩)
  simp at this
  omega

theorem after_close (h : ClosesAtMost n (')' :: cs)) : ∃ k, n = k + 1 ∧ ClosesAtMost k cs := by
  have h₁ := h [')'] (List.cons_prefix_cons.mpr ⟨rfl, List.nil_prefix⟩)
  simp at h₁
  refine ⟨n - 1, by omega, fun u hu => ?_⟩
  have h₂ := h (')' :: u) (List.cons_prefix_cons.mpr ⟨rfl, hu⟩)
  simp at h₂
  omega

theorem after_other (h : ClosesAtMost n (c :: cs)) (ho : c ≠ '(') (hc : c ≠ ')') :
    ClosesAtMost n cs := by
  intro u hu
  have := h (c :: u) (List.cons_prefix_cons.mpr ⟨rfl, hu⟩)
  simpa [ho, hc] using this

end ClosesAtMost

theorem exists_close_of_not_neverBelow (h : ¬ NeverBelow cs) :
    ∃ u v, cs = u ++ ')' :: v ∧ Balanced u := by
  induction cs using List.reverseRecOn
  case nil => exact absurd .nil h
  case append_singleton cs c hi =>
    by_cases hcs : NeverBelow cs
    case neg =>
      have ⟨u, v, he, hu⟩ := hi hcs
      exact ⟨u, v ++ [c], by simp [he], hu⟩
    case pos =>
      have hc : c = ')' ∧ cs.count '(' ≤ cs.count ')' := by
        by_contra hn
        exact h <| hcs.concat fun hc => Nat.lt_of_not_le fun hle => hn ⟨hc, hle⟩
      exact ⟨cs, [], by simp [hc.left], Nat.le_antisymm hc.right hcs.count_le, hcs⟩

end SchemaGraph.Scan
