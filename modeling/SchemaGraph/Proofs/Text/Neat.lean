import Mathlib.Data.List.Chain
import SchemaGraph.Proofs.Text.Blank

namespace SchemaGraph.Text

def Undashed (w : List Char) : Prop :=
  w.IsChain fun c d => c ≠ '-' ∨ d ≠ '-'

instance (w : List Char) : Decidable (Undashed w) :=
  inferInstanceAs (Decidable (List.IsChain _ _))

-- A character without blanks that can stand next to any other one without a comment coming up.
def isFirm (c : Char) : Bool :=
  !isBlank c && c != '-'

structure Solid (w : List Char) : Prop where
  ne       : w ≠ []
  nonblank : ∀ c ∈ w, isBlank c = false
  undashed : Undashed w
  head     : ∀ c ∈ w.head?, isFirm c
  last     : ∀ c ∈ w.getLast?, isFirm c

inductive Neat : List Char → Prop
  | word {w} (h : Solid w) : Neat w
  | space {u v} (hu : Neat u) (hv : Neat v) : Neat (u ++ ' ' :: v)

variable {u v w : List Char}

theorem Undashed.append (hu : Undashed u) (hv : Undashed v) (hl : ∀ c ∈ u.getLast?, isFirm c) :
    Undashed (u ++ v) := by
  refine List.isChain_append.mpr ⟨hu, hv, fun c hc _ _ => .inl ?_⟩
  have := hl c hc
  simp [isFirm] at this
  exact this.right

theorem Undashed.of_not_mem (h : '-' ∉ w) : Undashed w := by
  induction w
  case nil          => exact .nil
  case cons c w hi =>
    have ⟨hc, hw⟩ := not_or.mp (List.mem_cons.not.mp h)
    exact List.isChain_cons.mpr ⟨fun _ _ => .inl (Ne.symm hc), hi hw⟩

theorem isChain_iff_not_isInfix (d : Char) :
    w.IsChain (fun a b => a ≠ d ∨ b ≠ d) ↔ ¬ [d, d] <:+: w := by
  induction w
  case nil         => exact ⟨fun _ h => by simpa using h.length_le, fun _ => .nil⟩
  case cons c w hi =>
    have hp : [d, d] <+: c :: w ↔ c = d ∧ w.head? = some d := by
      cases w <;> simp [List.cons_prefix_cons, eq_comm]
    rw [List.infix_cons_iff, not_or, ←hi, hp, List.isChain_cons]
    refine and_congr_left' ⟨fun h ⟨hc, hd⟩ => ?_, fun h b hb => ?_⟩
    case refine_1 => simpa [hc] using h d hd
    case refine_2 =>
      by_contra hn
      obtain ⟨rfl, rfl⟩ : c = d ∧ b = d := by simpa using hn
      exact h ⟨rfl, hb⟩

theorem undashed_iff : Undashed w ↔ ¬ ['-', '-'] <:+: w :=
  isChain_iff_not_isInfix '-'

theorem intercalate_cons_ne_nil {α : Type} (sep : List α) {x : List α} (xs : List (List α))
    (hx : x ≠ []) :
    sep.intercalate (x :: xs) ≠ [] := by
  cases xs <;> simp [hx]

theorem intercalate_append {α : Type} {sep : List α} {xs ys : List (List α)} (hx : xs ≠ [])
    (hy : ys ≠ []) :
    sep.intercalate (xs ++ ys) = sep.intercalate xs ++ sep ++ sep.intercalate ys := by
  induction xs
  case nil          => exact absurd rfl hx
  case cons x xs hi =>
    cases xs
    case nil       => simp [List.intercalate_cons_of_ne_nil hy]
    case cons z zs =>
      rw [List.cons_append, List.cons_append, List.intercalate_cons_cons, ←List.cons_append,
        hi (List.cons_ne_nil z zs), List.intercalate_cons_cons]
      simp only [List.append_assoc]

theorem intercalate_append_head {α : Type} (sep u v : List α) (xs : List (List α)) :
    sep.intercalate ((u ++ v) :: xs) = u ++ sep.intercalate (v :: xs) := by
  cases xs
  case nil  => simp
  case cons => simp [List.intercalate_cons_cons, List.append_assoc]

theorem intercalate_append_cons {α : Type} (sep u v w : List α) (xs ys : List (List α)) :
    sep.intercalate (xs ++ (u ++ (w ++ v)) :: ys) =
      sep.intercalate (xs ++ [u]) ++ (w ++ sep.intercalate (v :: ys)) := by
  have h := (intercalate_append_head sep u (w ++ v) ys).trans
    (congrArg _ (intercalate_append_head sep w v ys))
  by_cases hx : xs = []
  case pos => rw [hx, List.nil_append, List.nil_append, List.intercalate_singleton, h]
  case neg =>
    rw [intercalate_append hx (List.cons_ne_nil _ _), intercalate_append hx (List.cons_ne_nil _ _),
      h, List.intercalate_singleton, List.append_assoc _ u]

namespace Solid

theorem append (hu : Solid u) (hv : Solid v) : Solid (u ++ v) where
  ne := by simp [hu.ne]
  nonblank := by simpa [or_imp, forall_and] using ⟨hu.nonblank, hv.nonblank⟩
  undashed := hu.undashed.append hv.undashed hu.last
  head := by
    rw [List.head?_append_of_ne_nil _ hu.ne]
    exact hu.head
  last := by
    rw [List.getLast?_append_of_ne_nil _ hv.ne]
    exact hv.last

theorem of_firm (hw : w ≠ []) (h : ∀ c ∈ w, isFirm c) : Solid w where
  ne := hw
  nonblank c hc := by
    have := h c hc
    simp [isFirm] at this
    exact this.left
  undashed := .of_not_mem fun hm => absurd (h _ hm) (by decide)
  head c hc := h c (List.mem_of_mem_head? hc)
  last c hc := h c (List.mem_of_mem_getLast? hc)

end Solid

namespace Neat

theorem append (hu : Neat u) (hv : Neat v) : Neat (u ++ v) := by
  induction hu
  case space u₁ u₂ hu₁ _ _ hi => exact List.append_assoc .. ▸ .space hu₁ hi
  case word hu =>
    induction hv
    case word hv              => exact .word (hu.append hv)
    case space v₁ v₂ _ hv₂ hi _ => exact List.append_assoc .. ▸ .space hi hv₂

theorem spaced (hu : Neat u) (hv : Neat v) : Neat (u ++ [' '] ++ v) :=
  List.append_assoc .. ▸ .space hu hv

theorem ne (h : Neat w) : w ≠ [] := by
  cases h
  case word h => exact h.ne
  case space  => simp

theorem head (h : Neat w) : ∀ c ∈ w.head?, isFirm c := by
  induction h
  case word h          => exact h.head
  case space hu _ hi _ => rwa [List.head?_append_of_ne_nil _ hu.ne]

theorem not_blank (h : Neat w) : w.all isBlank = false := by
  obtain ⟨c, cs, hc⟩ := List.exists_cons_of_ne_nil h.ne
  have := h.head c (by simp [hc])
  simp [isFirm] at this
  simp [hc, this]

theorem last (h : Neat w) : ∀ c ∈ w.getLast?, isFirm c := by
  induction h
  case word h          => exact h.last
  case space u v _ hv _ hi =>
    rwa [List.getLast?_append_of_ne_nil _ (by simp), List.getLast?_cons_of_ne_nil hv.ne]

theorem undashed (h : Neat w) : Undashed w := by
  induction h
  case word h => exact h.undashed
  case space u v hu hv hu' hv' =>
    exact hu'.append (List.isChain_cons.mpr ⟨fun _ _ => .inl (by decide), hv'⟩) hu.last

theorem eq_space (h : Neat w) : ∀ c ∈ w, isBlank c → c = ' ' := by
  induction h
  case word h =>
    intro c hc hb
    simp [h.nonblank c hc] at hb
  case space u v _ _ hu hv =>
    intro c hc hb
    simp at hc
    rcases hc with hc | hc | hc
    · exact hu c hc hb
    · exact hc
    · exact hv c hc hb

theorem words_ne (h : Neat w) : words w ≠ [] := by
  induction h
  case word h => simp [words_eq_singleton h.ne (by simpa using h.nonblank)]
  case space u v _ _ hu _ => simp [words_append_cons (show isBlank ' ' by decide), hu]

theorem collapse_eq (h : Neat w) : collapse w = w := by
  induction h
  case word h => simp [collapse, words_eq_singleton h.ne (by simpa using h.nonblank)]
  case space u v hu hv hu' hv' =>
    rw [collapse] at hu' hv' ⊢
    rw [words_append_cons (by decide), intercalate_append hu.words_ne hv.words_ne, hu', hv',
      List.append_assoc, List.singleton_append]

end Neat
end SchemaGraph.Text
