import SchemaGraph.Proofs.Source

-- That it does not matter how lines end.
namespace SchemaGraph.Source

variable {l : List Char} {ls : List (List Char)}

theorem unbroken_of_mem_lines (text : List Char) : ∀ l ∈ lines text, Unbroken l := by
  induction text
  case nil => simp [lines, Unbroken]
  case cons c cs hi =>
    have hempty : ∀ l ∈ [] :: lines cs, Unbroken l :=
      List.forall_mem_cons.mpr ⟨by simp [Unbroken], hi⟩
    by_cases hn : c = '\n'
    case pos => exact hn ▸ hempty
    by_cases hr : c = '\r'
    case pos =>
      rw [hr, lines_cons_return]
      split
      case isTrue  => exact hi
      case isFalse => exact hempty
    case neg =>
      obtain ⟨l, ls, h⟩ := List.exists_cons_of_ne_nil (lines_ne_nil cs)
      rw [h] at hi
      obtain ⟨hl, hls⟩ := List.forall_mem_cons.mp hi
      rw [lines_cons hn hr h]
      exact List.forall_mem_cons.mpr ⟨List.forall_mem_cons.mpr ⟨⟨hn, hr⟩, hl⟩, hls⟩

theorem lines_eq_singleton (h : Unbroken l) : lines l = [l] := by
  induction l
  case nil         => rfl
  case cons c l hi =>
    have ⟨hc, hl⟩ := List.forall_mem_cons.mp h
    exact lines_cons hc.left hc.right (hi hl)

theorem lines_intercalate (hn : ls ≠ []) (h : ∀ l ∈ ls, Unbroken l) :
    lines (['\n'].intercalate ls) = ls := by
  induction ls
  case nil          => exact absurd rfl hn
  case cons l ls hi =>
    have ⟨hl, hls⟩ := List.forall_mem_cons.mp h
    cases ls
    case nil => rw [List.intercalate_singleton, lines_eq_singleton hl]
    case cons next ls =>
      rw [List.intercalate_cons_cons, List.append_assoc, List.singleton_append,
        lines_append_newline hl, hi (List.cons_ne_nil next ls) hls]

theorem lines_unifyLineEnds (text : List Char) : lines (unifyLineEnds text) = lines text :=
  lines_intercalate (lines_ne_nil text) (unbroken_of_mem_lines text)

theorem normalize_unifyLineEnds (text : List Char) :
    normalize (unifyLineEnds text) = normalize text := by
  rw [normalize, normalize, lines_unifyLineEnds]

end SchemaGraph.Source
