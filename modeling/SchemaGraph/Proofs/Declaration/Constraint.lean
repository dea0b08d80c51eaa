import SchemaGraph.Proofs.Declaration.Names

namespace SchemaGraph.Declaration

open Pattern Clause

variable {before : Option Char} {c : Char} {u v w rest : List Char} {kept : List (Part × List Char)}

theorem head_ne_blank {cs : List Char} (h : Text.isBlank c = false) :
    ∀ d ∈ (c :: cs).head?, ¬ Text.isBlank d := by
  intro d hd
  simp at hd
  simp [←hd, h]

theorem head_quote (style : Identifier.Style) (name rest : List Char) :
    ∀ c ∈ (style.quote name ++ rest).head?, ¬ Text.isBlank c :=
  head_ne_blank (by cases style <;> decide)

def keptColumns (columns? : Option (List Quoted)) : List (Part × List Char) :=
  match columns? with
  | none    => []
  | some qs => [(.refColumns, innerText qs)]

theorem takes_columns (columns? : Option (List Quoted)) :
    (opt (blanks ++ columnList .refColumns)).Takes before (columnsText columns?) []
      (keptColumns columns?) := by
  cases columns?
  case none    => exact .opt_none (fails_of_refuses (by decide))
  case some qs =>
    exact .opt <| .seq (.run (by decide) (head_ne_blank (by decide)))
      (takes_columnList .refColumns qs)

theorem ends_listText (qs : List Quoted) : Identifier.Ends (listText qs) := by
  have hd : (listText qs).dropWhile Text.isBlank = listText qs :=
    Text.dropWhile_eq_self (head_ne_blank (by decide))
  exact ⟨by simp [listText]; decide, by rw [hd]; simp [listText]⟩

theorem ends_columnsText (columns? : Option (List Quoted)) :
    Identifier.Ends (columnsText columns?) := by
  cases columns?
  case none    => exact ⟨by simp [columnsText], by simp [columnsText]⟩
  case some qs =>
    refine ⟨by simp [columnsText]; decide, ?_⟩
    rw [columnsText, List.dropWhile_append_of_pos (by decide)]
    exact (ends_listText qs).not_dot

theorem takes_keyword (word : String) (hk : isKeyword word) (hs : Spells word word.toList) :
    (keyword word : Pattern Part).Takes before word.toList rest [] :=
  .keyword hk hs

theorem takes_references_of (table : Identifier.Spelled) (he : Identifier.Ends w)
    (hw : ∀ before, (opt (blanks ++ columnList .refColumns)).Takes before w [] kept) :
    references.Takes before ("REFERENCES".toList ++ [' '] ++ table.text ++ w) []
      (kept ++ [(.refTable, table.text)]) := by
  rw [←List.append_nil w] at he
  have hword (rest) := @takes_keyword before rest "REFERENCES" (by decide) (by decide)
  have hspace (before) : (gap : Pattern Part).Takes before [' '] (table.text ++ (w ++ [])) [] := by
    refine .space ?_
    rw [List.head?_append_of_ne_nil _ table.text_ne]
    exact fun c hc => by simp [table.head_text c hc]
  have htable (before) : (group .refTable Identifier.qualified).Takes before table.text (w ++ [])
      [(Part.refTable, table.text)] :=
    .group (table.takes_text he) _
  exact .seq (.seq (.seq (hword _) (hspace _)) (htable _)) (hw _)

theorem takes_references (table : Name) (columns? : Option (List Quoted)) :
    references.Takes before (referencesText table columns?) []
      (keptColumns columns? ++ [(.refTable, table.text)]) := by
  have h := @takes_references_of before _ _ table.spelled (ends_columnsText columns?) fun _ =>
    takes_columns columns?
  rwa [table.spelled_text] at h

theorem takes_constraint (constraint? : Option Quoted)
    (h : rest.head? = some 'P' ∨ rest.head? = some 'F') :
    constraintName.Takes before (constraintText constraint?) rest [] := by
  have hb : ∀ c ∈ rest.head?, ¬ Text.isBlank c := by
    intro c hc
    cases h <;> simp_all <;> subst hc <;> decide
  cases constraint?
  case none =>
    refine .opt_none <| fails_of_refuses ?_
    cases h <;> simp_all <;> decide
  case some q =>
    have hword (rest) := @takes_keyword before rest "CONSTRAINT" (by decide) (by decide)
    have hspace (before) : (gap : Pattern Part).Takes before [' '] (q.text ++ ([' '] ++ rest)) [] :=
      .space (head_quote _ _ _)
    exact .opt <| .seq (.seq (.seq (hword _) (hspace _)) q.takes_part) (.space hb)

end SchemaGraph.Declaration
