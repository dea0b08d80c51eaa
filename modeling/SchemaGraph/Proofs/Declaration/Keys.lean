import SchemaGraph.Proofs.Declaration.Constraint
import SchemaGraph.Clause.Classify

namespace SchemaGraph.Declaration

open Pattern Clause

variable {before : Option Char} {label : Part} {w inner rest raw : List Char} {qs : List Quoted}
variable {found : Found} {a : Pattern Part} {kept : List (Part × List Char)}

theorem names_eq (h : found.texts.lookup label = some (innerText qs)) :
    found.names label = qs.map (·.string) := by
  rw [Found.names, Progress.group_eq, h, Option.getD_some, splitList_innerText]

-- A primary key of a table.

theorem clustered_fails (qs : List Quoted) (rest : List Char) :
    (gap ++ (keyword "CLUSTERED" <|> keyword "NONCLUSTERED") : Pattern Part).Fails before
      ([' '] ++ (listText qs ++ rest)) := by
  refine .many_seq (fun before => ?_) fun c hc => ?_
  · have hl : (listText qs ++ rest).dropWhile Text.isBlank = listText qs ++ rest :=
      Text.dropWhile_eq_self (head_ne_blank (by decide))
    rw [List.dropWhile_append_of_pos (by decide), hl]
    apply fails_of_refuses
    show refuses _ (some '(') = true
    decide
  · show (refuses _ _ && refuses _ _) = true
    rw [refuses_keyword_of_isBlank (by decide) (by decide) hc,
      refuses_keyword_of_isBlank (by decide) (by decide) hc, Bool.and_self]

theorem takes_primaryKey (constraint? : Option Quoted) (first : Quoted) (others : List Quoted) :
    primaryKeyPattern.Takes none (Item.primaryKey constraint? first others).text []
      [(.columns, innerText (first :: others))] := by
  have hconstraint {rest} : constraintName.Takes none (constraintText constraint?)
      ("PRIMARY".toList ++ rest) [] :=
    takes_constraint constraint? (.inl rfl)
  have hprimary {before rest} := @takes_keyword before rest "PRIMARY" (by decide) (by decide)
  have hspace {before rest} : (gap : Pattern Part).Takes before [' '] ("KEY".toList ++ rest) [] :=
    .space (head_ne_blank (by decide))
  have hkey {before rest} := @takes_keyword before rest "KEY" (by decide) (by decide)
  have hplain {before} : (opt (gap ++ (keyword "CLUSTERED" <|> keyword "NONCLUSTERED"))
      : Pattern Part).Takes before [] ([' '] ++ (listText (first :: others) ++ [])) [] :=
    .opt_none (clustered_fails _ _)
  have hblanks {before} : (blanks : Pattern Part).Takes before [' ']
      (listText (first :: others) ++ []) [] :=
    .run (by decide) (head_ne_blank (by decide))
  have hlist {before} := @takes_columnList before [] .columns (first :: others)
  have h := Takes.seq (Takes.seq (Takes.seq (Takes.seq (Takes.seq (Takes.seq hconstraint hprimary)
    hspace) hkey) hplain) hblanks) hlist
  rwa [List.append_nil (_ ++ "KEY".toList)] at h

theorem classify_primaryKey (constraint? : Option Quoted) (first : Quoted) (others : List Quoted)
    (h : Text.collapse raw = (Item.primaryKey constraint? first others).text) :
    classify raw = .primaryKey ((first :: others).map (·.string)) := by
  obtain ⟨(found : Found), hf, hk⟩ := matchText?_eq_some (takes_primaryKey constraint? first others)
  have hn : found.names .columns = (first :: others).map (·.string) := names_eq (by simp [hk])
  have he : (Item.primaryKey constraint? first others).text ≠ [] := by simp [Item.text]
  rw [classify, h]
  simp only [List.isEmpty_iff, he, hf, if_false, ofPrimaryKey, hn]
  rfl

-- A foreign key of a table.

theorem pairColumns_map (table : String) (columns refColumns : List Quoted) :
    pairColumns table (columns.map (·.string)) (refColumns.map (·.string)) =
      columns.mapIdx fun i q =>
        ⟨q.string, table, ((refColumns[i]?).map (·.string)).getD defaultColumn⟩ := by
  induction columns generalizing refColumns
  case nil          => rfl
  case cons q qs hi =>
    rw [List.mapIdx_cons, List.map_cons]
    cases refColumns
    case nil       => simpa [pairColumns] using ⟨rfl, hi []⟩
    case cons r rs => simpa [pairColumns] using hi rs

theorem names_refColumns (columns? : Option (List Quoted))
    (h : found.texts.lookup .refColumns = (keptColumns columns?).lookup .refColumns) :
    found.names .refColumns = ((columns?.getD []).map (·.string)) := by
  cases columns?
  case none    => rw [Found.names, Progress.group_eq, h]; rfl
  case some qs => exact names_eq h

theorem refTable_of_spelled (table : Identifier.Spelled)
    (h : found.texts.lookup .refTable = some table.text) :
    found.refTable = String.ofList table.name := by
  rw [Found.refTable, Progress.group_eq, h, Option.getD_some, table.unquoteQualified_text]

theorem refTable_eq (table : Name) (h : found.texts.lookup .refTable = some table.text) :
    found.refTable = table.string := by
  rw [refTable_of_spelled table.spelled (table.spelled_text ▸ h), table.string_spelled]

theorem primaryKeyPattern_fails (constraint? : Option Quoted) (rest : List Char) :
    primaryKeyPattern.Fails none (constraintText constraint? ++ ("FOREIGN".toList ++ rest)) := by
  suffices h : (constraintName ++ keyword "PRIMARY").Fails none
      (constraintText constraint? ++ ("FOREIGN".toList ++ rest)) from
    h.seq_left.seq_left.seq_left.seq_left.seq_left
  have hforeign {before} : (keyword "PRIMARY" : Pattern Part).Fails before
      ("FOREIGN".toList ++ rest) :=
    fails_of_refuses (by show refuses _ (some 'F') = true; decide)
  cases constraint?
  case none   => exact fails_of_refuses (by show refuses _ (some 'F') = true; decide)
  case some q =>
    have hword {rest} :
        (keyword "CONSTRAINT" : Pattern Part).Forced none "CONSTRAINT".toList rest :=
      .keyword (by decide) (by decide)
    have hspace {before rest} : (gap : Pattern Part).Forced before [' '] (q.text ++ rest) :=
      .space (head_quote _ _ _)
    have hname {before rest} : (Identifier.part : Pattern Part).Forced before q.text rest :=
      q.style.part_forced fun c hc => q.style.ne_last_of_isPlain (q.name.plain c hc)
    have hspace' {before} : (gap : Pattern Part).Forced before [' '] ("FOREIGN".toList ++ rest) :=
      .space (head_ne_blank (by decide))
    refine .opt_seq ?_ (fails_of_refuses (by show refuses _ (some 'C') = true; decide))
    exact .of_forced (.seq (.seq (.seq hword hspace) hname) hspace') hforeign

def foreignKeyText (constraint? : Option Quoted) (inner reference : List Char) : List Char :=
  constraintText constraint? ++ "FOREIGN".toList ++ [' '] ++ "KEY".toList ++ [' ']
    ++ ('(' :: inner ++ [')']) ++ [' '] ++ reference

theorem takes_foreignKey (constraint? : Option Quoted) (hi : ')' ∉ inner) (hw : w.head? = some 'R')
    (h : ∀ before, references.Takes before w [] kept) :
    foreignKeyPattern.Takes none (foreignKeyText constraint? inner w) []
      (kept ++ [(.columns, inner)]) := by
  have hconstraint {rest} : constraintName.Takes none (constraintText constraint?)
      ("FOREIGN".toList ++ rest) [] :=
    takes_constraint constraint? (.inr rfl)
  have hforeign {before rest} := @takes_keyword before rest "FOREIGN" (by decide) (by decide)
  have hspace {before rest} : (gap : Pattern Part).Takes before [' '] ("KEY".toList ++ rest) [] :=
    .space (head_ne_blank (by decide))
  have hkey {before rest} := @takes_keyword before rest "KEY" (by decide) (by decide)
  have hblanks {before rest} : (blanks : Pattern Part).Takes before [' ']
      (('(' :: inner ++ [')']) ++ rest) [] :=
    .run (by decide) (head_ne_blank (by decide))
  have hlist {before rest} := @takes_columnList_of before rest .columns inner hi
  have hblanks' {before} : (blanks : Pattern Part).Takes before [' '] (w ++ []) [] := by
    refine .run (by decide) fun c hc => ?_
    rw [List.append_nil, hw, Option.mem_some_iff] at hc
    exact hc ▸ by decide
  exact .seq (.seq (.seq (.seq (.seq (.seq (.seq hconstraint hforeign) hspace) hkey) hblanks)
    hlist) hblanks') (h _)

theorem classify_foreignKeyText (constraint? : Option Quoted) (hi : ')' ∉ inner)
    (hw : w.head? = some 'R') (ht : ∀ before, references.Takes before w [] kept)
    (h : Text.collapse raw = foreignKeyText constraint? inner w) :
    ∃ found : Found, found.texts = kept ++ [(.columns, inner)] ∧
      classify raw = ofForeignKey (foreignKeyText constraint? inner w) found := by
  have hp : primaryKeyPattern.matchText? (foreignKeyText constraint? inner w) = none := by
    apply matchText?_eq_none
    have hf := primaryKeyPattern_fails constraint? ([' '] ++ "KEY".toList ++ [' ']
      ++ ('(' :: inner ++ [')']) ++ [' '] ++ w)
    simpa [foreignKeyText] using hf
  obtain ⟨(found : Found), hf, hk⟩ := matchText?_eq_some (takes_foreignKey constraint? hi hw ht)
  have he : foreignKeyText constraint? inner w ≠ [] := by simp [foreignKeyText]
  refine ⟨found, hk, ?_⟩
  rw [classify, h]
  simp only [List.isEmpty_iff, he, hp, hf, if_false]

theorem classify_foreignKey_of (constraint? : Option Quoted) (first : Quoted) (others : List Quoted)
    (table : Name) (columns? : Option (List Quoted)) (hw : w.head? = some 'R')
    (ht : ∀ before, references.Takes before w []
      (keptColumns columns? ++ [(.refTable, table.text)]))
    (h : Text.collapse raw = foreignKeyText constraint? (innerText (first :: others)) w) :
    classify raw =
      .foreignKey ((Item.foreignKey constraint? first others table columns?).foreignKeys) := by
  have hi : ')' ∉ innerText (first :: others) := not_mem_innerText _ (by decide) (by decide)
  obtain ⟨found, hk, hf⟩ := classify_foreignKeyText constraint? hi hw ht h
  have hn : found.names .columns = (first :: others).map (·.string) :=
    names_eq (by rw [hk]; cases columns? <;> rfl)
  have hr : found.names .refColumns = (columns?.getD []).map (·.string) :=
    names_refColumns columns? (by rw [hk]; cases columns? <;> rfl)
  have ht : found.refTable = table.string :=
    refTable_eq table (by rw [hk]; cases columns? <;> rfl)
  rw [hf]
  simp only [ofForeignKey, hn, hr, ht]
  exact congrArg Clause.foreignKey (pairColumns_map _ _ _)

theorem classify_foreignKey (constraint? : Option Quoted) (first : Quoted) (others : List Quoted)
    (table : Name) (refColumns? : Option (List Quoted))
    (h : Text.collapse raw = (Item.foreignKey constraint? first others table refColumns?).text) :
    classify raw =
      .foreignKey ((Item.foreignKey constraint? first others table refColumns?).foreignKeys) :=
  classify_foreignKey_of constraint? first others table refColumns? rfl
    (fun _ => takes_references table refColumns?) h

end SchemaGraph.Declaration
