import SchemaGraph.Proofs.Declaration.Column
import SchemaGraph.Proofs.Pattern.Kept
import SchemaGraph.Proofs.Text.Squeeze

-- What a clause can be read as.
namespace SchemaGraph.Clause

open Declaration Pattern Text

variable {raw : List Char} {name declaredType : String} {isPrimaryKey : Bool}
variable {reference? : Option ForeignKey}

inductive Reading (raw : List Char) : Clause → Prop
  | unrecognized (text : String) (fault : Fault) : Reading raw (.unrecognized text fault)
  | primaryKey {found : Found} (hf : primaryKeyPattern.matchText? (collapse raw) = some found)
      (hn : found.names .columns ≠ []) : Reading raw (.primaryKey (found.names .columns))
  | foreignKey {found : Found} (hf : foreignKeyPattern.matchText? (collapse raw) = some found)
      (hn : found.names .columns ≠ []) :
      Reading raw (.foreignKey
        (pairColumns found.refTable (found.names .columns) (found.names .refColumns)))
  | column {found : Found} {name declaredType : String}
      (hf : columnPattern.matchText? (collapse raw) = some found)
      (hname : name = String.ofList (Identifier.unquote (found.group .name)))
      (htype : declaredType = String.ofList (Identifier.unquote (found.group .declaredType)))
      (hn : name ≠ "") (ht : declaredType ≠ "") :
      Reading raw (.column name declaredType
        (inlinePrimaryKeyPattern.find? (found.group .tail)).isSome
        (referenceIn name (found.group .tail)))

theorem reading_classify (raw : List Char) : Reading raw (classify raw) := by
  rw [classify]
  split
  case isTrue => exact .unrecognized _ _
  split
  case h_1 found hf =>
    rw [ofPrimaryKey]
    split
    case h_1   => exact .unrecognized _ _
    case h_2 h => exact .primaryKey hf h
  split
  case h_1 found hf =>
    rw [ofForeignKey]
    split
    case h_1   => exact .unrecognized _ _
    case h_2 h => exact .foreignKey hf h
  split
  case isTrue => exact .unrecognized _ _
  split
  case h_2          => exact .unrecognized _ _
  case h_1 found hf =>
    rw [ofColumn]
    dsimp only
    split
    case isTrue    => exact .unrecognized _ _
    case isFalse h =>
      simp only [Bool.or_eq_true, String.isEmpty_iff, not_or] at h
      exact .column hf rfl rfl h.left h.right

theorem exists_of_classify_eq_column
    (h : classify raw = column name declaredType isPrimaryKey reference?) :
    ∃ found : Found, columnPattern.matchText? (collapse raw) = some found ∧
      name = String.ofList (Identifier.unquote (found.group .name)) ∧
      declaredType = String.ofList (Identifier.unquote (found.group .declaredType)) ∧
      isPrimaryKey = (inlinePrimaryKeyPattern.find? (found.group .tail)).isSome ∧
      reference? = referenceIn name (found.group .tail) := by
  cases h ▸ reading_classify raw
  case column hf hname _ htype _ => exact ⟨_, hf, hname, htype, rfl, rfl⟩

theorem eq_space_of_mem_name (h : classify raw = column name declaredType isPrimaryKey reference?)
    {c : Char} (hc : c ∈ name.toList) (hb : isBlank c) : c = ' ' := by
  obtain ⟨found, hf, hn, _⟩ := exists_of_classify_eq_column h
  rw [hn, String.toList_ofList] at hc
  have hw := (Identifier.unquote_isInfix _).trans (group_isInfix hf .name)
  exact eq_space_of_mem_collapse (hw.subset hc) hb

end SchemaGraph.Clause
