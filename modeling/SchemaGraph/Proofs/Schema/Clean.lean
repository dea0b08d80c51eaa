import SchemaGraph.Proofs.Clause.Misread
import SchemaGraph.Proofs.Schema.Named

-- The names in a table that is read from a body.
namespace SchemaGraph

open Declaration Pattern Text

variable {raw u w body : List Char} {name declaredType : String} {found : Clause.Found}
variable {label : Clause.Part}
variable {key : ForeignKey} {clause : Clause}

namespace Text

structure Clean (w : List Char) : Prop where
  ne     : w ≠ []
  head   : ∀ c ∈ w.head?, ¬ isBlank c
  last   : ∀ c ∈ w.getLast?, ¬ isBlank c
  spaces : ∀ c ∈ w, isBlank c → c = ' '
  single : ¬ [' ', ' '] <:+: w

end Text

namespace Identifier

-- Unquoting strips last of all. What it leaves of a collapsed text is clean whatever the quotes
-- were.
theorem clean_unquote (h : w <:+: collapse raw) (hn : unquote w ≠ []) : Clean (unquote w) :=
  have hi : unquote w <:+: collapse raw := (unquote_isInfix w).trans h
  { ne     := hn
    head   := head?_trim isBlank _
    last   := getLast?_trim isBlank _
    spaces := fun _ hc => eq_space_of_mem_collapse (hi.subset hc)
    single := fun hs => not_isInfix_collapse raw (hs.trans hi) }

theorem clean_of_mem_splitList (h : u <:+: collapse raw) (hm : w ∈ splitList u) : Clean w := by
  have ⟨hm, hn⟩ := List.mem_filter.mp hm
  obtain ⟨piece, hp, rfl⟩ := List.mem_map.mp hm
  exact clean_unquote ((isInfix_of_mem_cut hp).trans h) (by simpa using hn)

end Identifier

structure IsTypeWord (declaredType : String) : Prop where
  ne    : declaredType ≠ ""
  chars : ∀ c ∈ declaredType.toList, ¬ isBlank c ∧ c ≠ '(' ∧ c ≠ ','

namespace Clause

structure Clean (clause : Clause) : Prop where
  primaryKeys : ∀ name ∈ clause.primaryKeys, Text.Clean name.toList
  foreignKeys : ∀ key ∈ clause.foreignKeys, Text.Clean key.column.toList ∧
    Text.Clean key.refColumn.toList
  column      : ∀ name declaredType isPrimaryKey own, clause =
    column name declaredType isPrimaryKey own →
    Text.Clean name.toList ∧ IsTypeWord declaredType

theorem clean_of_mem_names (h : found.group label <:+: collapse raw)
    (hm : name ∈ found.names label) :
    Text.Clean name.toList := by
  obtain ⟨w, hw, rfl⟩ := List.mem_map.mp hm
  rw [String.toList_ofList]
  exact Identifier.clean_of_mem_splitList h hw

theorem clean_defaultRefColumn : Text.Clean defaultRefColumn.toList where
  ne := by decide
  head c hc := Option.some.inj hc ▸ by decide
  last c hc := Option.some.inj hc ▸ by decide
  spaces := by decide
  single := by decide

theorem clean_refColumn (h : found.group label <:+: collapse raw)
    (hm : name ∈ defaultRefColumn :: found.names label) : Text.Clean name.toList := by
  cases List.mem_cons.mp hm
  case inl hm => exact hm ▸ clean_defaultRefColumn
  case inr hm => exact clean_of_mem_names h hm

theorem clean_of_mem_pairColumns (hc : found.group .columns <:+: collapse raw)
    (hr : found.group .refColumns <:+: collapse raw)
    (h : key ∈ pairColumns name (found.names .columns) (found.names .refColumns)) :
    Text.Clean key.column.toList ∧ Text.Clean key.refColumn.toList :=
  have ⟨hk, _, hk'⟩ := mem_pairColumns h
  ⟨clean_of_mem_names hc hk, clean_refColumn hr hk'⟩

theorem clean_columnName (hf : columnPattern.matchText? (collapse raw) = some found)
    (hn : String.ofList (Identifier.unquote (found.group .name)) ≠ "") :
    Text.Clean (String.ofList (Identifier.unquote (found.group .name))).toList := by
  rw [String.toList_ofList]
  exact Identifier.clean_unquote (group_isInfix hf .name) (mt String.ofList_eq_empty_iff.mpr hn)

theorem isTypeWord_declaredType (hf : columnPattern.matchText? (collapse raw) = some found)
    (ht : String.ofList (Identifier.unquote (found.group .declaredType)) ≠ "") :
    IsTypeWord (String.ofList (Identifier.unquote (found.group .declaredType))) where
  ne := ht
  chars c hc := by
    obtain ⟨_, _, x, _, _, _, htype, _, hx⟩ := exists_of_columnPattern hf
    rw [String.toList_ofList, htype] at hc
    exact hx c ((Identifier.unquote_isInfix x).subset hc)

theorem clean_of_referenceIn (hf : columnPattern.matchText? (collapse raw) = some found)
    (hn : Text.Clean name.toList) (h : referenceIn name (found.group .tail) = some key) :
    Text.Clean key.column.toList ∧ Text.Clean key.refColumn.toList := by
  obtain ⟨ref, hr, rfl⟩ := Option.map_eq_some_iff.mp h
  obtain ⟨x, _, htail, cur, rfl, hm⟩ := exists_of_find?_eq_some hr
  have hrest : cur.rest <:+: collapse raw :=
    (htail ▸ List.suffix_append x cur.rest).isInfix.trans (group_isInfix hf .tail)
  exact ⟨hn, clean_refColumn ((group_isInfix_of_match? hm .refColumns).trans hrest) (headD_mem _)⟩

theorem eq_of_mem_primaryKeys {isPrimaryKey : Bool} {own : Option ForeignKey} {name' : String}
    (h : name' ∈ (column name declaredType isPrimaryKey own).primaryKeys) : name' = name := by
  cases isPrimaryKey
  case false => cases h
  case true  => exact List.mem_singleton.mp h

theorem clean_classify (raw : List Char) : (classify raw).Clean := by
  have hr := reading_classify raw
  generalize classify raw = clause at hr
  cases hr
  case unrecognized => exact ⟨by simp [Clause.primaryKeys], by simp [Clause.foreignKeys], by simp⟩
  case primaryKey found hf _ =>
    exact ⟨fun _ => clean_of_mem_names (group_isInfix hf .columns), by
      simp [Clause.foreignKeys], by simp⟩
  case foreignKey found hf _ =>
    refine ⟨by simp [Clause.primaryKeys], fun key hk => ?_, by simp⟩
    exact clean_of_mem_pairColumns (group_isInfix hf .columns) (group_isInfix hf .refColumns) hk
  case column found name declaredType hf hname htype hn ht =>
    subst hname htype
    have hclean := clean_columnName hf hn
    refine ⟨fun name' hm => ?primary, fun key hk => ?foreign, ?column⟩
    case primary =>
      rw [eq_of_mem_primaryKeys hm]
      exact hclean
    case foreign => exact clean_of_referenceIn hf hclean (mem_foreignKeys_column.mp hk)
    case column  =>
      intro name declaredType _ _ he
      obtain ⟨rfl, rfl, _, _⟩ := Clause.column.inj he
      exact ⟨hclean, isTypeWord_declaredType hf ht⟩

theorem clean_of_mem_ofBody (h : clause ∈ ofBody body) : clause.Clean := by
  obtain ⟨raw, _, rfl⟩ := List.mem_map.mp h
  exact clean_classify raw

end Clause

structure Table.Clean (table : Table) : Prop where
  column_name : ∀ col ∈ table.columns, Text.Clean col.name.toList
  column_type : ∀ col ∈ table.columns, IsTypeWord col.declaredType
  primaryKeys : ∀ name ∈ table.primaryKeys, Text.Clean name.toList
  foreignKeys : ∀ key ∈ table.foreignKeys, Text.Clean key.column.toList ∧
    Text.Clean key.refColumn.toList

theorem Table.clean_ofBody (name : String) (body : List Char) : (ofBody name body).Clean where
  column_name col hm := by
    obtain ⟨raw, _, _, hr, _⟩ := exists_part_of_mem_columns hm
    exact ((Clause.clean_classify raw).column _ _ _ _ hr).left
  column_type col hm := by
    obtain ⟨raw, _, _, hr, _⟩ := exists_part_of_mem_columns hm
    exact ((Clause.clean_classify raw).column _ _ _ _ hr).right
  primaryKeys key hk := by
    obtain ⟨clause, hc, hk⟩ := List.mem_flatMap.mp (mem_primaryKeys_ofClauses.mp hk)
    exact (Clause.clean_of_mem_ofBody hc).primaryKeys key hk
  foreignKeys key hk := by
    obtain ⟨clause, hc, hk⟩ := List.mem_flatMap.mp hk
    exact (Clause.clean_of_mem_ofBody hc).foreignKeys key hk

end SchemaGraph
