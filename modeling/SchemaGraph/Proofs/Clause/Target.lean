import SchemaGraph.Proofs.Clause.Reading
import SchemaGraph.Proofs.Identifier.Hollow
import SchemaGraph.Proofs.Pattern.Kept

-- What the foreign keys of a clause refer to.
namespace SchemaGraph.Clause

open Declaration Pattern Text

variable {raw u v w : List Char} {s t found : Found} {a : Pattern Part} {label : Part}
variable {cs rs : List String} {name table declaredType : String} {key : ForeignKey}

def RefersTo (raw : List Char) (spelled : Identifier.Spelled) : Prop :=
  ∃ u v, ∃ word : Spelling "REFERENCES", ∃ gap : Gap,
    collapse raw = u ++ (word.chars ++ (gap.chars ++ (spelled.text ++ v)))

-- A foreign key of the clause has names for its columns, and for its table the one that the clause
-- spells out. That is no name at all when the spelling is hollow.
structure Names (raw : List Char) (key : ForeignKey) : Prop where
  column_ne    : key.column ≠ ""
  refColumn_ne : key.refColumn ≠ ""
  refTable     : ∃ spelled, RefersTo raw spelled ∧ key.refTable = String.ofList spelled.name ∧
    (key.refTable = "" ↔ spelled.IsHollow)

theorem Found.ne_of_mem_names (h : name ∈ found.names label) : name ≠ "" := by
  obtain ⟨w, hw, rfl⟩ := List.mem_map.mp h
  have hw : w ≠ [] := by simpa using (List.mem_filter.mp hw).right
  exact mt String.ofList_eq_empty_iff.mp hw

theorem headD_mem (rs : List String) : rs.headD defaultRefColumn ∈ defaultRefColumn :: rs := by
  cases rs <;> simp

theorem Found.refColumn_ne (h : name ∈ defaultRefColumn :: found.names label) : name ≠ "" := by
  cases List.mem_cons.mp h
  case inl h => exact h ▸ (by decide)
  case inr h => exact ne_of_mem_names h

theorem pairColumns_cons (c : String) (cs rs : List String) : pairColumns table (c :: cs) rs =
    ⟨c, table, rs.headD defaultRefColumn⟩ :: pairColumns table cs rs.tail := by
  cases rs <;> rfl

theorem mem_pairColumns (h : key ∈ pairColumns table cs rs) :
    key.column ∈ cs ∧ key.refTable = table ∧ key.refColumn ∈ defaultRefColumn :: rs := by
  induction cs generalizing rs
  case nil => cases h
  case cons c cs hi =>
    rw [pairColumns_cons] at h
    cases List.mem_cons.mp h
    case inl h => exact h ▸ ⟨List.mem_cons_self, rfl, headD_mem rs⟩
    case inr h =>
      have ⟨hc, ht, hr⟩ := hi h
      exact ⟨List.mem_cons_of_mem c hc, ht, List.cons_subset_cons _ (List.tail_subset rs) hr⟩

theorem exists_of_mem_ways_references (h : t ∈ references.ways s) :
    ∃ word : Spelling "REFERENCES", ∃ gap : Gap, ∃ spelled : Identifier.Spelled, ∃ v,
      s.rest = word.chars ++ (gap.chars ++ (spelled.text ++ v)) ∧
        t.group .refTable = spelled.text := by
  obtain ⟨r, hr, ht⟩ := mem_ways_append.mp h
  obtain ⟨m, hm, hr⟩ := mem_ways_append.mp hr
  obtain ⟨_, hs, word, gap, rfl, hword, hgap⟩ :=
    (keyword "REFERENCES" ++ gap : Pattern Part).exact.sound hm
  obtain ⟨_, hreach, hmatch, hgroup⟩ := exists_of_mem_ways_group hr
  obtain ⟨spelled, rfl⟩ := Identifier.Spelled.matches_iff.mp hmatch
  have ⟨hne, hblank⟩ := Identifier.many_matches_iff.mp hgap
  refine ⟨⟨word, (keyword_matches_iff (by decide)).mp hword⟩, ⟨⟨gap, hblank⟩, hne⟩, spelled,
    r.rest, ?_, ?_⟩
  · rw [hs.rest_eq, hreach.rest_eq, List.append_assoc]
  · exact (group_eq_of_not_mem_labels ht (by decide)).trans hgroup

theorem exists_refersTo (h : t ∈ (a ++ references).ways s)
    (hs : collapse raw = u ++ (s.rest ++ v)) :
    ∃ spelled, RefersTo raw spelled ∧ t.refTable = String.ofList spelled.name := by
  obtain ⟨m, hm, ht⟩ := mem_ways_append.mp h
  obtain ⟨x, hx, _⟩ := a.exact.sound hm
  obtain ⟨word, gap, spelled, y, hrest, hgroup⟩ := exists_of_mem_ways_references ht
  refine ⟨spelled, ⟨u ++ x, y ++ v, word, gap, ?_⟩, ?_⟩
  · rw [hs, hx.rest_eq, hrest]
    simp only [List.append_assoc]
  · rw [Found.refTable, hgroup, spelled.unquoteQualified_text]

theorem names_of_exists_refersTo (hc : key.column ≠ "") (hr : key.refColumn ≠ "")
    (h : ∃ spelled, RefersTo raw spelled ∧ key.refTable = String.ofList spelled.name) :
    Names raw key where
  column_ne := hc
  refColumn_ne := hr
  refTable :=
    have ⟨spelled, hs, ht⟩ := h
    ⟨spelled, hs, ht, by rw [ht, String.ofList_eq_empty_iff, spelled.name_eq_nil_iff]⟩

theorem names_of_foreignKeyPattern (h : foreignKeyPattern.matchText? (collapse raw) = some found)
    (hk : key ∈ pairColumns found.refTable (found.names .columns) (found.names .refColumns)) :
    Names raw key := by
  have ⟨hc, ht, hr⟩ := mem_pairColumns hk
  refine names_of_exists_refersTo (Found.ne_of_mem_names hc) (Found.refColumn_ne hr) ?_
  rw [ht]
  refine exists_refersTo (mem_ways_of_match? h) (?_ : collapse raw = [] ++ (collapse raw ++ []))
  rw [List.nil_append, List.append_nil]

theorem exists_tail_append (h : columnPattern.matchText? (collapse raw) = some found) :
    ∃ u v, collapse raw = u ++ (found.group .tail ++ v) := by
  obtain ⟨m, hm, hend⟩ := mem_ways_append.mp (mem_ways_of_match? h)
  obtain ⟨r, hr, hm⟩ := mem_ways_append.mp hm
  obtain ⟨u, hu, _⟩ := Pattern.exact _ |>.sound hr
  obtain ⟨w, hw, _, hgroup⟩ := exists_of_mem_ways_group hm
  refine ⟨u, m.rest, ?_⟩
  rw [group_eq_of_not_mem_labels hend (by decide), hgroup, ←hw.rest_eq]
  exact hu.rest_eq

theorem names_of_referenceIn (hn : name ≠ "") (hw : collapse raw = u ++ (w ++ v))
    (h : referenceIn name w = some key) : Names raw key := by
  obtain ⟨ref, hf, rfl⟩ := Option.map_eq_some_iff.mp h
  obtain ⟨x, y, hx, cur, hy, hm⟩ := exists_of_find?_eq_some hf
  refine names_of_exists_refersTo hn (Found.refColumn_ne (headD_mem _)) ?_
  refine exists_refersTo (mem_ways_of_match? hm) (?_ : collapse raw = (u ++ x) ++ (cur.rest ++ v))
  rw [hw, hx, hy]
  simp only [List.append_assoc]

theorem mem_foreignKeys_column {own : Option ForeignKey} {isPrimaryKey : Bool} :
    key ∈ (column name declaredType isPrimaryKey own).foreignKeys ↔ own = some key := by
  cases own
  case none => simp [foreignKeys]
  case some => simp [foreignKeys, eq_comm]

theorem names_of_mem_foreignKeys (h : key ∈ (classify raw).foreignKeys) : Names raw key := by
  have hr := reading_classify raw
  generalize classify raw = clause at h hr
  cases hr
  case unrecognized => cases h
  case primaryKey   => cases h
  case foreignKey found hf hn => exact names_of_foreignKeyPattern hf h
  case column found name declaredType hf _ _ hn _ =>
    obtain ⟨u, v, hw⟩ := exists_tail_append hf
    exact names_of_referenceIn hn hw (mem_foreignKeys_column.mp h)

end SchemaGraph.Clause
