import SchemaGraph.Proofs.Clause.Target
import SchemaGraph.Proofs.Schema.Consistent

-- The names in the foreign keys of a table.
namespace SchemaGraph.Table

variable {table : Table} {clauses : List Clause} {col : Column} {name : String} {body : List Char}
variable {key : ForeignKey}

structure Named (table : Table) (parts : List (List Char)) : Prop where
  foreignKeys : ∀ key ∈ table.foreignKeys, ∃ part ∈ parts, Clause.Names part key
  columns     : ∀ col ∈ table.columns, col.isForeignKey →
    ∃ part ∈ parts, ∃ key, Clause.Names part key ∧
    key.column = col.name ∧ col.reference = some key.reference

theorem Consistent.exists_key (h : table.Consistent clauses) (hm : col ∈ table.columns)
    (hf : col.isForeignKey) :
    ∃ key ∈ table.foreignKeys, key.column = col.name ∧ col.reference = some key.reference := by
  obtain ⟨_, _, _, _, _, ha⟩ := exists_of_forall₂ h.columns hm
  obtain ⟨key, hk, hn, _, hr⟩ := ha.reference_some hf
  exact ⟨key, hk, hn, hr⟩

theorem exists_names_of_mem_foreignKeys (h : key ∈ (ofBody name body).foreignKeys) :
    ∃ part ∈ Scan.split (· == ',') body, Clause.Names part key := by
  obtain ⟨clause, hc, hk⟩ := List.mem_flatMap.mp h
  obtain ⟨part, hp, rfl⟩ := List.mem_map.mp hc
  exact ⟨part, (List.mem_filter.mp hp).left, Clause.names_of_mem_foreignKeys hk⟩

-- The foreign keys of a table have names for both columns, and so have the references of its
-- columns. The name of the table is missing where, and only where, the body spells none.
theorem named_ofBody (name : String) (body : List Char) :
    (ofBody name body).Named (Scan.split (· == ',') body) where
  foreignKeys key hk := exists_names_of_mem_foreignKeys hk
  columns col hm hf := by
    obtain ⟨key, hk, hn, hr⟩ := (consistent_clauses name body).exists_key hm hf
    obtain ⟨part, hp, hkey⟩ := exists_names_of_mem_foreignKeys hk
    exact ⟨part, hp, key, hkey, hn, hr⟩

theorem named_ofBody_hollow :
    (ofBody "t" "a INT REFERENCES \x60 \x60".toList).foreignKeys = [⟨"a", "", "id"⟩] ∧
      (ofBody "t" "a INT REFERENCES \x60 \x60".toList).columns =
        [⟨"a", "INT", false, some ⟨some "", some "id"⟩⟩] :=
  ⟨by decide +kernel, by decide +kernel⟩

end SchemaGraph.Table
