import SchemaGraph.Schema.Table

namespace SchemaGraph

section
variable {α β : Type} [BEq α] [LawfulBEq α] {xs ys : List (α × β)} {a : α} {b : β}

theorem lookup_eq_some_iff_mem (hn : (xs.map Prod.fst).Nodup) :
    xs.lookup a = some b ↔ (a, b) ∈ xs := by
  rw [List.lookup_eq_some_iff]
  constructor
  case mp =>
    intro ⟨l, r, he, _⟩
    simp [he]
  case mpr =>
    intro h
    have ⟨l, r, he⟩ := List.append_of_mem h
    refine ⟨l, r, he, fun e hm => ?_⟩
    rw [he, List.map_append, List.map_cons, List.nodup_append] at hn
    have := hn.right.right e.1 (List.mem_map_of_mem hm) a List.mem_cons_self
    simpa using this.symm

theorem lookup_perm (h : xs.Perm ys) (hn : (xs.map Prod.fst).Nodup) (a : α) :
    xs.lookup a = ys.lookup a := by
  ext b
  rw [lookup_eq_some_iff_mem hn, lookup_eq_some_iff_mem ((h.map Prod.fst).nodup hn), h.mem_iff]

end

namespace Catalog

variable {es : List (String × Table)} {e : String × Table} {key name : String} {table : Table}
variable {cat : Catalog}

theorem mem_put (h : e ∈ put key table es) : e = (key, table) ∨ e ∈ es := by
  induction es
  case nil => exact .inl (List.mem_singleton.mp h)
  case cons e' es hi =>
    rw [put] at h
    split at h
    case isTrue hk =>
      cases List.mem_cons.mp h
      case inl h => exact .inl (hk ▸ h)
      case inr h => exact .inr (List.mem_cons_of_mem _ h)
    case isFalse =>
      cases List.mem_cons.mp h
      case inl h => exact .inr (h ▸ List.mem_cons_self)
      case inr h => exact (hi h).imp_right (List.mem_cons_of_mem _)

theorem put_of_not_mem (h : key ∉ es.map Prod.fst) : put key table es = es ++ [(key, table)] := by
  induction es
  case nil => rfl
  case cons e es hi =>
    rw [List.map_cons, List.mem_cons, not_or] at h
    rw [put, if_neg (Ne.symm h.left), hi h.right, List.cons_append]

theorem mem_of_mem_foldl_insert
    (h : e ∈ (es.foldl (fun cat (key, table) => cat.insert key table) cat).entries) :
    e ∈ cat.entries ∨ e ∈ es := by
  induction es generalizing cat
  case nil => exact .inl h
  case cons e' es hi =>
    cases hi h
    case inr h => exact .inr (List.mem_cons_of_mem _ h)
    case inl h =>
      cases mem_put h
      case inl h => exact .inr (h ▸ List.mem_cons_self)
      case inr h => exact .inl h

theorem mem_of_mem_ofList (h : e ∈ (ofList es).entries) : e ∈ es :=
  (mem_of_mem_foldl_insert h).resolve_left List.not_mem_nil

theorem entries_foldl_insert (h : ((cat.entries ++ es).map Prod.fst).Nodup) :
    (es.foldl (fun cat (key, table) => cat.insert key table) cat).entries = cat.entries ++ es := by
  induction es generalizing cat
  case nil => exact (List.append_nil _).symm
  case cons e es hi =>
    have hk : e.1 ∉ cat.entries.map Prod.fst := by
      rw [List.map_append, List.map_cons, List.nodup_append] at h
      exact fun hm => h.right.right e.1 hm e.1 List.mem_cons_self rfl
    have he : (cat.insert e.1 e.2).entries = cat.entries ++ [e] := put_of_not_mem hk
    rw [List.foldl_cons, hi, he, List.append_assoc, List.singleton_append]
    rwa [he, List.append_assoc, List.singleton_append]

theorem entries_ofList (h : (es.map Prod.fst).Nodup) : (ofList es).entries = es :=
  @entries_foldl_insert _ empty h

theorem find?_eq_some_iff : cat.find? key = some table ↔ (key, table) ∈ cat.entries :=
  lookup_eq_some_iff_mem cat.nodup

def Keyed (cat : Catalog) : Prop :=
  ∀ key table, (key, table) ∈ cat.entries → table.name = key

namespace Keyed

theorem mem_tables_iff (h : cat.Keyed) :
    table ∈ cat.tables ↔ (table.name, table) ∈ cat.entries where
  mp hm := by
    have ⟨⟨key, table'⟩, he, ht⟩ := List.mem_map.mp hm
    cases ht
    exact h _ _ he ▸ he
  mpr hm := List.mem_map_of_mem hm

theorem map_name_tables (h : cat.Keyed) : cat.tables.map (·.name) = cat.keys := by
  rw [tables, keys, List.map_map]
  exact List.map_congr_left fun (key, table) he => h key table he

theorem mem_keys (h : cat.Keyed) (ht : table ∈ cat.tables) : table.name ∈ cat.keys :=
  List.mem_map_of_mem (h.mem_tables_iff.mp ht)

end Keyed

theorem ofStatements_keyed (statements : List Statement) : (ofStatements statements).Keyed := by
  intro key table h
  have ⟨s, _, he⟩ := List.mem_map.mp (mem_of_mem_ofList h)
  cases he
  rfl

end Catalog

theorem Statement.name_of_mem_extract {s : Statement} {text : List Char} (h : s ∈ extract text) :
    s.name ≠ "" := by
  have ⟨v, _, hv⟩ := List.mem_filterMap.mp h
  unfold Visit.statement? at hv
  split at hv
  case h_1 => cases hv
  case h_2 =>
    split at hv
    case isTrue     => cases hv
    case isFalse he =>
      cases hv
      simpa using he

end SchemaGraph
