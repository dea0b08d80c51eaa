import SchemaGraph.Schema.Basic

namespace SchemaGraph

-- Tables under distinct keys, in the order in which the keys first came up.
structure Catalog where
  entries : List (String × Table)
  nodup : (entries.map Prod.fst).Nodup

namespace Catalog

def empty : Catalog where
  entries := []
  nodup := .nil

def keys (cat : Catalog) : List String :=
  cat.entries.map Prod.fst

def tables (cat : Catalog) : List Table :=
  cat.entries.map Prod.snd

def find? (cat : Catalog) (key : String) : Option Table :=
  cat.entries.lookup key

def put (key : String) (table : Table) : List (String × Table) → List (String × Table)
  | []           => [(key, table)]
  | (k, t) :: es => if k = key then (k, table) :: es else (k, t) :: put key table es

theorem mem_keys_put {key k : String} {table : Table} {es : List (String × Table)} :
    k ∈ (put key table es).map Prod.fst ↔ k = key ∨ k ∈ es.map Prod.fst := by
  induction es with
  | nil => simp [put]
  | cons e es ih =>
    rw [put]
    split
    case isTrue h  => subst h; simp
    case isFalse h =>
      rw [List.map_cons, List.map_cons, List.mem_cons, ih, List.mem_cons, or_left_comm]

theorem nodup_put {key : String} {table : Table} {es : List (String × Table)}
    (h : (es.map Prod.fst).Nodup) : ((put key table es).map Prod.fst).Nodup := by
  induction es with
  | nil => simp [put]
  | cons e es ih =>
    have ⟨h₁, h₂⟩ := List.nodup_cons.mp h
    rw [put]
    split
    case isTrue => exact h
    case isFalse hne =>
      refine List.nodup_cons.mpr ⟨fun hm => ?_, ih h₂⟩
      exact (mem_keys_put.mp hm).elim hne h₁

def insert (cat : Catalog) (key : String) (table : Table) : Catalog where
  entries := put key table cat.entries
  nodup := nodup_put cat.nodup

def ofList (es : List (String × Table)) : Catalog :=
  es.foldl (fun cat (key, table) => cat.insert key table) empty

end Catalog
end SchemaGraph
