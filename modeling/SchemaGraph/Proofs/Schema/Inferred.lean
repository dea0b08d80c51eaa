import SchemaGraph.Proofs.Schema.Consistent
import SchemaGraph.Proofs.Schema.Convention
import SchemaGraph.Proofs.Schema.Order

-- What the names of columns tell when no foreign key leads to a table.
namespace SchemaGraph

inductive Selects {α β : Type} (r : α → β → Prop) : List α → List β → Prop
  | nil : Selects r [] []
  | take {x : α} {y : β} {xs : List α} {ys : List β} (h : r x y) (hs : Selects r xs ys) :
    Selects r (x :: xs) (y :: ys)
  | skip {x : α} {xs : List α} {ys : List β} (h : ∀ y, ¬ r x y) (hs : Selects r xs ys) :
    Selects r (x :: xs) ys

theorem Selects.filterMap {α β : Type} {r : α → β → Prop} {f : α → Option β} {xs : List α}
    (h : ∀ x ∈ xs, ∀ y, f x = some y ↔ r x y) : Selects r xs (xs.filterMap f) := by
  induction xs
  case nil          => exact .nil
  case cons x xs hi =>
    have ⟨hx, hxs⟩ := List.forall_mem_cons.mp h
    rw [List.filterMap_cons]
    split
    case h_1 hn   => exact .skip (fun y hr => by simp [(hx y).mpr hr] at hn) (hi hxs)
    case h_2 y hy => exact .take ((hx y).mp hy) (hi hxs)

structure Convention.Infers (keys : List String) (table : Table) (col : Column) (link : Link) :
    Prop where
  undeclared : ∀ key ∈ table.foreignKeys, key.column ≠ col.name
  means      : ∃ stem, HasStem col.name stem ∧ Means keys stem link.targetTable
  ne_self    : link.targetTable ≠ table.name
  link_eq    : link = ⟨table.name, col.name, link.targetTable, "id"⟩

namespace Table

variable {name : String} {body : List Char} {col : Column} {keys : List String} {link : Link}

theorem link?_ofBody_iff (h : col ∈ (ofBody name body).columns) :
    Convention.link? (Convention.namesOf keys) (ofBody name body) col = some link ↔
      Convention.Infers keys (ofBody name body) col link := by
  obtain ⟨raw, _, _, hc, ha⟩ := exists_part_of_mem_columns h
  have hunbroken : '\n' ∉ col.name.toList := fun hm =>
    absurd (Clause.eq_space_of_mem_name hc hm (by decide)) (by decide)
  have hundeclared : ¬ col.isForeignKey ↔
      ∀ key ∈ (ofBody name body).foreignKeys, key.column ≠ col.name := by
    rw [ha.isForeignKey_iff]
    push Not
    rfl
  simp only [Convention.link?_eq_some_iff, Convention.stem?_eq_some_iff_of_unbroken hunbroken,
    Convention.target?_eq_some_iff, hundeclared]
  constructor
  case mp =>
    intro ⟨hu, stem, target, hs, ht, hne, hl⟩
    subst hl
    exact ⟨hu, ⟨stem, hs, ht⟩, hne, rfl⟩
  case mpr =>
    intro h
    obtain ⟨stem, hs, ht⟩ := h.means
    exact ⟨h.undeclared, stem, link.targetTable, hs, ht, h.ne_self, h.link_eq⟩

end Table

namespace Catalog

variable {cat : Catalog}

def OfBodies (cat : Catalog) : Prop :=
  ∀ key table, (key, table) ∈ cat.entries → ∃ body, table = .ofBody key body

theorem ofBodies_ofStatements (statements : List Statement) :
    (ofStatements statements).OfBodies := by
  intro key table h
  obtain ⟨s, _, he⟩ := List.mem_map.mp (mem_of_mem_ofList h)
  cases he
  exact ⟨s.body, rfl⟩

def columns (cat : Catalog) : List (Table × Column) :=
  cat.tables.flatMap fun table => table.columns.map (table, ·)

theorem conventionLinks_eq (cat : Catalog) :
    cat.conventionLinks = cat.columns.filterMap fun (table, col) =>
      Convention.link? (Convention.namesOf cat.keys) table col := by
  rw [conventionLinks, columns, List.filterMap_flatMap]
  simp only [List.filterMap_map]
  rfl

theorem explicitLinks_eq_nil_iff : cat.explicitLinks = [] ↔ ¬ cat.Resolves := by
  constructor
  case mp  => exact fun hn hr => explicitLinks_ne_nil hr hn
  case mpr =>
    intro hr
    refine List.eq_nil_iff_forall_not_mem.mpr fun link hm => hr ?_
    obtain ⟨table, ht, hm⟩ := List.mem_flatMap.mp hm
    obtain ⟨key, hk, _⟩ := List.mem_map.mp hm
    have ⟨hk, hres⟩ := List.mem_filter.mp hk
    exact ⟨table, ht, key, hk, hres⟩

theorem needsConvention_iff : cat.needsConvention ↔ ¬ cat.Resolves ∧ 2 ≤ cat.tables.length := by
  rw [needsConvention, Bool.and_eq_true, List.isEmpty_iff, explicitLinks_eq_nil_iff,
    decide_eq_true_iff, tables, List.length_map]
  rfl

-- The relationships that names of columns tell take the place of explicit ones only where there are
-- none and several tables. Their links are what the columns tell, one after another and each once.
structure FallsBack (cat : Catalog) : Prop where
  relationships_eq : cat.relationships = if ¬ cat.Resolves ∧ 2 ≤ cat.tables.length
    then cat.conventionRelationships else cat.explicitRelationships
  inferred : ∃ links, Selects (fun (table, col) => Convention.Infers cat.keys table col)
    cat.columns links ∧
    cat.conventionRelationships.map (·.toLink) = links.eraseDups

theorem selects_conventionLinks (h : cat.OfBodies) :
    Selects (fun (table, col) => Convention.Infers cat.keys table col) cat.columns
      cat.conventionLinks := by
  refine cat.conventionLinks_eq ▸ .filterMap fun (table, col) hm link => ?_
  obtain ⟨table, ht, hm⟩ := List.mem_flatMap.mp hm
  obtain ⟨col, hc, rfl, rfl⟩ := List.mem_map.mp hm
  obtain ⟨⟨key, table⟩, he, rfl⟩ := List.mem_map.mp ht
  obtain ⟨body, rfl⟩ := h key table he
  exact Table.link?_ofBody_iff hc

theorem fallsBack_ofBodies (h : cat.OfBodies) : cat.FallsBack where
  relationships_eq := if_congr needsConvention_iff rfl rfl
  inferred := ⟨cat.conventionLinks, selects_conventionLinks h, Relationship.map_toLink_ofLinks _⟩

def shop : List Statement := [
  ⟨"customers", "id INT".toList⟩,
  ⟨"CATEGORIES", "id INT".toList⟩,
  ⟨"products", "id INT, product_id INT, category_id INT".toList⟩,
  ⟨"orders",
    "customer_id INT, product_id INT REFERENCES goods, customer_ID INT, customer_id INT".toList⟩]

-- A foreign key that leads nowhere still keeps the name of its column from being read.
theorem fallsBack_ofBodies_shop : (ofStatements shop).OfBodies ∧ (ofStatements shop).FallsBack ∧
    (ofStatements shop).relationships.map (·.toLink) = [
      ⟨"products", "category_id", "CATEGORIES", "id"⟩,
      ⟨"orders", "customer_id", "customers", "id"⟩,
      ⟨"orders", "customer_ID", "customers", "id"⟩] :=
  ⟨ofBodies_ofStatements shop, fallsBack_ofBodies (ofBodies_ofStatements shop), by decide +kernel⟩

end Catalog
end SchemaGraph
