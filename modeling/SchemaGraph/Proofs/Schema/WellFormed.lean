import Mathlib.Data.List.Nodup
import SchemaGraph.Proofs.Schema.Catalog
import SchemaGraph.Proofs.Schema.Convention
import SchemaGraph.Schema.Parse

namespace SchemaGraph

variable {cat : Catalog} {link : Link} {rel : Relationship} {table : Table} {name : String}

theorem nodup_eraseDups {α : Type} [BEq α] [LawfulBEq α] : (xs : List α) → xs.eraseDups.Nodup
  | []      => .nil
  | x :: xs => by
    have : (xs.filter fun y => !y == x).length < xs.length + 1 :=
      Nat.lt_add_one_of_le (List.length_filter_le _ _)
    rw [List.eraseDups_cons]
    exact List.nodup_cons.mpr ⟨by simp, nodup_eraseDups _⟩
termination_by xs => xs.length

theorem Relationship.map_toLink_ofDistinctLinks (used : List String) (links : List Link) :
    (ofDistinctLinks used links).map (·.toLink) = links := by
  induction links generalizing used
  case nil             => rfl
  case cons link _ hi => exact congrArg (link :: ·) (hi _)

theorem Relationship.map_toLink_ofLinks (links : List Link) :
    (ofLinks links).map (·.toLink) = links.eraseDups :=
  map_toLink_ofDistinctLinks ..

theorem Relationship.mem_map_toLink_ofLinks_iff {links : List Link} :
    link ∈ (ofLinks links).map (·.toLink) ↔ link ∈ links := by
  rw [map_toLink_ofLinks, List.mem_eraseDups]

namespace Convention

theorem link?_ends {keys : List String} {col : Column}
    (h : link? (namesOf keys) table col = some link) :
    link.sourceTable = table.name ∧ link.targetTable ∈ keys := by
  obtain ⟨_, stem, target, _, ht, _, rfl⟩ := link?_eq_some_iff.mp h
  obtain ⟨_, _, _, _, _, hclosest⟩ := target?_eq_some_iff.mp ht
  exact ⟨rfl, hclosest.mem⟩

end Convention

namespace Catalog

def Joins (cat : Catalog) (link : Link) : Prop :=
  link.sourceTable ∈ cat.keys ∧ link.targetTable ∈ cat.keys

namespace Keyed

theorem joins_of_mem_explicitLinks (hk : cat.Keyed) (h : link ∈ cat.explicitLinks) :
    cat.Joins link := by
  have ⟨table, ht, hl⟩ := List.mem_flatMap.mp h
  have ⟨key, hf, he⟩ := List.mem_map.mp hl
  cases he
  exact ⟨hk.mem_keys ht, List.contains_iff_mem.mp (List.mem_filter.mp hf).right⟩

theorem joins_of_mem_conventionLinks (hk : cat.Keyed) (h : link ∈ cat.conventionLinks) :
    cat.Joins link := by
  have ⟨table, ht, hl⟩ := List.mem_flatMap.mp h
  have ⟨col, _, hc⟩ := List.mem_filterMap.mp hl
  have ⟨hs, ht'⟩ := Convention.link?_ends hc
  exact ⟨hs ▸ hk.mem_keys ht, ht'⟩

theorem joins_of_mem_relationships (hk : cat.Keyed) (h : rel ∈ cat.relationships) :
    cat.Joins rel.toLink := by
  have key {links : List Link} (h : rel ∈ Relationship.ofLinks links) : rel.toLink ∈ links :=
    Relationship.mem_map_toLink_ofLinks_iff.mp (List.mem_map_of_mem h)
  unfold relationships at h
  split at h
  case isTrue  => exact hk.joins_of_mem_conventionLinks (key h)
  case isFalse => exact hk.joins_of_mem_explicitLinks (key h)

end Keyed

theorem nodup_links (cat : Catalog) : (cat.relationships.map (·.toLink)).Nodup := by
  unfold relationships
  split <;> exact Relationship.map_toLink_ofLinks _ ▸ nodup_eraseDups _

end Catalog

namespace Schema

def names (schema : Schema) : List String :=
  schema.tables.map (·.name)

structure WellFormed (schema : Schema) : Prop where
  nodup_names   : schema.names.Nodup
  names_ne      : "" ∉ schema.names
  table?_iff    : ∀ name table, schema.table? name = some table ↔
    table ∈ schema.tables ∧ table.name = name
  table?_none   : ∀ name, schema.table? name = none ↔ name ∉ schema.names
  source_mem    : ∀ rel ∈ schema.relationships, rel.sourceTable ∈ schema.names
  target_mem    : ∀ rel ∈ schema.relationships, rel.targetTable ∈ schema.names
  nodup_links   : (schema.relationships.map (·.toLink)).Nodup
  diagram_shows : ∀ rel ∈ schema.relationships,
    (Diagram.relationshipLine rel).toList <:+: schema.diagram.toList
  diagram_skips : Diagram.events schema.tables schema.relationships = []

theorem missing?_eq_none {tables : List Table} (hs : rel.sourceTable ∈ tables.map (·.name))
    (ht : rel.targetTable ∈ tables.map (·.name)) : Diagram.missing? tables rel = none := by
  have key {name} (h : name ∈ tables.map (·.name)) : tables.any (·.name == name) := by simpa using h
  simp [Diagram.missing?, key hs, key ht]

theorem relationshipLine_infix_diagram {schema : Schema} (h : rel ∈ schema.relationships)
    (hm : Diagram.missing? schema.tables rel = none) :
    (Diagram.relationshipLine rel).toList <:+: schema.diagram.toList := by
  have hf : rel ∈ schema.relationships.filter fun rel =>
      (Diagram.missing? schema.tables rel).isNone :=
    List.mem_filter.mpr ⟨h, by simp [hm]⟩
  have hl : Diagram.relationshipLine rel ∈ Diagram.lines schema.tables schema.relationships :=
    List.mem_append_right _ (List.mem_map_of_mem hf)
  rw [diagram, Diagram.render, String.toList_join, List.flatMap_def]
  exact List.infix_of_mem_flatten (List.mem_map_of_mem hl)

theorem table?_eq_some_iff {schema : Schema} (h : schema.names.Nodup) :
    schema.table? name = some table ↔ table ∈ schema.tables ∧ table.name = name where
  mp he := ⟨List.mem_reverse.mp (List.mem_of_find?_eq_some he), by simpa using List.find?_some he⟩
  mpr := by
    intro ⟨hm, hn⟩
    cases hf : schema.table? name
    case none =>
      have := List.find?_eq_none.mp hf table (List.mem_reverse.mpr hm)
      simp [hn] at this
    case some table' =>
      have hm' : table' ∈ schema.tables := List.mem_reverse.mp (List.mem_of_find?_eq_some hf)
      have hn' : table'.name = name := by simpa using List.find?_some hf
      exact congrArg some <| List.inj_on_of_nodup_map h hm' hm (hn'.trans hn.symm)

theorem table?_eq_none_iff {schema : Schema} : schema.table? name = none ↔ name ∉ schema.names := by
  simp [table?, names]

theorem wellFormed_ofCatalog (hk : cat.Keyed) (hn : "" ∉ cat.keys) :
    (ofCatalog cat).WellFormed := by
  have names_eq : (ofCatalog cat).names = cat.keys := hk.map_name_tables
  have nodup : (ofCatalog cat).names.Nodup := names_eq ▸ cat.nodup
  have source {rel} (h : rel ∈ cat.relationships) : rel.sourceTable ∈ (ofCatalog cat).names :=
    names_eq ▸ (hk.joins_of_mem_relationships h).left
  have target {rel} (h : rel ∈ cat.relationships) : rel.targetTable ∈ (ofCatalog cat).names :=
    names_eq ▸ (hk.joins_of_mem_relationships h).right
  have missing {rel} (h : rel ∈ cat.relationships) : Diagram.missing? cat.tables rel = none :=
    missing?_eq_none (source h) (target h)
  exact {
    nodup_names   := nodup
    names_ne      := names_eq ▸ hn
    table?_iff    := fun _ _ => table?_eq_some_iff nodup
    table?_none   := fun _ => table?_eq_none_iff
    source_mem    := fun _ => source
    target_mem    := fun _ => target
    nodup_links   := cat.nodup_links
    diagram_shows := fun _ h => relationshipLine_infix_diagram h (missing h)
    diagram_skips := List.filterMap_eq_nil_iff.mpr fun _ h => by simp [ofCatalog, missing h] }

theorem table?_ofCatalog (hk : cat.Keyed) (name : String) :
    (ofCatalog cat).table? name = cat.find? name := by
  have hn : (ofCatalog cat).names.Nodup :=
    (show (ofCatalog cat).names = cat.keys from hk.map_name_tables) ▸ cat.nodup
  ext table
  rw [table?_eq_some_iff hn, Catalog.find?_eq_some_iff]
  constructor
  case mp  => exact fun ⟨hm, he⟩ => he ▸ hk.mem_tables_iff.mp hm
  case mpr =>
    intro hm
    have he := hk _ _ hm
    exact ⟨hk.mem_tables_iff.mpr (he ▸ hm), he⟩

theorem parse_wellFormed (text : List Char) :
    (parse text).WellFormed ∧ ∀ name, (parse text).table? name =
      (Catalog.ofStatements (Statement.extract (Source.normalize text))).find? name := by
  have hk := Catalog.ofStatements_keyed (Statement.extract (Source.normalize text))
  refine ⟨wellFormed_ofCatalog hk fun hn => ?_, table?_ofCatalog hk⟩
  have ⟨e, he, hn⟩ := List.mem_map.mp hn
  have ⟨s, hs, he⟩ := List.mem_map.mp (Catalog.mem_of_mem_ofList he)
  exact Statement.name_of_mem_extract hs (by rw [←hn, ←he])

end Schema
end SchemaGraph
