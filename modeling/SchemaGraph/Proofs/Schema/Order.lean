import Mathlib.Data.List.Perm.Basic
import SchemaGraph.Proofs.Schema.WellFormed

-- What does not depend on the order in which tables are declared.
namespace SchemaGraph

variable {cat cat' : Catalog} {link : Link} {table : Table}

namespace Convention

variable {names names' : Names}

-- Under distinct lower-case forms there is no last table to prefer.
theorem tableFor?_perm (h : names.Perm names') (hn : (names.map Prod.fst).Nodup) :
    tableFor? names = tableFor? names' := by
  funext candidate
  have ha : (names.any (·.2 == candidate)) = names'.any (·.2 == candidate) := by
    rw [Bool.eq_iff_iff, List.any_eq_true, List.any_eq_true]
    simp only [h.mem_iff]
  have hr : names.reverse.Perm names'.reverse :=
    (List.reverse_perm _).trans (h.trans (List.reverse_perm _).symm)
  have hl := lookup_perm hr (by rwa [List.map_reverse, List.nodup_reverse]) (Text.lower candidate)
  rw [tableFor?, tableFor?, ha, hl]

theorem link?_perm (h : names.Perm names') (hn : (names.map Prod.fst).Nodup) (table : Table) :
    link? names table = link? names' table := by
  have ht : target? names = target? names' :=
    funext fun stem => by rw [target?, target?, tableFor?_perm h hn]
  funext col
  rw [link?, link?, ht]

end Convention

namespace Catalog

theorem entries_ofStatements {statements : List Statement} (h : (statements.map (·.name)).Nodup) :
    (ofStatements statements).entries = statements.map fun s => (s.name, s.table) :=
  entries_ofList (by rwa [List.map_map])

def Resolves (cat : Catalog) : Prop :=
  ∃ table ∈ cat.tables, ∃ key ∈ table.foreignKeys, cat.resolves key

instance (cat : Catalog) : Decidable cat.Resolves :=
  inferInstanceAs (Decidable (∃ table ∈ cat.tables, _))

theorem explicitLinks_ne_nil (h : cat.Resolves) : cat.explicitLinks ≠ [] := by
  have ⟨table, ht, key, hk, hr⟩ := h
  have hm : linkOf table key ∈ (table.foreignKeys.filter cat.resolves).map (linkOf table) :=
    List.mem_map_of_mem (List.mem_filter.mpr ⟨hk, hr⟩)
  exact List.ne_nil_of_mem (List.mem_flatMap.mpr ⟨table, ht, hm⟩)

theorem mem_links_iff : link ∈ cat.relationships.map (·.toLink) ↔
    link ∈ if cat.needsConvention then cat.conventionLinks else cat.explicitLinks := by
  unfold relationships
  split <;> exact Relationship.mem_map_toLink_ofLinks_iff

structure SameGraph (cat cat' : Catalog) : Prop where
  entries : cat.entries.Perm cat'.entries
  links   : ∀ link, link ∈ cat.relationships.map (·.toLink) ↔
    link ∈ cat'.relationships.map (·.toLink)

section
variable (h : cat.entries.Perm cat'.entries)
include h

theorem keys_perm : cat.keys.Perm cat'.keys :=
  h.map _

theorem resolves_perm : cat.resolves = cat'.resolves := by
  funext key
  rw [Bool.eq_iff_iff, resolves, resolves, List.contains_iff_mem, List.contains_iff_mem,
    (keys_perm h).mem_iff]

theorem explicitLinks_perm : cat.explicitLinks.Perm cat'.explicitLinks := by
  rw [explicitLinks, explicitLinks, resolves_perm h]
  exact (h.map Prod.snd).flatMap_right _

theorem conventionLinks_perm (hn : (cat.keys.map Text.lower).Nodup) :
    cat.conventionLinks.Perm cat'.conventionLinks := by
  have hp : (Convention.namesOf cat.keys).Perm (Convention.namesOf cat'.keys) :=
    (keys_perm h).map _
  have hl : Convention.link? (Convention.namesOf cat.keys) =
      Convention.link? (Convention.namesOf cat'.keys) :=
    funext (Convention.link?_perm hp (by rwa [Convention.namesOf, List.map_map]))
  rw [conventionLinks, conventionLinks, hl]
  exact (h.map Prod.snd).flatMap_right _

theorem needsConvention_perm : cat.needsConvention = cat'.needsConvention := by
  rw [needsConvention, needsConvention, (explicitLinks_perm h).isEmpty_eq, h.length_eq]

theorem sameGraph_of_resolves (hr : cat.Resolves) : SameGraph cat cat' where
  entries := h
  links link := by
    have hc : cat.needsConvention = false := by
      simp [needsConvention, explicitLinks_ne_nil hr]
    rw [mem_links_iff, mem_links_iff, ←needsConvention_perm h, hc]
    exact (explicitLinks_perm h).mem_iff

theorem sameGraph_of_lower (hn : (cat.keys.map Text.lower).Nodup) : SameGraph cat cat' where
  entries := h
  links link := by
    rw [mem_links_iff, mem_links_iff, ←needsConvention_perm h]
    split
    case isTrue  => rw [(conventionLinks_perm h hn).mem_iff]
    case isFalse => rw [(explicitLinks_perm h).mem_iff]

end
end Catalog

namespace Statement

-- The order of the statements does not matter to the graph when no two names are the same but for
-- the case of letters. Once a foreign key leads to a table, it is enough that no two are the same.
theorem sameGraph_of_perm {text text' : List Char} (h : (extract text).Perm (extract text'))
    (hn : ((extract text).map fun s => Text.lower s.name).Nodup ∨
      ((extract text).map (·.name)).Nodup ∧ (Catalog.ofStatements (extract text)).Resolves) :
    Catalog.SameGraph (.ofStatements (extract text)) (.ofStatements (extract text')) := by
  have key (hn : ((extract text).map (·.name)).Nodup) :
      (Catalog.ofStatements (extract text)).entries.Perm
        (Catalog.ofStatements (extract text')).entries := by
    rw [Catalog.entries_ofStatements hn, Catalog.entries_ofStatements ((h.map _).nodup_iff.mp hn)]
    exact h.map _
  cases hn
  case inr hr => exact Catalog.sameGraph_of_resolves (key hr.left) hr.right
  case inl hl =>
    have hn : ((extract text).map (·.name)).Nodup :=
      .of_map Text.lower (by rwa [List.map_map])
    refine Catalog.sameGraph_of_lower (key hn) ?_
    rwa [Catalog.keys, Catalog.entries_ofStatements hn, List.map_map, List.map_map]

theorem sameGraph_forwards :
    (extract "CREATE TABLE a (b_id INT);CREATE TABLE b (c INT)".toList).Perm
        (extract "CREATE TABLE b (c INT);CREATE TABLE a (b_id INT)".toList) ∧
      Catalog.SameGraph
        (.ofStatements (extract "CREATE TABLE a (b_id INT);CREATE TABLE b (c INT)".toList))
        (.ofStatements (extract "CREATE TABLE b (c INT);CREATE TABLE a (b_id INT)".toList)) ∧
    (extract "CREATE TABLE t (a INT REFERENCES T);CREATE TABLE T (b INT)".toList).Perm
        (extract "CREATE TABLE T (b INT);CREATE TABLE t (a INT REFERENCES T)".toList) ∧
      Catalog.SameGraph
        (.ofStatements
          (extract "CREATE TABLE t (a INT REFERENCES T);CREATE TABLE T (b INT)".toList))
        (.ofStatements
          (extract "CREATE TABLE T (b INT);CREATE TABLE t (a INT REFERENCES T)".toList)) := by
  have ha : extract "CREATE TABLE a (b_id INT);CREATE TABLE b (c INT)".toList =
      [⟨"a", "b_id INT".toList⟩, ⟨"b", "c INT".toList⟩] := by decide +kernel
  have hb : extract "CREATE TABLE b (c INT);CREATE TABLE a (b_id INT)".toList =
      [⟨"b", "c INT".toList⟩, ⟨"a", "b_id INT".toList⟩] := by decide +kernel
  have ht : extract "CREATE TABLE t (a INT REFERENCES T);CREATE TABLE T (b INT)".toList =
      [⟨"t", "a INT REFERENCES T".toList⟩, ⟨"T", "b INT".toList⟩] := by decide +kernel
  have hT : extract "CREATE TABLE T (b INT);CREATE TABLE t (a INT REFERENCES T)".toList =
      [⟨"T", "b INT".toList⟩, ⟨"t", "a INT REFERENCES T".toList⟩] := by decide +kernel
  refine ⟨?here, sameGraph_of_perm ?here (.inl ?lower), ?there,
    sameGraph_of_perm ?there (.inr ?known)⟩
  case here  => rw [ha, hb]; exact .swap ..
  case lower => rw [ha]; decide +kernel
  case there => rw [ht, hT]; exact .swap ..
  case known => rw [ht]; exact ⟨by decide, by decide +kernel⟩

end Statement
end SchemaGraph
