import Mathlib.Data.List.Nodup
import SchemaGraph.Proofs.Schema.Catalog
import SchemaGraph.Proofs.Schema.Convention
import SchemaGraph.Proofs.Text.Lower
import SchemaGraph.Schema.Relationships

-- What the case of letters in the name of a column changes.
namespace SchemaGraph

open Text

namespace Convention

variable {keys : List String} {column column' stem stem' candidate : String}
variable {name name' s w e : List Char}

theorem Stemmed.exists_sameButCase (h : Stemmed name s w e) (hc : SameButCase name name') :
    ∃ s' w' e', Stemmed name' s' w' e' ∧ SameButCase s s' := by
  obtain ⟨x, e', rfl, hx, he⟩ := SameButCase.exists_append (h.column_eq ▸ hc)
  obtain ⟨s', w', rfl, hs, hw⟩ := hx.exists_append
  refine ⟨s', w', e', ⟨rfl, fun hn => h.ne ?_, fun c hm hn => ?_, ?_, ?_⟩, hs⟩
  · exact SameButCase.eq_nil (hn ▸ hs.symm)
  · exact h.unbroken '\n' (hs.symm.mem_of_mem (by decide) (hn ▸ hm)) rfl
  · exact hw.folded_eq.symm.trans h.spells
  · rcases h.ending with rfl | rfl
    · exact .inl he.eq_nil
    · obtain ⟨c, rfl, hfeed⟩ := he.exists_eq_singleton
      have hm : c ∈ ['\n'] := hfeed.mem_of_singleton (by decide)
      exact .inr (by simpa using hm)

theorem stem?_sameButCase (h : SameButCase column.toList column'.toList) :
    Option.Rel (fun stem stem' => SameButCase stem.toList stem'.toList) (stem? column)
      (stem? column') := by
  have key {a b stem : String} (hc : SameButCase a.toList b.toList) (hs : stem? a = some stem) :
      ∃ stem', stem? b = some stem' ∧ SameButCase stem.toList stem'.toList := by
    obtain ⟨suffix, ending, hstem⟩ := exists_stemmed hs
    obtain ⟨s', suffix', ending', hstem', hsame⟩ := hstem.exists_sameButCase hc
    rw [←String.toList_ofList (l := s')] at hstem' hsame
    exact ⟨String.ofList s', stem?_eq_some hstem', hsame⟩
  cases hs : stem? column
  case some stem =>
    obtain ⟨stem', hs', hsame⟩ := key h hs
    exact hs' ▸ .some hsame
  case none =>
    cases hs' : stem? column'
    case none       => exact .none
    case some stem' =>
      obtain ⟨stem, hs'', _⟩ := key h.symm hs'
      simp [hs] at hs''

section
variable (hn : (keys.map lower).Nodup)
include hn

-- Where no two tables differ in the case of letters only, an exact match need not come first.
theorem tableFor?_eq_lookup (candidate : String) :
    tableFor? (namesOf keys) candidate = (namesOf keys).reverse.lookup (lower candidate) := by
  rw [tableFor?]
  split
  case isFalse  => rfl
  case isTrue h =>
    have hn : ((namesOf keys).reverse.map Prod.fst).Nodup := by
      rw [List.map_reverse, List.nodup_reverse, namesOf, List.map_map]
      exact hn
    refine ((lookup_eq_some_iff_mem hn).mpr (List.mem_reverse.mpr ?_)).symm
    exact List.mem_map_of_mem ((any_namesOf keys candidate).mp h)

theorem tableFor?_sameButCase {s s' : String} (h : SameButCase s.toList s'.toList) {ending : String}
    (he : ∀ c ∈ ending.toList, c.toNat < 128) :
    tableFor? (namesOf keys) (s ++ ending) = tableFor? (namesOf keys) (s' ++ ending) := by
  have hl := (h.append (.of_ascii he)).lower_eq
  rw [←String.toList_append, ←String.toList_append, String.ofList_toList,
    String.ofList_toList] at hl
  rw [tableFor?_eq_lookup hn, tableFor?_eq_lookup hn, hl]

theorem findSome?_regularForms (h : SameButCase stem.toList stem'.toList) :
    (regularForms stem).findSome? (tableFor? (namesOf keys)) =
      (regularForms stem').findSome? (tableFor? (namesOf keys)) := by
  have hstem := @tableFor?_sameButCase _ hn _ _ h "" (by decide)
  rw [String.append_empty, String.append_empty] at hstem
  have hs := @tableFor?_sameButCase _ hn _ _ h "s" (by decide)
  have hes := @tableFor?_sameButCase _ hn _ _ h "es" (by decide)
  rw [regularForms, regularForms]
  simp only [List.findSome?_cons, hstem, hs, hes]

end

theorem target?_eq (keys : List String) (stem : String) :
    target? (namesOf keys) stem = ((regularForms stem).findSome? (tableFor? (namesOf keys))).or
      (if stem.toList.getLast? = some 'y' then tableFor? (namesOf keys) (iesForm stem)
      else none) := by
  rw [target?, candidates_eq, forms, List.findSome?_append]
  split
  case isTrue  => rw [List.findSome?_singleton]
  case isFalse => rfl

-- Of these stems one ends in a small `y` and the other in a capital one, and nothing but the plural
-- in `ies` is a table, so that the second stem means none.
structure Overlooked (keys : List String) (stem stem' : String) : Prop where
  small   : stem.toList.getLast? = some 'y'
  capital : stem'.toList.getLast? = some 'Y'
  closest : ∃ target, target? (namesOf keys) stem = some target ∧ Closest keys (iesForm stem) target
  missed  : target? (namesOf keys) stem' = none

section
variable (hn : (keys.map lower).Nodup) (h : SameButCase stem.toList stem'.toList)
include hn h

theorem tableFor?_iesForm (hy : stem.toList.getLast? = some 'y') :
    tableFor? (namesOf keys) (iesForm stem) = tableFor? (namesOf keys) (iesForm stem') := by
  obtain ⟨_, _, _, hd⟩ := h.exists_getLast? hy
  rw [←String.toList_ofList (l := stem.toList.dropLast),
    ←String.toList_ofList (l := stem'.toList.dropLast)] at hd
  exact tableFor?_sameButCase hn hd (by decide)

theorem target?_eq_or_overlooked (hy : stem.toList.getLast? = some 'y')
    (hy' : stem'.toList.getLast? ≠ some 'y') :
    target? (namesOf keys) stem = target? (namesOf keys) stem' ∨ Overlooked keys stem stem' := by
  have ht := target?_eq keys stem
  have ht' := target?_eq keys stem'
  rw [if_pos hy] at ht
  rw [if_neg hy', ←findSome?_regularForms hn h, Option.or_none] at ht'
  cases hr : (regularForms stem).findSome? (tableFor? (namesOf keys))
  case some target => exact .inl (by rw [ht, ht', hr, Option.some_or])
  case none =>
    rw [hr, Option.none_or] at ht
    rw [hr] at ht'
    cases hies : tableFor? (namesOf keys) (iesForm stem)
    case none        => exact .inl (by rw [ht, ht', hies])
    case some target =>
      obtain ⟨c, hc, hsame, _⟩ := h.exists_getLast? hy
      have hm : c ∈ ['y', 'Y'] := hsame.mem_of_singleton (by decide)
      have hcapital : c = 'Y' := by
        rcases List.mem_pair.mp hm with rfl | rfl
        · exact absurd hc hy'
        · rfl
      exact .inr ⟨hy, hcapital ▸ hc, ⟨target, ht.trans hies, tableFor?_eq_some_iff.mp hies⟩, ht'⟩

theorem target?_sameButCase : target? (namesOf keys) stem = target? (namesOf keys) stem' ∨
    Overlooked keys stem stem' ∨ Overlooked keys stem' stem := by
  by_cases hy : stem.toList.getLast? = some 'y'
  case pos =>
    by_cases hy' : stem'.toList.getLast? = some 'y'
    case neg => exact (target?_eq_or_overlooked hn h hy hy').imp_right .inl
    case pos =>
      rw [target?_eq, target?_eq, if_pos hy, if_pos hy', findSome?_regularForms hn h,
        tableFor?_iesForm hn h hy]
      exact .inl rfl
  case neg =>
    by_cases hy' : stem'.toList.getLast? = some 'y'
    case pos => exact (target?_eq_or_overlooked hn h.symm hy' hy).imp Eq.symm .inr
    case neg =>
      rw [target?_eq, target?_eq, if_neg hy, if_neg hy', findSome?_regularForms hn h]
      exact .inl rfl

end

theorem map_targetTable_link? (names : Names) (table : Table) (col : Column) :
    (link? names table col).map (·.targetTable) = if col.isForeignKey then none else
      ((stem? col.name).bind (target? names)).filter (· ≠ table.name) := by
  rw [link?]
  split
  case isTrue  => rfl
  case isFalse =>
    cases (stem? col.name).bind (target? names)
    case none        => rfl
    case some target => by_cases h : target = table.name <;> simp [h, Option.filter]

def Misses (keys : List String) (column column' : String) : Prop :=
  ∃ stem stem', stem? column = some stem ∧ stem? column' = some stem' ∧ Overlooked keys stem stem'

theorem link?_sameButCase (hn : (keys.map lower).Nodup) (table : Table) {col : Column}
    {name : String} (h : SameButCase col.name.toList name.toList) :
    (link? (namesOf keys) table col).map (·.targetTable) =
        (link? (namesOf keys) table { col with name }).map (·.targetTable) ∨
      Misses keys col.name name ∨ Misses keys name col.name := by
  have hstems := stem?_sameButCase h
  rw [map_targetTable_link?, map_targetTable_link?]
  change (ite (col.isForeignKey = true) _ _ = ite (col.isForeignKey = true) _ _) ∨ _
  cases hs : stem? col.name <;> cases hs' : stem? name <;> rw [hs, hs'] at hstems <;> cases hstems
  case none.none => exact .inl rfl
  case some.some stem stem' hsame =>
    rcases target?_sameButCase hn hsame with ht | hover | hover
    · exact .inl (by rw [Option.bind_some, Option.bind_some, ht])
    · exact .inr (.inl ⟨stem, stem', hs, hs', hover⟩)
    · exact .inr (.inr ⟨stem', stem, hs', hs, hover⟩)

end Convention

namespace Catalog

open Convention

variable {cat cat' : Catalog} {table : Table} {col : Column} {name : String}

def Renames (cat cat' : Catalog) (table : Table) (col : Column) (name : String) : Prop :=
  ∃ es es' key l r, table.columns = l ++ col :: r ∧ cat.entries = es ++ (key, table) :: es' ∧
    cat'.entries = es ++ (key, { table with columns := l ++ { col with name } :: r }) :: es'

def conventionLinksOf (cat : Catalog) (table : Table) : List Link :=
  table.columns.filterMap (link? (namesOf cat.keys) table)

theorem conventionLinksOf_eq {l r : List Column} (h : table.columns = l ++ col :: r) :
    cat.conventionLinksOf table = l.filterMap (link? (namesOf cat.keys) table) ++
      (link? (namesOf cat.keys) table col).toList ++
        r.filterMap (link? (namesOf cat.keys) table) := by
  simp only [conventionLinksOf, h, List.filterMap_eq_flatMap_toList, List.flatMap_append,
    List.flatMap_cons, List.append_assoc]

theorem conventionLinks_eq_around {es es' : List (String × Table)} {key : String}
    (h : cat.entries = es ++ (key, table) :: es') : cat.conventionLinks =
      (es.map Prod.snd).flatMap cat.conventionLinksOf ++ cat.conventionLinksOf table ++
        (es'.map Prod.snd).flatMap cat.conventionLinksOf := by
  change cat.tables.flatMap cat.conventionLinksOf = _
  rw [tables, h, List.map_append, List.map_cons, List.flatMap_append, List.flatMap_cons,
    List.append_assoc]

theorem Renames.exists_conventionLinks (h : cat.Renames cat' table col name) :
    ∃ before behind,
      cat.conventionLinks =
        before ++ (link? (namesOf cat.keys) table col).toList ++ behind ∧
      cat'.conventionLinks =
        before ++ (link? (namesOf cat.keys) table { col with name }).toList ++ behind := by
  obtain ⟨es, es', key, l, r, hcols, he, he'⟩ := h
  have hkeys : cat'.keys = cat.keys := by simp [keys, he, he']
  have hof : cat'.conventionLinksOf = cat.conventionLinksOf :=
    funext fun table => by rw [conventionLinksOf, conventionLinksOf, hkeys]
  refine ⟨(es.map Prod.snd).flatMap cat.conventionLinksOf ++
    l.filterMap (link? (namesOf cat.keys) table),
    r.filterMap (link? (namesOf cat.keys) table) ++
      (es'.map Prod.snd).flatMap cat.conventionLinksOf, ?_, ?_⟩
  · rw [conventionLinks_eq_around he, conventionLinksOf_eq hcols]
    simp only [List.append_assoc]
  · rw [conventionLinks_eq_around he', hof, conventionLinksOf_eq rfl]
    -- Of a table nothing but its name shows in what a column tells.
    change _ ++ (l.filterMap (link? _ table) ++ (link? _ table _).toList ++
      r.filterMap (link? _ table)) ++ _ = _
    simp only [List.append_assoc]

-- A column leads to the same table whichever way its name is written, unless that table is
-- overlooked for one of the names. What all other columns tell stays as it is.
structure LeadsAlike (cat cat' : Catalog) (table : Table) (col : Column) (name : String) :
    Prop where
  links : ∃ before behind,
    cat.conventionRelationships =
      Relationship.ofLinks (before ++ (link? (namesOf cat.keys) table col).toList ++ behind) ∧
    cat'.conventionRelationships =
      Relationship.ofLinks (before ++ (link? (namesOf cat.keys) table { col with name }).toList ++
        behind)
  target : (link? (namesOf cat.keys) table col).map (·.targetTable) =
      (link? (namesOf cat.keys) table { col with name }).map (·.targetTable) ∨
    Misses cat.keys col.name name ∨ Misses cat.keys name col.name

theorem leadsAlike_of_renames (hn : (cat.keys.map lower).Nodup)
    (hr : cat.Renames cat' table col name) (hc : SameButCase col.name.toList name.toList) :
    cat.LeadsAlike cat' table col name where
  links :=
    have ⟨before, behind, h, h'⟩ := hr.exists_conventionLinks
    ⟨before, behind, congrArg Relationship.ofLinks h, congrArg Relationship.ofLinks h'⟩
  target := link?_sameButCase hn table hc

def pairWith (target source : String) (hne : target ≠ source) (column : String) : Catalog where
  entries := [
    (target, ⟨target, [⟨"id", "INT", false, none⟩], [], []⟩),
    (source, ⟨source, [⟨column, "INT", false, none⟩], [], []⟩)]
  nodup := by simpa using hne

theorem pairWith_renames {target source : String} (hne : target ≠ source) (column name : String) :
    (pairWith target source hne column).Renames (pairWith target source hne name)
      ⟨source, [⟨column, "INT", false, none⟩], [], []⟩ ⟨column, "INT", false, none⟩ name :=
  ⟨[_], [], source, [], [], rfl, rfl, rfl⟩

theorem leadsAlike_of_renames_orders :
    LeadsAlike (pairWith "Customers" "orders" (by decide) "customer_id")
        (pairWith "Customers" "orders" (by decide) "CUSTOMER_ID")
        ⟨"orders", [⟨"customer_id", "INT", false, none⟩], [], []⟩ ⟨"customer_id", "INT", false,
          none⟩ "CUSTOMER_ID" ∧
      (pairWith "Customers" "orders" (by decide) "CUSTOMER_ID").conventionRelationships.map
        (·.toLink) =
        [⟨"orders", "CUSTOMER_ID", "Customers", "id"⟩] :=
  ⟨leadsAlike_of_renames (by decide +kernel) (pairWith_renames (by decide) _ _)
    ⟨by decide, by decide, by decide⟩, by decide +kernel⟩

-- The plural of a stem with a capital `Y` at its end is not tried.
theorem leadsAlike_of_renames_missed :
    ∃ cat cat' table col name, (cat.keys.map lower).Nodup ∧ Renames cat cat' table col name ∧
      SameButCase col.name.toList name.toList ∧
      cat.conventionRelationships.map (·.toLink) = [⟨"items", "category_id", "categories", "id"⟩] ∧
      cat'.conventionRelationships = [] :=
  ⟨pairWith "categories" "items" (by decide) "category_id",
    pairWith "categories" "items" (by decide) "CATEGORY_ID",
    _, _, _, by decide +kernel, pairWith_renames (by decide) _ _, ⟨by decide, by decide, by decide⟩,
    by decide +kernel, by decide +kernel⟩

end Catalog
end SchemaGraph
