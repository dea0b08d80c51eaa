import Mathlib.Data.List.Find
import Mathlib.Logic.Relation
import SchemaGraph.Proofs.Clause.Dropped
import SchemaGraph.Proofs.Schema.WellFormed

-- That it does not matter in which order the clauses of a table stand, nor what is dropped among
-- them.
namespace SchemaGraph

open Scan

def Column.outline (col : Column) : String × String × Bool × Bool :=
  (col.name, col.declaredType, col.isPrimaryKey, col.isForeignKey)

namespace Table

def Agreeing (table : Table) : Prop :=
  ∀ key ∈ table.foreignKeys, ∀ key' ∈ table.foreignKeys, key.column = key'.column →
    key.refTable = key'.refTable ∧ key.refColumn = key'.refColumn

-- The same but for the order in which things are listed. Of several foreign keys of one column the
-- first one is taken over, so that the columns may refer to others, unless the keys agree.
structure SameButOrder (t t' : Table) : Prop where
  name        : t.name = t'.name
  outlines    : (t.columns.map (·.outline)).Perm (t'.columns.map (·.outline))
  primaryKeys : t.primaryKeys.Perm t'.primaryKeys
  foreignKeys : t.foreignKeys.Perm t'.foreignKeys
  columns     : t.Agreeing → t.columns.Perm t'.columns

end Table

namespace Clause

inductive Pads : List (List Char) → List (List Char) → Prop
  | insert {l r part} : Closed (· == ',') part → SaysNothing part → Pads (l ++ r) (l ++ part :: r)
  | delete {l r part} : SaysNothing part → Pads (l ++ part :: r) (l ++ r)

inductive Rearranges (parts parts' : List (List Char)) : Prop
  | permute (h : parts.Perm parts')
  | pad (h : Pads parts parts')

end Clause

variable {t t' t'' : Table} {table name : String} {clause : Clause} {clauses clauses' : List Clause}
variable {ps ps' : List String} {ks ks' : List ForeignKey} {parts parts' : List (List Char)}

namespace Clause

theorem outline_column? (hp : ps.Perm ps') (hk : ks.Perm ks') (clause : Clause) :
    (clause.column? ps ks).map (·.outline) = (clause.column? ps' ks').map (·.outline) := by
  have hk (name : String) : (ks.find? (·.column = name)).isSome =
      (ks'.find? (·.column = name)).isSome := by
    rw [Bool.eq_iff_iff, List.find?_isSome, List.find?_isSome]
    simp only [hk.mem_iff]
  cases clause
  case column name declaredType _ own =>
    cases own <;> simp [column?, Column.outline, Column.isForeignKey, hp.mem_iff, hk]
  all_goals rfl

end Clause

namespace Table.SameButOrder

theorem refl (t : Table) : t.SameButOrder t :=
  ⟨rfl, .refl _, .refl _, .refl _, fun _ => .refl _⟩

theorem agreeing (h : t.SameButOrder t') (ha : t.Agreeing) : t'.Agreeing :=
  fun key hm key' hm' => ha key (h.foreignKeys.mem_iff.mpr hm) key' (h.foreignKeys.mem_iff.mpr hm')

theorem trans (h : t.SameButOrder t') (h' : t'.SameButOrder t'') : t.SameButOrder t'' where
  name        := h.name.trans h'.name
  outlines    := h.outlines.trans h'.outlines
  primaryKeys := h.primaryKeys.trans h'.primaryKeys
  foreignKeys := h.foreignKeys.trans h'.foreignKeys
  columns ha  := (h.columns ha).trans (h'.columns (h.agreeing ha))

end Table.SameButOrder

namespace Table

theorem Agreeing.find?_eq (ha : (ofClauses table clauses).Agreeing)
    (hk : (ofClauses table clauses).foreignKeys.Perm ks) (name : String) :
    (ofClauses table clauses).foreignKeys.find? (·.column = name) = ks.find? (·.column = name) := by
  refine List.find?_eq_find?_of_perm hk ?_
  intro key ⟨hm, hn⟩ key' ⟨hm', hn'⟩
  have hc : key.column = key'.column := (of_decide_eq_true hn).trans (of_decide_eq_true hn').symm
  have ⟨ht, hr⟩ := ha key hm key' hm' hc
  cases key
  cases key'
  simp_all

theorem sameButOrder_ofClauses (table : String) (h : clauses.Perm clauses') :
    (ofClauses table clauses).SameButOrder (ofClauses table clauses') := by
  have hk : (ofClauses table clauses).foreignKeys.Perm (ofClauses table clauses').foreignKeys :=
    h.flatMap_right _
  have hp : (ofClauses table clauses).primaryKeys.Perm (ofClauses table clauses').primaryKeys := by
    refine (List.perm_ext_iff_of_nodup (nodup_eraseDups _) (nodup_eraseDups _)).mpr fun name => ?_
    rw [List.mem_eraseDups, List.mem_eraseDups, (h.flatMap_right _).mem_iff]
  refine ⟨rfl, ?outlines, hp, hk, ?columns⟩
  case outlines =>
    rw [columns_ofClauses, columns_ofClauses, List.map_filterMap, List.map_filterMap,
      funext (Clause.outline_column? hp hk)]
    exact h.filterMap _
  case columns =>
    intro ha
    rw [columns_ofClauses, columns_ofClauses,
      funext (Clause.column?_congr (fun _ => hp.mem_iff) (ha.find?_eq hk))]
    exact h.filterMap _

end Table

namespace Clause

theorem Pads.ofClauses_eq (h : Pads parts parts') (table : String) :
    Table.ofClauses table (ofParts parts) = .ofClauses table (ofParts parts') := by
  cases h
  case insert hn => exact (hn.ofClauses_eq table _ _).symm
  case delete hn => exact hn.ofClauses_eq table _ _

theorem Pads.closed (h : Pads parts parts') (hc : ∀ part ∈ parts, Closed (· == ',') part) :
    ∀ part ∈ parts', Closed (· == ',') part := by
  cases h
  case insert hp _ => exact forall_mem_middle hp hc
  case delete      => exact fun part hm => hc part (by simp at hm ⊢; tauto)

namespace Rearranges

-- What one step keeps.

theorem closed (h : Rearranges parts parts') (hc : ∀ part ∈ parts, Closed (· == ',') part) :
    ∀ part ∈ parts', Closed (· == ',') part := by
  cases h
  case permute h => exact fun part hm => hc part (h.mem_iff.mpr hm)
  case pad h     => exact h.closed hc

theorem sameButOrder (h : Rearranges parts parts') (table : String) :
    Table.SameButOrder (.ofClauses table (ofParts parts)) (.ofClauses table (ofParts parts')) := by
  cases h
  case permute h => exact Table.sameButOrder_ofClauses table ((h.filter _).map _)
  case pad h     => exact h.ofClauses_eq table ▸ .refl _

end Rearranges

-- What many steps keep.

theorem closed_of_rearranges (hc : ∀ part ∈ parts, Closed (· == ',') part)
    (h : Relation.ReflTransGen Rearranges parts parts') :
    ∀ part ∈ parts', Closed (· == ',') part := by
  induction h
  case refl         => exact hc
  case tail _ h hi  => exact h.closed hi

theorem sameButOrder_of_rearranges (h : Relation.ReflTransGen Rearranges parts parts')
    (table : String) :
    Table.SameButOrder (.ofClauses table (ofParts parts)) (.ofClauses table (ofParts parts')) := by
  induction h
  case refl        => exact .refl _
  case tail _ h hi => exact hi.trans (h.sameButOrder table)

theorem ofClauses_eq_of_pads (h : Relation.ReflTransGen Pads parts parts') (table : String) :
    Table.ofClauses table (ofParts parts) = .ofClauses table (ofParts parts') := by
  induction h
  case refl        => rfl
  case tail _ h hi => exact hi.trans (h.ofClauses_eq table)

-- Clauses in another order, and among others that say nothing, make the same table but for the
-- order of its columns and keys. Where only such clauses have come or gone, it is the very same.
theorem ofBody_of_rearranges (table : String) (hc : ∀ part ∈ parts, Closed (· == ',') part)
    (h : Relation.ReflTransGen Rearranges parts parts') :
    Table.SameButOrder (.ofBody table ([','].intercalate parts))
      (.ofBody table ([','].intercalate parts')) ∧
      (Relation.ReflTransGen Pads parts parts' →
        Table.ofBody table ([','].intercalate parts) =
          .ofBody table ([','].intercalate parts')) := by
  rw [Table.ofBody, Table.ofBody, ofBody_intercalate hc,
    ofBody_intercalate (closed_of_rearranges hc h)]
  exact ⟨sameButOrder_of_rearranges h table, fun hp => ofClauses_eq_of_pads hp table⟩

theorem ofBody_of_rearranges_stray :
    Table.SameButOrder (.ofBody "t" "a INT,b INT REFERENCES u,PRIMARY KEY (a)".toList)
        (.ofBody "t" "PRIMARY KEY (a),),b INT REFERENCES u,,a INT".toList) ∧
      Table.ofBody "t" "a INT,b INT REFERENCES u,PRIMARY KEY (a)".toList =
        .ofBody "t" "a INT,),b INT REFERENCES u,PRIMARY KEY (a), ".toList := by
  let a := "a INT".toList
  let b := "b INT REFERENCES u".toList
  let key := "PRIMARY KEY (a)".toList
  have hc : ∀ part ∈ [a, b, key], Closed (· == ',') part := by decide
  have hstray : Closed (· == ',') ")".toList ∧ SaysNothing ")".toList :=
    ⟨by decide, .inr ⟨")", .notNameAndType, by decide +kernel⟩⟩
  have hempty : Closed (· == ',') [] ∧ SaysNothing [] := ⟨by decide, .inl rfl⟩
  have hblank : Closed (· == ',') " ".toList ∧ SaysNothing " ".toList :=
    ⟨by decide, .inl (by decide)⟩
  have hpermuted : Rearranges [a, b, key] [key, b, a] := .permute (by decide)
  have hwithStray : Pads [key, b, a] [key, ")".toList, b, a] :=
    .insert (l := [key]) hstray.left hstray.right
  have hwithEmpty : Pads [key, ")".toList, b, a] [key, ")".toList, b, [], a] :=
    .insert (l := [key, ")".toList, b]) hempty.left hempty.right
  have hpads : Relation.ReflTransGen Pads [a, b, key] [a, ")".toList, b, key, " ".toList] :=
    .tail (.single (.insert (l := [a]) hstray.left hstray.right))
      (.insert (l := [a, ")".toList, b, key]) hblank.left hblank.right)
  have hr : Relation.ReflTransGen Rearranges [a, b, key] [key, ")".toList, b, [], a] :=
    .tail (.tail (.single hpermuted) (.pad hwithStray)) (.pad hwithEmpty)
  exact ⟨(ofBody_of_rearranges "t" hc hr).left,
    (ofBody_of_rearranges "t" hc (hpads.lift id fun _ _ => .pad)).right hpads⟩

end Clause
end SchemaGraph
