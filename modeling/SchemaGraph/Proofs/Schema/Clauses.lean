import SchemaGraph.Proofs.Scan.Join
import SchemaGraph.Proofs.Text.Neat
import SchemaGraph.Schema.Table

namespace SchemaGraph

open Scan

section
variable {α : Type} {p : α → Bool} {l r xs ys : List α} {x : α}

theorem find?_middle_of_pos (hx : p x) (h : ∀ y ∈ l ++ r, ¬ p y) :
    (l ++ x :: r).find? p = some x := by
  have hl : l.find? p = none := List.find?_eq_none.mpr fun y hy => h y (List.mem_append_left r hy)
  rw [List.find?_append, hl, Option.none_or, List.find?_cons_of_pos hx]

theorem find?_middle_of_neg (hx : ¬ p x) : (l ++ x :: r).find? p = (l ++ r).find? p := by
  rw [List.find?_append, List.find?_append, List.find?_cons_of_neg hx]

theorem find?_middle (he : xs ++ ys = l ++ r) (h : p x → ∀ y ∈ l ++ r, ¬ p y) :
    (xs ++ x :: ys).find? p = (l ++ x :: r).find? p := by
  by_cases hx : p x
  case pos => rw [find?_middle_of_pos hx (h hx), find?_middle_of_pos hx (he ▸ h hx)]
  case neg => rw [find?_middle_of_neg hx, find?_middle_of_neg hx, he]

end

namespace Clause

variable {clause : Clause} {ps ps' : List String} {ks ks' : List ForeignKey} {key : ForeignKey}
variable {name declaredType : String} {b : Bool}

theorem column?_congr (hp : ∀ name, name ∈ ps ↔ name ∈ ps')
    (hk : ∀ name, ks.find? (·.column = name) = ks'.find? (·.column = name)) (clause : Clause) :
    clause.column? ps ks = clause.column? ps' ks' := by
  have hp (name : String) : ps.contains name = ps'.contains name := by
    rw [Bool.eq_iff_iff, List.contains_iff_mem, List.contains_iff_mem, hp]
  cases clause
  case column name _ _ own => rw [column?, column?, hp, hk]
  all_goals rfl

theorem column?_own (h : ks.find? (·.column = name) = some key) :
    (column name declaredType b none).column? ps ks =
      (column name declaredType b (some key)).column? ps ks := by
  simp [column?, h]

end Clause

namespace Table

variable {l r xs ys : List Clause} {name declaredType table : String} {key : ForeignKey}
variable {key? : Option ForeignKey} {b : Bool}

theorem foreignKeys_ofClauses (table : String) (cs : List Clause) :
    (ofClauses table cs).foreignKeys = cs.flatMap (·.foreignKeys) :=
  rfl

theorem mem_primaryKeys_ofClauses {cs : List Clause} :
    name ∈ (ofClauses table cs).primaryKeys ↔ name ∈ cs.flatMap (·.primaryKeys) := by
  rw [ofClauses, List.mem_eraseDups]

theorem columns_ofClauses (table : String) (cs : List Clause) :
    (ofClauses table cs).columns = cs.filterMap
      (·.column? (ofClauses table cs).primaryKeys (ofClauses table cs).foreignKeys) :=
  rfl

structure SameButForeignKeyOrder (t t' : Table) : Prop where
  columns     : t.columns = t'.columns
  primaryKeys : t.primaryKeys = t'.primaryKeys
  foreignKeys : t.foreignKeys.Perm t'.foreignKeys

structure SameButPrimaryKeyOrder (t t' : Table) : Prop where
  columns     : t.columns = t'.columns
  primaryKeys : ∀ key, key ∈ t.primaryKeys ↔ key ∈ t'.primaryKeys
  foreignKeys : t.foreignKeys = t'.foreignKeys

theorem ofClauses_reference (hk : key.column = name)
    (hn : ∀ clause ∈ l ++ r, ∀ k ∈ clause.foreignKeys, k.column ≠ name)
    (h : xs ++ ys = l ++ .column name declaredType b none :: r) :
    SameButForeignKeyOrder (ofClauses table (xs ++ .foreignKey [key] :: ys))
      (ofClauses table (l ++ .column name declaredType b (some key) :: r)) := by
  generalize hlisted : ofClauses table (xs ++ .foreignKey [key] :: ys) = listed
  generalize hinline : ofClauses table (l ++ .column name declaredType b (some key) :: r) = inline
  have hkeys : xs.flatMap (·.foreignKeys) ++ ys.flatMap (·.foreignKeys) =
      l.flatMap (·.foreignKeys) ++ r.flatMap (·.foreignKeys) := by
    simpa [Clause.foreignKeys] using congrArg (List.flatMap (·.foreignKeys)) h
  have hks : listed.foreignKeys = xs.flatMap (·.foreignKeys) ++ key ::
      ys.flatMap (·.foreignKeys) := by
    simp [←hlisted, foreignKeys_ofClauses, Clause.foreignKeys]
  have hks' : inline.foreignKeys = l.flatMap (·.foreignKeys) ++ key ::
      r.flatMap (·.foreignKeys) := by
    simp [←hinline, foreignKeys_ofClauses, Clause.foreignKeys]
  have hother : ∀ k ∈ l.flatMap (·.foreignKeys) ++ r.flatMap (·.foreignKeys), k.column ≠ name := by
    intro k hm
    rw [←List.flatMap_append] at hm
    have ⟨clause, hclause, hm⟩ := List.mem_flatMap.mp hm
    exact hn clause hclause k hm
  have hps : listed.primaryKeys = inline.primaryKeys := by
    have hp := congrArg (List.flatMap (·.primaryKeys)) h
    rw [←hlisted, ←hinline]
    refine congrArg List.eraseDups ?_
    cases b <;> simpa [Clause.primaryKeys] using hp
  have hfind (column : String) : listed.foreignKeys.find? (·.column = column) =
      inline.foreignKeys.find? (·.column = column) := by
    rw [hks, hks']
    refine find?_middle hkeys fun hc k hm hc' => hother k hm ?_
    simp_all
  have hfirst : inline.foreignKeys.find? (·.column = name) = some key := by
    rw [hks']
    exact find?_middle_of_pos (by simp [hk]) fun k hm hc => hother k hm (by simpa using hc)
  refine ⟨?columns, hps, ?keys⟩
  case keys =>
    rw [hks, hks']
    exact List.perm_middle.trans
      ((.of_eq hkeys : List.Perm _ _).cons key |>.trans List.perm_middle.symm)
  case columns =>
    have hc : Clause.column? listed.primaryKeys listed.foreignKeys =
        Clause.column? inline.primaryKeys inline.foreignKeys :=
      funext (Clause.column?_congr (fun _ => by rw [hps]) hfind)
    calc listed.columns
      _ = (xs ++ ys).filterMap (·.column? inline.primaryKeys inline.foreignKeys) := by
        rw [←hlisted, columns_ofClauses, hlisted, List.filterMap_append,
          List.filterMap_cons_none rfl, ←List.filterMap_append, hc]
      _ = (l ++ .column name declaredType b (some key) :: r).filterMap
            (·.column? inline.primaryKeys inline.foreignKeys) := by
        rw [h, List.filterMap_append, List.filterMap_append, List.filterMap_cons,
          List.filterMap_cons, Clause.column?_own hfirst]
      _ = inline.columns := by rw [←hinline]; rfl

theorem ofClauses_primaryKey (h : xs ++ ys = l ++ .column name declaredType false key? :: r) :
    SameButPrimaryKeyOrder (ofClauses table (xs ++ .primaryKey [name] :: ys))
      (ofClauses table (l ++ .column name declaredType true key? :: r)) := by
  generalize hlisted : ofClauses table (xs ++ .primaryKey [name] :: ys) = listed
  generalize hinline : ofClauses table (l ++ .column name declaredType true key? :: r) = inline
  have hks : listed.foreignKeys = inline.foreignKeys := by
    have hf := congrArg (List.flatMap (·.foreignKeys)) h
    rw [←hlisted, ←hinline, foreignKeys_ofClauses, foreignKeys_ofClauses]
    cases key? <;> simpa [Clause.foreignKeys] using hf
  have hps (key : String) : key ∈ listed.primaryKeys ↔ key ∈ inline.primaryKeys := by
    have hp : key ∈ (xs ++ ys).flatMap (·.primaryKeys) ↔
        key ∈ l.flatMap (·.primaryKeys) ∨ key ∈ r.flatMap (·.primaryKeys) := by
      rw [h, List.flatMap_append, List.mem_append, List.flatMap_cons]
      rfl
    rw [List.flatMap_append, List.mem_append] at hp
    rw [←hlisted, ←hinline, mem_primaryKeys_ofClauses, mem_primaryKeys_ofClauses,
      List.flatMap_append, List.flatMap_append, List.mem_append, List.mem_append, List.flatMap_cons,
      List.flatMap_cons, List.mem_append, List.mem_append, or_left_comm, hp, or_left_comm]
    rfl
  refine ⟨?_, hps, hks⟩
  have hc : Clause.column? listed.primaryKeys listed.foreignKeys =
      Clause.column? inline.primaryKeys inline.foreignKeys :=
    funext (Clause.column?_congr hps fun _ => by rw [hks])
  calc listed.columns
    _ = (xs ++ ys).filterMap (·.column? inline.primaryKeys inline.foreignKeys) := by
      rw [←hlisted, columns_ofClauses, hlisted, List.filterMap_append, List.filterMap_cons_none rfl,
        ←List.filterMap_append, hc]
    _ = inline.columns := by
      rw [h, ←hinline, columns_ofClauses, List.filterMap_append, List.filterMap_append,
        List.filterMap_cons, List.filterMap_cons]
      rfl

end Table

def Clause.ofParts (parts : List (List Char)) : List Clause :=
  (parts.filter fun part => !part.all Text.isBlank).map classify

theorem forall_mem_middle {α : Type} {p : α → Prop} {l r : List α} {x : α} (hx : p x)
    (h : ∀ y ∈ l ++ r, p y) : ∀ y ∈ l ++ x :: r, p y := by
  simp at h ⊢
  grind

namespace Clause

variable {parts l r : List (List Char)} {part body : List Char} {clause : Clause}

theorem ofBody_of_split (hs : Scan.split (· == ',') body = parts)
    (hb : ∀ part ∈ parts, part.all Text.isBlank = false) : ofBody body = parts.map classify := by
  rw [ofBody, hs, List.filter_eq_self.mpr fun part hm => by simp [hb part hm]]

theorem ofParts_append (l r : List (List Char)) : ofParts (l ++ r) = ofParts l ++ ofParts r := by
  rw [ofParts, List.filter_append, List.map_append]
  rfl

theorem ofParts_middle (h : part.all Text.isBlank = false) :
    ofParts (l ++ part :: r) = ofParts l ++ classify part :: ofParts r := by
  rw [ofParts_append, ofParts, ofParts, ofParts, List.filter_cons_of_pos (by simp [h]),
    List.map_cons]

theorem exists_part_of_mem (h : clause ∈ ofParts parts) : ∃ part ∈ parts, classify part = clause :=
  have ⟨part, hm, hc⟩ := List.mem_map.mp h
  ⟨part, (List.mem_filter.mp hm).left, hc⟩

theorem ofBody_intercalate (h : ∀ part ∈ parts, Closed (· == ',') part) :
    ofBody ([','].intercalate parts) = ofParts parts := by
  rw [ofBody, split_intercalate_eq (by decide) (by decide) (by decide) (by decide) h, ofParts]
  split
  case isFalse  => rfl
  case isTrue hl =>
    have ⟨ps, hp⟩ := List.getLast?_eq_some_iff.mp hl
    simp [hp]

theorem table_intercalate (table : String) (hp : Text.Neat part) (hc : Closed (· == ',') part)
    (h : ∀ other ∈ l ++ r, Closed (· == ',') other) :
    Table.ofBody table ([','].intercalate (l ++ part :: r)) =
      .ofClauses table (ofParts l ++ classify part :: ofParts r) := by
  rw [Table.ofBody, ofBody_intercalate (forall_mem_middle hc h), ofParts_middle hp.not_blank]

end Clause

end SchemaGraph
