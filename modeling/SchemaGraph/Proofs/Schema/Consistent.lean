import SchemaGraph.Proofs.Clause.Reading
import SchemaGraph.Proofs.Schema.Clauses
import SchemaGraph.Proofs.Schema.WellFormed
import SchemaGraph.Proofs.Text.Squeeze

-- That the columns of a table agree with its keys, whatever clauses declare them.
namespace SchemaGraph

variable {table name declaredType : String} {isPrimaryKey : Bool} {key : ForeignKey}
variable {own : Option ForeignKey} {clause : Clause} {clauses : List Clause} {raw : List Char}

namespace Clause

def isColumn : Clause → Bool
  | column .. => true
  | _         => false

def OwnsReference (clause : Clause) : Prop :=
  ∀ name declaredType isPrimaryKey key, clause = column name declaredType isPrimaryKey (some key) →
    key.column = name

theorem ownsReference_classify (raw : List Char) : (classify raw).OwnsReference := by
  intro name declaredType isPrimaryKey key h
  obtain ⟨_, _, _, _, _, hr⟩ := exists_of_classify_eq_column h
  obtain ⟨ref, _, hk⟩ := Option.map_eq_some_iff.mp hr.symm
  rw [←hk]

theorem isColumn_classify_of_isBlank (h : raw.all Text.isBlank) :
    (classify raw).isColumn = false := by
  have hw : Text.words raw = [] :=
    Text.words_append_of_isBlank (u := []) (List.all_eq_true.mp h)
  have hc : Text.collapse raw = [] := congrArg _ hw
  rw [classify, hc]
  rfl

theorem filter_isColumn_ofBody (body : List Char) : (ofBody body).filter (·.isColumn) =
    ((Scan.split (· == ',') body).map classify).filter (·.isColumn) := by
  rw [ofBody]
  induction Scan.split (· == ',') body
  case nil               => rfl
  case cons part parts hi =>
    by_cases hp : part.all Text.isBlank
    case pos =>
      rw [List.filter_cons_of_neg (by simp [hp]), hi, List.map_cons,
        List.filter_cons_of_neg (by simp [isColumn_classify_of_isBlank hp])]
    case neg =>
      rw [List.filter_cons_of_pos (by simp [hp]), List.map_cons, List.map_cons, List.filter_cons,
        List.filter_cons, hi]

theorem forall₂_columns {ps : List String} {ks : List ForeignKey} {r : Clause → Column → Prop}
    (h : ∀ clause ∈ clauses, ∀ col, clause.column? ps ks = some col → r clause col) :
    List.Forall₂ r (clauses.filter (·.isColumn)) (clauses.filterMap (·.column? ps ks)) := by
  induction clauses
  case nil                 => exact .nil
  case cons clause rest hi =>
    have ⟨hc, hr⟩ := List.forall_mem_cons.mp h
    cases clause
    case column => exact .cons (hc _ rfl) (hi hr)
    all_goals exact hi hr

end Clause

-- The foreign key that a column takes over: the one that is declared with it, or else the first one
-- that the table has for it.
def Table.keyOf? (table : Table) (own : Option ForeignKey) (column : String) : Option ForeignKey :=
  own <|> table.foreignKeys.find? (·.column = column)

structure Column.Agrees (table : Table) (own : Option ForeignKey) (col : Column) : Prop where
  isPrimaryKey_iff  : col.isPrimaryKey ↔ col.name ∈ table.primaryKeys
  isForeignKey_iff  : col.isForeignKey ↔ ∃ key ∈ table.foreignKeys, key.column = col.name
  reference_some    : col.isForeignKey → ∃ key ∈ table.foreignKeys, key.column = col.name ∧
    table.keyOf? own col.name = some key ∧ col.reference = some key.reference
  reference_none    : ¬ col.isForeignKey → col.reference = none

structure Table.Consistent (table : Table) (clauses : List Clause) : Prop where
  nodup_primaryKeys : table.primaryKeys.Nodup
  columns : List.Forall₂ (fun clause col => ∃ isPrimaryKey own,
    clause = .column col.name col.declaredType isPrimaryKey own ∧ col.Agrees table own)
      (clauses.filter (·.isColumn)) table.columns

theorem exists_of_forall₂ {α β : Type} {r : α → β → Prop} {xs : List α} {ys : List β} {y : β}
    (h : List.Forall₂ r xs ys) (hy : y ∈ ys) : ∃ x ∈ xs, r x y := by
  induction h
  case nil => cases hy
  case cons x _ _ _ hx _ hi =>
    cases List.mem_cons.mp hy
    case inl he => exact ⟨x, List.mem_cons_self, he ▸ hx⟩
    case inr hy => exact (hi hy).imp fun _ h => h.imp_left (List.mem_cons_of_mem _)

namespace Table

theorem mem_of_keyOf?_eq_some (ho : ∀ clause ∈ clauses, clause.OwnsReference)
    (hc : .column name declaredType isPrimaryKey own ∈ clauses)
    (h : (ofClauses table clauses).keyOf? own name = some key) :
    key ∈ (ofClauses table clauses).foreignKeys ∧ key.column = name := by
  cases own
  case none =>
    have h : (ofClauses table clauses).foreignKeys.find? (·.column = name) = some key := h
    exact ⟨List.mem_of_find?_eq_some h, by simpa using List.find?_some h⟩
  case some own =>
    obtain rfl : own = key := Option.some.inj h
    refine ⟨?_, ho _ hc _ _ _ _ rfl⟩
    rw [foreignKeys_ofClauses]
    exact List.mem_flatMap.mpr ⟨_, hc, List.mem_singleton_self own⟩

theorem isSome_keyOf? {t : Table} (hm : key ∈ t.foreignKeys) (hk : key.column = name) :
    (t.keyOf? own name).isSome := by
  cases own
  case some => rfl
  case none => exact List.find?_isSome.mpr ⟨key, hm, by simp [hk]⟩

theorem agrees_of_column? (ho : ∀ clause ∈ clauses, clause.OwnsReference)
    (hc : .column name declaredType isPrimaryKey own ∈ clauses) {col : Column}
    (h : (Clause.column name declaredType isPrimaryKey own).column?
      (ofClauses table clauses).primaryKeys (ofClauses table clauses).foreignKeys = some col) :
    col.name = name ∧ col.declaredType = declaredType ∧
      col.Agrees (ofClauses table clauses) own := by
  have hr : some col =
      some (⟨name, declaredType, (ofClauses table clauses).primaryKeys.contains name,
        ((ofClauses table clauses).keyOf? own name).map (·.reference)⟩ : Column) := h.symm
  cases hr
  refine ⟨rfl, rfl, List.contains_iff_mem, ?foreign, ?some, ?none⟩
  case none => exact Option.not_isSome_iff_eq_none.mp
  case foreign =>
    rw [Column.isForeignKey, Option.isSome_map]
    constructor
    case mp =>
      intro h
      obtain ⟨key, hk⟩ := Option.isSome_iff_exists.mp h
      exact ⟨key, mem_of_keyOf?_eq_some ho hc hk⟩
    case mpr => exact fun ⟨key, hm, hk⟩ => isSome_keyOf? hm hk
  case some =>
    rw [Column.isForeignKey, Option.isSome_map]
    intro h
    obtain ⟨key, hk⟩ := Option.isSome_iff_exists.mp h
    have ⟨hm, hn⟩ := mem_of_keyOf?_eq_some ho hc hk
    exact ⟨key, hm, hn, hk, by rw [hk]; rfl⟩

theorem consistent_ofClauses (ho : ∀ clause ∈ clauses, clause.OwnsReference) :
    (ofClauses table clauses).Consistent clauses where
  nodup_primaryKeys := nodup_eraseDups _
  columns := by
    refine Clause.forall₂_columns fun clause hm col hc => ?_
    cases clause
    case column name declaredType isPrimaryKey own =>
      have ⟨hn, ht, ha⟩ : col.name = name ∧ col.declaredType = declaredType ∧
          col.Agrees (ofClauses table clauses) own := agrees_of_column? ho hm hc
      exact ⟨isPrimaryKey, own, by rw [hn, ht], ha⟩
    all_goals cases hc

theorem consistent_clauses (name : String) (body : List Char) :
    (ofBody name body).Consistent (Clause.ofBody body) :=
  consistent_ofClauses fun clause hm => by
    obtain ⟨raw, _, rfl⟩ := List.mem_map.mp hm
    exact Clause.ownsReference_classify raw

theorem exists_part_of_mem_columns {body : List Char} {col : Column}
    (h : col ∈ (ofBody name body).columns) :
    ∃ raw isPrimaryKey own, Clause.classify raw =
      .column col.name col.declaredType isPrimaryKey own ∧
      col.Agrees (ofBody name body) own := by
  obtain ⟨clause, hc, isPrimaryKey, own, rfl, ha⟩ :=
    exists_of_forall₂ (consistent_clauses name body).columns h
  obtain ⟨raw, _, hr⟩ := List.mem_map.mp (List.mem_of_mem_filter hc)
  exact ⟨raw, isPrimaryKey, own, hr, ha⟩

-- Columns and keys agree in every table that is read from a body: no primary key is listed twice,
-- and the columns are those of the clauses that declare one, each with the flags and the reference
-- that the keys of the table give it.
theorem consistent_ofBody (name : String) (body : List Char) :
    (ofBody name body).Consistent ((Scan.split (· == ',') body).map Clause.classify) :=
  have h := consistent_clauses name body
  ⟨h.nodup_primaryKeys, Clause.filter_isColumn_ofBody body ▸ h.columns⟩

end Table
end SchemaGraph
