import SchemaGraph.Proofs.Clause.Dropped
import SchemaGraph.Proofs.Clause.Target
import SchemaGraph.Proofs.Log.Told
import SchemaGraph.Proofs.Schema.Redefinition
import SchemaGraph.Proofs.Statement.Search

-- That all there is in a text is either in its schema or reported.
namespace SchemaGraph

namespace Clause

-- A clause is not one that is dropped, and all that it declares is in the table.
inductive ContributesTo (table : Table) : Clause → Prop
  | primaryKey {columns : List String} (hn : columns ≠ []) (h : columns ⊆ table.primaryKeys) :
    ContributesTo table (.primaryKey columns)
  | foreignKey {keys : List ForeignKey} (hn : keys ≠ []) (h : keys ⊆ table.foreignKeys) :
    ContributesTo table (.foreignKey keys)
  | column {name declaredType : String} {isPrimaryKey : Bool} {own : Option ForeignKey}
    (h : ∃ col ∈ table.columns, col.name = name ∧ col.declaredType = declaredType)
    (hp : isPrimaryKey → name ∈ table.primaryKeys) (hf : ∀ key ∈ own, key ∈ table.foreignKeys) :
    ContributesTo table (.column name declaredType isPrimaryKey own)

-- Each part of a body is, in order, either read as a clause or reported as dropped from the table.
inductive Sifted (table : String) : List (List Char) → List Clause → List Event → Prop
  | nil : Sifted table [] [] []
  | read {part : List Char} {parts : List (List Char)} {clauses : List Clause} {es : List Event}
    (h : ∀ text fault, classify part ≠ .unrecognized text fault)
      (hs : Sifted table parts clauses es) :
    Sifted table (part :: parts) (classify part :: clauses) es
  | dropped {part : List Char} {parts : List (List Char)} {clauses : List Clause} {es : List Event}
    {text : String} {fault : Fault} (h : classify part = .unrecognized text fault)
    (hs : Sifted table parts clauses es) :
    Sifted table (part :: parts) clauses (.droppedClause table fault text :: es)

end Clause

namespace Statement

def parts (s : Statement) : List (List Char) :=
  (Scan.split (· == ',') s.body).filter fun part => !part.all Text.isBlank

structure Accounts (s : Statement) (es : List Event) (clauses : List Clause) : Prop where
  sifted      : Clause.Sifted s.name s.parts clauses es
  length      : s.parts.length = clauses.length + es.length
  table_eq    : s.table = .ofClauses s.name clauses
  contributes : ∀ clause ∈ clauses, clause.ContributesTo s.table

end Statement

-- What becomes of a text: of the headers that the search meets, the statements, the parts of their
-- bodies and the foreign keys of the tables.
structure Schema.Accounted (text : List Char) : Prop where
  search     : Statement.Search (Source.normalize text) 0 (Statement.visits (Source.normalize text))
  headers    : (Statement.visits (Source.normalize text)).length =
    (Statement.extract (Source.normalize text)).length +
      ((events text).filter (·.isSkipping)).length
  statements : (Statement.extract (Source.normalize text)).length =
    (parse text).tables.length + ((events text).filter (·.isRedefinition)).length
  parts      : ∃ dropped : List (List Event), (events text).filter (·.isDropped) = dropped.flatten ∧
    List.Forall₂ (fun s es => ∃ clauses, s.Accounts es clauses)
      (Statement.extract (Source.normalize text)) dropped
  dangling   : (events text).filter (·.isDangling) = (parse text).tables.flatMap fun table =>
    (table.foreignKeys.filter fun key => key.refTable ∉ (parse text).names).map
      (.danglingForeignKey table.name)
  resolved   : ∀ table ∈ (parse text).tables, ∀ key ∈ table.foreignKeys,
    key.refTable ∈ (parse text).names →
    Catalog.linkOf table key ∈
      (Catalog.ofStatements (Statement.extract (Source.normalize text))).explicitRelationships.map
        (·.toLink)

variable {e : Event} {es : List Event} {s : Statement} {statements : List Statement} {table : Table}
variable {source body : List Char} {parts : List (List Char)} {known : List String}
variable {clause : Clause} {clauses : List Clause} {name : String} {cat : Catalog}
variable {level : Level} {origin told : String}

theorem length_filterMap_add {α β γ : Type} {f : α → Option β} {g : α → Option γ} (xs : List α)
    (h : ∀ x, (f x).isSome = (g x).isNone) :
    xs.length = (xs.filterMap f).length + (xs.filterMap g).length := by
  induction xs
  case nil          => rfl
  case cons x xs hi =>
    have hx := h x
    cases hf : f x <;> cases hg : g x <;> simp [hf, hg] at hx ⊢ <;> omega

namespace Statement

theorem length_visits (source : List Char) :
    (visits source).length = (extract source).length + (events source).length := by
  refine length_filterMap_add _ fun visit => ?_
  rw [Visit.statement?, Visit.event?]
  cases visit.closing?
  case none    => rfl
  case some    => cases visit.name.isEmpty <;> rfl

theorem isSkipping_of_mem_events (h : e ∈ events source) :
    e.isSkipping ∧ e.origin = "ddl_flowchart.extractor" := by
  obtain ⟨visit, _, he⟩ := List.mem_filterMap.mp h
  rw [Visit.event?] at he
  split at he
  case h_1 => exact Option.some.inj he ▸ ⟨Event.isSkipping_unterminated _ _, rfl⟩
  case h_2 =>
    split at he
    case isTrue  => exact Option.some.inj he ▸ ⟨Event.isSkipping_unnamed _, rfl⟩
    case isFalse => cases he

theorem isDropped_of_mem_bodyEvents (h : e ∈ Table.bodyEvents name body) :
    e.isDropped ∧ e.origin = "ddl_flowchart.clauses" := by
  obtain ⟨clause, _, he⟩ := List.mem_filterMap.mp h
  cases clause
  case unrecognized => exact Option.some.inj he ▸ ⟨Event.isDropped_droppedClause _ _ _, rfl⟩
  all_goals cases he

theorem origin_of_mem_readingEvents (h : e ∈ readingEvents known statements) :
    e.origin = "ddl_flowchart.parser" ∨ e.origin = "ddl_flowchart.clauses" := by
  induction statements generalizing known
  case nil          => cases h
  case cons s ss hi =>
    rw [readingEvents, List.mem_append, List.mem_append] at h
    rcases h with (h | h) | h
    · split at h
      case isTrue  => exact List.mem_singleton.mp h ▸ .inl rfl
      case isFalse => cases h
    · exact .inr (isDropped_of_mem_bodyEvents h).right
    · exact hi h

theorem filter_events_eq_nil (h : "ddl_flowchart.extractor" ≠ origin) :
    (events source).filter (Event.tells level origin told) = [] :=
  Event.filter_tells_eq_nil fun e he => by rwa [(isSkipping_of_mem_events he).right]

theorem filter_readingEvents_eq_nil (hp : "ddl_flowchart.parser" ≠ origin)
    (hc : "ddl_flowchart.clauses" ≠ origin) :
    (readingEvents known statements).filter (Event.tells level origin told) = [] :=
  Event.filter_tells_eq_nil fun e he => by
    rcases origin_of_mem_readingEvents he with h | h
    · rwa [h]
    · rwa [h]

theorem filter_isDropped_readingEvents (known : List String) (statements : List Statement) :
    (readingEvents known statements).filter (·.isDropped) =
      (statements.map fun s => Table.bodyEvents s.name s.body).flatten := by
  induction statements generalizing known
  case nil          => rfl
  case cons s ss hi =>
    have hr : (if known.contains s.name then [Event.redefinedTable s.name] else []).filter
        (·.isDropped) = [] := by
      split <;> rfl
    have hb : (Table.bodyEvents s.name s.body).filter (·.isDropped) =
        Table.bodyEvents s.name s.body :=
      List.filter_eq_self.mpr fun e he => (isDropped_of_mem_bodyEvents he).left
    rw [readingEvents, List.filter_append, List.filter_append, hr, hb, hi, List.map_cons,
      List.flatten_cons, List.nil_append]

theorem length_insert (cat : Catalog) (name : String) (table : Table) :
    (cat.insert name table).entries.length + (if name ∈ cat.keys then 1 else 0) =
      cat.entries.length + 1 := by
  have h := congrArg List.length (Catalog.keys_put name table cat.entries)
  rw [List.length_map] at h
  rw [Catalog.insert, h, Catalog.keys]
  split <;> simp

-- A statement brings a table of a new name or else a record.
theorem length_foldl_insert (hk : ∀ name, name ∈ known ↔ name ∈ cat.keys) :
    cat.entries.length + statements.length =
      ((statements.map fun s => (s.name, s.table)).foldl
        (fun cat (key, table) => cat.insert key table) cat).entries.length +
        ((readingEvents known statements).filter (·.isRedefinition)).length := by
  induction statements generalizing known cat
  case nil          => rfl
  case cons s ss hi =>
    have hk' (name : String) : name ∈ s.name :: known ↔
        name ∈ (cat.insert s.name s.table).keys := by
      rw [List.mem_cons, hk]
      exact Catalog.mem_keys_put.symm
    have hredefined : ((if known.contains s.name then [Event.redefinedTable s.name] else []).filter
        (·.isRedefinition)).length = if s.name ∈ cat.keys then 1 else 0 := by
      have hc : known.contains s.name ↔ s.name ∈ cat.keys := List.contains_iff_mem.trans (hk s.name)
      by_cases hm : s.name ∈ cat.keys
      case pos =>
        rw [if_pos (hc.mpr hm), if_pos hm,
          List.filter_cons_of_pos (Event.isRedefinition_redefinedTable _)]
        rfl
      case neg => rw [if_neg (mt hc.mp hm), if_neg hm, List.filter_nil, List.length_nil]
    have hbody : (Table.bodyEvents s.name s.body).filter (·.isRedefinition) = [] :=
      Event.filter_tells_eq_nil fun e he => (isDropped_of_mem_bodyEvents he).right ▸ by decide
    have hi := hi hk'
    have hlength := length_insert cat s.name s.table
    rw [List.map_cons, List.foldl_cons, readingEvents, List.filter_append, List.filter_append,
      hbody, List.append_nil, List.length_append, hredefined, List.length_cons]
    dsimp only at hi ⊢
    omega

theorem length_extract (statements : List Statement) : statements.length =
    (Catalog.ofStatements statements).tables.length +
      ((readingEvents [] statements).filter (·.isRedefinition)).length := by
  have h := @length_foldl_insert statements [] .empty fun _ => Iff.rfl
  rw [Catalog.tables, List.length_map]
  exact (Nat.zero_add _).symm.trans h

end Statement

namespace Clause

theorem sifted_classify (table : String) (parts : List (List Char)) :
    Sifted table parts ((parts.map classify).filter fun clause => (clause.event? table).isNone)
      ((parts.map classify).filterMap (·.event? table)) := by
  induction parts
  case nil                => exact .nil
  case cons part parts hi =>
    rw [List.map_cons]
    cases he : (classify part).event? table
    case none       =>
      rw [List.filter_cons_of_pos (by simp [he]), List.filterMap_cons_none he]
      exact .read (fun text fault hc => by simp [hc, event?] at he) hi
    case some event =>
      rw [List.filter_cons_of_neg (by simp [he]), List.filterMap_cons_some he]
      generalize hc : classify part = clause at he
      cases clause
      case unrecognized => exact Option.some.inj he ▸ .dropped hc hi
      all_goals cases he

theorem Sifted.length_eq {table : String} (h : Sifted table parts clauses es) :
    parts.length = clauses.length + es.length := by
  induction h
  case nil     => rfl
  case read    => simp [*]; omega
  case dropped => simp [*]; omega

theorem Sifted.ofClauses_eq {table : String} (h : Sifted table parts clauses es) (l : List Clause) :
    Table.ofClauses table (l ++ parts.map classify) = .ofClauses table (l ++ clauses) := by
  induction h generalizing l
  case nil => rfl
  case read part _ _ _ _ _ hi =>
    have h := hi (l ++ [classify part])
    rwa [List.append_assoc, List.append_assoc] at h
  case dropped hc _ hi =>
    rw [List.map_cons, hc, Table.ofClauses_unrecognized, hi]

theorem pairColumns_ne_nil {refTable : String} {cs rs : List String} (h : cs ≠ []) :
    pairColumns refTable cs rs ≠ [] := by
  obtain ⟨c, cs, rfl⟩ := List.exists_cons_of_ne_nil h
  rw [pairColumns_cons]
  exact List.cons_ne_nil _ _

theorem contributesTo_ofBody (name : String) (hm : clause ∈ ofBody body)
    (hn : clause.event? name = none) :
    clause.ContributesTo (Table.ofBody name body) := by
  have hp : clause.primaryKeys ⊆ (Table.ofBody name body).primaryKeys := fun _ h =>
    Table.mem_primaryKeys_ofClauses.mpr (List.mem_flatMap.mpr ⟨clause, hm, h⟩)
  have hf : clause.foreignKeys ⊆ (Table.ofBody name body).foreignKeys := fun _ h =>
    List.mem_flatMap.mpr ⟨clause, hm, h⟩
  obtain ⟨raw, _, hc⟩ := List.mem_map.mp hm
  cases hc ▸ reading_classify raw
  case unrecognized    => cases hn
  case primaryKey hne  => exact .primaryKey hne hp
  case foreignKey hne  => exact .foreignKey (pairColumns_ne_nil hne) hf
  case column name' declaredType _ _ _ _ _ =>
    refine .column ⟨_, List.mem_filterMap.mpr ⟨_, hm, rfl⟩, rfl, rfl⟩ (fun h => ?_) fun key hk => ?_
    case refine_1 => exact hp (by rw [h]; exact List.mem_singleton_self _)
    case refine_2 => exact hf (mem_foreignKeys_column.mpr hk)

end Clause

theorem Statement.accounts (s : Statement) : s.Accounts (Table.bodyEvents s.name s.body)
    ((Clause.ofBody s.body).filter fun clause => (clause.event? s.name).isNone) := by
  have hs := Clause.sifted_classify s.name s.parts
  refine ⟨hs, hs.length_eq, hs.ofClauses_eq [], fun clause hm => ?_⟩
  have ⟨hm, hn⟩ := List.mem_filter.mp hm
  exact Clause.contributesTo_ofBody s.name hm (Option.isNone_iff_eq_none.mp hn)

namespace Catalog

theorem filter_isDangling_relationshipEvents (cat : Catalog) :
    cat.relationshipEvents.filter (·.isDangling) = cat.danglingEvents := by
  have hd : ∀ e ∈ cat.danglingEvents, e.isDangling := by
    intro e he
    obtain ⟨table, _, he⟩ := List.mem_flatMap.mp he
    obtain ⟨key, _, rfl⟩ := List.mem_map.mp he
    exact Event.isDangling_danglingForeignKey table.name key
  have hc : ∀ e ∈ cat.conventionEvents, ¬ e.isDangling := by
    intro e he
    obtain ⟨link, _, rfl⟩ := List.mem_map.mp he
    simp [Event.isDangling, Event.tells, Event.level]
  rw [relationshipEvents, List.filter_append, List.filter_eq_self.mpr hd]
  split
  case isFalse => rw [List.filter_nil, List.append_nil]
  case isTrue  =>
    rw [List.filter_cons_of_neg (by simp [Event.isDangling, Event.tells, Event.level]),
      List.filter_eq_nil_iff.mpr hc, List.append_nil]

theorem origin_of_mem_relationshipEvents (h : e ∈ cat.relationshipEvents) :
    e.origin = "ddl_flowchart.relationships" := by
  cases List.mem_append.mp h
  case inl h =>
    obtain ⟨table, _, h⟩ := List.mem_flatMap.mp h
    obtain ⟨key, _, rfl⟩ := List.mem_map.mp h
    rfl
  case inr h =>
    split at h
    case isFalse => cases h
    case isTrue  =>
      cases List.mem_cons.mp h
      case inl h => exact h ▸ rfl
      case inr h =>
        obtain ⟨link, _, rfl⟩ := List.mem_map.mp h
        rfl

theorem filter_relationshipEvents_eq_nil (h : "ddl_flowchart.relationships" ≠ origin) :
    cat.relationshipEvents.filter (Event.tells level origin told) = [] :=
  Event.filter_tells_eq_nil fun e he => by rwa [origin_of_mem_relationshipEvents he]

theorem danglingEvents_eq (hk : cat.Keyed) : cat.danglingEvents = cat.tables.flatMap fun table =>
    (table.foreignKeys.filter fun key => key.refTable ∉ cat.tables.map (·.name)).map
      (.danglingForeignKey table.name) := by
  have hr (key : ForeignKey) : (!cat.resolves key) =
      decide (key.refTable ∉ cat.tables.map (·.name)) := by
    rw [hk.map_name_tables, resolves]
    simp
  simp only [danglingEvents, hr]

theorem linkOf_mem_explicitRelationships (hk : cat.Keyed) {key : ForeignKey}
    (ht : table ∈ cat.tables) (hf : key ∈ table.foreignKeys)
    (hn : key.refTable ∈ cat.tables.map (·.name)) :
    linkOf table key ∈ cat.explicitRelationships.map (·.toLink) := by
  refine Relationship.mem_map_toLink_ofLinks_iff.mpr (List.mem_flatMap.mpr ⟨table, ht, ?_⟩)
  rw [hk.map_name_tables] at hn
  exact List.mem_map_of_mem (List.mem_filter.mpr ⟨hf, List.contains_iff_mem.mpr hn⟩)

end Catalog

namespace Schema

theorem filter_events {p : Event → Bool} (hd : ∀ id name, p (.unknownEndpoint id name) = false)
    (he : p .emptySource = false) (hp : ∀ tables rels, p (.parsed tables rels) = false)
    (text : List Char) :
    (events text).filter p = (Statement.events (Source.normalize text)).filter p ++
      ((Statement.readingEvents [] (Statement.extract (Source.normalize text))).filter p ++
        (Catalog.ofStatements (Statement.extract (Source.normalize text))).relationshipEvents.filter
          p) := by
  rw [events]
  split
  case isTrue h  =>
    rw [List.isEmpty_iff.mp h, List.filter_cons_of_neg (by simp [he])]
    rfl
  case isFalse h =>
    have hdiagram (tables : List Table) (rels : List Relationship) :
        (Diagram.events tables rels).filter p = [] := by
      refine List.filter_eq_nil_iff.mpr fun e he => ?_
      obtain ⟨rel, _, he⟩ := List.mem_filterMap.mp he
      obtain ⟨name, _, rfl⟩ := Option.map_eq_some_iff.mp he
      simp [hd]
    have hparsed (tables rels : Nat) : [Event.parsed tables rels].filter p = [] :=
      List.filter_cons_of_neg (by simp [hp])
    simp only [tableEvents, List.filter_append, hdiagram, hparsed, List.append_nil,
      List.append_assoc]

section
variable (text : List Char)

theorem filter_isSkipping :
    (events text).filter (·.isSkipping) = Statement.events (Source.normalize text) := by
  have hskipped : (Statement.events (Source.normalize text)).filter (·.isSkipping) = _ :=
    List.filter_eq_self.mpr fun e he => (Statement.isSkipping_of_mem_events he).left
  have hread : (Statement.readingEvents [] (Statement.extract (Source.normalize text))).filter
      (·.isSkipping) = [] := Statement.filter_readingEvents_eq_nil (by decide) (by decide)
  have hrelated (cat : Catalog) : cat.relationshipEvents.filter (·.isSkipping) = [] :=
    Catalog.filter_relationshipEvents_eq_nil (by decide)
  rw [filter_events (fun _ _ => rfl) rfl (fun _ _ => rfl), hskipped, hread, hrelated,
    List.append_nil, List.append_nil]

theorem filter_isRedefinition :
    (events text).filter (·.isRedefinition) =
      (Statement.readingEvents [] (Statement.extract (Source.normalize text))).filter
        (·.isRedefinition) := by
  have hskipped : (Statement.events (Source.normalize text)).filter (·.isRedefinition) = [] :=
    Statement.filter_events_eq_nil (by decide)
  have hrelated (cat : Catalog) : cat.relationshipEvents.filter (·.isRedefinition) = [] :=
    Catalog.filter_relationshipEvents_eq_nil (by decide)
  rw [filter_events (fun _ _ => rfl) rfl (fun _ _ => rfl), hskipped, hrelated, List.nil_append,
    List.append_nil]

theorem filter_isDropped :
    (events text).filter (·.isDropped) =
      ((Statement.extract (Source.normalize text)).map fun s =>
        Table.bodyEvents s.name s.body).flatten := by
  have hskipped : (Statement.events (Source.normalize text)).filter (·.isDropped) = [] :=
    Statement.filter_events_eq_nil (by decide)
  have hrelated (cat : Catalog) : cat.relationshipEvents.filter (·.isDropped) = [] :=
    Catalog.filter_relationshipEvents_eq_nil (by decide)
  rw [filter_events (fun _ _ => rfl) rfl (fun _ _ => rfl), hskipped, hrelated,
    Statement.filter_isDropped_readingEvents, List.nil_append, List.append_nil]

theorem filter_isDangling : (events text).filter (·.isDangling) =
    (Catalog.ofStatements (Statement.extract (Source.normalize text))).danglingEvents := by
  have hskipped : (Statement.events (Source.normalize text)).filter (·.isDangling) = [] :=
    Statement.filter_events_eq_nil (by decide)
  have hread : (Statement.readingEvents [] (Statement.extract (Source.normalize text))).filter
      (·.isDangling) = [] := Statement.filter_readingEvents_eq_nil (by decide) (by decide)
  rw [filter_events (fun _ _ => rfl) rfl (fun _ _ => rfl), hskipped, hread,
    Catalog.filter_isDangling_relationshipEvents, List.nil_append, List.nil_append]

end

theorem accounted_events (text : List Char) : Accounted text := by
  have hk := Catalog.ofStatements_keyed (Statement.extract (Source.normalize text))
  refine ⟨Statement.search_visits _, ?headers, ?statements, ?parts, ?dangling,
    fun table ht key hf hn => ?resolved⟩
  case headers    => rw [filter_isSkipping, Statement.length_visits]
  case statements => rw [filter_isRedefinition, Statement.length_extract, parse, ofCatalog]
  case parts      =>
    refine ⟨_, filter_isDropped text, List.forall₂_map_right_iff.mpr
      (List.forall₂_same.mpr fun s _ => ?_)⟩
    exact ⟨_, s.accounts⟩
  case dangling   => rw [filter_isDangling, Catalog.danglingEvents_eq hk]; rfl
  case resolved   => exact Catalog.linkOf_mem_explicitRelationships hk ht hf hn

end Schema
end SchemaGraph
