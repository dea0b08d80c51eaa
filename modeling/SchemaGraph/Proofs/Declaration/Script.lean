import SchemaGraph.Proofs.Declaration.Clause
import SchemaGraph.Proofs.Declaration.Neat
import SchemaGraph.Proofs.Declaration.Scan
import SchemaGraph.Proofs.Schema.Inferred
import SchemaGraph.Proofs.Source
import SchemaGraph.Proofs.Statement.Extract
import SchemaGraph.Schema.Parse

namespace SchemaGraph.Declaration

open Scan Text

variable {d : Declaration} {ds : List Declaration} {items : List Item}

-- The body of a declaration falls into its items.

theorem body_eq (item : Item) (items : List Item) :
    [',', ' '].intercalate ((item :: items).map (·.text)) =
      [','].intercalate (item.text :: items.map (' ' :: ·.text)) := by
  rw [List.map_cons, intercalate_pair, List.map_map]
  rfl

theorem passes_parts {item : Item} {part : List Char}
    (h : part ∈ item.text :: items.map (' ' :: ·.text)) : Passes 0 part 0 := by
  cases List.mem_cons.mp h
  case inl h => exact h ▸ item.passes
  case inr h =>
    have ⟨item, _, hp⟩ := List.mem_map.mp h
    exact hp ▸ .cons (by decide) item.passes

theorem split_body (item : Item) (items : List Item) :
    split (· == ',') ([',', ' '].intercalate ((item :: items).map (·.text))) =
      item.text :: items.map (' ' :: ·.text) := by
  rw [body_eq]
  refine split_intercalate (by decide) (by decide) (by decide) (by decide)
    (fun part hp => (passes_parts hp).closed) fun hl => ?_
  cases List.mem_cons.mp (List.mem_of_getLast? hl)
  case inl h => exact item.neat.ne h.symm
  case inr h => simp at h

theorem settled_body (d : Declaration) :
    (Mode.outside.after d.body).isOutside ∧ Balanced (shown .outside d.body) := by
  unfold body
  cases d.items
  case nil             => exact ⟨rfl, .nil⟩
  case cons item items =>
    rw [body_eq]
    exact settled_intercalate (by decide) (by decide) (by decide) fun part hp =>
      ⟨(passes_parts hp).isOutside, (passes_parts hp).balanced⟩

theorem clauses_body (d : Declaration) : Clause.ofBody d.body = d.items.map (·.clause) := by
  unfold Clause.ofBody body
  cases d.items
  case nil             => rfl
  case cons item items =>
    have hf : (item.text :: items.map (' ' :: ·.text)).filter (fun part => !part.all isBlank) =
        item.text :: items.map (' ' :: ·.text) := by
      apply List.filter_eq_self.mpr
      intro part hp
      cases List.mem_cons.mp hp
      case inl h => simp [h, item.neat.not_blank]
      case inr h =>
        have ⟨item, _, hp⟩ := List.mem_map.mp h
        simp [←hp, item.neat.not_blank]
    have hc (item : Item) : Clause.classify (' ' :: item.text) = item.clause :=
      item.classify_eq ((collapse_cons _).trans item.neat.collapse_eq)
    rw [split_body, hf, List.map_cons, List.map_cons, List.map_map,
      item.classify_eq item.neat.collapse_eq]
    exact congrArg _ (List.map_congr_left fun item _ => hc item)

-- A declaration is one statement.

def header (d : Declaration) : Statement.Header where
  create       := ⟨"CREATE".toList, by decide⟩
  createGap    := .space
  orReplace?   := none
  scope?       := none
  temporary?   := none
  table        := ⟨"TABLE".toList, by decide⟩
  tableGap     := .space
  ifNotExists? := none
  name         := d.name.dotted
  blanks       := Gap.space.toBlanks

def statement (d : Declaration) : Statement where
  name := d.name.string
  body := d.body

def segment (d : Declaration) : Statement.Segment :=
  .statement d.header d.body d.settled_body.left d.settled_body.right

theorem lead_header (d : Declaration) :
    d.header.lead = "CREATE TABLE ".toList ++ d.name.text ++ [' '] := by
  rw [←Name.dotted_text]
  rfl

theorem text_eq (d : Declaration) : d.text = d.segment.text ++ [';'] := by
  have hs : d.segment.text = d.header.lead ++ ['('] ++ d.body ++ [')'] := rfl
  have hopen : " (".toList = [' '] ++ ['('] := by decide
  have hclose : ");".toList = [')'] ++ [';'] := by decide
  unfold text
  rw [hs, lead_header, hopen, hclose]
  ac_rfl

theorem statement?_segment (d : Declaration) : d.segment.statement? = some d.statement := by
  rw [statement, ←Name.ofList_dotted_name]
  rfl

theorem table_statement (d : Declaration) : d.statement.table = d.table := by
  rw [Statement.table, Table.ofBody, statement, clauses_body, ofClauses_eq]

theorem neat_body (item : Item) (items : List Item) :
    Neat ([',', ' '].intercalate ((item :: items).map (·.text))) := by
  induction items generalizing item
  case nil                => simpa using item.neat
  case cons next items hi =>
    have hcomma : Solid [','] := .of_firm (by simp) (by decide)
    simpa using Neat.space (item.neat.append (.word hcomma)) (hi next)

theorem neat_text (d : Declaration) : Neat d.text := by
  have hcreate : Neat "CREATE".toList := .word (.of_firm (by decide) (by decide))
  have htable : Neat "TABLE".toList := .word (.of_firm (by decide) (by decide))
  have hopen : Neat ['('] := .word (.of_firm (by decide) (by decide))
  have hclose : Neat ");".toList := .word (.of_firm (by decide) (by decide))
  have hbody : Neat (['('] ++ d.body ++ ");".toList) := by
    unfold body
    cases d.items
    case nil             => exact hopen.append hclose
    case cons item items => exact (hopen.append (neat_body item items)).append hclose
  have h := ((hcreate.spaced htable).spaced (.word d.name.solid)).spaced hbody
  have hwords : "CREATE TABLE ".toList = "CREATE".toList ++ [' '] ++ "TABLE".toList ++ [' '] := by
    decide
  have hparen : " (".toList = [' '] ++ ['('] := by decide
  have ht : d.text = "CREATE".toList ++ [' '] ++ "TABLE".toList ++ [' '] ++ d.name.text ++ [' ']
      ++ (['('] ++ d.body ++ ");".toList) := by
    unfold text
    rw [hwords, hparen]
    ac_rfl
  exact ht ▸ h

def segments : List Declaration → List (Statement.Segment × Blanks)
  | []            => []
  | [d]           => [(d.segment, .empty)]
  | d :: d' :: ds => (d.segment, .lineEnd) :: segments (d' :: ds)

theorem compose_segments (ds : List Declaration) :
    Statement.compose (segments ds) = ['\n'].intercalate (ds.map (·.text)) := by
  induction ds
  case nil          => rfl
  case cons d ds hi =>
    cases ds
    case nil        => simp [segments, Statement.compose, text_eq, Blanks.empty]
    case cons d' ds =>
      rw [segments, Statement.compose_cons, hi, List.map_cons, List.map_cons, List.map_cons,
        List.intercalate_cons_cons, d.text_eq]
      simp [Blanks.lineEnd]

theorem statements_segments (ds : List Declaration) :
    (segments ds).filterMap (·.1.statement?) = ds.map (·.statement) := by
  induction ds
  case nil          => rfl
  case cons d ds hi =>
    cases ds
    case nil        => simp [segments, statement?_segment]
    case cons d' ds =>
      rw [segments, List.filterMap_cons, statement?_segment, hi]
      rfl

theorem extract_script (ds : List Declaration) :
    Statement.extract (Source.normalize (script ds)) = ds.map (·.statement) := by
  have hn : Source.normalize (script ds) = ['\n'].intercalate (ds.map (·.text)) := by
    rw [script, ←Source.normalize_flatMap, List.flatMap_map]
    intro l hl
    have ⟨d, _, hd⟩ := List.mem_map.mp hl
    exact hd ▸ d.neat_text
  rw [hn, ←compose_segments, Statement.extract_compose, statements_segments]

-- The declared tables lead to one another.

def names (ds : List Declaration) : List String :=
  ds.map (·.name.string)

def tables (ds : List Declaration) : List Table :=
  ds.map (·.table)

def links (ds : List Declaration) : List Link :=
  ds.flatMap fun d => (d.foreignKeys.filter (·.refTable ∈ names ds)).map fun key =>
    ⟨d.name.string, key.column, key.refTable, key.refColumn⟩

def columns (ds : List Declaration) : List (Table × Column) :=
  (tables ds).flatMap fun table => table.columns.map (table, ·)

-- Names of columns count only where there are several tables and no foreign key refers to any.
structure Related (ds : List Declaration) (rels : List Relationship) : Prop where
  declared : links ds ≠ [] ∨ ds.length < 2 → rels = Relationship.ofLinks (links ds)
  inferred : links ds = [] → 2 ≤ ds.length → ∃ inferred,
    Selects (fun (table, col) => Convention.Infers (names ds) table col) (columns ds) inferred ∧
      rels = Relationship.ofLinks inferred

def catalog (ds : List Declaration) : Catalog :=
  .ofStatements (ds.map (·.statement))

section
variable (h : (names ds).Nodup)
include h

theorem entries_catalog : (catalog ds).entries = ds.map fun d => (d.name.string, d.table) := by
  have hn : ((ds.map (·.statement)).map (·.name)).Nodup := by rwa [List.map_map]
  rw [catalog, Catalog.entries_ofStatements hn, List.map_map]
  exact List.map_congr_left fun d _ => congrArg _ d.table_statement

theorem keys_catalog : (catalog ds).keys = names ds := by
  rw [Catalog.keys, entries_catalog h, List.map_map]
  rfl

theorem tables_catalog : (catalog ds).tables = tables ds := by
  rw [Catalog.tables, entries_catalog h, List.map_map]
  rfl

theorem explicitLinks_catalog : (catalog ds).explicitLinks = links ds := by
  have hr (key : ForeignKey) : (catalog ds).resolves key = decide (key.refTable ∈ names ds) := by
    rw [Catalog.resolves, keys_catalog h, List.contains_eq_mem]
  rw [Catalog.explicitLinks, tables_catalog h, tables, List.flatMap_map, funext hr]
  rfl

theorem needsConvention_catalog :
    (catalog ds).needsConvention ↔ links ds = [] ∧ 2 ≤ ds.length := by
  rw [Catalog.needsConvention, Bool.and_eq_true, List.isEmpty_iff, explicitLinks_catalog h,
    decide_eq_true_iff, entries_catalog h, List.length_map]
  rfl

theorem related_catalog : Related ds (catalog ds).relationships where
  declared hd := by
    have hn : ¬ (catalog ds).needsConvention := by
      rw [needsConvention_catalog h, not_and_or, Nat.not_le]
      exact hd
    rw [Catalog.relationships, if_neg hn, Catalog.explicitRelationships, explicitLinks_catalog h]
  inferred hl ht := by
    have hs := Catalog.selects_conventionLinks
      (Catalog.ofBodies_ofStatements (ds.map (·.statement)))
    rw [←catalog, keys_catalog h, Catalog.columns, tables_catalog h] at hs
    refine ⟨(catalog ds).conventionLinks, hs, ?_⟩
    rw [Catalog.relationships, if_pos ((needsConvention_catalog h).mpr ⟨hl, ht⟩)]
    rfl

end

-- A schema is read back from its declarations as long as no two of them declare the same name.
theorem parse_script (ds : List Declaration) (h : (ds.map (·.name.string)).Nodup) :
    (Schema.parse (script ds)).tables = ds.map (·.table) ∧
      Related ds (Schema.parse (script ds)).relationships := by
  rw [Schema.parse, extract_script]
  exact ⟨tables_catalog h, related_catalog h⟩

def library : List Declaration :=
  let author : Quoted := ⟨⟨"author".toList, by decide, by decide⟩, by decide, .backtick⟩
  let author' : Quoted := ⟨⟨"author".toList, by decide, by decide⟩, by decide, .single⟩
  let nick : Quoted := ⟨⟨"nick-name".toList, by decide, by decide⟩, by decide, .bracket⟩
  let book : Quoted := ⟨⟨"book".toList, by decide, by decide⟩, by decide, .double⟩
  let primary : Quoted := ⟨⟨"primary".toList, by decide, by decide⟩, by decide, .single⟩
  let int : TypeName := ⟨"INT".toList, by decide, by decide⟩
  let char : TypeName := ⟨"VARCHAR".toList, by decide, by decide⟩
  let size : TypeArguments := ⟨⟨"40".toList, by decide, by decide⟩, none⟩
  [⟨⟨author, []⟩, [.column nick char (some size) false none, .primaryKey none nick []]⟩,
    ⟨⟨book, []⟩, [.column primary int none true (some (⟨author', []⟩, some nick))]⟩]

theorem parse_library :
    library.map (fun d => String.ofList d.text) = [
      "CREATE TABLE \x60author\x60 ([nick-name] VARCHAR(40), PRIMARY KEY ([nick-name]));",
      "CREATE TABLE \"book\" ('primary' INT PRIMARY KEY REFERENCES 'author' ([nick-name]));"] ∧
    (Schema.parse (script library)).tables = [
      ⟨"author", [⟨"nick-name", "VARCHAR", true, none⟩], ["nick-name"], []⟩,
      ⟨"book", [⟨"primary", "INT", true, some ⟨some "author", some "nick-name"⟩⟩], ["primary"],
        [⟨"primary", "author", "nick-name"⟩]⟩] ∧
    (Schema.parse (script library)).relationships = [
      ⟨⟨"book", "primary", "author", "nick-name"⟩, "book_primary_to_author_nick-name",
        "one-to-many"⟩] := by
  have h := parse_script library (by decide)
  rw [h.left, h.right.declared (.inl (by decide +kernel))]
  exact ⟨by decide +kernel, by decide +kernel, by decide +kernel⟩

end SchemaGraph.Declaration
