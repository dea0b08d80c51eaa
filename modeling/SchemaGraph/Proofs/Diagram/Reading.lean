import SchemaGraph.Proofs.Diagram.Row
import SchemaGraph.Proofs.Diagram.Shown

-- What a diagram says can be read from it again.
namespace SchemaGraph.Diagram

-- What has been read of the lines from some line on: the fields whose table opens before, the
-- tables and the links.
structure Reading where
  fields : List Field
  entities : List Entity
  links : List Link
  deriving DecidableEq, Repr

namespace Reading

def empty : Reading where
  fields := []
  entities := []
  links := []

def add (row : Row) (r : Reading) : Reading :=
  match row with
  | .opening name => { r with fields := [], entities := ⟨name, r.fields⟩ :: r.entities }
  | .field f      => { r with fields := f :: r.fields }
  | .closing      => { r with fields := [] }
  | .link l       => { r with links := l :: r.links }

def ofRows (rows : List Row) : Reading :=
  rows.foldr add empty

def ofText (text : List Char) : Reading :=
  ofRows ((Text.cut (· == '\n') text).filterMap Row.ofText?)

theorem ofRows_links (links : List Link) : ofRows (links.map .link) = ⟨[], [], links⟩ := by
  induction links
  case nil             => rfl
  case cons l links hi => exact congrArg (add (.link l)) hi

theorem ofRows_fields (fields : List Field) (rows : List Row) : ofRows (fields.map .field ++ rows) =
    { ofRows rows with fields := fields ++ (ofRows rows).fields } := by
  induction fields
  case nil              => rfl
  case cons f fields hi => exact congrArg (add (.field f)) hi

theorem ofRows_entity (e : Entity) (rows : List Row) : ofRows (e.rows ++ rows) =
    { ofRows rows with fields := [], entities := e :: (ofRows rows).entities } := by
  have hf : ofRows (e.fields.map .field ++ .closing :: rows) =
      { ofRows rows with fields := e.fields ++ [] } := ofRows_fields e.fields (.closing :: rows)
  rw [List.append_nil] at hf
  rw [Entity.rows, List.append_assoc, List.singleton_append, List.cons_append]
  exact congrArg (add (.opening e.name)) hf

theorem ofRows_entities (es : List Entity) (links : List Link) :
    ofRows (es.flatMap (·.rows) ++ links.map .link) = ⟨[], es, links⟩ := by
  induction es
  case nil          => exact ofRows_links links
  case cons e es hi => rw [List.flatMap_cons, List.append_assoc, ofRows_entity, hi]

end Reading

def rows (schema : Schema) : List Row :=
  (schema.tables.map Entity.ofTable).flatMap (·.rows) ++ (schema.shown.map (·.toLink)).map .link

theorem toList_diagram (schema : Schema) : schema.diagram.toList =
    header.toList ++ (rows schema).flatMap fun row => row.text ++ ['\n'] := by
  have ht : (schema.tables.flatMap tableLines).flatMap (·.toList) =
      ((schema.tables.map Entity.ofTable).flatMap (·.rows)).flatMap fun row =>
        row.text ++ ['\n'] := by
    simp only [List.flatMap_assoc, List.flatMap_map, toList_tableLines]
  have hl : (schema.shown.map relationshipLine).flatMap (·.toList) =
      ((schema.shown.map (·.toLink)).map Row.link).flatMap fun row => row.text ++ ['\n'] := by
    simp only [List.flatMap_map, Row.toList_relationshipLine]
  rw [Schema.diagram, render, String.toList_join, schema.lines_eq, List.flatMap_append,
    List.flatMap_append, List.flatMap_singleton, ht, hl, List.append_assoc, ←List.flatMap_append]
  rfl

structure Readable (schema : Schema) : Prop where
  table_name    : ∀ table ∈ schema.tables, Plain table.name
  column_name   : ∀ table ∈ schema.tables, ∀ col ∈ table.columns, Plain col.name
  column_type   : ∀ table ∈ schema.tables, ∀ col ∈ table.columns, Plain col.declaredType
  source_column : ∀ rel ∈ schema.relationships, Plain rel.sourceColumn
  target_column : ∀ rel ∈ schema.relationships, Plain rel.targetColumn

namespace Readable

variable {schema schema' : Schema}

theorem plain_entity (h : Readable schema) {table : Table} (hm : table ∈ schema.tables) :
    ∀ row ∈ (Entity.ofTable table).rows, row.Plain := by
  intro row hr
  rw [Entity.rows, List.mem_append, List.mem_cons, List.mem_map] at hr
  rcases hr with (rfl | ⟨f, hf, rfl⟩) | hr
  case inl.inl => exact h.table_name table hm
  case inl.inr =>
    obtain ⟨col, hc, rfl⟩ := List.mem_map.mp hf
    exact ⟨h.column_name table hm col hc, h.column_type table hm col hc⟩
  case inr =>
    cases List.mem_singleton.mp hr
    trivial

theorem plain_link (h : Readable schema) {rel : Relationship} (hm : rel ∈ schema.shown) :
    (Row.link rel.toLink).Plain := by
  have ⟨hr, hj⟩ := List.mem_filter.mp hm
  have ⟨hs, ht⟩ : schema.Joins rel.toLink := of_decide_eq_true hj
  have key {name} (hn : name ∈ schema.names) : Plain name := by
    have ⟨table, hm, he⟩ := List.mem_map.mp hn
    exact he ▸ h.table_name table hm
  exact ⟨key hs, h.source_column rel hr, key ht, h.target_column rel hr⟩

theorem plain_rows (h : Readable schema) : ∀ row ∈ rows schema, row.Plain := by
  intro row hr
  rw [rows, List.map_map] at hr
  cases List.mem_append.mp hr
  case inl hr =>
    have ⟨e, he, hr⟩ := List.mem_flatMap.mp hr
    have ⟨table, hm, he⟩ := List.mem_map.mp he
    cases he
    exact h.plain_entity hm row hr
  case inr hr =>
    have ⟨rel, hm, he⟩ := List.mem_map.mp hr
    cases he
    exact h.plain_link hm

theorem ofText_diagram (h : Readable schema) : Reading.ofText schema.diagram.toList =
    ⟨[], schema.tables.map .ofTable, schema.shown.map (·.toLink)⟩ := by
  have hr := h.plain_rows
  have htext : schema.diagram.toList =
      "erDiagram".toList ++ '\n' :: ((rows schema).map Row.text).flatMap (· ++ ['\n']) := by
    rw [toList_diagram, List.flatMap_map]
    rfl
  have hline : ∀ line ∈ (rows schema).map Row.text, ∀ c ∈ line, ¬ c == '\n' := by
    intro line hl c hc
    have ⟨row, hm, he⟩ := List.mem_map.mp hl
    simpa using Row.ne_newline_of_mem_text (hr row hm) c (he ▸ hc)
  have hcut : Text.cut (· == '\n') schema.diagram.toList =
      "erDiagram".toList :: ((rows schema).map Row.text ++ [[]]) := by
    rw [htext, Text.cut_append_cons rfl, Text.cut_flatMap rfl hline]
    rfl
  have hrows : ((rows schema).map Row.text).filterMap Row.ofText? = rows schema := by
    rw [List.filterMap_map]
    calc (rows schema).filterMap (Row.ofText? ∘ Row.text)
      _ = (rows schema).filterMap some := List.filterMap_congr fun row hm =>
        Row.ofText?_text (hr row hm)
      _ = rows schema                  := List.filterMap_some
  have hfirst : Row.ofText? "erDiagram".toList = none := by decide
  have hlast : Row.ofText? [] = none := by decide
  rw [Reading.ofText, hcut, List.filterMap_cons_none hfirst, List.filterMap_append, hrows,
    List.filterMap_cons_none hlast, List.filterMap_nil, List.append_nil]
  exact Reading.ofRows_entities _ _

-- Two schemas with one diagram are the same as far as diagrams go.
theorem eq_of_diagram_eq (h : Readable schema) (h' : Readable schema')
    (he : schema.diagram = schema'.diagram) :
    schema.tables.map Entity.ofTable = schema'.tables.map Entity.ofTable ∧
      schema.shown.map (·.toLink) = schema'.shown.map (·.toLink) := by
  have hr := h.ofText_diagram
  rw [he, h'.ofText_diagram, Reading.mk.injEq] at hr
  exact ⟨hr.right.left.symm, hr.right.right.symm⟩

theorem eq_of_diagram_eq_braces :
    let col : Column := ⟨"\x7b", "PK", false, none⟩
    let table : Table := ⟨"\x7d", [col], [], []⟩
    let rel : Relationship := ⟨⟨"\x7d", "->", "\x7d", "||--o\x7b"⟩, "a", "one-to-many"⟩
    let rel' : Relationship := ⟨⟨"\x7d", "->", "t", ":"⟩, "b", "one-to-many"⟩
    let schema : Schema := ⟨[table], [rel]⟩
    let schema' : Schema :=
      ⟨[{ table with primaryKeys := ["\x7b"] }], [rel', { rel with id := "c" }]⟩
    Readable schema ∧ Readable schema' ∧ schema.diagram = schema'.diagram ∧
      schema.tables.map Entity.ofTable = schema'.tables.map Entity.ofTable ∧
        schema.shown.map (·.toLink) = schema'.shown.map (·.toLink) := by
  intro col table rel rel' schema schema'
  have h : Readable schema := by constructor <;> decide +kernel
  have h' : Readable schema' := by constructor <;> decide +kernel
  have he : schema.diagram = schema'.diagram := by decide +kernel
  exact ⟨h, h', he, h.eq_of_diagram_eq h' he⟩

end Readable
end SchemaGraph.Diagram
