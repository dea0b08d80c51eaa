import SchemaGraph.Api.Endpoint
import SchemaGraph.Proofs.Json.Reading

-- What is relied on in the web framework that answers with the endpoints, and what comes of it.
namespace SchemaGraph.Api

-- A web framework, as far as it shows: what a request asks for, which text is read from its body
-- where a handler takes one, and what is answered with some endpoints.
structure Framework (Request Response : Type) where
  method : Request → String
  path   : Request → String
  sql?   : Request → Option String
  answer : List Endpoint → Request → Response
  status : Response → Nat
  value? : Response → Option Json

namespace Framework

variable {Request Response : Type}

structure Posts (f : Framework Request Response) (r : Request) (path sql : String) : Prop where
  method_eq : f.method r = "POST"
  path_eq   : f.path r = path
  sql?_eq   : f.sql? r = some sql

-- The text that is posted to an endpoint comes to its handler, and what the handler returns or
-- raises comes back. Nothing is said of any other request.
structure Faithful (f : Framework Request Response) : Prop where
  returned : ∀ {es e handler r sql value events}, (es.map Endpoint.path).Nodup → e ∈ es →
    e.method = "POST" → e.handler = .ofSql handler → f.Posts r e.path sql →
    handler sql = .ok (value, events) → value.Plain →
    f.status (f.answer es r) = 200 ∧ f.value? (f.answer es r) = some value
  raised   : ∀ {es e handler r sql error}, (es.map Endpoint.path).Nodup → e ∈ es →
    e.method = "POST" → e.handler = .ofSql handler → f.Posts r e.path sql →
    handler sql = .error error → f.status (f.answer es r) = error.status

structure Answers (f : Framework Request Response) (config : Config) (r : Request) (sql : String)
    (payload : Json) : Prop where
  status_eq_413_iff : f.status (f.answer (endpoints config) r) = 413 ↔
    config.web.maxInputChars < sql.length
  status_eq_200     : ¬ config.web.maxInputChars < sql.length →
    f.status (f.answer (endpoints config) r) = 200
  value?_eq         : ¬ config.web.maxInputChars < sql.length →
    f.value? (f.answer (endpoints config) r) = some payload

end Framework

theorem nodup_path_endpoints (config : Config) : ((endpoints config).map Endpoint.path).Nodup := by
  show ["/api/parse", "/api/diagram", "/api/health"].Nodup
  decide

section Handler

variable {config : Config} {sql : String}

theorem exceeds_iff : exceeds config sql ↔ config.web.maxInputChars < sql.length := by
  simp [exceeds]

theorem checkedSql_of_lt (h : config.web.maxInputChars < sql.length) :
    ∃ detail, checkedSql config sql = .error ⟨413, detail⟩ :=
  ⟨_, if_pos (exceeds_iff.mpr h)⟩

theorem checkedSql_of_not_lt (h : ¬ config.web.maxInputChars < sql.length) :
    checkedSql config sql = .ok sql :=
  if_neg (mt exceeds_iff.mp h)

end Handler

section Plain

open Json (Plain)

theorem plain_ofOption_str (s : Option String) : Plain (.ofOption .str s) := by
  cases s
  case none   => exact .null
  case some s => exact .str s

theorem plain_column (col : Column) : Plain col.toJson := by
  rw [Column.toJson]
  cases col.reference
  case none =>
    refine .obj (by simp [Column.referenceFields]) ?_
    simp [Column.referenceFields, Plain.str, Plain.bool]
  case some ref =>
    refine .obj (by simp [Column.referenceFields]) ?_
    simp [Column.referenceFields, Plain.str, Plain.bool, plain_ofOption_str]

theorem plain_columns (columns : List Column) : Plain (columnsToJson columns) :=
  .arr (List.forall_mem_map.mpr fun col _ => plain_column col)

theorem plain_table (table : Table) : Plain table.toJson := by
  refine .obj (by simp) ?_
  simp [Plain.str, plain_columns]

theorem plain_relationship (rel : Relationship) : Plain rel.toJson := by
  refine .obj (by simp) ?_
  simp [Plain.str]

theorem plain_node (node : Flow.Node) : Plain node.toJson := by
  have hdata : Plain (.obj [("label", .str node.id), ("columns", columnsToJson node.columns)]) := by
    refine .obj (by simp) ?_
    simp [Plain.str, plain_columns]
  have hposition : Plain (.obj [("x", .int node.position.x), ("y", .int node.position.y)]) := by
    refine .obj (by simp) ?_
    simp [Plain.int]
  refine .obj (by simp) ?_
  simp [Plain.str, hdata, hposition]

theorem plain_edge (edge : Flow.Edge) : Plain edge.toJson := by
  refine .obj (by simp) ?_
  simp [Plain.str, Plain.bool]

theorem plain_flow (flow : Flow) : Plain flow.toJson := by
  have hnodes : Plain (.arr (flow.nodes.map Flow.Node.toJson)) :=
    .arr (List.forall_mem_map.mpr fun node _ => plain_node node)
  have hedges : Plain (.arr (flow.edges.map Flow.Edge.toJson)) :=
    .arr (List.forall_mem_map.mpr fun edge _ => plain_edge edge)
  refine .obj (by simp) ?_
  simp [hnodes, hedges]

theorem plain_fields (schema : Schema) : ∀ field ∈ schema.fields, Plain field.2 := by
  have htables : Plain (.arr (schema.tables.map Table.toJson)) :=
    .arr (List.forall_mem_map.mpr fun table _ => plain_table table)
  have hrels : Plain (.arr (schema.relationships.map Relationship.toJson)) :=
    .arr (List.forall_mem_map.mpr fun rel _ => plain_relationship rel)
  simp [Schema.fields, htables, hrels, Plain.str]

theorem plain_schema (schema : Schema) : Plain schema.toJson :=
  .obj (by simp [Schema.fields]) (plain_fields schema)

theorem plain_parsePayload (config : Config) (sql : String) : Plain (parsePayload config sql) := by
  refine .obj (by simp [Schema.fields]) fun field hf => ?_
  rcases List.mem_append.mp hf with hf | hf
  case inl => exact plain_fields _ field hf
  case inr => exact List.mem_singleton.mp hf ▸ plain_flow _

theorem plain_diagramPayload (sql : String) : Plain (diagramPayload sql) := by
  refine .obj (by simp) ?_
  simp [Plain.str]

end Plain

namespace Framework.Faithful

variable {Request Response : Type} {f : Framework Request Response} {r : Request} {e : Endpoint}
  {handler : String → Except HttpError (Json × List Event)} {sql : String} {payload : Json}
  {events : List Event}

theorem answers (hf : f.Faithful) {config : Config} (he : e ∈ endpoints config)
    (hm : e.method = "POST") (hh : e.handler = .ofSql handler) (hr : f.Posts r e.path sql)
    (hs : handler sql = (checkedSql config sql).map fun _ => (payload, events))
    (hp : payload.Plain) : f.Answers config r sql payload := by
  have hn := nodup_path_endpoints config
  by_cases hl : config.web.maxInputChars < sql.length
  case pos =>
    obtain ⟨detail, hc⟩ := checkedSql_of_lt hl
    have hraised := hf.raised hn he hm hh hr (hs.trans (by rw [hc]; rfl))
    exact ⟨iff_of_true hraised hl, absurd hl, absurd hl⟩
  case neg =>
    have hc := checkedSql_of_not_lt hl
    have ⟨hstatus, hvalue⟩ := hf.returned hn he hm hh hr (hs.trans (by rw [hc]; rfl)) hp
    exact ⟨iff_of_false (by simp [hstatus]) hl, fun _ => hstatus, fun _ => hvalue⟩

theorem answers_parse (hf : f.Faithful) (hr : f.Posts r "/api/parse" sql) (config : Config) :
    f.Answers config r sql (parsePayload config sql) := by
  have hs : parseSchema config sql = (checkedSql config sql).map fun _ =>
      (parsePayload config sql, parseEvents config sql) := by
    rw [parseSchema, checkedSql]
    split <;> rfl
  exact hf.answers (.head _) rfl rfl hr hs (plain_parsePayload config sql)

theorem answers_diagram (hf : f.Faithful) (hr : f.Posts r "/api/diagram" sql) (config : Config) :
    f.Answers config r sql (diagramPayload sql) := by
  have hs : diagramText config sql = (checkedSql config sql).map fun _ =>
      (diagramPayload sql, Schema.events sql.toList) := by
    rw [diagramText, checkedSql]
    split <;> rfl
  exact hf.answers (.tail _ (.head _)) rfl rfl hr hs (plain_diagramPayload sql)

end Framework.Faithful
end SchemaGraph.Api
