import SchemaGraph.Proofs.Api.StandIn
import SchemaGraph.Proofs.CommandLine.Parse

-- That a text gets the same answer wherever it is handed over.
namespace SchemaGraph

def Json.without (name : String) : Json → Json
  | obj fields => obj (fields.filter (·.1 != name))
  | value      => value

open Api

structure Surfaces {Request Response : Type} (f : Framework Request Response) (sql : String) where
  parse         : Request
  diagram       : Request
  surroundings  : Surroundings
  path          : String
  parse_posts   : f.Posts parse "/api/parse" sql
  diagram_posts : f.Posts diagram "/api/diagram" sql
  holds         : surroundings.Holds path sql

namespace Surfaces

section Payload

variable (config : Config) (sql : String)

theorem without_flow :
    (parsePayload config sql).without "flow" = (Schema.parse sql.toList).toJson := by
  simp [parsePayload, Json.without, Schema.toJson, Schema.fields]

theorem field?_diagramText :
    (parsePayload config sql).field? "diagramText" =
      some (.str (Schema.parse sql.toList).diagram) :=
  rfl

theorem field?_flow :
    (parsePayload config sql).field? "flow"
      = some (Flow.ofSchema (Schema.parse sql.toList) config.layout).toJson :=
  rfl

end Payload

variable {Request Response : Type} {f : Framework Request Response} {sql : String}

-- What the ways to hand a text over have in common. Both endpoints refuse a text that is too long,
-- which the program prints nonetheless; `payload` says all there is to say.
structure Agree (s : Surfaces f sql) (config : Config) (payload flow : Json) (text : String) :
    Prop where
  parse           : f.Answers config s.parse sql payload
  diagram         : f.Answers config s.diagram sql (.obj [("diagramText", .str text)])
  diagramText_eq  : payload.field? "diagramText" = some (.str text)
  flow_eq         : payload.field? "flow" = some flow
  prints_json     : s.surroundings.PrintsValue config s.path .json (payload.without "flow")
  prints_flow     : s.surroundings.PrintsValue config s.path .flow flow
  prints_mermaid  : s.surroundings.Prints config s.path .mermaid
    (String.ofList (Text.trimEnd (· == '\n') text.toList))

-- With any framework that hands texts and answers on as they are, a text that is too long is
-- refused by both endpoints; any other gets the same diagram from both, and the program prints what
-- they answer.
theorem all_agree (hf : f.Faithful) (s : Surfaces f sql) (config : Config) :
    ∃ payload flow text, s.Agree config payload flow text := by
  let schema := Schema.parse sql.toList
  exact ⟨parsePayload config sql, (Flow.ofSchema schema config.layout).toJson, schema.diagram, {
    parse           := hf.answers_parse s.parse_posts config
    diagram         := hf.answers_diagram s.diagram_posts config
    diagramText_eq  := field?_diagramText config sql
    flow_eq         := field?_flow config sql
    prints_json     :=
      without_flow config sql ▸ s.holds.printsValue (plain_schema schema) rfl
    prints_flow     := s.holds.printsValue (plain_flow _) rfl
    prints_mermaid  := s.holds.prints config .mermaid }⟩

def standIn (sql : String) : Surfaces Framework.standIn sql where
  parse         := ⟨"POST", "/api/parse", Body.ofSql sql⟩
  diagram       := ⟨"POST", "/api/diagram", Body.ofSql sql⟩
  surroundings  := {
    environment := {}
    folder      := fun _ => .file sql.toUTF8.toList
    stdin       := []
    interrupted := false }
  path          := "schema.sql"
  parse_posts   := Framework.posts_standIn (by decide +kernel) (Body.sql_ofSql sql)
  diagram_posts := Framework.posts_standIn (by decide +kernel) (Body.sql_ofSql sql)
  holds         := { head?_ne := by simp, nul_not_mem := by decide +kernel, folder_eq := rfl }

theorem all_agree_standIn : Framework.standIn.Faithful ∧
    ∃ payload flow text,
      (standIn "CREATE TABLE a (id INT);\r\n").Agree {} payload flow text :=
  ⟨Framework.faithful_standIn, all_agree Framework.faithful_standIn _ {}⟩

end Surfaces
end SchemaGraph
