import SchemaGraph.Config.Basic
import SchemaGraph.Log.Event
import SchemaGraph.Schema.Json

namespace SchemaGraph.Api

structure HttpError where
  status : Nat
  detail : String
  deriving DecidableEq, Repr

inductive Handler
  | plain (value : Json)
  | ofSql (answer : String → Except HttpError (Json × List Event))

structure Endpoint where
  method : String
  path : String
  handler : Handler

def exceeds (config : Config) (sql : String) : Bool :=
  config.web.maxInputChars < sql.length

def checkedSql (config : Config) (sql : String) : Except HttpError String :=
  if exceeds config sql then
    .error ⟨413, s!"SQL input exceeds {config.web.maxInputChars} characters"⟩
  else .ok sql

def parsePayload (config : Config) (sql : String) : Json :=
  let schema := Schema.parse sql.toList
  .obj (schema.fields ++ [("flow", (Flow.ofSchema schema config.layout).toJson)])

def parseEvents (config : Config) (sql : String) : List Event :=
  let schema := Schema.parse sql.toList
  Schema.events sql.toList
    ++ [.answered schema.tables.length schema.relationships.length]
    ++ Flow.events schema config.layout

def parseSchema (config : Config) (sql : String) : Except HttpError (Json × List Event) := do
  let sql ← checkedSql config sql
  return (parsePayload config sql, parseEvents config sql)

def diagramPayload (sql : String) : Json :=
  .obj [("diagramText", .str (Schema.parse sql.toList).diagram)]

def diagramText (config : Config) (sql : String) : Except HttpError (Json × List Event) := do
  let sql ← checkedSql config sql
  return (diagramPayload sql, Schema.events sql.toList)

def endpoints (config : Config) : List Endpoint := [
  ⟨"POST", "/api/parse", .ofSql (parseSchema config)⟩,
  ⟨"POST", "/api/diagram", .ofSql (diagramText config)⟩,
  ⟨"GET", "/api/health", .plain (.obj [("status", .str "healthy")])⟩]

end SchemaGraph.Api
