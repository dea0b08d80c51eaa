import SchemaGraph.Api.Body
import SchemaGraph.Api.Route

namespace SchemaGraph.Api

-- The answers of this project's own server, which stands in for the web framework. It looks at no
-- headers and knows no pages but those of the endpoints.

def handle (body : List Char) : Handler → Response × List Event
  | .plain value  => (.found value, [])
  | .ofSql answer =>
    match Body.sql body with
    | .error refusal => (refusal, [])
    | .ok sql        =>
      match answer sql with
      | .error error        => (.raised error, [])
      | .ok (value, events) => (.found value, events)

def answer (endpoints : List Endpoint) (r : Request) : Response × List Event :=
  match endpoints.find? (·.path == Route.ofAddress r.path) with
  | none   => (.notFound, [])
  | some e =>
    if Text.upperAscii r.method = e.method then handle r.body e.handler
    else (.methodNotAllowed, [])

end SchemaGraph.Api
