import SchemaGraph.Api.Endpoint
import SchemaGraph.Config.Check

namespace SchemaGraph.Api

structure Request where
  method : String
  path : String
  body : List Char
  deriving DecidableEq, Repr

-- An answer. A body that was refused comes with the value that has the problems.
inductive Response
  | found (value : Json)
  | unreadable
  | notFound
  | methodNotAllowed
  | raised (error : HttpError)
  | unprocessable (problems : List Problem) (input : Json)

namespace Response

def status : Response → Nat
  | found _          => 200
  | unreadable       => 400
  | notFound         => 404
  | methodNotAllowed => 405
  | raised error     => error.status
  | unprocessable .. => 422

def stepJson : Problem.Step → Json
  | .field name => .str name
  | .item index => .int index

def problemFields (p : Problem) : List (String × Json) :=
  [("type", .str p.kind.name), ("loc", .arr (p.path.map stepJson))]

def problemJson (p : Problem) : Json :=
  .obj (problemFields p)

def detail (text : String) : Json :=
  .obj [("detail", .str text)]

def json : Response → Json
  | found value              => value
  | unreadable               => detail "There was an error parsing the body"
  | notFound                 => detail "Not Found"
  | methodNotAllowed         => detail "Method Not Allowed"
  | raised error             => detail error.detail
  | unprocessable problems _ => .arr (problems.map problemJson)

def sent : Response → Json
  | unprocessable problems input =>
    let problem (p : Problem) : Json :=
      .obj (problemFields p ++ [("msg", .str p.kind.sentence), ("input", input)])
    .obj [("detail", .arr (problems.map problem))]
  | response                     => response.json

end Response
end SchemaGraph.Api
