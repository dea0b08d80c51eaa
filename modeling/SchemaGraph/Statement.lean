import SchemaGraph.Identifier
import SchemaGraph.Log.Event
import SchemaGraph.Scan.Parens

namespace SchemaGraph

structure Statement where
  name : String
  body : List Char
  deriving DecidableEq, Repr

namespace Statement

open Pattern

def header : Pattern Unit :=
  wordEdge ++ keyword "CREATE" ++ gap
    ++ opt (keyword "OR" ++ gap ++ keyword "REPLACE" ++ gap)
    ++ opt ((keyword "GLOBAL" <|> keyword "LOCAL") ++ gap)
    ++ opt (keyword "TEMP" ++ opt (keyword "ORARY") ++ gap)
    ++ keyword "TABLE" ++ gap
    ++ opt (keyword "IF" ++ gap ++ keyword "NOT" ++ gap ++ keyword "EXISTS" ++ gap)
    ++ group () Identifier.qualified ++ blanks ++ only '('

-- A header that was found in a text: where it begins, where its body opens and, if it does, where
-- its body closes.
structure Visit where
  name : String
  start : Nat
  opening : Nat
  closing? : Option Nat

namespace Visit

-- Where the search goes on: after the body, or after the header of a body that never closes.
def stop (v : Visit) : Nat :=
  v.closing?.getD v.opening + 1

def statement? (text : List Char) (v : Visit) : Option Statement :=
  match v.closing? with
  | none         => none
  | some closing =>
    if v.name.isEmpty then none
    else some ⟨v.name, (text.drop (v.opening + 1)).take (closing - (v.opening + 1))⟩

def event? (v : Visit) : Option Event :=
  match v.closing? with
  | none   => some (.unterminatedStatement v.name v.start)
  | some _ => if v.name.isEmpty then some (.unnamedStatement v.start) else none

end Visit

def visit? (pairs : List (Nat × Nat)) (cur : Cursor) : Option Visit :=
  (header.match? cur).map fun found => {
    name := String.ofList (Identifier.unquoteQualified (found.group ()))
    start := cur.pos
    opening := found.pos - 1
    closing? := pairs.lookup (found.pos - 1) }

-- The headers that a search from left to right meets.
def visits (text : List Char) : List Visit :=
  let pairs := Scan.matchParens text
  Cursor.readAll (fun cur => (visit? pairs cur).map fun v => (v, v.stop - v.start)) text

def extract (text : List Char) : List Statement :=
  (visits text).filterMap (·.statement? text)

def events (text : List Char) : List Event :=
  (visits text).filterMap (·.event?)

end Statement
end SchemaGraph
