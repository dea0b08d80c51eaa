import SchemaGraph.Yaml.Position

namespace SchemaGraph.Yaml

def isFlowMark (c : Char) : Bool :=
  c == ',' || c == '[' || c == ']' || c == '\x7b' || c == '\x7d'

def endsPlain (inFlow : Bool) (c : Char) (following : Option Char) : Bool :=
  isBlankOrEnd (some c)
    || (c == ':' && (isBlankOrEnd following || (inFlow && following.any isFlowMark)))
    || (inFlow && (isFlowMark c || c == '?'))

def plainRun (inFlow : Bool) : List Char → List Char
  | []      => []
  | c :: cs => if endsPlain inFlow c cs.head? then [] else c :: plainRun inFlow cs

def plainGap (p : Position) : List Char × Bool × Position :=
  let blanks := p.rest.takeWhile (· == ' ')
  let p := p.skip blanks.length
  match p.break? with
  | none        => (blanks, false, p)
  | some (c, p) =>
    match breaks (· == ' ') (p.rest.length + 1) [] p with
    | some (more, q) => (folded c more, true, q)
    | none           => ([], true, p)

-- Reads the runs of a plain scalar. `gap` stands before the next run, and `keyAllowed` tells
-- whether a break was the last thing read.
def plainText (inFlow : Bool) (indent : Int) : (fuel : Nat) → (keyAllowed : Bool) →
    (done gap : List Char) → Position → List Char × Bool × Position
  | 0,        keyAllowed, done, _,   p => (done, keyAllowed, p)
  | fuel + 1, keyAllowed, done, gap, p =>
    let run := if p.peek? 0 = some '#' then [] else plainRun inFlow p.rest
    if run.isEmpty then (done, keyAllowed, p)
    else
      let (next, hasBreak, q) := plainGap (p.skip run.length)
      let done := done ++ gap ++ run
      if next.isEmpty || q.peek? 0 = some '#' || (!inFlow && q.column < indent) then
        (done, hasBreak, q)
      else plainText inFlow indent fuel hasBreak done next q

end SchemaGraph.Yaml
