import SchemaGraph.Text.Basic

namespace SchemaGraph.Source

-- The lines of a text. A line ends at a line feed, a carriage return or both in that order.
def lines (text : List Char) : List (List Char) :=
  (text.foldr (fun c (following, ls) =>
    let ls :=
      if c = '\n' then [] :: ls
      else if c = '\r' then (if following = some '\n' then ls else [] :: ls)
      else match ls with
        | []      => [[c]]
        | l :: ls => (c :: l) :: ls
    (some c, ls)) ((none : Option Char), [[]])).2

def unifyLineEnds (text : List Char) : List Char :=
  ['\n'].intercalate (lines text)

def dropComment (line : List Char) : List Char :=
  (line.foldr (fun c (following, code) =>
    (some c, if c = '-' ∧ following = some '-' then [] else c :: code))
    ((none : Option Char), [])).2

-- Removes line comments, blank lines and blanks at the end of lines.
def normalize (text : List Char) : List Char :=
  let code := (lines text).map fun line => Text.stripEnd (dropComment line)
  Text.strip (['\n'].intercalate (code.filter (!·.isEmpty)))

end SchemaGraph.Source
