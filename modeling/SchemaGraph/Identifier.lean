import SchemaGraph.Pattern.Basic

namespace SchemaGraph.Identifier

variable {γ : Type}

open Pattern

def quoteChars : List Char :=
  ['\x60', '"', '\'']

def closing? (c : Char) : Option Char :=
  if c ∈ quoteChars then some c
  else if c = '[' then some ']'
  else none

def isBare (c : Char) : Bool :=
  !Text.isBlank c && !(['\x60', '"', '\'', '(', ')', '[', ']', ',', ';', '.'].contains c)

def quotedPart (first last : Char) : Pattern γ :=
  only first ++ many (· != last) ++ only last

def barePart : Pattern γ :=
  many isBare

def part : Pattern γ :=
  quotedPart '\x60' '\x60' <|> quotedPart '"' '"' <|> quotedPart '\'' '\'' <|> quotedPart '[' ']'
    <|> barePart

def qualified : Pattern γ :=
  part ++ repeated (blanks ++ only '.' ++ blanks ++ part)

-- Takes one pair of quotes or brackets off, then any quotes left at the ends.
def unquote (token : List Char) : List Char :=
  let token := Text.strip token
  let inner :=
    match token with
    | []      => token
    | c :: cs => if 1 ≤ cs.length ∧ closing? c = cs.getLast? then cs.dropLast else token
  Text.strip (Text.trim (quoteChars.contains ·) inner)

def part? (cur : Cursor) : Option (List Char × Nat) :=
  ((part : Pattern Empty).match? cur).map fun found =>
    (cur.textTo found.toCursor, found.pos - cur.pos)

def parts (text : List Char) : List (List Char) :=
  Cursor.readAll part? text

def unquoteQualified (text : List Char) : List Char :=
  ['.'].intercalate ((parts text).map unquote)

def splitList (text : List Char) : List (List Char) :=
  ((Text.cut (· == ',') text).map unquote).filter (!·.isEmpty)

end SchemaGraph.Identifier
