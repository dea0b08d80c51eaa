import SchemaGraph.Log.Event
import SchemaGraph.Pattern.Basic
import SchemaGraph.Text.Digit

namespace SchemaGraph.Log.Format

open Pattern

inductive Part
  | name
  | flags
  | width
  | precision
  | conversion
  deriving DecidableEq

def isConversion (c : Char) : Bool :=
  "diouxefgcrsa%".toList.any (Text.sameLetter · c)

def number : Pattern Part :=
  only '*' <|> many Text.isDigit

def label : Pattern Part :=
  only '(' ++ group .name (many Text.isWord) ++ only ')'

def measures : Pattern Part :=
  group .flags (run "#0+ -".toList.contains) ++ group .width (opt number)
    ++ opt (only '.' ++ group .precision number)

def field : Pattern Part :=
  only '%' ++ label ++ measures ++ group .conversion (char isConversion)

-- What stands for a percent sign, whatever is between its two.
def percent : Pattern Part :=
  only '%' ++ opt label ++ measures ++ only '%'

def effective (format : String) : String :=
  if format.isEmpty then "%(message)s" else format

def isValid (format : String) : Bool :=
  (field.find? (effective format).toList).isSome

-- What a field stands for. Fields that depend on the run of the program are empty.
def value (e : Event) (name : String) : String :=
  match name with
  | "levelname" => e.level.name
  | "name"      => e.origin
  | "message"   => e.message
  | _           => ""

def numberAt? (found : Pattern.Progress Part) (part : Part) : Option Nat :=
  match found.group part with
  | [] => none
  | cs => some (cs.foldl (fun n c => 10 * n + (Text.digitValue? c).getD 0) 0)

def pad (toLeft : Bool) (width : Nat) (s : String) : String :=
  let blanks := "".pushn ' ' (width - s.length)
  if toLeft then s ++ blanks else blanks ++ s

def fieldText (e : Event) (found : Pattern.Progress Part) : String :=
  let text := value e (String.ofList (found.group .name))
  let text := if found.group .conversion = ['r'] then Text.quoted text else text
  let text := match numberAt? found .precision with
    | some precision => String.ofList (text.toList.take precision)
    | none           => text
  pad ((found.group .flags).contains '-') ((numberAt? found .width).getD 0) text

def piece? (e : Event) (cur : Cursor) : Option (String × Nat) :=
  match percent.match? cur, field.match? cur with
  | some found, _          => some ("%", found.pos - cur.pos)
  | none,       some found => some (fieldText e found, found.pos - cur.pos)
  | none,       none       => cur.rest.head?.map fun c => (c.toString, 1)

def line (format : String) (e : Event) : String :=
  String.join (Cursor.readAll (piece? e) (effective format).toList) ++ "\n"

end SchemaGraph.Log.Format
