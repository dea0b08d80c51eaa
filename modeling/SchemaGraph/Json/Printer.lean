import SchemaGraph.Json.Basic
import SchemaGraph.Text.Digit

namespace SchemaGraph.Json

def surrogates (n : Nat) : Nat × Nat :=
  (0xD800 + (n - 0x10000) / 0x400, 0xDC00 + (n - 0x10000) % 0x400)

def unicodeEscape (unit : Nat) : List Char :=
  '\\' :: 'u' :: Text.hex 4 unit

structure Style where
  isSpread : Bool
  isAscii : Bool
  deriving DecidableEq, Repr

namespace Style

def readable : Style where
  isSpread := true
  isAscii := true

def compact : Style where
  isSpread := false
  isAscii := false

def keeps (style : Style) (c : Char) : Bool :=
  ' ' ≤ c && (c ≤ '~' || !style.isAscii)

def escapeChar (style : Style) (c : Char) : List Char :=
  if c = '"' then ['\\', '"']
  else if c = '\\' then ['\\', '\\']
  else if c = '\n' then ['\\', 'n']
  else if c = '\r' then ['\\', 'r']
  else if c = '\t' then ['\\', 't']
  else if c = '\x0c' then ['\\', 'f']
  else if c = '\x08' then ['\\', 'b']
  else if style.keeps c then [c]
  else if c.toNat < 0x10000 then unicodeEscape c.toNat
  else
    let (high, low) := surrogates c.toNat
    unicodeEscape high ++ unicodeEscape low

def quote (style : Style) (s : String) : String :=
  String.ofList ('"' :: s.toList.flatMap style.escapeChar ++ ['"'])

def indentation (depth : Nat) : String :=
  "".pushn ' ' (2 * depth)

def block (style : Style) (first last : String) (depth : Nat) (items : List String) : String :=
  if items.isEmpty || !style.isSpread then first ++ ",".intercalate items ++ last
  else
    let separator := ",\n" ++ indentation (depth + 1)
    first ++ "\n" ++ indentation (depth + 1) ++ separator.intercalate items ++ "\n"
      ++ indentation depth ++ last

def field (style : Style) (name value : String) : String :=
  style.quote name ++ (if style.isSpread then ": " else ":") ++ value

end Style

mutual

def printAt (style : Style) (depth : Nat) : Json → String
  | null        => "null"
  | bool b      => if b then "true" else "false"
  | int n       => toString n
  | decimal m e => s!"{m}e{e}"
  | infinite    => "Infinity"
  | notANumber  => "NaN"
  | str s       => style.quote s
  | unpaired s  => style.quote s
  | arr items   => style.block "[" "]" depth (printItems style (depth + 1) items)
  | obj fields  => style.block "\x7b" "\x7d" depth (printFields style (depth + 1) fields)

def printItems (style : Style) (depth : Nat) : List Json → List String
  | []            => []
  | item :: items => printAt style depth item :: printItems style depth items

def printFields (style : Style) (depth : Nat) : List (String × Json) → List String
  | []                      => []
  | (name, value) :: fields =>
    style.field name (printAt style depth value) :: printFields style depth fields

end

def print (value : Json) : String :=
  printAt .readable 0 value

def printCompact (value : Json) : String :=
  printAt .compact 0 value

end SchemaGraph.Json
