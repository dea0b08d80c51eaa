import SchemaGraph.Json.Basic
import SchemaGraph.Text.Digit

namespace SchemaGraph.Json

structure Limits where
  nesting : Nat
  digits : Nat
  deriving DecidableEq, Repr

inductive Fault
  | malformed
  | tooDeep
  | tooManyDigits
  deriving DecidableEq, Repr

abbrev Reader (α : Type) := List Char → Except Fault (α × List Char)

namespace Reader

def isSpace (c : Char) : Bool :=
  c == ' ' || c == '\t' || c == '\n' || c == '\r'

def skipSpace (cs : List Char) : List Char :=
  cs.dropWhile isSpace

def isDigit (c : Char) : Bool :=
  '0' ≤ c && c ≤ '9'

def digitsValue (ds : List Char) : Nat :=
  ds.foldl (fun n d => 10 * n + (d.toNat - '0'.toNat)) 0

def after? : (word : List Char) → List Char → Option (List Char)
  | [],      cs      => some cs
  | _ :: _,  []      => none
  | w :: ws, c :: cs => if w = c then after? ws cs else none

def hex4? (a b c d : Char) : Option Nat := do
  let a ← Text.hexValue? a
  let b ← Text.hexValue? b
  let c ← Text.hexValue? c
  let d ← Text.hexValue? d
  return ((a * 16 + b) * 16 + c) * 16 + d

def shortEscape? : Char → Option Char
  | '"'  => some '"'
  | '\\' => some '\\'
  | '/'  => some '/'
  | 'b'  => some '\x08'
  | 'f'  => some '\x0c'
  | 'n'  => some '\n'
  | 'r'  => some '\r'
  | 't'  => some '\t'
  | _    => none

def codePoints (done : List Text.CodePoint) : Reader (List Text.CodePoint)
  | []                                    => .error .malformed
  | '"' :: cs                             => .ok (done.reverse, cs)
  | '\\' :: 'u' :: a :: b :: c :: d :: cs =>
    match hex4? a b c d with
    | none   => .error .malformed
    | some n => codePoints (.ofNat n :: done) cs
  | '\\' :: c :: cs                       =>
    match shortEscape? c with
    | none   => .error .malformed
    | some c => codePoints (.char c :: done) cs
  | c :: cs                               =>
    if c < ' ' then .error .malformed else codePoints (.char c :: done) cs

def text : Reader (List Text.CodePoint) := fun cs => do
  let (content, cs) ← codePoints [] cs
  return (Text.CodePoint.joinHalves content, cs)

def natural : Reader (List Char)
  | '0' :: cs => .ok (['0'], cs)
  | cs        =>
    match cs.span isDigit with
    | ([], _)  => .error .malformed
    | (ds, cs) => .ok (ds, cs)

def fraction : List Char → List Char × List Char
  | '.' :: cs =>
    match cs.span isDigit with
    | ([], _)   => ([], '.' :: cs)
    | (ds, cs') => (ds, cs')
  | cs        => ([], cs)

def exponentDigits (sign : Int) (before cs : List Char) : Option Int × List Char :=
  match cs.span isDigit with
  | ([], _)  => (none, before)
  | (ds, cs) => (some (sign * digitsValue ds), cs)

def exponent (before : List Char) : Option Int × List Char :=
  match before with
  | e :: cs =>
    if e = 'e' ∨ e = 'E' then
      match cs with
      | '-' :: cs => exponentDigits (-1) before cs
      | '+' :: cs => exponentDigits 1 before cs
      | cs        => exponentDigits 1 before cs
    else (none, before)
  | []      => (none, before)

def unsignedNumber (limits : Limits) (sign : Int) : Reader Json := fun cs => do
  let (whole, cs) ← natural cs
  let (part, cs) := fraction cs
  let (power, cs) := exponent cs
  if part.isEmpty && power.isNone then
    if limits.digits < whole.length then throw .tooManyDigits
    return (int (sign * digitsValue whole), cs)
  return (decimal (sign * digitsValue (whole ++ part)) (power.getD 0 - part.length), cs)

def number (limits : Limits) : Reader Json
  | '-' :: cs => unsignedNumber limits (-1) cs
  | cs        => unsignedNumber limits 1 cs

def constants : List (String × Json) :=
  [("null", null), ("true", bool true), ("false", bool false), ("NaN", notANumber),
    ("Infinity", infinite), ("-Infinity", infinite)]

def constant? (cs : List Char) : Option (Json × List Char) :=
  constants.findSome? fun (word, value) => (after? word.toList cs).map (value, ·)

-- Of several fields of one name the last one counts.
def objectOf (latestFirst : List (String × Json)) : Json :=
  obj (latestFirst.eraseDupsBy fun a b => a.1 == b.1).reverse

mutual

-- Reads a value inside `level` others. Each step of reading takes a unit of `fuel`, and a text is
-- longer than the steps that it takes.
def value (limits : Limits) : (fuel level : Nat) → Reader Json
  | 0,        _,     _  => .error .malformed
  | fuel + 1, level, cs =>
    match cs with
    | '"' :: cs    => (text cs).map fun (content, cs) => (ofCodePoints content, cs)
    | '[' :: cs    =>
      if limits.nesting ≤ level then .error .tooDeep
      else match skipSpace cs with
      | ']' :: cs => .ok (arr [], cs)
      | cs        => items limits fuel (level + 1) [] cs
    | '\x7b' :: cs =>
      if limits.nesting ≤ level then .error .tooDeep
      else match skipSpace cs with
      | '\x7d' :: cs => .ok (obj [], cs)
      | cs           => fields limits fuel (level + 1) [] cs
    | cs           =>
      match constant? cs with
      | some found => .ok found
      | none       => number limits cs

def items (limits : Limits) : (fuel level : Nat) → (done : List Json) → Reader Json
  | 0,        _,     _,    _  => .error .malformed
  | fuel + 1, level, done, cs => do
    let (v, cs) ← value limits fuel level cs
    match skipSpace cs with
    | ',' :: cs => items limits fuel level (v :: done) (skipSpace cs)
    | ']' :: cs => return (arr (v :: done).reverse, cs)
    | _         => throw .malformed

def fields (limits : Limits) : (fuel level : Nat) → (done : List (String × Json)) → Reader Json
  | 0,        _,     _,    _  => .error .malformed
  | fuel + 1, level, done, cs =>
    match cs with
    | '"' :: cs => do
      let (name, cs) ← text cs
      match skipSpace cs with
      | ':' :: cs =>
        let (v, cs) ← value limits fuel level (skipSpace cs)
        let done := (String.ofList (name.map Text.CodePoint.standIn), v) :: done
        match skipSpace cs with
        | ',' :: cs    => fields limits fuel level done (skipSpace cs)
        | '\x7d' :: cs => return (objectOf done, cs)
        | _            => throw .malformed
      | _         => throw .malformed
    | _         => .error .malformed

end

end Reader

def parse (limits : Limits) (cs : List Char) : Except Fault Json := do
  let (v, rest) ← Reader.value limits (cs.length + 1) 0 (Reader.skipSpace cs)
  if (Reader.skipSpace rest).isEmpty then return v else throw .malformed

end SchemaGraph.Json
