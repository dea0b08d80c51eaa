import SchemaGraph.Json.Basic
import SchemaGraph.Text.Basic
import SchemaGraph.Text.Digit
import SchemaGraph.Yaml.Error

namespace SchemaGraph.Yaml

-- What a plain scalar stands for.
namespace Scalar

def nulls : List String :=
  ["", "~", "null", "Null", "NULL"]

def trues : List String :=
  ["yes", "Yes", "YES", "true", "True", "TRUE", "on", "On", "ON"]

def falses : List String :=
  ["no", "No", "NO", "false", "False", "FALSE", "off", "Off", "OFF"]

def infinities : List String :=
  [".inf", ".Inf", ".INF"]

def notNumbers : List String :=
  [".nan", ".NaN", ".NAN"]

def sign : List Char → Int × List Char
  | '-' :: cs => (-1, cs)
  | '+' :: cs => (1, cs)
  | cs        => (1, cs)

def isDigitOf (base : Nat) (c : Char) : Bool :=
  (Text.hexValue? c).any (· < base)

def valueIn (base : Nat) (cs : List Char) : Nat :=
  (cs.filterMap Text.hexValue?).foldl (base * · + ·) 0

def areDigits (base : Nat) (cs : List Char) : Bool :=
  !cs.isEmpty && cs.all fun c => isDigitOf base c || c == '_'

def beginsWith (p : Char → Bool) (cs : List Char) : Bool :=
  cs.head?.any p

def isSixtieth : List Char → Bool
  | [a]    => isDigitOf 10 a
  | [a, b] => isDigitOf 6 a && isDigitOf 10 b
  | _      => false

def sixties? (groups : List (List Char)) : Option Nat :=
  match groups with
  | first :: more =>
    if beginsWith (isDigitOf 10) first && areDigits 10 first && !more.isEmpty
        && more.all isSixtieth then
      some (groups.foldl (fun n group => 60 * n + valueIn 10 group) 0)
    else none
  | []            => none

def isPositiveDigit (c : Char) : Bool :=
  c != '0' && isDigitOf 10 c

def natural? (cs : List Char) : Option Nat :=
  match cs with
  | '0' :: 'b' :: ds => if areDigits 2 ds then some (valueIn 2 ds) else none
  | '0' :: 'x' :: ds => if areDigits 16 ds then some (valueIn 16 ds) else none
  | ['0']            => some 0
  | '0' :: ds        => if areDigits 8 ds then some (valueIn 8 ds) else none
  | _                =>
    if !beginsWith isPositiveDigit cs then none
    else if areDigits 10 cs then some (valueIn 10 cs)
    else sixties? (Text.cut (· == ':') cs)

def digitCount (cs : List Char) : Nat :=
  (cs.filter (· != '_')).length

-- How many digits an integer has where they are limited, which is in base ten and in the highest
-- place of base sixty.
def limitedDigits (cs : List Char) : Nat :=
  if beginsWith isPositiveDigit cs then digitCount (cs.takeWhile (· != ':')) else 0

def integerFault? (cs : List Char) : Option Error :=
  match cs with
  | '0' :: 'b' :: ds => if digitCount ds = 0 then some (.noDigits 2) else none
  | '0' :: 'x' :: ds => if digitCount ds = 0 then some (.noDigits 16) else none
  | _                =>
    let count := limitedDigits cs
    if Number.maxDigits < count then some (.tooManyDigits count) else none

def integer? (cs : List Char) : Option (Except Error Json) :=
  let (sign, cs) := sign cs
  (natural? cs).map fun n =>
    match integerFault? cs with
    | some e => .error e
    | none   => .ok (.int (sign * n))

-- The power of ten after a fraction. Its sign has to be there.
def exponent? : List Char → Option Int
  | []           => some 0
  | e :: s :: ds =>
    if (e = 'e' ∨ e = 'E') ∧ (s = '-' ∨ s = '+') ∧ areDigits 10 ds ∧ !ds.contains '_' then
      some ((sign [s]).1 * valueIn 10 ds)
    else none
  | _            => none

def fraction? (sign : Int) (whole rest : List Char) : Option Json :=
  let (part, power) := rest.span fun c => isDigitOf 10 c || c == '_'
  let number (n : Nat) (power : Int) : Json :=
    let digits := n * Nat.pow 10 (digitCount part) + valueIn 10 part
    .decimal (sign * digits) (power - digitCount part)
  if beginsWith (isDigitOf 10) whole && areDigits 10 whole then
    (exponent? power).map (number (valueIn 10 whole))
  else if whole.isEmpty && beginsWith (isDigitOf 10) part then (exponent? power).map (number 0)
  else if power.isEmpty then (sixties? (Text.cut (· == ':') whole)).map (number · 0)
  else none

def float? (cs : List Char) : Option Json :=
  let (s, unsigned) := sign cs
  if infinities.contains (String.ofList unsigned) then some .infinite
  else if notNumbers.contains (String.ofList cs) then some .notANumber
  else
    match unsigned.span (· != '.') with
    | (_,     [])        => none
    | (whole, _ :: rest) =>
      if whole.isEmpty && unsigned.length != cs.length then none else fraction? s whole rest

def resolve (cs : List Char) : Except Error Json :=
  let s := String.ofList cs
  if nulls.contains s then .ok .null
  else if trues.contains s then .ok (.bool true)
  else if falses.contains s then .ok (.bool false)
  else match integer? cs with
  | some found => found
  | none       => .ok ((float? cs).getD (.str s))

end Scalar
end SchemaGraph.Yaml
