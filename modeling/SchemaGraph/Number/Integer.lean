import SchemaGraph.Text.Basic
import SchemaGraph.Text.Digit

namespace SchemaGraph.Number

def maxDigits : Nat := 4300

inductive Fault
  | malformed
  | tooManyDigits (count : Nat)
  deriving DecidableEq, Repr

def tooManyDigitsMessage (count : Nat) : String :=
  s!"Exceeds the limit ({maxDigits} digits) for integer string conversion: value has {count} "
    ++ "digits; use sys.set_int_max_str_digits() to increase the limit"

-- Blanks that may stand around a number. The four separators before the plain space may not.
def isSpace (c : Char) : Bool :=
  Text.isBlank c && !(0x1C ≤ c.toNat && c.toNat ≤ 0x1F)

def trimSpace (cs : List Char) : List Char :=
  Text.trim isSpace cs

def ofDigits (digits : List Nat) : Nat :=
  digits.foldl (10 * · + ·) 0

def signed : List Char → Int × List Char
  | '-' :: cs => (-1, cs)
  | '+' :: cs => (1, cs)
  | cs        => (1, cs)

-- Digits of any script, each two of them with at most one underscore between them. There may not be
-- too many, whatever comes after them.
def natural (cs : List Char) : Except Fault Nat :=
  let (run, rest) := cs.span fun c => Text.isDigit c || c == '_'
  let groups := Text.cut (· == '_') run
  let digits := groups.flatten.filterMap Text.digitValue?
  if groups.any (·.isEmpty) then .error .malformed
  else if maxDigits < digits.length then .error (.tooManyDigits digits.length)
  else if rest.isEmpty then .ok (ofDigits digits)
  else .error .malformed

def integer (s : String) : Except Fault Int :=
  let (sign, cs) := signed (trimSpace s.toList)
  (natural cs).map (sign * ·)

def integer? (s : String) : Option Int :=
  (integer s).toOption

end SchemaGraph.Number
