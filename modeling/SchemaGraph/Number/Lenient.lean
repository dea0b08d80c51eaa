import SchemaGraph.Number.Integer

namespace SchemaGraph.Number.Lenient

def isPositiveDigit (c : Char) : Bool :=
  '1' ≤ c && c ≤ '9'

-- Goes on behind leading zeros, of which `last` is the latest character. Underscores among them
-- count as zeros, and one character is left when nothing but zeros comes up to a point or the end.
def afterZeros? (last : Char) : List Char → Option (List Char)
  | []      => some [last]
  | c :: cs =>
    if c = '0' ∨ c = '_' then afterZeros? c cs
    else if c = '.' then some (last :: c :: cs)
    else if isPositiveDigit c ∨ c = '-' then some (c :: cs)
    else none

def dropZeros? : List Char → Option (List Char)
  | []        => none
  | '0' :: cs => afterZeros? '0' cs
  | c :: cs   => if isPositiveDigit c ∨ c = '-' then some (c :: cs) else none

def dropFraction (cs : List Char) : List Char :=
  match cs.span (· != '.') with
  | (whole, _ :: zeros) => if !zeros.isEmpty && zeros.all (· == '0') then whole else cs
  | (_,     [])         => cs

def dropUnderscores (cs : List Char) : List Char :=
  let groups := Text.cut (· == '_') cs
  if groups.any (·.isEmpty) then cs else groups.flatten

def unsigned : List Char → List Char × List Char
  | '-' :: cs        => (['-'], cs)
  | '+' :: '-' :: cs => ([], '+' :: '-' :: cs)
  | '+' :: cs        => ([], cs)
  | cs               => ([], cs)

def plain? (cs : List Char) : Option (List Char) :=
  let (minus, cs) := unsigned (trimSpace cs)
  (dropZeros? cs).map fun cs => dropUnderscores (minus ++ dropFraction cs)

def isDigit (c : Char) : Bool :=
  '0' ≤ c && c ≤ '9'

-- Reads the plain form of an integer. A minus counts as a digit where digits are limited.
def ofPlain (cs : List Char) : Except Fault Int :=
  let (sign, unsigned) := match cs with
    | '-' :: cs => ((-1 : Int), cs)
    | cs        => (1, cs)
  let (digits, rest) := unsigned.span isDigit
  let length := cs.length - rest.length
  if digits.isEmpty || (digits.head? == some '0' && digits.length != 1) then .error .malformed
  else if maxDigits < length then .error (.tooManyDigits length)
  else if rest.isEmpty then .ok (sign * ofDigits (digits.filterMap Text.digitValue?))
  else .error .malformed

-- An integer as people may write it: with blanks around it, a sign, leading zeros, underscores and
-- a fraction of zeros.
def integer (s : String) : Except Fault Int :=
  match plain? s.toList with
  | some cs => ofPlain cs
  | none    => .error .malformed

end SchemaGraph.Number.Lenient
