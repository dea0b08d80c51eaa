namespace SchemaGraph.Text

def isHigh (code : Nat) : Bool :=
  0xD800 ≤ code && code < 0xDC00

def isLow (code : Nat) : Bool :=
  0xDC00 ≤ code && code < 0xE000

inductive CodePoint
  | char (c : Char)
  | half (code : Nat)
  deriving DecidableEq, Repr

namespace CodePoint

def ofNat (code : Nat) : CodePoint :=
  if isHigh code || isLow code then half code else char (Char.ofNat code)

def isHalf : CodePoint → Bool
  | char _ => false
  | half _ => true

def joined? : CodePoint → CodePoint → Option Char
  | half high, half low =>
    if isHigh high && isLow low then
      some (Char.ofNat (0x10000 + (high - 0xD800) * 0x400 + (low - 0xDC00)))
    else none
  | _,         _        => none

def joinHalves (ps : List CodePoint) : List CodePoint :=
  ps.foldr (fun p joined =>
    match joined with
    | []      => [p]
    | q :: qs =>
      match joined? p q with
      | some c => char c :: qs
      | none   => p :: q :: qs) []

def standInBase : Nat := 0x100000

-- A character in the place of a code point. A character of the last private plane stands in for a
-- half.
def standIn : CodePoint → Char
  | char c    => c
  | half code => Char.ofNat (standInBase + code)

def standsFor? (c : Char) : Option Nat :=
  let code := c.toNat - standInBase
  if isHigh code || isLow code then some code else none

end CodePoint
end SchemaGraph.Text
