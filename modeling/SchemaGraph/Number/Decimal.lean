namespace SchemaGraph.Number

inductive Double
  | integer (n : Int)
  | fractional
  | infinite
  deriving DecidableEq, Repr

namespace Double

-- The quotient rounded to the nearest integer, a tie to the even one.
def roundQuotient (num den : Nat) : Nat :=
  let q := num / den
  let twice := 2 * (num % den)
  if twice < den then q
  else if den < twice then q + 1
  else q + q % 2

def binaryOrder (num den : Nat) : Int :=
  let k : Int := (num.log2 : Int) - den.log2
  let reached := if 0 ≤ k then den * Nat.pow 2 k.toNat ≤ num else den ≤ num * Nat.pow 2 (-k).toNat
  if reached then k else k - 1

-- The double nearest to the positive number `num / den`. It has 53 significant bits and none below
-- `2 ^ (-1074)`.
def ofRatio (num den : Nat) : Double :=
  let unit := max (binaryOrder num den - 52) (-1074)
  if 0 ≤ unit then
    let scale := Nat.pow 2 unit.toNat
    let n := roundQuotient num (den * scale) * scale
    if n < Nat.pow 2 1024 then integer n else infinite
  else
    let parts := Nat.pow 2 (-unit).toNat
    let n := roundQuotient (num * parts) den
    if n % parts = 0 then integer (n / parts : Nat) else fractional

def negate : Double → Double
  | integer n => integer (-n)
  | d         => d

def digitCount (n : Nat) : Nat :=
  (Nat.toDigits 10 n).length

-- Beyond these orders of magnitude the nearest double is infinite or zero.
def ofMagnitude (mantissa : Nat) (exponent : Int) : Double :=
  if mantissa = 0 then integer 0
  else
    let order := digitCount mantissa + exponent
    if 310 < order then infinite
    else if order < -330 then integer 0
    else ofRatio (mantissa * Nat.pow 10 exponent.toNat) (Nat.pow 10 (-exponent).toNat)

def ofDecimal (mantissa exponent : Int) : Double :=
  let magnitude := ofMagnitude mantissa.natAbs exponent
  if mantissa < 0 then magnitude.negate else magnitude

end Double
end SchemaGraph.Number
