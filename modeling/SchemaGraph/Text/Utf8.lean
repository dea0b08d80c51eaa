namespace SchemaGraph.Text.Utf8

def replacement : Char := '\uFFFD'

inductive Fault.Reason
  | badStart
  | badContinuation
  | truncated
  deriving DecidableEq, Repr

structure Fault where
  offset : Nat
  first : UInt8
  length : Nat
  reason : Fault.Reason
  deriving DecidableEq, Repr

-- What a sequence that has begun still needs: the number of bytes, the range of the next one, and
-- the bits read so far. The bytes read so far are counted.
structure Pending where
  needed : Nat
  low : UInt8
  high : UInt8
  bits : Nat
  first : UInt8
  taken : Nat

-- `fault?` is the first fault, and `decoded` holds what was read, in reverse.
structure Decoder where
  offset : Nat
  pending : Option Pending
  fault? : Option Fault
  decoded : List Char

namespace Decoder

def emit (d : Decoder) (c : Char) : Decoder :=
  { d with pending := none, decoded := c :: d.decoded }

def await (d : Decoder) (needed : Nat) (low high : UInt8) (bits : Nat) (first : UInt8) : Decoder :=
  { d with pending := some { needed, low, high, bits, first, taken := 1 } }

def replace (d : Decoder) (fault : Fault) : Decoder :=
  { d.emit replacement with fault? := d.fault? <|> some fault }

def abandon (d : Decoder) (p : Pending) (reason : Fault.Reason) : Decoder :=
  d.replace ⟨d.offset - p.taken, p.first, p.taken, reason⟩

def begin (d : Decoder) (b : UInt8) : Decoder :=
  if b ≤ 0x7F then d.emit (Char.ofNat b.toNat)
  else if 0xC2 ≤ b && b ≤ 0xDF then d.await 1 0x80 0xBF (b.toNat % 0x20) b
  else if 0xE0 ≤ b && b ≤ 0xEF then
    let low := if b = 0xE0 then 0xA0 else 0x80
    let high := if b = 0xED then 0x9F else 0xBF
    d.await 2 low high (b.toNat % 0x10) b
  else if 0xF0 ≤ b && b ≤ 0xF4 then
    let low := if b = 0xF0 then 0x90 else 0x80
    let high := if b = 0xF4 then 0x8F else 0xBF
    d.await 3 low high (b.toNat % 0x08) b
  else d.replace ⟨d.offset, b, 1, .badStart⟩

-- A byte that cannot continue a sequence ends it as one replacement and is then read anew.
def read (d : Decoder) (b : UInt8) : Decoder :=
  match d.pending with
  | none   => d.begin b
  | some p =>
    if p.low ≤ b && b ≤ p.high then
      let bits := p.bits * 0x40 + b.toNat % 0x40
      if p.needed ≤ 1 then d.emit (Char.ofNat bits)
      else { d with pending := some ⟨p.needed - 1, 0x80, 0xBF, bits, p.first, p.taken + 1⟩ }
    else (d.abandon p .badContinuation).begin b

def step (d : Decoder) (b : UInt8) : Decoder :=
  { d.read b with offset := d.offset + 1 }

def finish (d : Decoder) : Decoder :=
  match d.pending with
  | none   => d
  | some p => d.abandon p .truncated

def run (bytes : List UInt8) : Decoder :=
  (bytes.foldl step ⟨0, none, none, []⟩).finish

end Decoder

-- Every maximal part of an invalid sequence becomes one replacement character.
def decodeLossy (bytes : List UInt8) : List Char :=
  (Decoder.run bytes).decoded.reverse

def decode (bytes : List UInt8) : Except Fault (List Char) :=
  let d := Decoder.run bytes
  match d.fault? with
  | none       => .ok d.decoded.reverse
  | some fault => .error fault

end SchemaGraph.Text.Utf8
