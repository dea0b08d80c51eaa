import SchemaGraph.Text.Surrogate

namespace SchemaGraph.Text.Wide

inductive Order
  | bigEnd
  | littleEnd
  deriving DecidableEq, Repr

def number (order : Order) (bytes : List UInt8) : Nat :=
  match order with
  | .bigEnd    => bytes.foldl (fun n b => n * 0x100 + b.toNat) 0
  | .littleEnd => bytes.foldr (fun b n => n * 0x100 + b.toNat) 0

def units16? (order : Order) (done : List CodePoint) : List UInt8 → Option (List CodePoint)
  | []           => some done
  | [_]          => none
  | a :: b :: bs => units16? order (CodePoint.ofNat (number order [a, b]) :: done) bs

def decode16? (order : Order) (bytes : List UInt8) : Option (List CodePoint) :=
  (units16? order [] bytes).map fun ps => CodePoint.joinHalves ps.reverse

def codes32? (order : Order) (done : List CodePoint) : List UInt8 → Option (List CodePoint)
  | []                     => some done
  | a :: b :: c :: d :: bs =>
    let code := number order [a, b, c, d]
    if code < 0x110000 then codes32? order (.ofNat code :: done) bs else none
  | _                      => none

def decode32? (order : Order) (bytes : List UInt8) : Option (List CodePoint) :=
  (codes32? order [] bytes).map List.reverse

end SchemaGraph.Text.Wide
