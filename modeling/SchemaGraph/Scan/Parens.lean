import SchemaGraph.Scan.Literal

namespace SchemaGraph.Scan

structure Pairing where
  opened : List Nat
  pairs : List (Nat × Nat)

namespace Pairing

def step (s : Pairing) : Nat × Char → Pairing
  | (pos, '(') => { s with opened := pos :: s.opened }
  | (pos, ')') =>
    match s.opened with
    | []          => s
    | o :: opened => ⟨opened, (o, pos) :: s.pairs⟩
  | _            => s

end Pairing

-- Every opening parenthesis that is closed, with its closing one, the last closed first. What
-- stands in quoted literals does not count.
def matchParens (text : List Char) : List (Nat × Nat) :=
  ((exposed text).foldl Pairing.step ⟨[], []⟩).pairs

end SchemaGraph.Scan
