namespace SchemaGraph.Text

abbrev Ranges := List (Nat × Nat)

def Ranges.contains (ranges : Ranges) (c : Char) : Bool :=
  ranges.any fun r => r.1 ≤ c.toNat && c.toNat ≤ r.2

def blankRanges : Ranges := [
  (0x9, 0xD), (0x1C, 0x20), (0x85, 0x85), (0xA0, 0xA0), (0x1680, 0x1680), (0x2000, 0x200A),
  (0x2028, 0x2029), (0x202F, 0x202F), (0x205F, 0x205F), (0x3000, 0x3000)]

def isBlank (c : Char) : Bool :=
  blankRanges.contains c

def trim (p : Char → Bool) (cs : List Char) : List Char :=
  ((cs.dropWhile p).reverse.dropWhile p).reverse

def trimEnd (p : Char → Bool) (cs : List Char) : List Char :=
  (cs.reverse.dropWhile p).reverse

def strip (cs : List Char) : List Char :=
  trim isBlank cs

def stripEnd (cs : List Char) : List Char :=
  trimEnd isBlank cs

-- Cuts at every character in `p`; two neighbouring cuts leave an empty piece.
def cut (p : Char → Bool) (cs : List Char) : List (List Char) :=
  cs.foldr (fun c pieces =>
    if p c then [] :: pieces
    else match pieces with
      | []              => [[c]]
      | piece :: pieces => (c :: piece) :: pieces) [[]]

def words (cs : List Char) : List (List Char) :=
  (cut isBlank cs).filter (!·.isEmpty)

def collapse (cs : List Char) : List Char :=
  [' '].intercalate (words cs)

end SchemaGraph.Text
