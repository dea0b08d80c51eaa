namespace SchemaGraph.Yaml

def isBreak (c : Char) : Bool :=
  c == '\n' || c == '\u0085' || c == '\u2028' || c == '\u2029'

def isSpace (c : Char) : Bool :=
  c == ' ' || c == '\t'

def isBlankOrEnd : Option Char → Bool
  | none   => true
  | some c => isSpace c || isBreak c

structure Position where
  rest : List Char
  index : Nat
  line : Nat
  column : Nat

namespace Position

def ofText (text : List Char) : Position :=
  ⟨text, 0, 0, 0⟩

def peek? (p : Position) (n : Nat) : Option Char :=
  p.rest[n]?

def next (p : Position) : Position :=
  match p.rest with
  | []      => p
  | c :: cs =>
    if isBreak c then ⟨cs, p.index + 1, p.line + 1, 0⟩
    else ⟨cs, p.index + 1, p.line, if c = '\uFEFF' then p.column else p.column + 1⟩

def skip : Nat → Position → Position
  | 0,     p => p
  | n + 1, p => skip n p.next

def skipWhile (pred : Char → Bool) (p : Position) : Position :=
  skip (p.rest.takeWhile pred).length p

def atDocumentMark (p : Position) : Bool :=
  p.column == 0 && ["---".toList, "...".toList].contains (p.rest.take 3) && isBlankOrEnd (p.peek? 3)

def break? (p : Position) : Option (Char × Position) :=
  match p.rest with
  | []     => none
  | c :: _ =>
    if isBreak c then some (if c = '\u0085' then '\n' else c, p.next) else none

def skipToToken : (fuel : Nat) → (seenBreak : Bool) → Position → Bool × Position
  | 0,        seenBreak, p => (seenBreak, p)
  | fuel + 1, seenBreak, p =>
    let p := p.skipWhile (· == ' ')
    let p := if p.peek? 0 = some '#' then p.skipWhile (!isBreak ·) else p
    match p.break? with
    | some (_, p) => skipToToken fuel true p
    | none        => (seenBreak, p)

end Position

-- Breaks one after another, with the blanks in `isBlank` skipped between them. A document mark ends
-- what it stands in.
def breaks (isBlank : Char → Bool) :
    (fuel : Nat) → (done : List Char) → Position → Option (List Char × Position)
  | 0,        done, p => some (done.reverse, p)
  | fuel + 1, done, p =>
    if p.atDocumentMark then none
    else
      let p := p.skipWhile isBlank
      match p.break? with
      | some (c, p) => breaks isBlank fuel (c :: done) p
      | none        => some (done.reverse, p)

def folded (first : Char) (more : List Char) : List Char :=
  (if first != '\n' then [first] else if more.isEmpty then [' '] else []) ++ more

end SchemaGraph.Yaml
