import SchemaGraph.Scan.Literal

namespace SchemaGraph.Scan

-- The depth after a character outside literals; a closing parenthesis too many leaves it at zero.
def depthAfter (depth : Nat) (c : Char) : Nat :=
  if c = '(' then depth + 1
  else if c = ')' then depth - 1
  else depth

structure Splitting where
  mode : Mode
  depth : Nat
  -- The part being read and the parts before it, each in reverse.
  part : List Char
  parts : List (List Char)

namespace Splitting

def step (separates : Char → Bool) (s : Splitting) (c : Char) : Splitting :=
  let mode := s.mode.next c
  let depth := if s.mode.exposes c then depthAfter s.depth c else s.depth
  let cuts := s.mode.exposes c && s.depth == 0 && c != '(' && c != ')' && separates c
  if cuts then ⟨mode, depth, [], s.part.reverse :: s.parts⟩
  else ⟨mode, depth, c :: s.part, s.parts⟩

def finish (s : Splitting) : List (List Char) :=
  (if s.part.isEmpty then s.parts else s.part.reverse :: s.parts).reverse

end Splitting

-- Cuts at the separators that are neither in parentheses nor in a quoted literal. An empty part is
-- kept everywhere but at the end.
def split (separates : Char → Bool) (text : List Char) : List (List Char) :=
  (text.foldl (Splitting.step separates) ⟨.outside, 0, [], []⟩).finish

end SchemaGraph.Scan
