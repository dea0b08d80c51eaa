namespace SchemaGraph.Scan

-- Where a scan stands with respect to quoted literals. A quote inside a literal either closes it
-- or, when the same quote follows, is part of its content; `closing` waits for that next character.
-- A backslash makes the next character part of the content, whatever it is.
inductive Mode
  | outside
  | inside (quote : Char)
  | escaped (quote : Char)
  | closing (quote : Char)
  deriving DecidableEq, Repr

namespace Mode

def opens (c : Char) : Bool :=
  c == '\'' || c == '"'

-- The mode after `c`, which does not belong to a literal that is already open.
def enter (c : Char) : Mode :=
  if opens c then inside c else outside

def next : Mode → Char → Mode
  | outside,   c => enter c
  | inside q,  c => if c = '\\' then escaped q else if c = q then closing q else inside q
  | escaped q, _ => inside q
  | closing q, c => if c = q then inside q else enter c

def exposes : Mode → Char → Bool
  | outside,   c => !opens c
  | closing q, c => c != q && !opens c
  | _,         _ => false

def after (m : Mode) (cs : List Char) : Mode :=
  cs.foldl next m

def isOutside : Mode → Bool
  | outside   => true
  | closing _ => true
  | _         => false

end Mode

structure Exposed where
  mode : Mode
  pos : Nat
  found : List (Nat × Char)

def Exposed.step (s : Exposed) (c : Char) : Exposed where
  mode := s.mode.next c
  pos := s.pos + 1
  found := if s.mode.exposes c then (s.pos, c) :: s.found else s.found

def exposed (text : List Char) : List (Nat × Char) :=
  (text.foldl Exposed.step ⟨.outside, 0, []⟩).found.reverse

end SchemaGraph.Scan
