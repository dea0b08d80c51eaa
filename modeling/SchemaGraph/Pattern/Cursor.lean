import SchemaGraph.Text.Word

namespace SchemaGraph

structure Cursor where
  before : Option Char
  rest : List Char
  pos : Nat

namespace Cursor

def ofText (text : List Char) : Cursor where
  before := none
  rest := text
  pos := 0

def atWordEdge (cur : Cursor) : Bool :=
  cur.before.any Text.isWord != cur.rest.head?.any Text.isWord

-- At the end, or before a newline that ends the text.
def atTextEnd (cur : Cursor) : Bool :=
  cur.rest.isEmpty || cur.rest == ['\n']

def textTo (cur stop : Cursor) : List Char :=
  cur.rest.take (stop.pos - cur.pos)

def runs (p : Char → Bool) (cur : Cursor) : List Cursor :=
  go cur.before cur.pos cur.rest []
where
  go (before : Option Char) (pos : Nat) (cs : List Char) (nearer : List Cursor) : List Cursor :=
    match cs with
    | []      => ⟨before, [], pos⟩ :: nearer
    | c :: cs =>
      let reached := ⟨before, c :: cs, pos⟩ :: nearer
      if p c then go (some c) (pos + 1) cs reached else reached

variable {α : Type}

-- Reads items from left to right. Where `read` finds one, it also tells how many characters the
-- item takes, and reading goes on after them; elsewhere it goes on at the next character.
def readAll (read : Cursor → Option (α × Nat)) (text : List Char) : List α :=
  go 0 none 0 text
where
  go : (skip : Nat) → (before : Option Char) → (pos : Nat) → List Char → List α
    | _,        _,      _,   []      => []
    | skip + 1, _,      pos, c :: cs => go skip (some c) (pos + 1) cs
    | 0,        before, pos, c :: cs =>
      match read ⟨before, c :: cs, pos⟩ with
      | none              => go 0 (some c) (pos + 1) cs
      | some (item, size) => item :: go (size - 1) (some c) (pos + 1) cs

end Cursor
end SchemaGraph
