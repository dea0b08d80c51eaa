import SchemaGraph.Pattern.Cursor
import SchemaGraph.Text.Basic
import SchemaGraph.Text.Letter

namespace SchemaGraph

-- Text patterns. Parts of the text that a pattern matches are kept under labels of type `γ`.
inductive Pattern (γ : Type)
  | empty
  | char (p : Char → Bool)
  | run (p : Char → Bool)
  | seq (first second : Pattern γ)
  | alt (first second : Pattern γ)
  | repeated (body : Pattern γ)
  | group (label : γ) (body : Pattern γ)
  | wordEdge
  | textEnd
  | notAhead (body : Pattern γ)

namespace Pattern

variable {γ : Type}

instance : Append (Pattern γ) := ⟨seq⟩

instance : OrElse (Pattern γ) := ⟨fun a b => alt a (b ())⟩

def opt (a : Pattern γ) : Pattern γ :=
  a <|> empty

def only (c : Char) : Pattern γ :=
  char (· == c)

def many (p : Char → Bool) : Pattern γ :=
  char p ++ run p

def blanks : Pattern γ :=
  run Text.isBlank

def gap : Pattern γ :=
  many Text.isBlank

def keyword (word : String) : Pattern γ :=
  word.toList.foldr (fun letter rest => char (Text.sameLetter letter) ++ rest) empty

-- How far a match has come, and where the parts that it has kept begin and end, the latest first.
structure Progress (γ : Type) extends Cursor where
  groups : List (γ × Cursor × Cursor)

namespace Progress

def ofCursor (cur : Cursor) : Progress γ where
  toCursor := cur
  groups := []

def moveTo (s : Progress γ) (cur : Cursor) : Progress γ :=
  { s with toCursor := cur }

def keep (s : Progress γ) (label : γ) (start : Cursor) : Progress γ :=
  { s with groups := (label, start, s.toCursor) :: s.groups }

def group [DecidableEq γ] (s : Progress γ) (label : γ) : List Char :=
  match s.groups.lookup label with
  | none               => []
  | some (start, stop) => start.textTo stop

end Progress

variable {β : Type}

-- Repetition of `step`, as often as it can be had. A round that stays in its place is refused, so
-- that as many rounds as there are characters left are enough.
def iterate (step : Progress γ → (Progress γ → Option β) → Option β) :
    (rounds : Nat) → Progress γ → (Progress γ → Option β) → Option β
  | 0,          s, k => k s
  | rounds + 1, s, k =>
    let again := step s fun s' => if s.pos < s'.pos then iterate step rounds s' k else none
    again <|> k s

-- Tries the ways in which the pattern can match from `s` on, in order, until `k` accepts one. Of
-- two alternatives the first is tried first, and runs and repetitions are tried at their longest
-- first.
def attempt : Pattern γ → {β : Type} → Progress γ → (Progress γ → Option β) → Option β
  | empty,            _, s, k => k s
  | char p,           _, s, k =>
    match s.rest with
    | []      => none
    | c :: cs => if p c then k (s.moveTo ⟨some c, cs, s.pos + 1⟩) else none
  | run p,            _, s, k => (s.runs p).findSome? fun cur => k (s.moveTo cur)
  | seq a b,          _, s, k => a.attempt s fun s' => b.attempt s' k
  | alt a b,          _, s, k => a.attempt s k <|> b.attempt s k
  | repeated a,       _, s, k => iterate (fun s k => a.attempt s k) s.rest.length s k
  | group label body, _, s, k => body.attempt s fun s' => k (s'.keep label s.toCursor)
  | wordEdge,         _, s, k => if s.atWordEdge then k s else none
  | textEnd,          _, s, k => if s.atTextEnd then k s else none
  | notAhead a,       _, s, k => if (a.attempt s some).isNone then k s else none

def match? (a : Pattern γ) (cur : Cursor) : Option (Progress γ) :=
  a.attempt (.ofCursor cur) some

def matchText? (a : Pattern γ) (text : List Char) : Option (Progress γ) :=
  a.match? (.ofText text)

def find? (a : Pattern γ) (text : List Char) : Option (Progress γ) :=
  go none 0 text
where
  go (before : Option Char) (pos : Nat) (cs : List Char) : Option (Progress γ) :=
    match a.match? ⟨before, cs, pos⟩ with
    | some s => some s
    | none   =>
      match cs with
      | []      => none
      | c :: cs => go (some c) (pos + 1) cs

end Pattern
end SchemaGraph
