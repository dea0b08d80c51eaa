import SchemaGraph.Yaml.Plain
import SchemaGraph.Yaml.Quoted

namespace SchemaGraph.Yaml

inductive Token
  | documentStart
  | documentEnd
  | blockSequenceStart
  | blockMappingStart
  | blockEnd
  | flowSequenceStart
  | flowSequenceEnd
  | flowMappingStart
  | flowMappingEnd
  | key
  | value
  | blockEntry
  | flowEntry
  | reference (name : String)
  | plain (text : List Char)
  | quoted (text : List Text.CodePoint)
  | streamEnd
  deriving DecidableEq, Repr

namespace Token

def name : Token → String
  | documentStart      => "<document start>"
  | documentEnd        => "<document end>"
  | blockSequenceStart => "<block sequence start>"
  | blockMappingStart  => "<block mapping start>"
  | blockEnd           => "<block end>"
  | flowSequenceStart  => "["
  | flowSequenceEnd    => "]"
  | flowMappingStart   => "\x7b"
  | flowMappingEnd     => "\x7d"
  | key                => "?"
  | value              => ":"
  | blockEntry         => "-"
  | flowEntry          => ","
  | reference _        => "<alias>"
  | plain _            => "<scalar>"
  | quoted _           => "<scalar>"
  | streamEnd          => "<stream end>"

def opens : Token → Bool
  | blockSequenceStart => true
  | blockMappingStart  => true
  | flowSequenceStart  => true
  | flowMappingStart   => true
  | _                  => false

def closes : Token → Bool
  | blockEnd        => true
  | flowSequenceEnd => true
  | flowMappingEnd  => true
  | _               => false

-- A token that turns out to be a key if a colon follows it on its line.
structure Candidate where
  token : Nat
  required : Bool
  index : Nat
  line : Nat
  column : Nat

structure Scanner where
  here : Position
  -- More than there are characters in the text.
  fuel : Nat
  flowLevel : Int
  indent : Int
  indents : List Int
  keyAllowed : Bool
  candidates : List (Int × Candidate)
  -- How many tokens there are, and the tokens, the latest first.
  count : Nat
  tokens : List Token
  finished : Bool

namespace Scanner

def ofText (text : List Char) : Scanner where
  here := .ofText (if text.head? = some '\uFEFF' then text.drop 1 else text)
  fuel := text.length + 1
  flowLevel := 0
  indent := -1
  indents := []
  keyAllowed := true
  candidates := []
  count := 0
  tokens := []
  finished := false

def column (s : Scanner) : Int :=
  s.here.column

def inFlow (s : Scanner) : Bool :=
  s.flowLevel != 0

def emit (s : Scanner) (t : Token) : Scanner :=
  { s with count := s.count + 1, tokens := t :: s.tokens }

def insert (s : Scanner) (place : Nat) (t : Token) : Scanner :=
  { s with count := s.count + 1, tokens := s.tokens.insertIdx (s.count - place) t }

def move (s : Scanner) (n : Nat) : Scanner :=
  { s with here := s.here.skip n }

def candidate? (s : Scanner) : Option Candidate :=
  s.candidates.lookup s.flowLevel

def dropCandidate (s : Scanner) : Scanner :=
  { s with candidates := s.candidates.filter (·.1 != s.flowLevel) }

def removeCandidate (s : Scanner) : Except Error Scanner :=
  match s.candidate? with
  | none   => .ok s
  | some c => if c.required then .error .keyWithoutValue else .ok s.dropCandidate

def saveCandidate (s : Scanner) : Except Error Scanner :=
  if s.keyAllowed then do
    let s ← s.removeCandidate
    let c : Candidate := {
      token := s.count
      required := !s.inFlow && s.indent == s.column
      index := s.here.index
      line := s.here.line
      column := s.here.column }
    return { s with candidates := (s.flowLevel, c) :: s.candidates }
  else .ok s

def isStale (s : Scanner) (c : Candidate) : Bool :=
  c.line != s.here.line || c.index + 1024 < s.here.index

def dropStale (s : Scanner) : Except Error Scanner :=
  if s.candidates.any fun (_, c) => s.isStale c && c.required then .error .keyWithoutValue
  else .ok { s with candidates := s.candidates.filter fun (_, c) => !s.isStale c }

def closeBlocks (column : Int) (s : Scanner) : Scanner :=
  if s.inFlow then s
  else
    let closed := (s.indent :: s.indents).takeWhile (column < ·)
    match (s.indent :: s.indents).drop closed.length with
    | []                => s
    | indent :: indents =>
      closed.foldl (fun s _ => s.emit .blockEnd) { s with indent, indents }

def openBlock (s : Scanner) (column : Int) (start : Token) (place : Nat) : Scanner :=
  if !s.inFlow && s.indent < column then
    { s.insert place start with indent := column, indents := s.indent :: s.indents }
  else s

def finish (s : Scanner) : Except Error Scanner := do
  let s ← (s.closeBlocks (-1)).removeCandidate
  return { s.emit .streamEnd with keyAllowed := false, candidates := [], finished := true }

def documentMark (s : Scanner) (t : Token) : Except Error Scanner := do
  let s ← (s.closeBlocks (-1)).removeCandidate
  return { (s.move 3).emit t with keyAllowed := false }

def openFlow (s : Scanner) (t : Token) : Except Error Scanner := do
  let s ← s.saveCandidate
  return { (s.move 1).emit t with keyAllowed := true, flowLevel := s.flowLevel + 1 }

def closeFlow (s : Scanner) (t : Token) : Except Error Scanner := do
  let s ← s.removeCandidate
  return { (s.move 1).emit t with keyAllowed := false, flowLevel := s.flowLevel - 1 }

def flowEntry (s : Scanner) : Except Error Scanner := do
  let s ← s.removeCandidate
  return { (s.move 1).emit .flowEntry with keyAllowed := true }

def blockEntry (s : Scanner) : Except Error Scanner := do
  if !s.inFlow && !s.keyAllowed then throw .misplacedEntry
  let s := s.openBlock s.column .blockSequenceStart s.count
  let s ← s.removeCandidate
  return { (s.move 1).emit .blockEntry with keyAllowed := true }

def explicitKey (s : Scanner) : Except Error Scanner := do
  if !s.inFlow && !s.keyAllowed then throw .misplacedKey
  let s := s.openBlock s.column .blockMappingStart s.count
  let s ← s.removeCandidate
  return { (s.move 1).emit .key with keyAllowed := !s.inFlow }

def value (s : Scanner) : Except Error Scanner := do
  match s.candidate? with
  | some c =>
    let s := s.dropCandidate.insert c.token .key
    let s := s.openBlock c.column .blockMappingStart c.token
    return { (s.move 1).emit .value with keyAllowed := false }
  | none   =>
    if !s.inFlow && !s.keyAllowed then throw .misplacedValue
    let s := s.openBlock s.column .blockMappingStart s.count
    let s ← s.removeCandidate
    return { (s.move 1).emit .value with keyAllowed := !s.inFlow }

def quotedScalar (s : Scanner) (quote : Char) : Except Error Scanner := do
  let s ← s.saveCandidate
  let (text, p) ← quotedText quote s.fuel [] s.here.next
  return { s.emit (.quoted text) with here := p, keyAllowed := false }

def plainScalar (s : Scanner) : Except Error Scanner := do
  let s ← s.saveCandidate
  let (text, keyAllowed, p) := plainText s.inFlow (s.indent + 1) s.fuel false [] [] s.here
  return { s.emit (.plain text) with here := p, keyAllowed }

def reference (s : Scanner) : Except Error Scanner := do
  let s ← s.saveCandidate
  let name := s.here.next.rest.takeWhile fun c => c.isAlphanum || c == '-' || c == '_'
  let s := s.move (name.length + 1)
  let ends := isBlankOrEnd (s.here.peek? 0) || (s.here.peek? 0).any "?:,]\x7d%@\x60".toList.contains
  if name.isEmpty || !ends then throw .badAnchor
  return { s.emit (.reference (String.ofList name)) with keyAllowed := false }

def beginsPlain (inFlow : Bool) : List Char → Bool
  | []      => false
  | c :: cs =>
    if "-?:,[]\x7b\x7d#&*!|>'\"%@\x60".toList.contains c then
      !isBlankOrEnd cs.head? && (c == '-' || (!inFlow && (c == '?' || c == ':')))
    else !isBlankOrEnd (some c)

def token (s : Scanner) : Except Error Scanner :=
  match s.here.rest with
  | []      => s.finish
  | c :: cs =>
    let beforeBlank := isBlankOrEnd cs.head?
    if s.here.atDocumentMark then s.documentMark (if c = '-' then .documentStart else .documentEnd)
    else if c = '[' then s.openFlow .flowSequenceStart
    else if c = '\x7b' then s.openFlow .flowMappingStart
    else if c = ']' then s.closeFlow .flowSequenceEnd
    else if c = '\x7d' then s.closeFlow .flowMappingEnd
    else if c = ',' then s.flowEntry
    else if c = '-' ∧ beforeBlank then s.blockEntry
    else if c = '?' ∧ (s.inFlow ∨ beforeBlank) then s.explicitKey
    else if c = ':' ∧ (s.inFlow ∨ beforeBlank) then s.value
    else if c = '*' then s.reference
    else if c = '\'' ∨ c = '"' then s.quotedScalar c
    else if c = '&' ∨ c = '!' ∨ (c = '|' ∨ c = '>') ∧ !s.inFlow then .error .unsupported
    else if beginsPlain s.inFlow s.here.rest then s.plainScalar
    else .error .badTokenStart

def step (s : Scanner) : Except Error Scanner := do
  let (seenBreak, p) := s.here.skipToToken s.fuel false
  let s := { s with here := p, keyAllowed := s.keyAllowed || (seenBreak && !s.inFlow) }
  let s ← s.dropStale
  let s ← (s.closeBlocks s.column).token
  s.dropStale

-- How many tokens are certain: those before the first one that may still become a key.
def certain (s : Scanner) : Nat :=
  s.candidates.foldl (fun n (_, c) => min n c.token) s.count

def run : (fuel : Nat) → Scanner → List Token × Option Error
  | 0,        s => (s.tokens.reverse, none)
  | fuel + 1, s =>
    if s.finished then (s.tokens.reverse, none)
    else match s.step with
      | .ok s    => run fuel s
      | .error e => (s.tokens.reverse.take s.certain, some e)

end Scanner

-- The tokens of a text. Where it cannot be cut further, the tokens that are certain by then come
-- with the error.
def scan (text : List Char) : List Token × Option Error :=
  Scanner.run (text.length + 2) (.ofText text)

end Token
end SchemaGraph.Yaml
