import SchemaGraph.Yaml.Scalar
import SchemaGraph.Yaml.Token

namespace SchemaGraph.Yaml

inductive Node
  | plain (text : List Char)
  | quoted (text : List Text.CodePoint)
  | sequence (items : List Node)
  | mapping (pairs : List (Node × Node))

namespace Node

def absent : Node :=
  plain []

-- Tokens that are still to be read. When they run out the scan has failed, and `failure` says why.
abbrev Reader (α : Type) := (failure : Error) → List Token → Except Error (α × List Token)

def next : Reader Token := fun failure ts =>
  match ts with
  | []      => .error failure
  | t :: ts => .ok (t, ts)

def endsBlockPart (t : Token) : Bool :=
  t == .key || t == .value || t == .blockEnd

mutual

-- Each step of reading takes a unit of `fuel`; there are at most a few steps for a token.
def node : (fuel : Nat) → (inBlock indentless : Bool) → Reader Node
  | 0,        _,       _,          failure, _  => .error failure
  | fuel + 1, inBlock, indentless, failure, ts => do
    let (t, rest) ← next failure ts
    match t with
    | .reference name     => throw (.unknownAlias name)
    | .plain cs           => return (plain cs, rest)
    | .quoted ps          => return (quoted ps, rest)
    | .flowSequenceStart  => flowItems fuel true [] failure rest
    | .flowMappingStart   => flowPairs fuel true [] failure rest
    | .blockEntry         =>
      if indentless then indentlessItems fuel [] failure ts else throw (.badNode inBlock)
    | .blockSequenceStart =>
      if inBlock then blockItems fuel [] failure rest else throw (.badNode inBlock)
    | .blockMappingStart  =>
      if inBlock then blockPairs fuel [] failure rest else throw (.badNode inBlock)
    | _                   => throw (.badNode inBlock)

def nodeUnless : (fuel : Nat) → (stops : Token → Bool) → (inBlock indentless : Bool) → Reader Node
  | 0,        _,     _,       _,          failure, _  => .error failure
  | fuel + 1, stops, inBlock, indentless, failure, ts => do
    let (t, _) ← next failure ts
    if stops t then return (absent, ts)
    node fuel inBlock indentless failure ts

def valueUnless : (fuel : Nat) → (stops : Token → Bool) → (inBlock : Bool) → Reader Node
  | 0,        _,     _,       failure, _  => .error failure
  | fuel + 1, stops, inBlock, failure, ts => do
    let (t, rest) ← next failure ts
    if t == .value then nodeUnless fuel stops inBlock inBlock failure rest
    else return (absent, ts)

def blockItems : (fuel : Nat) → (done : List Node) → Reader Node
  | 0,        _,    failure, _  => .error failure
  | fuel + 1, done, failure, ts => do
    let (t, rest) ← next failure ts
    match t with
    | .blockEntry =>
      let stops (t : Token) := t == .blockEntry || t == .blockEnd
      let (item, rest) ← nodeUnless fuel stops true false failure rest
      blockItems fuel (item :: done) failure rest
    | .blockEnd   => return (sequence done.reverse, rest)
    | _           => throw .badBlockSequence

def indentlessItems : (fuel : Nat) → (done : List Node) → Reader Node
  | 0,        _,    failure, _  => .error failure
  | fuel + 1, done, failure, ts => do
    let (t, rest) ← next failure ts
    if t == .blockEntry then
      let stops (t : Token) := t == .blockEntry || endsBlockPart t
      let (item, rest) ← nodeUnless fuel stops true false failure rest
      indentlessItems fuel (item :: done) failure rest
    else return (sequence done.reverse, ts)

def blockPairs : (fuel : Nat) → (done : List (Node × Node)) → Reader Node
  | 0,        _,    failure, _  => .error failure
  | fuel + 1, done, failure, ts => do
    let (t, rest) ← next failure ts
    match t with
    | .key      =>
      let (key, rest) ← nodeUnless fuel endsBlockPart true true failure rest
      let (value, rest) ← valueUnless fuel endsBlockPart true failure rest
      blockPairs fuel ((key, value) :: done) failure rest
    | .blockEnd => return (mapping done.reverse, rest)
    | _         => throw .badBlockMapping

def flowItems : (fuel : Nat) → (isFirst : Bool) → (done : List Node) → Reader Node
  | 0,        _,       _,    failure, _  => .error failure
  | fuel + 1, isFirst, done, failure, ts => do
    let (t, rest) ← next failure ts
    if t == .flowSequenceEnd then return (sequence done.reverse, rest)
    if !isFirst && t != .flowEntry then throw .badFlowSequence
    let ts := if isFirst then ts else rest
    let (t, rest) ← next failure ts
    if t == .flowSequenceEnd then return (sequence done.reverse, rest)
    if t == .key then
      let ends (t : Token) := t == .flowEntry || t == .flowSequenceEnd
      let (key, rest) ← nodeUnless fuel (fun t => t == .value || ends t) false false failure rest
      let (value, rest) ← valueUnless fuel ends false failure rest
      flowItems fuel false (mapping [(key, value)] :: done) failure rest
    else
      let (item, rest) ← node fuel false false failure ts
      flowItems fuel false (item :: done) failure rest

def flowPairs : (fuel : Nat) → (isFirst : Bool) → (done : List (Node × Node)) → Reader Node
  | 0,        _,       _,    failure, _  => .error failure
  | fuel + 1, isFirst, done, failure, ts => do
    let (t, rest) ← next failure ts
    if t == .flowMappingEnd then return (mapping done.reverse, rest)
    if !isFirst && t != .flowEntry then throw .badFlowMapping
    let ts := if isFirst then ts else rest
    let (t, rest) ← next failure ts
    if t == .flowMappingEnd then return (mapping done.reverse, rest)
    if t == .key then
      let ends (t : Token) := t == .flowEntry || t == .flowMappingEnd
      let (key, rest) ← nodeUnless fuel (fun t => t == .value || ends t) false false failure rest
      let (value, rest) ← valueUnless fuel ends false failure rest
      flowPairs fuel false ((key, value) :: done) failure rest
    else
      let (key, rest) ← node fuel false false failure ts
      flowPairs fuel false ((key, absent) :: done) failure rest

end

def endOfText : Reader Unit := fun failure ts => do
  let (t, rest) ← next failure (ts.dropWhile (· == .documentEnd))
  match t with
  | .streamEnd     => return ((), rest)
  | .documentStart => throw .severalDocuments
  | t              => throw (.textAfterDocument t.name)

def document : Reader Node := fun failure ts => do
  let fuel := 4 * ts.length + 4
  let (t, rest) ← next failure ts
  if t == .streamEnd then return (absent, ts)
  let stops (t : Token) := t == .documentStart || t == .documentEnd || t == .streamEnd
  let (root, rest) ←
    if t == .documentStart then nodeUnless fuel stops true false failure rest
    else node fuel true false failure ts
  let (_, rest) ← endOfText failure rest
  return (root, rest)

mutual

-- The value of a node. Only names that are texts can be looked up in a mapping, so others are left
-- out; the last of several equal ones counts.
def toJson : Node → Except Error Json
  | plain text     => Scalar.resolve text
  | quoted text    => return .ofCodePoints text
  | sequence items => return .arr (← itemsToJson items)
  | mapping pairs  => do
    let fields ← pairsToJson pairs
    return .obj (fields.reverse.eraseDupsBy fun a b => a.1 == b.1).reverse

def itemsToJson : List Node → Except Error (List Json)
  | []            => return []
  | item :: items => return (← toJson item) :: (← itemsToJson items)

def pairsToJson : List (Node × Node) → Except Error (List (String × Json))
  | []                    => return []
  | (key, value) :: pairs => do
    let name ← match key with
      | plain text  => Scalar.resolve text
      | quoted text => pure (.ofCodePoints text)
      | _           => throw .compoundKey
    let value ← toJson value
    let fields ← pairsToJson pairs
    match name with
    | .str name => return (name, value) :: fields
    | _         => return fields

end

end Node

def isAcceptable (c : Char) : Bool :=
  c == '\t' || c == '\n' || c == '\r' || (' ' ≤ c && c ≤ '~') || c == '\u0085'
    || (0xA0 ≤ c.toNat && c != '\uFFFE' && c != '\uFFFF')

def maxNesting : Nat := 490

-- The tokens before the first one that begins a collection too deep; `level` collections are open.
-- Where there is such a token, it is the failure of what comes after.
def withinNesting (failure : Error) : (level : Nat) → List Token → List Token × Error
  | _,     []      => ([], failure)
  | level, t :: ts =>
    if t.opens && maxNesting ≤ level then ([], .tooDeep)
    else
      let level := if t.opens then level + 1 else if t.closes then level - 1 else level
      let (ts, failure) := withinNesting failure level ts
      (t :: ts, failure)

-- A part of YAML: anchors, tags, directives and block scalars are refused, merge keys are names like
-- others, and dates are texts.
def parse (text : List Char) : Except Error Json := do
  if let some c := text.find? (!isAcceptable ·) then throw (.unacceptableCharacter c.toNat)
  let (tokens, failure) := Token.scan text
  let (tokens, failure) := withinNesting (failure.getD .unsupported) 0 tokens
  let (root, _) ← Node.document failure tokens
  root.toJson

end SchemaGraph.Yaml
