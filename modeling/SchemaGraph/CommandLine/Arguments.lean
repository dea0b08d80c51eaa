import SchemaGraph.Number.Integer

namespace SchemaGraph.CommandLine

inductive Stop
  | help
  | usage
  deriving DecidableEq, Repr

inductive Flag
  | help
  | config
  | format
  | host
  | port
  deriving DecidableEq, Repr

inductive Positional
  | none
  | one
  | rest
  deriving DecidableEq, Repr

structure Grammar where
  flags : List (String × Flag)
  positional : Positional

-- What an argument looks like before its place is known. A flag that the grammar does not have is
-- `flag none`; what stands after an equals sign in the argument comes with the flag.
inductive Shape
  | separator
  | word
  | flag (known : Option (Flag × String)) (value : Option String)
  deriving DecidableEq, Repr

abbrev Shaped := String × Shape

def isLong (arg : List Char) : Bool :=
  "--".toList.isPrefixOf arg

namespace Grammar

def cutEquals? (arg : List Char) : Option (String × String) :=
  match arg.span (· != '=') with
  | (_,    [])         => none
  | (name, _ :: value) => some (String.ofList name, String.ofList value)

def isNegativeNumber (arg : List Char) : Bool :=
  let arg := if arg.getLast? = some '\n' then arg.dropLast else arg
  match arg with
  | '-' :: cs =>
    match cs.span Text.isDigit with
    | (ds, [])        => !ds.isEmpty
    | (_,  '.' :: ds) => !ds.isEmpty && ds.all Text.isDigit
    | _               => false
  | _         => false

def expansions (g : Grammar) (arg : List Char) : List (Flag × String × Option String) :=
  match arg with
  | '-' :: '-' :: _ =>
    let (start, value) := match cutEquals? arg with
      | some (name, value) => (name.toList, some value)
      | none               => (arg, none)
    g.flags.filterMap fun (name, flag) =>
      if start.isPrefixOf name.toList then some (flag, name, value) else none
  | '-' :: c :: cs  =>
    g.flags.filterMap fun (name, flag) =>
      if name.toList = ['-', c] then some (flag, name, some (String.ofList cs)) else none
  | _               => []

def shape (g : Grammar) (s : String) : Except Stop Shape :=
  let arg := s.toList
  match arg with
  | '-' :: _ :: _ =>
    match g.flags.lookup s with
    | some flag => .ok (.flag (some (flag, s)) none)
    | none      =>
      let exact := if isLong arg then (cutEquals? arg).bind fun (name, value) =>
          (g.flags.lookup name).map fun flag => Shape.flag (some (flag, name)) (some value)
        else none
      match exact, g.expansions arg with
      | some shape, _                     => .ok shape
      | none,       [(flag, name, value)] => .ok (.flag (some (flag, name)) value)
      | none,       _ :: _                => .error .usage
      | none,       []                    =>
        if isNegativeNumber arg || arg.contains ' ' then .ok .word
        else .ok (.flag none none)
  | _             => .ok .word

def shapes (g : Grammar) : List String → Except Stop (List Shaped)
  | []          => .ok []
  | arg :: args =>
    if arg = "--" then .ok ((arg, .separator) :: args.map fun arg => (arg, .word))
    else do
      let shape ← g.shape arg
      return (arg, shape) :: (← g.shapes args)

end Grammar

-- What has been read: values of flags, the latest first, words for the positional argument, and
-- whether there was something to which no meaning could be given.
structure Reading where
  values : List (Flag × String)
  words : Option (List String)
  leftover : Bool

namespace Reading

def empty : Reading where
  values := []
  words := none
  leftover := false

def value? (r : Reading) (flag : Flag) : Option String :=
  r.values.lookup flag

end Reading

def formats : List String :=
  ["json", "mermaid", "flow"]

def accepts : Flag → String → Bool
  | .format, s => formats.contains s
  | .port,   s => (Number.integer? s).isSome
  | _,       _ => true

def isFlag : Shaped → Bool
  | (_, .flag ..) => true
  | _             => false

def takePositional (p : Positional) (args : List Shaped) : Option (List String × List Shaped) :=
  let (separators, args) := args.span (·.2 == .separator)
  match p, args with
  | .one,  (arg, .word) :: args => some ([arg], args.dropWhile (·.2 == .separator))
  | .rest, (arg, .word) :: args =>
    some (separators.map Prod.fst ++ arg :: args.map Prod.fst, [])
  | _,     _                    => none

-- What comes of the text after a one-letter flag that asks for help. More such flags may share its
-- dash, and a letter without a meaning ends them; but the flag takes no value.
def helpOf (g : Grammar) : List Char → Stop
  | []      => .help
  | c :: cs =>
    if c = '-' ∨ c = '=' then .usage
    else if (g.flags.lookup (String.ofList ['-', c])).isSome then helpOf g cs
    else .help

def takeFlag (g : Grammar) (known : Option (Flag × String)) (value : Option String)
    (args : List Shaped) (r : Reading) : Except Stop (Reading × List Shaped) :=
  match known with
  | none               => .ok ({ r with leftover := true }, args)
  | some (.help, name) =>
    match value with
    | none       => .error .help
    | some value => .error (if isLong name.toList then .usage else helpOf g value.toList)
  | some (flag, _)     =>
    let store (value : String) (args : List Shaped) :=
      if accepts flag value then .ok ({ r with values := (flag, value) :: r.values }, args)
      else .error .usage
    match value, args with
    | some value, args                 => store value args
    | none,       (arg, .word) :: args => store arg args
    | none,       _                    => .error .usage

-- Positional arguments are taken where a word stands before the next flag; words that find no place
-- are left over. `fuel` exceeds the number of arguments.
def readShaped (g : Grammar) : (fuel : Nat) → List Shaped → Reading → Except Stop Reading
  | 0,        _,    r => .ok r
  | fuel + 1, args, r =>
    match args with
    | []                             => .ok r
    | (_, .flag known value) :: args => do
      let (r, args) ← takeFlag g known value args r
      readShaped g fuel args r
    | args                           =>
      match if r.words.isNone then takePositional g.positional args else none with
      | some (words, args) => readShaped g fuel args { r with words := some words }
      | none               =>
        readShaped g fuel (args.dropWhile (!isFlag ·)) { r with leftover := true }

def read (g : Grammar) (args : List String) : Except Stop Reading := do
  let shaped ← g.shapes args
  readShaped g (shaped.length + 1) shaped .empty

end SchemaGraph.CommandLine
