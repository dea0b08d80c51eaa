import SchemaGraph.Json.Basic
import SchemaGraph.Number.Decimal
import SchemaGraph.Number.Lenient

namespace SchemaGraph

inductive Problem.Kind
  | modelType
  | modelAttributesType
  | missing
  | malformedJson
  | intType
  | intParsing
  | intParsingSize
  | intFromFloat
  | finiteNumber
  | greaterThanEqual
  | lessThanEqual
  | stringType
  | stringUnicode
  | listType
  | literalError
  deriving DecidableEq, Repr

def Problem.Kind.name : Problem.Kind → String
  | modelType           => "model_type"
  | modelAttributesType => "model_attributes_type"
  | missing             => "missing"
  | malformedJson       => "json_invalid"
  | intType             => "int_type"
  | intParsing          => "int_parsing"
  | intParsingSize      => "int_parsing_size"
  | intFromFloat        => "int_from_float"
  | finiteNumber        => "finite_number"
  | greaterThanEqual    => "greater_than_equal"
  | lessThanEqual       => "less_than_equal"
  | stringType          => "string_type"
  | stringUnicode       => "string_unicode"
  | listType            => "list_type"
  | literalError        => "literal_error"

def Problem.Kind.sentence : Problem.Kind → String
  | missing             => "Field required"
  | stringType          => "Input should be a valid string"
  | malformedJson       => "JSON decode error"
  | modelAttributesType =>
    "Input should be a valid dictionary or object to extract fields from"
  | _                   => ""

inductive Problem.Step
  | field (name : String)
  | item (index : Nat)
  deriving DecidableEq, Repr

structure Problem where
  kind : Problem.Kind
  path : List Problem.Step
  deriving DecidableEq, Repr

-- A value, or all that is wrong with it.
inductive Checked (α : Type)
  | ok (value : α)
  | bad (problems : List Problem)
  deriving Repr

namespace Checked

variable {α β : Type}

def fail (kind : Problem.Kind) : Checked α :=
  bad [⟨kind, []⟩]

def map (f : α → β) : Checked α → Checked β
  | ok a   => ok (f a)
  | bad ps => bad ps

def bind (a : Checked α) (f : α → Checked β) : Checked β :=
  match a with
  | ok a   => f a
  | bad ps => bad ps

def ap : Checked (α → β) → Checked α → Checked β
  | ok f,   ok a   => ok (f a)
  | ok _,   bad ps => bad ps
  | bad ps, ok _   => bad ps
  | bad ps, bad qs => bad (ps ++ qs)

def within (step : Problem.Step) : Checked α → Checked α
  | ok a   => ok a
  | bad ps => bad (ps.map fun p => { p with path := step :: p.path })

def toExcept : Checked α → Except (List Problem) α
  | ok a   => .ok a
  | bad ps => .error ps

def all (check : α → Checked β) : (index : Nat) → List α → Checked (List β)
  | _,     []      => ok []
  | index, a :: as =>
    (((check a).within (.item index)).map List.cons).ap (all check (index + 1) as)

end Checked

namespace Check

def string : Json → Checked String
  | .str s      => .ok s
  | .unpaired s => .ok s
  | _           => .fail .stringType

def strings : Json → Checked (List String)
  | .arr items => Checked.all string 0 items
  | _          => .fail .listType

-- A number with a point has to be whole and less than `2 ^ 63` in magnitude.
def ofDouble : Number.Double → Checked Int
  | .integer n  =>
    if n.natAbs < 0x8000000000000000 then .ok n else .fail .intParsingSize
  | .fractional => .fail .intFromFloat
  | .infinite   => .fail .finiteNumber

def integer : Json → Checked Int
  | .int n       => .ok n
  | .bool b      => .ok (if b then 1 else 0)
  | .decimal m e => ofDouble (.ofDecimal m e)
  | .infinite    => .fail .finiteNumber
  | .notANumber  => .fail .finiteNumber
  | .str s       =>
    match Number.Lenient.integer s with
    | .ok n                     => .ok n
    | .error .malformed         => .fail .intParsing
    | .error (.tooManyDigits _) => .fail .intParsingSize
  | .unpaired _  => .fail .stringUnicode
  | _            => .fail .intType

def atLeast (low : Int) (n : Int) : Checked Int :=
  if n < low then .fail .greaterThanEqual else .ok n

def atMost (high : Int) (n : Int) : Checked Int :=
  if high < n then .fail .lessThanEqual else .ok n

variable {α β : Type}

def field (j : Json) (name : String) (default : α) (check : Json → Checked α) : Checked α :=
  match j.field? name with
  | none       => .ok default
  | some value => (check value).within (.field name)

def model (build : Json → Checked α) : Json → Checked α
  | .obj fields => build (.obj fields)
  | _           => .fail .modelType

end Check
end SchemaGraph
