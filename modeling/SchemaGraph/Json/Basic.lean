import SchemaGraph.Text.Surrogate

namespace SchemaGraph

-- Values of JSON text. A number with a point or an exponent is `mantissa * 10 ^ exponent` and is
-- told apart from an integer. A string that was written with halves of surrogate pairs is told
-- apart from other strings, with characters that stand in for halves without a partner. The names
-- of an object's fields are distinct.
inductive Json
  | null
  | bool (b : Bool)
  | int (n : Int)
  | decimal (mantissa exponent : Int)
  | infinite
  | notANumber
  | str (s : String)
  | unpaired (s : String)
  | arr (items : List Json)
  | obj (fields : List (String × Json))

namespace Json

def ofOption {α : Type} (f : α → Json) : Option α → Json
  | none   => null
  | some a => f a

def ofCodePoints (ps : List Text.CodePoint) : Json :=
  let s := String.ofList ((Text.CodePoint.joinHalves ps).map Text.CodePoint.standIn)
  if ps.any Text.CodePoint.isHalf then unpaired s else str s

def ofStrings (ss : List String) : Json :=
  arr (ss.map str)

mutual

def hasHalves : Json → Bool
  | unpaired _ => true
  | arr items  => itemsHaveHalves items
  | obj fields => fieldsHaveHalves fields
  | _          => false

def itemsHaveHalves : List Json → Bool
  | []            => false
  | item :: items => hasHalves item || itemsHaveHalves items

def fieldsHaveHalves : List (String × Json) → Bool
  | []                      => false
  | (name, value) :: fields =>
    name.toList.any (Text.CodePoint.standsFor? · |>.isSome) || hasHalves value
      || fieldsHaveHalves fields

end

def field? (name : String) : Json → Option Json
  | obj fields => fields.lookup name
  | _          => none

end Json
end SchemaGraph
