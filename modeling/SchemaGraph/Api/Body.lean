import SchemaGraph.Api.Basic
import SchemaGraph.Json.Reader
import SchemaGraph.Number.Integer
import SchemaGraph.Text.Wide

namespace SchemaGraph.Api.Body

-- JSON text has an escape for a half of a surrogate pair.
def escaped : Text.CodePoint → List Char
  | .char c    => [c]
  | .half code => '\\' :: 'u' :: Text.hex 4 code

def wideText? (decode? : List UInt8 → Option (List Text.CodePoint)) (bytes : List UInt8) :
    Option (List Char) :=
  (decode? bytes).map (·.flatMap escaped)

-- The text of a body, which is shown by the zeros among its first bytes to be in wide units. A byte
-- order mark in front is skipped.
def text? (body : List Char) : Option (List Char) :=
  if body.head? = some '\uFEFF' then some body.tail
  else
    let bytes := (String.ofList body).toUTF8.toList
    match bytes with
    | 0 :: 0 :: _ :: _ :: _ => wideText? (Text.Wide.decode32? .bigEnd) bytes
    | 0 :: _ :: _ :: _ :: _ => wideText? (Text.Wide.decode16? .bigEnd) bytes
    | _ :: 0 :: 0 :: 0 :: _ => wideText? (Text.Wide.decode32? .littleEnd) bytes
    | _ :: 0 :: _ :: _ :: _ => wideText? (Text.Wide.decode16? .littleEnd) bytes
    | [0, _]                => wideText? (Text.Wide.decode16? .bigEnd) bytes
    | [_, 0]                => wideText? (Text.Wide.decode16? .littleEnd) bytes
    | _                     => some body

def limits : Json.Limits where
  nesting := 960
  digits := Number.maxDigits

def refuse (kind : Problem.Kind) (path : List Problem.Step) (input : Json) : Response :=
  .unprocessable [⟨kind, .field "body" :: path⟩] input

def value (body : List Char) : Except Response Json :=
  if body.isEmpty then .error (refuse .missing [] .null)
  else match text? body with
  | none      => .error .unreadable
  | some text =>
    match Json.parse limits text with
    | .ok value         => .ok value
    | .error .malformed => .error (refuse .malformedJson [] (.obj []))
    | .error _          => .error .unreadable

def hasHalves (body : List Char) : Bool :=
  match value body with
  | .ok value => value.hasHalves
  | .error _  => false

def sql (body : List Char) : Except Response String := do
  match ← value body with
  | .obj fields =>
    match (Json.obj fields).field? "sql" with
    | none       => throw (refuse .missing [.field "sql"] (.obj fields))
    | some value =>
      match Check.string value with
      | .ok sql => return sql
      | .bad _  => throw (refuse .stringType [.field "sql"] value)
  | value       => throw (refuse .modelAttributesType [] value)

end SchemaGraph.Api.Body
