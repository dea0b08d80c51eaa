import SchemaGraph.Api.Answer
import SchemaGraph.Json.Printer
import SchemaGraph.Number.Decimal

namespace SchemaGraph.Api

-- Why an answer cannot be sent: a number in it is not finite, or its text has halves of surrogate
-- pairs, of which `first` is the first and which stand from `start` up to `stop`.
inductive Undeliverable
  | nonFinite
  | loneHalves (first start stop : Nat)
  deriving DecidableEq, Repr

namespace Undeliverable

def message : Undeliverable → String
  | nonFinite                   => "Out of range float values are not JSON compliant"
  | loneHalves first start stop =>
    let place :=
      if stop = start + 1 then
        s!"character '\\u{String.ofList (Text.hex 4 first)}' in position {start}"
      else s!"characters in position {start}-{stop - 1}"
    s!"'utf-8' codec can't encode {place}: surrogates not allowed"

end Undeliverable

mutual

def isFinite : Json → Bool
  | .decimal m e => Number.Double.ofDecimal m e != .infinite
  | .infinite    => false
  | .notANumber  => false
  | .arr items   => areFinite items
  | .obj fields  => fieldsAreFinite fields
  | _            => true

def areFinite : List Json → Bool
  | []            => true
  | item :: items => isFinite item && areFinite items

def fieldsAreFinite : List (String × Json) → Bool
  | []                   => true
  | (_, value) :: fields => isFinite value && fieldsAreFinite fields

end

-- The first halves of surrogate pairs in a text in which characters stand in for halves.
def loneHalves? (text : List Char) : Option Undeliverable :=
  let standsIn (c : Char) := (Text.CodePoint.standsFor? c).isSome
  let (before, rest) := text.span (!standsIn ·)
  let halves := (rest.takeWhile standsIn).filterMap Text.CodePoint.standsFor?
  halves.head?.map fun first => .loneHalves first before.length (before.length + halves.length)

def undeliverable? (request : Request) (response : Response) : Option Undeliverable :=
  if !isFinite response.sent then some .nonFinite
  else (loneHalves? response.sent.printCompact.toList).filter fun _ => Body.hasHalves request.body

def session (config : Config) (requests : List Request) :
    Except Undeliverable (List Response × List Event) :=
  let answers := requests.map (answer (endpoints config))
  let undeliverable := (requests.zip answers).findSome? fun (request, response, _) =>
    undeliverable? request response
  match undeliverable with
  | some reason => .error reason
  | none        =>
    .ok (answers.map Prod.fst, [.started] ++ answers.flatMap Prod.snd ++ [.stopped])

end SchemaGraph.Api
