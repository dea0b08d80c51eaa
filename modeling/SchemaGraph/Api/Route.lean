import SchemaGraph.Text.Basic
import SchemaGraph.Text.Digit
import SchemaGraph.Text.Utf8

namespace SchemaGraph.Api.Route

def pathOf (address : List Char) : List Char :=
  let path := address.takeWhile fun c => c != '#' && c != '?'
  let fromHost :=
    ["http://", "https://", "//"].findSome? fun start =>
      if start.toList.isPrefixOf path then some (path.drop start.length) else none
  match fromHost with
  | some cs => cs.dropWhile (· != '/')
  | none    => path

def bytes : List Char → List UInt8
  | []                  => []
  | '%' :: a :: b :: cs =>
    match Text.hexValue? a, Text.hexValue? b with
    | some high, some low => UInt8.ofNat (high * 16 + low) :: bytes cs
    | _,         _        => '%'.toUInt8 :: bytes (a :: b :: cs)
  | c :: cs             => c.toString.toUTF8.toList ++ bytes cs

def decode (path : List Char) : List Char :=
  Text.Utf8.decodeLossy (bytes path)

-- Steps through the parts of a path; `done` holds the parts before, the latest first.
def walk : (done : List (List Char)) → List (List Char) → List (List Char)
  | done, []            => done.reverse
  | done, part :: parts =>
    if part = ['.'] then walk done parts
    else if part = ['.', '.'] then walk (if done = [[]] then done else done.drop 1) parts
    else walk (part :: done) parts

def dropLineEnd (path : List Char) : List Char :=
  if path.getLast? = some '\n' then path.dropLast else path

-- The path as far as it counts: with one slash in front and none at its end, nor a line end there.
def ofAddress (address : String) : String :=
  let path := '/' :: (pathOf address.toList).dropWhile (· == '/')
  let path := ['/'].intercalate (walk [] (Text.cut (· == '/') path))
  String.ofList (dropLineEnd (Text.trimEnd (· == '/') (decode path)))

end SchemaGraph.Api.Route
