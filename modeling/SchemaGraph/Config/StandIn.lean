import SchemaGraph.Config.Check
import SchemaGraph.Config.Load
import SchemaGraph.Yaml.Node

namespace SchemaGraph

namespace Check

def level : Json → Checked Level
  | .str s      =>
    match Level.ofName? s with
    | some level => .ok level
    | none       => .fail .literalError
  | .unpaired _ => .fail .stringUnicode
  | _           => .fail .literalError

def bounded (b : Config.Bound) (v : Json) : Checked Int :=
  let checked := (integer v).bind (atLeast b.low)
  match b.high? with
  | some high => checked.bind (atMost high)
  | none      => checked

def boundedField (j : Json) (b : Config.Bound) : Checked Int :=
  field j b.name b.default (bounded b)

def layout : Json → Checked Layout :=
  model fun j =>
    let unset : Layout := {}
    ((boundedField j .columns).map Layout.mk)
      |>.ap (boundedField j .xSpacing)
      |>.ap (boundedField j .ySpacing)
      |>.ap (field j "x_offset" unset.xOffset integer)
      |>.ap (field j "y_offset" unset.yOffset integer)

def web : Json → Checked Config.Web :=
  model fun j =>
    let unset : Config.Web := {}
    ((field j "host" unset.host string).map Config.Web.mk)
      |>.ap (boundedField j .port)
      |>.ap (boundedField j .maxInputChars)
      |>.ap (field j "cors_origins" unset.corsOrigins strings)

def logging : Json → Checked Config.Logging :=
  model fun j =>
    let unset : Config.Logging := {}
    ((field j "level" unset.level level).map Config.Logging.mk)
      |>.ap (field j "format" unset.format string)

def config : Json → Checked Config :=
  model fun j =>
    ((field j "layout" {} layout).map Config.mk)
      |>.ap (field j "web" {} web)
      |>.ap (field j "logging" {} logging)

end Check

namespace Config

abbrev Error := Fault Yaml.Error (List Problem)

def countOfProblems (n : Nat) : String :=
  if n = 1 then "1 validation error" else s!"{n} validation errors"

namespace Document

def ofJson : Json → Document Json
  | .null       => .empty
  | .obj fields => .mapping (.obj fields)
  | _           => .other

end Document

-- The readers and checks of this project in place of the packages. They know less of YAML and of
-- what may be handed over than the packages do, so nothing general is concluded from them.
def Packages.standIn : Packages Json Yaml.Error (List Problem) where
  parse text := (Yaml.parse text).map Document.ofJson
  unset := .obj []
  validate value := (Check.config value).toExcept
  validateLogging level format :=
    (Check.logging (.obj [("level", .str level), ("format", .str format)])).toExcept
  reasonText := Yaml.Error.headline
  refusalText model problems := s!"{countOfProblems problems.length} for {model}"

def Error.message (e : Error) : String :=
  Packages.standIn.message e

def load (folder : Folder) (asked : Option String) (env : Environment) : Except Error Config :=
  Packages.standIn.load folder asked env

end Config
end SchemaGraph
