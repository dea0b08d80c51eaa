import SchemaGraph.Layout
import SchemaGraph.Log.Level
import SchemaGraph.Text.Letter

namespace SchemaGraph

def Level.ofName? (name : String) : Option Level :=
  [debug, info, warning, error].find? (·.name == Text.upperAscii name)

namespace Config

structure Web where
  host : String := "127.0.0.1"
  port : Int := 8000
  maxInputChars : Int := 1000000
  corsOrigins : List String := ["*"]
  deriving DecidableEq, Repr

structure Logging where
  level : Level := .warning
  format : String := "%(asctime)s %(levelname)s %(name)s: %(message)s"
  deriving DecidableEq, Repr

end Config

structure Config where
  layout : Layout := {}
  web : Config.Web := {}
  logging : Config.Logging := {}
  deriving DecidableEq, Repr

namespace Config

structure Bound where
  group : String
  name : String
  low : Int
  high? : Option Int := none
  value : Config → Int

namespace Bound

def columns : Bound where
  group := "layout"
  name := "columns"
  low := 1
  high? := some 50
  value config := config.layout.columns

def xSpacing : Bound where
  group := "layout"
  name := "x_spacing"
  low := 0
  value config := config.layout.xSpacing

def ySpacing : Bound where
  group := "layout"
  name := "y_spacing"
  low := 0
  value config := config.layout.ySpacing

def port : Bound where
  group := "web"
  name := "port"
  low := 1
  high? := some 65535
  value config := config.web.port

def maxInputChars : Bound where
  group := "web"
  name := "max_input_chars"
  low := 1
  value config := config.web.maxInputChars

def default (b : Bound) : Int :=
  b.value {}

end Bound

def bounds : List Bound :=
  [.columns, .xSpacing, .ySpacing, .port, .maxInputChars]

end Config
end SchemaGraph
