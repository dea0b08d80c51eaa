import SchemaGraph.Config.Basic
import SchemaGraph.Config.Folder
import SchemaGraph.Number.Integer
import SchemaGraph.Source
import SchemaGraph.Text.Quoted

namespace SchemaGraph

structure Environment where
  configPath : String := ""
  logLevel : String := ""
  webHost : String := ""
  webPort : String := ""
  deriving DecidableEq, Repr

namespace Config

-- What a YAML text holds, as far as loading tells it apart.
inductive Document (Value : Type)
  | empty
  | mapping (value : Value)
  | other

-- What loading leaves to the packages that read YAML and that check values against the declared
-- fields: `Value` is what YAML is read as, `Reason` is why it cannot be read, and `Refusal` is what
-- is wrong with a value. The mapping `unset` has no keys.
structure Packages (Value Reason Refusal : Type) where
  parse : List Char → Except Reason (Document Value)
  unset : Value
  validate : Value → Except Refusal Config
  validateLogging : (level format : String) → Except Refusal Logging
  reasonText : Reason → String
  refusalText : (model : String) → Refusal → String

inductive Fault (Reason Refusal : Type)
  | portNotInteger (text : String)
  | portTooLong (digits : Nat)
  | missingFile (path : String)
  | isDirectory (path : String)
  | pathTooLong (path : String)
  | undecodable (fault : Text.Utf8.Fault)
  | malformed (reason : Reason)
  | notMapping (path : String)
  | invalid (path : String) (refusal : Refusal)
  | invalidLevel (refusal : Refusal)
  deriving DecidableEq, Repr

def shortened (text : String) : String :=
  String.ofList (text.toList.take 200)

def faultReason : Text.Utf8.Fault.Reason → String
  | .badStart        => "invalid start byte"
  | .badContinuation => "invalid continuation byte"
  | .truncated       => "unexpected end of data"

-- A sequence that the end of the file cuts short is read on its own, so its place is not that in
-- the file.
def faultMessage (fault : Text.Utf8.Fault) : String :=
  let start := if fault.reason = .truncated then 0 else fault.offset
  let place :=
    if fault.length = 1 then
      s!"byte 0x{String.ofList (Text.hex 2 fault.first.toNat)} in position {start}"
    else s!"bytes in position {start}-{start + fault.length - 1}"
  s!"'utf-8' codec can't decode {place}: {faultReason fault.reason}"

variable {Value Reason Refusal : Type}

-- The port that the environment sets; zero is none.
def portOf (env : Environment) : Except (Fault Reason Refusal) Int :=
  if env.webPort.isEmpty then .ok 0
  else match Number.integer env.webPort with
    | .ok port                      => .ok port
    | .error .malformed             => .error (.portNotInteger env.webPort)
    | .error (.tooManyDigits count) => .error (.portTooLong count)

def path? (asked : Option String) (env : Environment) : Option String :=
  let path := asked.getD ""
  let path := if path.isEmpty then env.configPath else path
  if path.isEmpty then none else some (Path.normalize path)

def withHost (env : Environment) (config : Config) : Config :=
  if env.webHost.isEmpty then config else { config with web.host := env.webHost }

def withPort (port : Int) (config : Config) : Config :=
  if port = 0 then config else { config with web.port := port }

namespace Packages

variable (p : Packages Value Reason Refusal)

def message : Fault Reason Refusal → String
  | .portNotInteger text  =>
    s!"invalid literal for int() with base 10: {shortened (Text.quoted text)}"
  | .portTooLong digits   => Number.tooManyDigitsMessage digits
  | .missingFile path     => s!"Config file not found: {path}"
  | .isDirectory path     => s!"[Errno 21] Is a directory: {Text.quoted path}"
  | .pathTooLong path     => s!"[Errno 36] File name too long: {Text.quoted path}"
  | .undecodable fault    => faultMessage fault
  | .malformed reason     => p.reasonText reason
  | .notMapping path      => s!"Invalid configuration in {path}: expected a mapping"
  | .invalid path refusal =>
    let text := p.refusalText "AppConfig" refusal
    s!"Invalid configuration in {path}: {text}"
  | .invalidLevel refusal => p.refusalText "LoggingConfig" refusal

def ofValue (path : String) (value : Value) : Except (Fault Reason Refusal) Config :=
  (p.validate value).mapError (.invalid path)

def ofDocument (path : String) : Document Value → Except (Fault Reason Refusal) Config
  | .empty         => p.ofValue path p.unset
  | .mapping value => p.ofValue path value
  | .other         => .error (.notMapping path)

def read (path : String) : Entry → Except (Fault Reason Refusal) (Document Value)
  | .missing    => .error (.missingFile path)
  | .belowFile  => .error (.missingFile path)
  | .directory  => .error (.isDirectory path)
  | .tooLong    => .error (.pathTooLong path)
  | .file bytes =>
    match Text.Utf8.decode bytes with
    | .ok text     => (p.parse (Source.unifyLineEnds text)).mapError .malformed
    | .error fault => .error (.undecodable fault)

def fromFile (folder : Folder) : (path? : Option String) → Except (Fault Reason Refusal) Config
  | none      => .ok {}
  | some path => do
    let document ← p.read path (folder path)
    p.ofDocument path document

def withLevel (env : Environment) (config : Config) : Except (Fault Reason Refusal) Config :=
  if env.logLevel.isEmpty then .ok config
  else match p.validateLogging (Text.upperAscii env.logLevel) config.logging.format with
    | .ok logging    => .ok { config with logging }
    | .error refusal => .error (.invalidLevel refusal)

def load (folder : Folder) (asked : Option String) (env : Environment) :
    Except (Fault Reason Refusal) Config := do
  let port ← portOf env
  let config ← p.fromFile folder (path? asked env)
  let config ← p.withLevel env config
  return withPort port (withHost env config)

end Packages
end Config
end SchemaGraph
