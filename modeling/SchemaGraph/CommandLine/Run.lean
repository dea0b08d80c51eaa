import SchemaGraph.CommandLine.Invocation
import SchemaGraph.Config.StandIn
import SchemaGraph.Json.Printer
import SchemaGraph.Log.Format
import SchemaGraph.Schema.Json

namespace SchemaGraph

-- What a run of the program leaves behind. Of the events only those of a high enough level are
-- written to the standard error.
structure Outcome where
  exitCode : Nat
  stdout : String := ""
  stderr : String := ""
  served : Option (String × Int) := none
  events : List Event := []
  deriving DecidableEq, Repr

inductive Failure
  | config (message : String)
  | logFormat (format : String)
  | nulInPath
  | missingFile (path : String)
  | isDirectory (path : String)
  | notDirectory (path : String)
  | pathTooLong (path : String)
  deriving DecidableEq, Repr

def Failure.message : Failure → String
  | config message    => message
  | logFormat format  => s!"Invalid format '{format}' for '%' style"
  | nulInPath         => "embedded null byte"
  | missingFile path  => s!"[Errno 2] No such file or directory: {Text.quoted path}"
  | isDirectory path  => s!"[Errno 21] Is a directory: {Text.quoted path}"
  | notDirectory path => s!"[Errno 20] Not a directory: {Text.quoted path}"
  | pathTooLong path  => s!"[Errno 36] File name too long: {Text.quoted path}"

def Failure.outcome (reason : Failure) : Outcome where
  exitCode := 1
  stderr := s!"Error: {reason.message}\n"

def CommandLine.Stop.outcome : CommandLine.Stop → Outcome
  | .help  => { exitCode := 0 }
  | .usage => { exitCode := 2 }

namespace Schema

def print (schema : Schema) (layout : Layout) : Format → String
  | .json    => schema.toJson.print
  | .flow    => (Flow.ofSchema schema layout).toJson.print
  | .mermaid => String.ofList (Text.trimEnd (· == '\n') schema.diagram.toList)

def printEvents (schema : Schema) (layout : Layout) : Format → List Event
  | .flow => Flow.events schema layout
  | _     => []

end Schema

namespace Config

def log (config : Config) (events : List Event) : String :=
  String.join ((events.filter fun e => config.logging.level.rank ≤ e.level.rank).map
    (Log.Format.line config.logging.format))

def checkLogFormat (config : Config) : Except Failure Config :=
  if Log.Format.isValid config.logging.format then .ok config
  else .error (.logFormat config.logging.format)

end Config

structure Surroundings where
  environment : Environment
  folder : Folder
  stdin : List Char
  -- Whether a server, once it runs, is stopped by an interrupt.
  interrupted : Bool

namespace Invocation

def sqlPath? (inv : Invocation) : Option String :=
  match inv.command with
  | .parse "-" _  => none
  | .parse path _ => some (Path.normalize path)
  | .serve ..     => none

def paths (inv : Invocation) (env : Environment) : List String :=
  (Config.path? inv.config env).toList ++ inv.sqlPath?.toList

def readSql (inv : Invocation) (s : Surroundings) : Except Failure (List Char) :=
  match inv.sqlPath? with
  | none      => .ok s.stdin
  | some path =>
    if path.toList.contains '\x00' then .error .nulInPath
    else match s.folder path with
    | .missing    => .error (.missingFile path)
    | .directory  => .error (.isDirectory path)
    | .belowFile  => .error (.notDirectory path)
    | .tooLong    => .error (.pathTooLong path)
    | .file bytes => .ok (Source.unifyLineEnds (Text.Utf8.decodeLossy bytes))

def parse (config : Config) (format : Format) (sql : List Char) : Outcome :=
  let schema := Schema.parse sql
  let events := Schema.events sql ++ schema.printEvents config.layout format
  { exitCode := 0
    stdout := schema.print config.layout format ++ "\n"
    stderr := config.log events
    events }

-- An empty host and the port zero are as good as none.
def serve (config : Config) (host : Option String) (port : Option Int) (interrupted : Bool) :
    Outcome :=
  let host := match host with
    | some host => if host.isEmpty then config.web.host else host
    | none      => config.web.host
  let port := match port with
    | some port => if port = 0 then config.web.port else port
    | none      => config.web.port
  let events := [Event.served host port]
  { exitCode := if interrupted then 130 else 0
    stderr := config.log events ++ if interrupted then "\nInterrupted by user\n" else ""
    served := some (host, port)
    events }

variable {Value Reason Refusal : Type} (p : Config.Packages Value Reason Refusal)

def perform (inv : Invocation) (s : Surroundings) : Except Failure Outcome := do
  let config ← (p.load s.folder inv.config s.environment).mapError fun fault =>
    .config (p.message fault)
  let config ← config.checkLogFormat
  match inv.command with
  | .parse _ format  => return parse config format (← inv.readSql s)
  | .serve host port => return serve config host port s.interrupted

def run (inv : Invocation) (s : Surroundings) : Outcome :=
  match inv.perform p s with
  | .ok outcome   => outcome
  | .error reason => reason.outcome

end Invocation

namespace CommandLine

def runWith {Value Reason Refusal : Type} (p : Config.Packages Value Reason Refusal)
    (args : List String) (s : Surroundings) : Outcome :=
  match Invocation.ofArguments args with
  | .ok inv     => inv.run p s
  | .error stop => stop.outcome

def run (args : List String) (s : Surroundings) : Outcome :=
  runWith .standIn args s

end CommandLine
end SchemaGraph
