import SchemaGraph.CommandLine.Run

namespace SchemaGraph.CommandLine

def readEntry (path : String) : IO Entry := do
  try
    return .file (← IO.FS.readBinFile path).toList
  catch
    | .noFileOrDirectory .. => return .missing
    | .inappropriateType _ code _ => return if code = 20 then .belowFile else .directory
    | .invalidArgument _ 36 _ => return .tooLong
    | e => throw e

def readEnvironment : IO Environment := do
  let get (name : String) : IO String := return (← IO.getEnv name).getD ""
  return {
    configPath := ← get "DDL_FLOWCHART_CONFIG"
    logLevel := ← get "LOG_LEVEL"
    webHost := ← get "WEB_HOST"
    webPort := ← get "WEB_PORT" }

def readStdin (inv : Invocation) : IO (List Char) := do
  match inv.command with
  | .parse "-" _ => return Text.Utf8.decodeLossy (← (← IO.getStdin).readBinToEnd).toList
  | _            => return []

def execute (args : List String) : IO UInt32 := do
  let environment ← readEnvironment
  let outcome ← match Invocation.ofArguments args with
    | .error stop => pure stop.outcome
    | .ok inv     =>
      let entries ← (inv.paths environment).mapM fun path => return (path, ← readEntry path)
      let folder : Folder := fun path => (entries.lookup path).getD .missing
      let stdin ← readStdin inv
      pure (inv.run .standIn { environment, folder, stdin, interrupted := false })
  IO.print outcome.stdout
  IO.eprint outcome.stderr
  return outcome.exitCode.toUInt32

end SchemaGraph.CommandLine

def main (args : List String) : IO UInt32 :=
  SchemaGraph.CommandLine.execute args
