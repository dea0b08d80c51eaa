import SchemaGraph.CommandLine.Arguments

namespace SchemaGraph

inductive Format
  | json
  | mermaid
  | flow
  deriving DecidableEq, Repr

def Format.ofName : String → Format
  | "mermaid" => mermaid
  | "flow"    => flow
  | _         => json

inductive Command
  | parse (path : String) (format : Format)
  | serve (host : Option String) (port : Option Int)
  deriving DecidableEq, Repr

structure Invocation where
  config : Option String
  command : Command
  deriving DecidableEq, Repr

namespace Invocation

open CommandLine

def helpFlags : List (String × Flag) :=
  [("-h", .help), ("--help", .help)]

def mainGrammar : Grammar where
  flags := helpFlags ++ [("--config", .config)]
  positional := .rest

def parseGrammar : Grammar where
  flags := helpFlags ++ [("--format", .format)]
  positional := .one

def serveGrammar : Grammar where
  flags := helpFlags ++ [("--host", .host), ("--port", .port)]
  positional := .none

def complete (r : Reading) : Except Stop Reading :=
  if r.leftover then .error .usage else .ok r

def parseCommand (args : List String) : Except Stop Command := do
  let r ← read parseGrammar args
  match r.words with
  | some [path] =>
    let r ← complete r
    return .parse path (.ofName ((r.value? .format).getD "json"))
  | _           => throw .usage

def serveCommand (args : List String) : Except Stop Command := do
  let r ← complete (← read serveGrammar args)
  return .serve (r.value? .host) ((r.value? .port).bind Number.integer?)

def commandOf : List String → Except Stop Command
  | "parse" :: args => parseCommand args
  | "serve" :: args => serveCommand args
  | _               => .error .usage

def ofArguments (args : List String) : Except Stop Invocation := do
  let r ← read mainGrammar args
  let command ← commandOf (r.words.getD [])
  let r ← complete r
  return { config := r.value? .config, command }

end Invocation
end SchemaGraph
