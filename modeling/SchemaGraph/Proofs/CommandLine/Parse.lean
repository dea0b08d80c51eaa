import SchemaGraph.CommandLine.Run
import SchemaGraph.Proofs.Json.Reading
import SchemaGraph.Proofs.LineEnds
import SchemaGraph.Proofs.Text.Utf8

-- What the command that parses a file prints.
namespace SchemaGraph

namespace Format

def name : Format → String
  | json    => "json"
  | mermaid => "mermaid"
  | flow    => "flow"

theorem ofName_name (format : Format) : ofName format.name = format := by
  cases format <;> rfl

end Format

namespace CommandLine

theorem accepts_name (format : Format) : accepts .format format.name := by
  cases format <;> decide +kernel

theorem head?_name (format : Format) : format.name.toList.head? ≠ some '-' := by
  cases format <;> decide +kernel

variable {s : String} {args : List String} {shaped : List Shaped} {shape : Shape}

namespace Grammar

variable {g : Grammar}

theorem shape_word (h : s.toList.head? ≠ some '-') : g.shape s = .ok .word := by
  rw [Grammar.shape]
  split
  case h_1 hs => exact absurd (congrArg List.head? hs) h
  case h_2    => rfl

theorem shapes_nil : g.shapes [] = .ok [] :=
  rfl

theorem shapes_cons (hn : s ≠ "--") (hs : g.shape s = .ok shape) (ha : g.shapes args = .ok shaped) :
    g.shapes (s :: args) = .ok ((s, shape) :: shaped) := by
  rw [shapes, if_neg hn, hs, ha]
  rfl

theorem shapes_word (h : s.toList.head? ≠ some '-') (ha : g.shapes args = .ok shaped) :
    g.shapes (s :: args) = .ok ((s, .word) :: shaped) :=
  shapes_cons (fun hs => h (hs ▸ by decide +kernel)) (shape_word h) ha

end Grammar

section Reading

variable {g : Grammar} {fuel : Nat} {r r' : Reading} {name : String} {words : List String}
  {rest : List Shaped} {known : Option (Flag × String)} {value : Option String}

theorem read_eq (h : g.shapes args = .ok shaped) :
    CommandLine.read g args = readShaped g (shaped.length + 1) shaped .empty := by
  rw [CommandLine.read, h]
  rfl

theorem readShaped_flag (h : takeFlag g known value shaped r = .ok (r', rest)) :
    readShaped g (fuel + 1) ((s, .flag known value) :: shaped) r = readShaped g fuel rest r' := by
  rw [readShaped, h]
  rfl

theorem readShaped_word (hn : r.words = none)
    (h : takePositional g.positional ((s, .word) :: shaped) = some (words, rest)) :
    readShaped g (fuel + 1) ((s, .word) :: shaped) r
      = readShaped g fuel rest { r with words := some words } := by
  simp [readShaped, hn, h]

theorem takePositional_one (hp : g.positional = .one) :
    takePositional g.positional ((s, .word) :: (name, .flag known value) :: shaped)
      = some ([s], (name, .flag known value) :: shaped) := by
  rw [hp]
  rfl

theorem takeFlag_format (format : Format) :
    takeFlag g (some (.format, "--format")) none ((format.name, .word) :: shaped) r
      = .ok ({ r with values := (.format, format.name) :: r.values }, shaped) :=
  if_pos (accepts_name format)

end Reading
end CommandLine

namespace Invocation

open CommandLine

variable {path : String}

theorem shape_format_main : mainGrammar.shape "--format" = .ok (.flag none none) := by
  decide +kernel

theorem shape_format_parse :
    parseGrammar.shape "--format" = .ok (.flag (some (.format, "--format")) none) := by
  decide +kernel

theorem read_main (h : path.toList.head? ≠ some '-') (format : Format) :
    read mainGrammar ["parse", path, "--format", format.name] = .ok {
      values   := []
      words    := some ["parse", path, "--format", format.name]
      leftover := false } := by
  have hs := Grammar.shapes_word (g := mainGrammar) (s := "parse") (by decide +kernel)
    (Grammar.shapes_word h (Grammar.shapes_cons (by decide) shape_format_main
      (Grammar.shapes_word (head?_name format) Grammar.shapes_nil)))
  rw [read_eq hs]
  rfl

theorem read_parse (h : path.toList.head? ≠ some '-') (format : Format) :
    read parseGrammar [path, "--format", format.name]
      = .ok { values := [(.format, format.name)], words := some [path], leftover := false } := by
  have hs := Grammar.shapes_word (g := parseGrammar) h
    (Grammar.shapes_cons (by decide) shape_format_parse
      (Grammar.shapes_word (head?_name format) Grammar.shapes_nil))
  rw [read_eq hs, readShaped_word rfl (takePositional_one rfl)]
  exact readShaped_flag (takeFlag_format format)

theorem ofArguments_parse (h : path.toList.head? ≠ some '-') (format : Format) :
    ofArguments ["parse", path, "--format", format.name]
      = .ok { config := none, command := .parse path format } := by
  rw [ofArguments, read_main h]
  simp [bind, Except.bind, commandOf, parseCommand, read_parse h, complete, Reading.value?,
    Format.ofName_name, pure, Except.pure]

end Invocation

theorem Schema.parse_unifyLineEnds (text : List Char) :
    parse (Source.unifyLineEnds text) = parse text := by
  rw [parse, parse, Source.normalize_unifyLineEnds]

theorem Invocation.stdout_parse_unifyLineEnds (config : Config) (format : Format)
    (text : List Char) :
    (parse config format (Source.unifyLineEnds text)).stdout
      = (Schema.parse text).print config.layout format ++ "\n" := by
  rw [parse, Schema.parse_unifyLineEnds]

namespace Surroundings

structure Holds (s : Surroundings) (path sql : String) : Prop where
  head?_ne    : path.toList.head? ≠ some '-'
  nul_not_mem : '\x00' ∉ (Path.normalize path).toList
  folder_eq   : s.folder (Path.normalize path) = .file sql.toUTF8.toList

-- The command that parses the file under the path prints `out` and a line end, and so does a run of
-- the program that comes to this configuration, with whatever packages it is loaded.
structure Prints (s : Surroundings) (config : Config) (path : String) (format : Format)
    (out : String) : Prop where
  command : ∃ text, (Invocation.mk none (.parse path format)).readSql s = .ok text ∧
    (Invocation.parse config format text).stdout = out ++ "\n"
  run     : ∀ {Value Reason Refusal : Type} (p : Config.Packages Value Reason Refusal),
    p.load s.folder none s.environment = .ok config → Log.Format.isValid config.logging.format →
    let outcome := CommandLine.runWith p ["parse", path, "--format", format.name] s
    outcome.exitCode = 0 ∧ outcome.stdout = out ++ "\n"

-- What is printed is the value's text, from which the value is read back.
structure PrintsValue (s : Surroundings) (config : Config) (path : String) (format : Format)
    (value : Json) : Prop where
  prints : s.Prints config path format value.print
  reads  : ∀ limits : Json.Limits, value.print.length ≤ limits.nesting →
    value.print.length ≤ limits.digits → Json.parse limits value.print.toList = .ok value

variable {s : Surroundings} {path sql : String} {config : Config}

namespace Holds

theorem sqlPath?_eq (h : s.Holds path sql) (format : Format) :
    (Invocation.mk none (.parse path format)).sqlPath? = some (Path.normalize path) := by
  rw [Invocation.sqlPath?]
  split
  case h_1 hp =>
    cases hp
    exact absurd (by decide +kernel) h.head?_ne
  case h_2 hp => cases hp; rfl
  case h_3 hp => cases hp

theorem readSql_eq (h : s.Holds path sql) (format : Format) :
    (Invocation.mk none (.parse path format)).readSql s =
      .ok (Source.unifyLineEnds sql.toList) := by
  have hn : ¬ (Path.normalize path).toList.contains '\x00' := by simp [h.nul_not_mem]
  rw [Invocation.readSql, h.sqlPath?_eq]
  simp only [if_neg hn, h.folder_eq, Text.Utf8.decodeLossy_toUTF8]

theorem mapError_ok {ε ε' α : Type} (f : ε → ε') (a : α) : (Except.ok a).mapError f = .ok a :=
  rfl

theorem run_eq {Value Reason Refusal : Type} {p : Config.Packages Value Reason Refusal}
    (h : s.Holds path sql) (hc : p.load s.folder none s.environment = .ok config)
    (hl : Log.Format.isValid config.logging.format) (format : Format) :
    CommandLine.runWith p ["parse", path, "--format", format.name] s
      = Invocation.parse config format (Source.unifyLineEnds sql.toList) := by
  rw [CommandLine.runWith, Invocation.ofArguments_parse h.head?_ne]
  simp [Invocation.run, Invocation.perform, hc, Config.checkLogFormat, hl, h.readSql_eq,
    mapError_ok, bind, Except.bind, pure, Except.pure]

theorem prints (h : s.Holds path sql) (config : Config) (format : Format) :
    s.Prints config path format ((Schema.parse sql.toList).print config.layout format) where
  command := ⟨_, h.readSql_eq format, Invocation.stdout_parse_unifyLineEnds ..⟩
  run _ hc hl := by
    rw [h.run_eq hc hl]
    exact ⟨rfl, Invocation.stdout_parse_unifyLineEnds ..⟩

theorem printsValue (h : s.Holds path sql) {format : Format} {value : Json} (hp : value.Plain)
    (he : (Schema.parse sql.toList).print config.layout format = value.print) :
    s.PrintsValue config path format value where
  prints    := he ▸ h.prints config format
  reads _   := hp.parse_print

end Holds
end Surroundings
end SchemaGraph
