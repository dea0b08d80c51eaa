import SchemaGraph.Proofs.Config.StandIn
import SchemaGraph.Proofs.Text.Letter

-- The bounds that a configuration keeps to when it is loaded.
namespace SchemaGraph.Config

section Generic

variable {Value Reason Refusal : Type} {p : Packages Value Reason Refusal}
  {view : View Value Refusal}

def IsPort (n : Int) : Prop :=
  1 ≤ n ∧ n ≤ 65535

instance (n : Int) : Decidable (IsPort n) :=
  inferInstanceAs (Decidable (_ ∧ _))

-- A configuration within its bounds, but for its port.
structure InBounds (config : Config) : Prop where
  layout        : config.layout.Valid
  maxInputChars : 1 ≤ config.web.maxInputChars
  level         : config.logging.level.name ∈ levelNames

-- Loading keeps the bounds and reports what breaks them, except that a port from the environment is
-- taken as it is. Of several faults the first one counts: that of the port comes before that of the
-- file, and both before that of the level.
structure Guarded (p : Packages Value Reason Refusal) (view : View Value Refusal) (folder : Folder)
    (asked : Option String) (env : Environment) : Prop where
  bounds : ∀ config, p.load folder asked env = .ok config → config.InBounds
  port   : ∀ config, p.load folder asked env = .ok config → ∃ port,
    (portOf env : Except (Fault Reason Refusal) Int) = .ok port ∧
      if port = 0 then IsPort config.web.port else config.web.port = port
  file   : ∀ name v path, path? asked env = some name →
    p.read name (folder name) = .ok (.mapping v) →
    view.Breaks v path →
    (∃ fault, portOf env = .error fault ∧ p.load folder asked env = .error fault) ∨
      ∃ refusal, p.load folder asked env = .error (.invalid name refusal) ∧
        view.Reports refusal path
  level  : env.logLevel ≠ "" → Text.upperAscii env.logLevel ∉ levelNames → ∃ fault,
    p.load folder asked env = .error fault ∧
      ((∃ refusal, fault = .invalidLevel refusal ∧ view.Reports refusal ["level"]) ∨
        p.load folder asked { env with logLevel := "" } = .error fault)

variable {config base : Config} {folder : Folder} {asked : Option String} {env : Environment}
  {port : Int} {name : String} {v : Value} {path : List String}

theorem inBounds_of_admits (h : ∀ b ∈ bounds, b.Admits (b.value config)) :
    config.InBounds ∧ IsPort config.web.port := by
  have hc := h .columns (by simp [bounds])
  have hx := h .xSpacing (by simp [bounds])
  have hy := h .ySpacing (by simp [bounds])
  have hp := h .port (by simp [bounds])
  have hm := h .maxInputChars (by simp [bounds])
  have hlayout : config.layout.Valid := {
    one_le_columns  := hc.low_le
    columns_le      := hc.le_high 50 rfl
    xSpacing_nonneg := hx.low_le
    ySpacing_nonneg := hy.low_le }
  exact ⟨⟨hlayout, hm.low_le, name_mem_levelNames _⟩, hp.low_le, hp.le_high 65535 rfl⟩

theorem inBounds_default : InBounds {} ∧ IsPort ({} : Config).web.port :=
  inBounds_of_admits fun _ => Bound.admits_default

theorem bind_eq_ok_iff {ε α β : Type} {x : Except ε α} {f : α → Except ε β} {y : β} :
    (x >>= f) = .ok y ↔ ∃ a, x = .ok a ∧ f a = .ok y := by
  cases x <;> simp [Bind.bind, Except.bind]

theorem mapError_eq_ok_iff {ε ε' α : Type} {x : Except ε α} {f : ε → ε'} {a : α} :
    x.mapError f = .ok a ↔ x = .ok a := by
  cases x
  case error => exact ⟨nofun, nofun⟩
  case ok    =>
    exact ⟨fun h => congrArg _ (Except.ok.inj h), fun h => congrArg _ (Except.ok.inj h)⟩

-- What is constructed is within the bounds.

namespace Packages.Lawful

variable (hl : p.Lawful view)
include hl

theorem inBounds_validate (h : p.validate v = .ok config) :
    config.InBounds ∧ IsPort config.web.port :=
  inBounds_of_admits fun b hb => (hl.settles h b hb).admits hb

theorem inBounds_ofDocument {document : Document Value}
    (h : p.ofDocument name document = .ok config) : config.InBounds ∧ IsPort config.web.port := by
  cases document
  case empty     => exact hl.inBounds_validate (mapError_eq_ok_iff.mp h)
  case mapping v => exact hl.inBounds_validate (mapError_eq_ok_iff.mp h)
  case other     => cases h

theorem inBounds_fromFile {path? : Option String} (h : p.fromFile folder path? = .ok config) :
    config.InBounds ∧ IsPort config.web.port := by
  cases path?
  case none      => exact Except.ok.inj h ▸ inBounds_default
  case some path =>
    obtain ⟨document, _, hd⟩ := bind_eq_ok_iff.mp h
    exact hl.inBounds_ofDocument hd

theorem ofValue_of_breaks (name : String) (h : view.Breaks v path) :
    ∃ refusal, p.ofValue name v = .error (.invalid name refusal) ∧ view.Reports refusal path := by
  rw [Packages.ofValue]
  cases hv : p.validate v
  case error refusal => exact ⟨refusal, rfl, hl.reports hv h⟩
  case ok config     =>
    exfalso
    cases h
    case level hw hs =>
      obtain ⟨s, ht, he⟩ := hl.level hv hw
      exact hs s ht (he ▸ name_mem_levelNames _)
    case bound b w hb hw hn =>
      have h := hl.settles hv b hb
      rw [hw] at h
      cases h
      case given ha hi => exact hn _ hi ha

theorem withLevel_of_not_mem (hn : env.logLevel ≠ "")
    (h : Text.upperAscii env.logLevel ∉ levelNames) (config : Config) :
    ∃ refusal, p.withLevel env config = .error (.invalidLevel refusal) ∧
      view.Reports refusal ["level"] := by
  have hu : Text.upperAscii (Text.upperAscii env.logLevel) ∉ levelNames := by simpa using h
  rw [Packages.withLevel, if_neg (by simpa using hn)]
  cases hv : p.validateLogging (Text.upperAscii env.logLevel) config.logging.format
  case error refusal => exact ⟨refusal, rfl, hl.reportsLevel hv hu⟩
  case ok logging    => exact absurd (hl.loggingLevel hv ▸ name_mem_levelNames _) hu

end Packages.Lawful

-- The level and the host change nothing that is bounded.

theorem inBounds_withLevel (h : p.withLevel env base = .ok config) (hb : base.InBounds) :
    config.InBounds ∧ config.web = base.web := by
  rw [Packages.withLevel] at h
  split at h
  case isTrue => exact Except.ok.inj h ▸ ⟨hb, rfl⟩
  split at h
  case h_1 => exact Except.ok.inj h ▸ ⟨⟨hb.layout, hb.maxInputChars, name_mem_levelNames _⟩, rfl⟩
  case h_2 => cases h

theorem inBounds_withHost (hb : base.InBounds) :
    (withHost env base).InBounds ∧ (withHost env base).web.port = base.web.port := by
  rw [withHost]
  split
  case isTrue  => exact ⟨hb, rfl⟩
  case isFalse => exact ⟨⟨hb.layout, hb.maxInputChars, hb.level⟩, rfl⟩

theorem inBounds_withPort (hb : base.InBounds) : (withPort port base).InBounds ∧
    (withPort port base).web.port = if port = 0 then base.web.port else port := by
  rw [withPort]
  split
  case isTrue  => exact ⟨hb, rfl⟩
  case isFalse => exact ⟨⟨hb.layout, hb.maxInputChars, hb.level⟩, rfl⟩

namespace Packages.Lawful

variable (hl : p.Lawful view)
include hl

theorem inBounds_load (h : p.load folder asked env = .ok config) : config.InBounds ∧ ∃ port,
    (portOf env : Except (Fault Reason Refusal) Int) = .ok port ∧
      if port = 0 then IsPort config.web.port else config.web.port = port := by
  obtain ⟨port, hp, h⟩ := bind_eq_ok_iff.mp h
  obtain ⟨base, hf, h⟩ := bind_eq_ok_iff.mp h
  obtain ⟨leveled, hv, h⟩ := bind_eq_ok_iff.mp h
  obtain rfl : withPort port (withHost env leveled) = config := Except.ok.inj h
  have ⟨hbase, hbport⟩ := hl.inBounds_fromFile hf
  have ⟨hleveled, hweb⟩ := inBounds_withLevel hv hbase
  have ⟨hhosted, hhost⟩ := @inBounds_withHost leveled env hleveled
  have ⟨hported, hport⟩ := @inBounds_withPort _ port hhosted
  refine ⟨hported, port, hp, ?_⟩
  split
  case isTrue hz  => rwa [hport, if_pos hz, hhost, hweb]
  case isFalse hz => rw [hport, if_neg hz]

theorem load_of_breaks (hp : path? asked env = some name)
    (hr : p.read name (folder name) = .ok (.mapping v)) (h : view.Breaks v path) :
    (∃ fault, portOf env = .error fault ∧ p.load folder asked env = .error fault) ∨
      ∃ refusal, p.load folder asked env = .error (.invalid name refusal) ∧
        view.Reports refusal path := by
  obtain ⟨refusal, hv, hm⟩ := hl.ofValue_of_breaks name h
  have hf : p.fromFile folder (some name) = .error (.invalid name refusal) := by
    rw [Packages.fromFile, hr]
    exact hv
  rw [Packages.load, hp, hf]
  cases portOf env
  case error fault => exact .inl ⟨fault, rfl, rfl⟩
  case ok          => exact .inr ⟨refusal, rfl, hm⟩

theorem load_of_level (hn : env.logLevel ≠ "") (h : Text.upperAscii env.logLevel ∉ levelNames) :
    ∃ fault, p.load folder asked env = .error fault ∧
      ((∃ refusal, fault = .invalidLevel refusal ∧ view.Reports refusal ["level"]) ∨
        p.load folder asked { env with logLevel := "" } = .error fault) := by
  have hport : portOf { env with logLevel := "" } =
    (portOf env : Except (Fault Reason Refusal) _) :=
    rfl
  have hpath : path? asked { env with logLevel := "" } = path? asked env := rfl
  rw [Packages.load, Packages.load, hport, hpath]
  cases portOf env
  case error fault => exact ⟨fault, rfl, .inr rfl⟩
  case ok port     =>
    cases p.fromFile folder (path? asked env)
    case error fault => exact ⟨fault, rfl, .inr rfl⟩
    case ok base     =>
      obtain ⟨refusal, hv, hm⟩ := hl.withLevel_of_not_mem hn h base
      refine ⟨.invalidLevel refusal, ?_, .inl ⟨refusal, rfl, hm⟩⟩
      show (p.withLevel env base >>= _) = _
      rw [hv]
      rfl

end Packages.Lawful

theorem guarded_load (hl : p.Lawful view) (folder : Folder) (asked : Option String)
    (env : Environment) : Guarded p view folder asked env where
  bounds _ h        := (hl.inBounds_load h).left
  port _ h          := (hl.inBounds_load h).right
  file _ _ _        := hl.load_of_breaks
  level hn h        := hl.load_of_level hn h

end Generic

def oversized : Folder :=
  .ofFiles [("wide.yaml", "layout: \x7bcolumns: 60\x7d\n".toUTF8.toList)]

theorem guarded_load_oversized : Packages.standIn.Lawful View.standIn ∧ ∃ refusal,
    Packages.standIn.load oversized (some "wide.yaml") {} = .error (.invalid "wide.yaml" refusal) ∧
      View.standIn.Reports refusal ["layout", "columns"] := by
  have hread : (match Packages.standIn.read "wide.yaml" (oversized "wide.yaml") with
      | .ok (.mapping v) => (View.standIn.at? v Bound.columns.path).bind View.standIn.integer?
      | _                => none) = some 60 := by
    decide +kernel
  split at hread
  case h_2 => cases hread
  case h_1 v hr =>
    obtain ⟨w, hw, hi⟩ := Option.bind_eq_some_iff.mp hread
    have hb : View.standIn.Breaks v Bound.columns.path :=
      .bound (by simp [bounds]) hw fun n hn => Option.some.inj (hi.symm.trans hn) ▸ by decide
    have hg := guarded_load Packages.lawful_standIn oversized (some "wide.yaml") {}
    rcases hg.file "wide.yaml" v _ rfl hr hb with ⟨fault, hp, -⟩ | h
    case inl => cases hp
    case inr => exact ⟨Packages.lawful_standIn, h⟩

theorem load_port_unchecked :
    (∀ {Value Reason Refusal : Type} (p : Packages Value Reason Refusal),
      p.load (fun _ => .missing) none { webPort := "70000" } = .ok { web.port := 70000 }) ∧
    ¬ IsPort 70000 :=
  ⟨fun _ => rfl, by decide⟩

end SchemaGraph.Config
