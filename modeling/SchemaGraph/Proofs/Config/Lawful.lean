import SchemaGraph.Config.Load

-- What is relied on in the packages that loading a configuration uses.
namespace SchemaGraph.Config

def levelNames : List String :=
  ["DEBUG", "INFO", "WARNING", "ERROR"]

theorem name_mem_levelNames (level : Level) : level.name ∈ levelNames := by
  cases level <;> decide

def levelPath : List String :=
  ["logging", "level"]

namespace Bound

variable {b : Bound} {n : Int}

def path (b : Bound) : List String :=
  [b.group, b.name]

structure Admits (b : Bound) (n : Int) : Prop where
  low_le  : b.low ≤ n
  le_high : ∀ high ∈ b.high?, n ≤ high

theorem admits_iff : b.Admits n ↔ b.low ≤ n ∧ ∀ high ∈ b.high?, n ≤ high where
  mp  := fun ⟨h, h'⟩ => ⟨h, h'⟩
  mpr := fun ⟨h, h'⟩ => ⟨h, h'⟩

instance (b : Bound) (n : Int) : Decidable (b.Admits n) :=
  decidable_of_iff _ admits_iff.symm

-- The defaults are never checked, but they would pass.
theorem admits_default (h : b ∈ bounds) : b.Admits b.default := by
  simp only [bounds, List.mem_cons, List.not_mem_nil, or_false] at h
  rcases h with rfl | rfl | rfl | rfl | rfl <;> decide

end Bound

-- A way to look into values and refusals: what a mapping has under a key, what a value is taken for
-- where an integer or a text is declared, and which paths a refusal reports.
structure View (Value Refusal : Type) where
  field?   : Value → String → Option Value
  integer? : Value → Option Int
  text?    : Value → Option String
  Reports  : Refusal → List String → Prop

namespace View

variable {Value Refusal : Type} (view : View Value Refusal) {b : Bound} {n : Int}

def at? (v : Value) (path : List String) : Option Value :=
  path.foldlM view.field? v

inductive Settles (b : Bound) : Option Value → Int → Prop
  | default : Settles b none b.default
  | given {w n} (hw : view.integer? w = some n) (hn : b.Admits n) : Settles b (some w) n

inductive Breaks (v : Value) : List String → Prop
  | bound {b w} (hb : b ∈ bounds) (hw : view.at? v b.path = some w)
    (hn : ∀ n, view.integer? w = some n → ¬ b.Admits n) : Breaks v b.path
  | level {w} (hw : view.at? v levelPath = some w)
    (hs : ∀ s, view.text? w = some s → Text.upperAscii s ∉ levelNames) : Breaks v levelPath

variable {view}

theorem Settles.admits {w? : Option Value} (h : view.Settles b w? n) (hb : b ∈ bounds) :
    b.Admits n := by
  cases h
  case default    => exact Bound.admits_default hb
  case given _ hn => exact hn

end View

-- Models are constructed with the bounds and the names that are declared for their fields, and a
-- refusal reports each field that may not be what it is given as. Nothing is said of the rest: of
-- what YAML is, of what is taken for an integer, or of what a model does once it is constructed.
structure Packages.Lawful {Value Reason Refusal : Type} (p : Packages Value Reason Refusal)
    (view : View Value Refusal) : Prop where
  settles      : ∀ {v config}, p.validate v = .ok config → ∀ b ∈ bounds,
    view.Settles b (view.at? v b.path) (b.value config)
  level        : ∀ {v config w}, p.validate v = .ok config → view.at? v levelPath = some w →
    ∃ s, view.text? w = some s ∧ Text.upperAscii s = config.logging.level.name
  reports      : ∀ {v refusal path}, p.validate v = .error refusal → view.Breaks v path →
    view.Reports refusal path
  loggingLevel : ∀ {name format logging}, p.validateLogging name format = .ok logging →
    Text.upperAscii name = logging.level.name
  reportsLevel : ∀ {name format refusal}, p.validateLogging name format = .error refusal →
    Text.upperAscii name ∉ levelNames → view.Reports refusal ["level"]

end SchemaGraph.Config
