import SchemaGraph.Config.StandIn

-- When values are accepted, and where they are found at fault.
namespace SchemaGraph

variable {α β : Type} {x : α} {y : β} {path : List Problem.Step} {step : Problem.Step}

namespace Checked

variable {a : Checked α} {f : Checked (α → β)} {g : α → β} {k : α → Checked β}

def FailsAt (path : List Problem.Step) (a : Checked α) : Prop :=
  ∃ problems, a = .bad problems ∧ ∃ problem ∈ problems, problem.path = path

inductive Whole : Checked α → Prop
  | ok (x : α) : Whole (.ok x)
  | fail (kind : Problem.Kind) : Whole (.fail kind)

theorem map_eq_ok_iff : a.map g = .ok y ↔ ∃ x, a = .ok x ∧ g x = y := by
  cases a <;> simp [map]

theorem ap_eq_ok_iff : f.ap a = .ok y ↔ ∃ g, f = .ok g ∧ ∃ x, a = .ok x ∧ g x = y := by
  cases f <;> cases a <;> simp [ap]

theorem toExcept_eq_ok_iff : a.toExcept = .ok x ↔ a = .ok x := by
  cases a <;> simp [toExcept]

theorem toExcept_eq_error_iff {problems : List Problem} :
    a.toExcept = .error problems ↔ a = .bad problems := by
  cases a <;> simp [toExcept]

theorem within_eq_ok_iff : a.within step = .ok x ↔ a = .ok x := by
  cases a <;> simp [within]

theorem failsAt_map : (a.map g).FailsAt path ↔ a.FailsAt path := by
  cases a <;> simp [map, FailsAt]

theorem failsAt_ap : (f.ap a).FailsAt path ↔ f.FailsAt path ∨ a.FailsAt path := by
  cases f <;> cases a <;> simp [ap, FailsAt, or_and_right, exists_or]

theorem FailsAt.within (h : a.FailsAt path) : (a.within step).FailsAt (step :: path) := by
  obtain ⟨problems, rfl, problem, hm, rfl⟩ := h
  exact ⟨_, rfl, _, List.mem_map_of_mem hm, rfl⟩

theorem Whole.bind (ha : a.Whole) (hk : ∀ x, (k x).Whole) : (a.bind k).Whole := by
  cases ha
  case ok x      => exact hk x
  case fail kind => exact .fail kind

theorem Whole.failsAt (ha : a.Whole) (h : ∀ x, a ≠ .ok x) : a.FailsAt [] := by
  cases ha
  case ok x      => exact absurd rfl (h x)
  case fail kind => exact ⟨_, rfl, _, List.mem_singleton_self _, rfl⟩

end Checked

namespace Check

open Checked

variable {j v : Json} {n low high : Int} {name : String} {check build : Json → Checked α}
  {default : α}

theorem bind_atLeast_eq_ok_iff {a : Checked Int} :
    a.bind (atLeast low) = .ok n ↔ a = .ok n ∧ low ≤ n := by
  cases a
  case bad  => simp [Checked.bind]
  case ok m =>
    rw [Checked.bind, atLeast]
    split
    case isTrue h  => simpa [fail] using fun he => he ▸ h
    case isFalse h => simpa using fun he => he ▸ Int.not_lt.mp h

theorem bind_atMost_eq_ok_iff {a : Checked Int} :
    a.bind (atMost high) = .ok n ↔ a = .ok n ∧ n ≤ high := by
  cases a
  case bad  => simp [Checked.bind]
  case ok m =>
    rw [Checked.bind, atMost]
    split
    case isTrue h  => simpa [fail] using fun he => he ▸ h
    case isFalse h => simpa using fun he => he ▸ Int.not_lt.mp h

theorem whole_atLeast (low n : Int) : (atLeast low n).Whole := by
  rw [atLeast]
  split
  case isTrue  => exact .fail _
  case isFalse => exact .ok _

theorem whole_atMost (high n : Int) : (atMost high n).Whole := by
  rw [atMost]
  split
  case isTrue  => exact .fail _
  case isFalse => exact .ok _

theorem whole_ofDouble (d : Number.Double) : (ofDouble d).Whole := by
  cases d
  case fractional => exact .fail _
  case infinite   => exact .fail _
  case integer n  =>
    rw [ofDouble]
    split
    case isTrue  => exact .ok _
    case isFalse => exact .fail _

theorem whole_integer (v : Json) : (integer v).Whole := by
  cases v
  case int n       => exact .ok n
  case bool b      => exact .ok _
  case decimal m e => exact whole_ofDouble _
  case str s       =>
    rw [integer]
    split
    case h_1 => exact .ok _
    case h_2 => exact .fail _
    case h_3 => exact .fail _
  all_goals exact .fail _

theorem field_eq_ok_iff : field j name default check = .ok x ↔
    j.field? name = none ∧ x = default ∨ ∃ v, j.field? name = some v ∧ check v = .ok x := by
  rw [field]
  cases j.field? name
  case none   => simp [eq_comm]
  case some v => simp [within_eq_ok_iff]

theorem failsAt_field (hv : j.field? name = some v) (h : (check v).FailsAt path) :
    (field j name default check).FailsAt (.field name :: path) := by
  rw [field, hv]
  exact h.within

theorem build_of_model_eq_ok (h : model build j = .ok x) : build j = .ok x := by
  cases j
  case obj => exact h
  all_goals cases h

theorem model_eq (hv : j.field? name = some v) : model build j = build j := by
  cases j
  case obj => rfl
  all_goals cases hv

end Check
end SchemaGraph
