import SchemaGraph.Proofs.Config.Checked
import SchemaGraph.Proofs.Config.Lawful

-- That the readers and checks of this project do what is relied on in the packages.
namespace SchemaGraph

open Checked Check Config

variable {j group v : Json} {n : Int} {path : List Problem.Step} {b : Bound}

namespace Check

theorem bounded_eq_ok_iff : bounded b v = .ok n ↔ integer v = .ok n ∧ b.Admits n := by
  rw [bounded, Bound.admits_iff]
  cases b.high?
  case none      => simpa using bind_atLeast_eq_ok_iff
  case some high =>
    simpa [and_assoc] using bind_atMost_eq_ok_iff.trans (and_congr_left' bind_atLeast_eq_ok_iff)

theorem whole_bounded (b : Bound) (v : Json) : (bounded b v).Whole := by
  have hlow : ((integer v).bind (atLeast b.low)).Whole :=
    (whole_integer v).bind (whole_atLeast b.low)
  rw [bounded]
  cases b.high?
  case none      => exact hlow
  case some high => exact hlow.bind (whole_atMost high)

theorem failsAt_bounded (hn : ∀ n, integer v = .ok n → ¬ b.Admits n) : (bounded b v).FailsAt [] :=
  (whole_bounded b v).failsAt fun n h =>
    have ⟨hv, ha⟩ := bounded_eq_ok_iff.mp h
    hn n hv ha

theorem whole_level (v : Json) : (level v).Whole := by
  cases v
  case str s =>
    rw [level]
    split
    case h_1 => exact .ok _
    case h_2 => exact .fail _
  all_goals exact .fail _

end Check

namespace Level

theorem name_of_ofName?_eq_some {s : String} {level : Level} (h : ofName? s = some level) :
    Text.upperAscii s = level.name :=
  (beq_iff_eq.mp (List.find?_some h :)).symm

end Level

namespace Check

theorem exists_of_level_eq_ok {l : Level} (h : level v = .ok l) :
    ∃ s, v = .str s ∧ Text.upperAscii s = l.name := by
  cases v
  case str s =>
    rw [level] at h
    split at h
    case h_1 hs => exact ⟨s, rfl, Checked.ok.inj h ▸ Level.name_of_ofName?_eq_some hs⟩
    case h_2    => cases h
  all_goals cases h

theorem failsAt_level (hs : ∀ s, v = .str s → Text.upperAscii s ∉ levelNames) :
    (level v).FailsAt [] := by
  refine (whole_level v).failsAt fun l h => ?_
  obtain ⟨s, rfl, hl⟩ := exists_of_level_eq_ok h
  exact hs s rfl (hl ▸ name_mem_levelNames l)

end Check

namespace Config

variable {value : Config → α} {α : Type}

def View.standIn : View Json (List Problem) where
  field? v name            := v.field? name
  integer? v               := (Check.integer v).toExcept.toOption
  text?
    | .str s => some s
    | _      => none
  Reports problems path    := ∃ problem ∈ problems, problem.path = path.map .field

namespace View

theorem integer?_eq_some_iff : standIn.integer? v = some n ↔ Check.integer v = .ok n := by
  rw [←toExcept_eq_ok_iff]
  show (Check.integer v).toExcept.toOption = some n ↔ _
  cases (Check.integer v).toExcept <;> simp [Except.toOption]

theorem text?_eq_some_iff {s : String} : standIn.text? v = some s ↔ v = .str s := by
  cases v <;> simp [standIn]

theorem at?_pair (j : Json) (group name : String) :
    standIn.at? j [group, name] = (j.field? group).bind (·.field? name) := by
  show (j.field? group >>= fun v => v.field? name >>= some) = _
  simp

end View

-- What is accepted for the fields of a group and for the groups.

theorem settles_boundedField (h : boundedField j b = .ok n) :
    View.standIn.Settles b (j.field? b.name) n := by
  rcases field_eq_ok_iff.mp h with ⟨hf, rfl⟩ | ⟨v, hf, hv⟩
  case inl => exact hf ▸ .default
  case inr =>
    have ⟨hi, ha⟩ := bounded_eq_ok_iff.mp hv
    exact hf ▸ .given (View.integer?_eq_some_iff.mpr hi) ha

theorem settles_field {default x : α} {check : Json → Checked α}
    (h : field j b.group default check = .ok x) (value : α → Int) (hd : value default = b.default)
    (hc : ∀ g, check g = .ok x → View.standIn.Settles b (g.field? b.name) (value x)) :
    View.standIn.Settles b (View.standIn.at? j b.path) (value x) := by
  rw [Bound.path, View.at?_pair]
  rcases field_eq_ok_iff.mp h with ⟨hf, rfl⟩ | ⟨g, hf, hg⟩
  case inl => rw [hf, hd]; exact .default
  case inr => rw [hf]; exact hc g hg

theorem settles_layout {layout : Layout} (h : Check.layout j = .ok layout) :
    View.standIn.Settles .columns (j.field? "columns") layout.columns ∧
      View.standIn.Settles .xSpacing (j.field? "x_spacing") layout.xSpacing ∧
      View.standIn.Settles .ySpacing (j.field? "y_spacing") layout.ySpacing := by
  have h₁ := build_of_model_eq_ok h
  obtain ⟨_, h₂, yOffset, _, rfl⟩ := ap_eq_ok_iff.mp h₁
  obtain ⟨_, h₃, xOffset, _, rfl⟩ := ap_eq_ok_iff.mp h₂
  obtain ⟨_, h₄, ySpacing, hy, rfl⟩ := ap_eq_ok_iff.mp h₃
  obtain ⟨_, h₅, xSpacing, hx, rfl⟩ := ap_eq_ok_iff.mp h₄
  obtain ⟨columns, hc, rfl⟩ := map_eq_ok_iff.mp h₅
  exact ⟨settles_boundedField hc, settles_boundedField hx, settles_boundedField hy⟩

theorem settles_web {web : Web} (h : Check.web j = .ok web) :
    View.standIn.Settles .port (j.field? "port") web.port ∧
      View.standIn.Settles .maxInputChars (j.field? "max_input_chars") web.maxInputChars := by
  have h₁ := build_of_model_eq_ok h
  obtain ⟨_, h₂, corsOrigins, _, rfl⟩ := ap_eq_ok_iff.mp h₁
  obtain ⟨_, h₃, maxInputChars, hm, rfl⟩ := ap_eq_ok_iff.mp h₂
  obtain ⟨_, h₄, port, hp, rfl⟩ := ap_eq_ok_iff.mp h₃
  obtain ⟨host, _, rfl⟩ := map_eq_ok_iff.mp h₄
  exact ⟨settles_boundedField hp, settles_boundedField hm⟩

theorem exists_of_logging_eq_ok {logging : Logging} (h : Check.logging j = .ok logging)
    (hv : j.field? "level" = some v) :
    ∃ s, v = .str s ∧ Text.upperAscii s = logging.level.name := by
  have h₁ := build_of_model_eq_ok h
  obtain ⟨_, h₂, format, _, rfl⟩ := ap_eq_ok_iff.mp h₁
  obtain ⟨level, hl, rfl⟩ := map_eq_ok_iff.mp h₂
  rcases field_eq_ok_iff.mp hl with ⟨hf, -⟩ | ⟨v', hf, hv'⟩
  case inl => cases hv.symm.trans hf
  case inr =>
    obtain rfl : v = v' := Option.some.inj (hv.symm.trans hf)
    exact exists_of_level_eq_ok hv'

variable {config : Config}

theorem settles_config (h : Check.config j = .ok config) :
    ∀ b ∈ bounds, View.standIn.Settles b (View.standIn.at? j b.path) (b.value config) := by
  have h₁ := build_of_model_eq_ok h
  obtain ⟨_, h₂, logging, _, rfl⟩ := ap_eq_ok_iff.mp h₁
  obtain ⟨_, h₃, web, hw, rfl⟩ := ap_eq_ok_iff.mp h₂
  obtain ⟨layout, hl, rfl⟩ := map_eq_ok_iff.mp h₃
  intro b hb
  simp only [bounds, List.mem_cons, List.not_mem_nil, or_false] at hb
  rcases hb with rfl | rfl | rfl | rfl | rfl
  · exact settles_field hl (·.columns) rfl fun _ hg => (settles_layout hg).left
  · exact settles_field hl (·.xSpacing) rfl fun _ hg => (settles_layout hg).right.left
  · exact settles_field hl (·.ySpacing) rfl fun _ hg => (settles_layout hg).right.right
  · exact settles_field hw (·.port) rfl fun _ hg => (settles_web hg).left
  · exact settles_field hw (·.maxInputChars) rfl fun _ hg => (settles_web hg).right

theorem exists_of_config_eq_ok (h : Check.config j = .ok config)
    (hv : View.standIn.at? j levelPath = some v) :
    ∃ s, View.standIn.text? v = some s ∧ Text.upperAscii s = config.logging.level.name := by
  have h₁ := build_of_model_eq_ok h
  obtain ⟨_, h₂, logging, hl, rfl⟩ := ap_eq_ok_iff.mp h₁
  obtain ⟨_, h₃, web, _, rfl⟩ := ap_eq_ok_iff.mp h₂
  obtain ⟨layout, _, rfl⟩ := map_eq_ok_iff.mp h₃
  rw [levelPath, View.at?_pair] at hv
  obtain ⟨g, hg, hv⟩ := Option.bind_eq_some_iff.mp hv
  rcases field_eq_ok_iff.mp hl with ⟨hf, -⟩ | ⟨g', hf, hg'⟩
  case inl => cases hg.symm.trans hf
  case inr =>
    obtain rfl : g = g' := Option.some.inj (hg.symm.trans hf)
    obtain ⟨s, rfl, hs⟩ := exists_of_logging_eq_ok hg' hv
    exact ⟨s, rfl, hs⟩

-- What is at fault in a group is at fault in the configuration.

theorem failsAt_layout (hg : j.field? "layout" = some group)
    (h : (Check.layout group).FailsAt path) :
    (Check.config j).FailsAt (.field "layout" :: path) := by
  rw [Check.config, model_eq hg, failsAt_ap, failsAt_ap, failsAt_map]
  exact .inl (.inl (failsAt_field hg h))

theorem failsAt_web (hg : j.field? "web" = some group) (h : (Check.web group).FailsAt path) :
    (Check.config j).FailsAt (.field "web" :: path) := by
  rw [Check.config, model_eq hg, failsAt_ap, failsAt_ap, failsAt_map]
  exact .inl (.inr (failsAt_field hg h))

theorem failsAt_logging (hg : j.field? "logging" = some group)
    (h : (Check.logging group).FailsAt path) :
    (Check.config j).FailsAt (.field "logging" :: path) := by
  rw [Check.config, model_eq hg, failsAt_ap]
  exact .inr (failsAt_field hg h)

theorem failsAt_logging_level (hv : j.field? "level" = some v)
    (hs : ∀ s, v = .str s → Text.upperAscii s ∉ levelNames) :
    (Check.logging j).FailsAt [.field "level"] := by
  rw [Check.logging, model_eq hv, failsAt_ap, failsAt_map]
  exact .inl (failsAt_field hv (failsAt_level hs))

theorem failsAt_config {path : List String} (h : View.standIn.Breaks j path) :
    (Check.config j).FailsAt (path.map .field) := by
  cases h
  case level hw hs =>
    rw [levelPath, View.at?_pair] at hw
    obtain ⟨g, hg, hv⟩ := Option.bind_eq_some_iff.mp hw
    exact failsAt_logging hg (failsAt_logging_level hv fun s he =>
      hs s (View.text?_eq_some_iff.mpr he))
  case bound b w hb hw hn =>
    rw [Bound.path, View.at?_pair] at hw
    obtain ⟨g, hg, hv⟩ := Option.bind_eq_some_iff.mp hw
    have hc := failsAt_bounded fun n hi => hn n (View.integer?_eq_some_iff.mpr hi)
    have hf : (boundedField g b).FailsAt [.field b.name] := failsAt_field hv hc
    simp only [bounds, List.mem_cons, List.not_mem_nil, or_false] at hb
    rcases hb with rfl | rfl | rfl | rfl | rfl
    case' inr.inr.inr.inl | inr.inr.inr.inr =>
      refine failsAt_web hg ?_
      rw [Check.web, model_eq hv]
      simp only [failsAt_ap, failsAt_map]
    case' inl | inr.inl | inr.inr.inl =>
      refine failsAt_layout hg ?_
      rw [Check.layout, model_eq hv]
      simp only [failsAt_ap, failsAt_map]
    · exact .inl (.inl (.inl (.inl hf)))
    · exact .inl (.inl (.inl (.inr hf)))
    · exact .inl (.inl (.inr hf))
    · exact .inl (.inl (.inr hf))
    · exact .inl (.inr hf)

theorem reports_of_failsAt {a : Checked α} {problems : List Problem} {path : List String}
    (h : a.FailsAt (path.map .field)) (ha : a.toExcept = .error problems) :
    View.standIn.Reports problems path := by
  obtain ⟨problems', rfl, hm⟩ := h
  cases toExcept_eq_error_iff.mp ha
  exact hm

theorem Packages.lawful_standIn : Packages.standIn.Lawful View.standIn where
  settles h            := settles_config (toExcept_eq_ok_iff.mp h)
  level h              := exists_of_config_eq_ok (toExcept_eq_ok_iff.mp h)
  reports h hb         := reports_of_failsAt (failsAt_config hb) h
  loggingLevel h       := by
    obtain ⟨s, hs, hl⟩ := exists_of_logging_eq_ok (toExcept_eq_ok_iff.mp h) rfl
    cases hs
    exact hl
  reportsLevel h hn    :=
    reports_of_failsAt (failsAt_logging_level rfl fun s hs => Json.str.inj hs ▸ hn) h

end Config
end SchemaGraph
