import Mathlib.Data.List.Basic
import SchemaGraph.Proofs.Pattern.Matches

namespace SchemaGraph.Pattern

variable {γ : Type}

namespace Progress

def texts (s : Progress γ) : List (γ × List Char) :=
  s.groups.map fun (label, start, stop) => (label, start.textTo stop)

variable [DecidableEq γ]

theorem group_eq (s : Progress γ) (label : γ) : s.group label = (s.texts.lookup label).getD [] := by
  rw [group, texts]
  induction s.groups
  case nil => rfl
  case cons x xs hi =>
    obtain ⟨l, start, stop⟩ := x
    rw [List.map_cons, List.lookup_cons, List.lookup_cons]
    by_cases h : label == l
    case pos => simp [h]
    case neg => simpa [h] using hi

end Progress

-- In front of `w ++ rest` a pattern first tries to match `w`, and keeps the texts in `kept`.
def Takes (a : Pattern γ) (before : Option Char) (w rest : List Char)
    (kept : List (γ × List Char)) :
    Prop :=
  ∀ s : Progress γ, s.before = before → s.rest = w ++ rest →
    ∃ t, (a.ways s).head? = some t ∧ s.Reaches t.toCursor w ∧ t.texts = kept ++ s.texts

variable {a b : Pattern γ} {before : Option Char} {u v w rest : List Char} {p : Char → Bool}
variable {kept kept₁ kept₂ : List (γ × List Char)} {c : Char} {label : γ}

namespace Takes

theorem empty : (Pattern.empty : Pattern γ).Takes before [] rest [] :=
  fun s _ _ => ⟨s, rfl, .refl _, rfl⟩

theorem char (h : p c) : (Pattern.char p : Pattern γ).Takes before [c] rest [] := by
  intro s _ hr
  obtain ⟨⟨before, _, pos⟩, groups⟩ := s
  cases hr
  exact ⟨⟨⟨some c, rest, pos + 1⟩, groups⟩, by simp [ways, h, Progress.moveTo],
    ⟨rfl, rfl, rfl⟩, rfl⟩

theorem run (h : ∀ c ∈ w, p c) (hr : ∀ c ∈ rest.head?, ¬ p c) :
    (Pattern.run p : Pattern γ).Takes before w rest [] := by
  intro s _ hs
  have ht : s.Reaches ⟨behind s.before w, rest, s.pos + w.length⟩ w := ⟨rfl, hs, rfl⟩
  refine ⟨s.moveTo _, ?_, ht, rfl⟩
  rw [ways, List.head?_map, Cursor.head?_runs hs h hr, Option.map_some]

theorem seq (ha : a.Takes before u (v ++ rest) kept₁)
    (hb : b.Takes (behind before u) v rest kept₂) :
    (a ++ b).Takes before (u ++ v) rest (kept₂ ++ kept₁) := by
  intro s hs hr
  rw [List.append_assoc] at hr
  have ⟨t, ht, hu, htu⟩ := ha s hs hr
  have hv : t.rest = v ++ rest := List.append_cancel_left (hu.rest_eq.symm.trans hr)
  have ⟨t', ht', hv, htv⟩ := hb t (hs ▸ hu.before_eq) hv
  refine ⟨t', ?_, hu.trans hv, by rw [htv, htu, List.append_assoc]⟩
  have ⟨ts, he⟩ := List.head?_eq_some_iff.mp ht
  show ((a.ways s).flatMap b.ways).head? = some t'
  rw [he, List.flatMap_cons, List.head?_append, ht', Option.some_or]

theorem left (h : a.Takes before w rest kept) : (a <|> b).Takes before w rest kept := by
  intro s hs hr
  have ⟨t, ht, hw⟩ := h s hs hr
  refine ⟨t, ?_, hw⟩
  show (a.ways s ++ b.ways s).head? = some t
  rw [List.head?_append, ht, Option.some_or]

theorem right (ha : a.Fails before (w ++ rest)) (h : b.Takes before w rest kept) :
    (a <|> b).Takes before w rest kept := by
  intro s hs hr
  have ⟨t, ht, hw⟩ := h s hs hr
  refine ⟨t, ?_, hw⟩
  show (a.ways s ++ b.ways s).head? = some t
  rw [(fails_iff s).mp (hs ▸ hr ▸ ha), List.nil_append, ht]

theorem opt (h : a.Takes before w rest kept) : (Pattern.opt a).Takes before w rest kept :=
  h.left

theorem opt_none (h : a.Fails before rest) : (Pattern.opt a).Takes before [] rest [] :=
  .right h .empty

theorem group (h : a.Takes before w rest kept) (label : γ) :
    (Pattern.group label a).Takes before w rest ((label, w) :: kept) := by
  intro s hs hr
  have ⟨t, ht, hw, hk⟩ := h s hs hr
  refine ⟨t.keep label s.toCursor, ?_, hw, ?_⟩
  · rw [ways, List.head?_map, ht, Option.map_some]
  · have hl : (t.keep label s.toCursor).texts = (label, s.textTo t.toCursor) :: t.texts := rfl
    rw [hl, hw.textTo_eq, hk, List.cons_append]

theorem wordEdge (h : Cursor.atWordEdge ⟨before, rest, 0⟩) :
    (Pattern.wordEdge : Pattern γ).Takes before [] rest [] := by
  intro s hs hr
  have hs : s.atWordEdge := by subst hs; rwa [Cursor.atWordEdge, hr]
  exact ⟨s, by simp [ways, hs], .refl _, rfl⟩

theorem textEnd : (Pattern.textEnd : Pattern γ).Takes before [] [] [] := by
  intro s _ hr
  exact ⟨s, by simp [ways, Cursor.atTextEnd, hr], .refl _, rfl⟩

theorem many (hw : w ≠ []) (h : ∀ c ∈ w, p c) (hr : ∀ c ∈ rest.head?, ¬ p c) :
    (Pattern.many p : Pattern γ).Takes before w rest [] := by
  cases w
  case nil       => exact absurd rfl hw
  case cons c cs =>
    have ⟨hc, hcs⟩ := List.forall_mem_cons.mp h
    exact .seq (.char hc) (.run hcs hr)

theorem only (c : Char) : (Pattern.only c : Pattern γ).Takes before [c] rest [] :=
  .char (beq_self_eq_true c)

end Takes

-- No round comes after the last character, so that more rounds than characters change nothing.
theorem rounds_eq (a : Pattern γ) {n m : Nat} {s : Progress γ} (hn : s.rest.length ≤ n)
    (hm : s.rest.length ≤ m) : rounds a.ways n s = rounds a.ways m s := by
  have shorter {s t : Progress γ} (ht : t ∈ a.ways s) (hp : s.pos < t.pos) :
      t.rest.length < s.rest.length := by
    have ⟨w, hw, _⟩ := a.exact.sound ht
    have := congrArg List.length hw.rest_eq
    have := hw.pos_eq
    simp at *
    omega
  have last {k : Nat} {s : Progress γ} (h : s.rest.length ≤ 0) : rounds a.ways k s = [s] := by
    cases k
    case zero   => rfl
    case succ k =>
      rw [rounds, List.flatMap_eq_nil_iff.mpr, List.nil_append]
      intro t ht
      exact if_neg fun hp => absurd (shorter ht hp) (by omega)
  induction n generalizing m s
  case zero => rw [last hn, last hn]
  case succ n hi =>
    cases m
    case zero   => rw [last hm, last hm]
    case succ m =>
      rw [rounds, rounds]
      congr 1
      apply List.flatMap_congr
      intro t ht
      split
      case isFalse   => rfl
      case isTrue hp =>
        have := shorter ht hp
        exact hi (by omega) (by omega)

namespace Takes

theorem repeated_nil (h : a.Fails before rest) :
    (Pattern.repeated a).Takes before [] rest [] := by
  intro s hs hr
  refine ⟨s, ?_, .refl _, rfl⟩
  have hw : a.ways s = [] := (fails_iff s).mp (hs ▸ hr ▸ h)
  rw [ways]
  cases s.rest.length <;> simp [rounds, hw]

theorem repeated_append (hu : u ≠ []) (ha : a.Takes before u (v ++ rest) kept₁)
    (h : (Pattern.repeated a).Takes (behind before u) v rest kept₂) :
    (Pattern.repeated a).Takes before (u ++ v) rest (kept₂ ++ kept₁) := by
  intro s hs hr
  rw [List.append_assoc] at hr
  have ⟨t, ht, hu', htu⟩ := ha s hs hr
  have hv : t.rest = v ++ rest := List.append_cancel_left (hu'.rest_eq.symm.trans hr)
  have ⟨t', ht', hv', htv⟩ := h t (hs ▸ hu'.before_eq) hv
  refine ⟨t', ?_, hu'.trans hv', by rw [htv, htu, List.append_assoc]⟩
  have ⟨ts, he⟩ := List.head?_eq_some_iff.mp ht
  have hl : u.length ≠ 0 := by simpa using hu
  have hp : s.pos < t.pos := by rw [hu'.pos_eq]; omega
  obtain ⟨n, hn⟩ : ∃ n, s.rest.length = n + 1 := ⟨s.rest.length - 1, by rw [hr]; simp; omega⟩
  have hn' : t.rest.length ≤ n := by
    have := congrArg List.length hu'.rest_eq
    simp at this
    omega
  rw [ways] at ht'
  rw [ways, hn, rounds, he, List.flatMap_cons, if_pos hp, rounds_eq a hn' (Nat.le_refl _),
    List.append_assoc, List.head?_append, ht', Option.some_or]

theorem match? (h : a.Takes before w rest kept) (pos : Nat) :
    ∃ t, a.match? ⟨before, w ++ rest, pos⟩ = some t ∧ t.texts = kept ∧
      t.toCursor = ⟨behind before w, rest, pos + w.length⟩ := by
  have ⟨t, ht, hw, hk⟩ := h (.ofCursor ⟨before, w ++ rest, pos⟩) rfl rfl
  exact ⟨t, by rw [match?_eq_head?, ht], by rw [hk]; exact List.append_nil _, hw.eq_mk rfl⟩

end Takes
end SchemaGraph.Pattern
