import SchemaGraph.Proofs.Pattern.Search

namespace SchemaGraph.Pattern

variable {γ : Type}

def labels : Pattern γ → List γ
  | seq a b       => a.labels ++ b.labels
  | alt a b       => a.labels ++ b.labels
  | repeated a    => a.labels
  | group label a => label :: a.labels
  | _             => []

def KeepsOnly (labels : List γ) (s t : Progress γ) : Prop :=
  ∃ kept, t.groups = kept ++ s.groups ∧ ∀ entry ∈ kept, entry.1 ∈ labels

variable {a b : Pattern γ} {s t r : Progress γ} {ls ls' : List γ} {label : γ}

namespace KeepsOnly

theorem refl (ls : List γ) (s : Progress γ) : KeepsOnly ls s s :=
  ⟨[], rfl, by simp⟩

theorem trans (h : KeepsOnly ls s t) (h' : KeepsOnly ls t r) : KeepsOnly ls s r := by
  obtain ⟨kept, hk, hl⟩ := h
  obtain ⟨kept', hk', hl'⟩ := h'
  exact ⟨kept' ++ kept, by rw [hk', hk, List.append_assoc], List.forall_mem_append.mpr ⟨hl', hl⟩⟩

theorem mono (h : KeepsOnly ls s t) (hs : ls ⊆ ls') : KeepsOnly ls' s t :=
  have ⟨kept, hk, hl⟩ := h
  ⟨kept, hk, fun entry he => hs (hl entry he)⟩

theorem of_moveTo {cur : Cursor} (h : t = s.moveTo cur) : KeepsOnly ls s t :=
  h ▸ ⟨[], rfl, by simp⟩

theorem of_test {p : Prop} [Decidable p] (h : t ∈ if p then [s] else []) : KeepsOnly ls s t := by
  split at h
  case isTrue  => exact List.mem_singleton.mp h ▸ refl ls _
  case isFalse => cases h

theorem rounds {step : Progress γ → List (Progress γ)} (h : ∀ s, ∀ t ∈ step s, KeepsOnly ls s t)
    {n : Nat} (ht : t ∈ Pattern.rounds step n s) : KeepsOnly ls s t := by
  induction n generalizing s
  case zero => exact List.mem_singleton.mp ht ▸ refl ls _
  case succ n hi =>
    cases List.mem_append.mp ht
    case inr ht => exact List.mem_singleton.mp ht ▸ refl ls _
    case inl ht =>
      obtain ⟨s', hs, ht⟩ := List.mem_flatMap.mp ht
      split at ht
      case isTrue  => exact (h s s' hs).trans (hi ht)
      case isFalse => cases ht

end KeepsOnly

theorem keepsOnly_labels (h : t ∈ a.ways s) : KeepsOnly a.labels s t := by
  induction a generalizing s t
  case empty    => exact List.mem_singleton.mp h ▸ .refl _ _
  case wordEdge => exact .of_test h
  case textEnd  => exact .of_test h
  case notAhead => exact .of_test h
  case char p =>
    rw [ways] at h
    split at h
    case h_1 => cases h
    case h_2 =>
      split at h
      case isFalse => cases h
      case isTrue  => exact .of_moveTo (List.mem_singleton.mp h)
  case run p =>
    obtain ⟨cur, _, ht⟩ := List.mem_map.mp h
    exact .of_moveTo ht.symm
  case seq a b ha hb =>
    obtain ⟨m, hm, h⟩ := List.mem_flatMap.mp h
    exact ((ha hm).mono (List.subset_append_left _ _)).trans
      ((hb h).mono (List.subset_append_right _ _))
  case alt a b ha hb =>
    cases List.mem_append.mp h
    case inl h => exact (ha h).mono (List.subset_append_left _ _)
    case inr h => exact (hb h).mono (List.subset_append_right _ _)
  case repeated a ha => exact .rounds (fun _ _ => ha) h
  case group label a ha =>
    obtain ⟨m, hm, rfl⟩ := List.mem_map.mp h
    obtain ⟨kept, hk, hl⟩ := ha hm
    refine ⟨(label, s.toCursor, m.toCursor) :: kept, congrArg _ hk, ?_⟩
    exact List.forall_mem_cons.mpr ⟨List.mem_cons_self,
      fun entry he => List.mem_cons_of_mem _ (hl entry he)⟩

theorem groups_eq_of_labels_eq_nil (h : t ∈ a.ways s) (hl : a.labels = []) :
    t.groups = s.groups := by
  obtain ⟨kept, hk, hentries⟩ := keepsOnly_labels h
  rw [hl] at hentries
  rw [hk, List.eq_nil_iff_forall_not_mem.mpr fun entry he => List.not_mem_nil (hentries entry he),
    List.nil_append]

structure Progress.Within (text : List Char) (s : Progress γ) : Prop where
  rest   : s.rest <:+ text
  starts : ∀ entry ∈ s.groups, entry.2.1.rest <:+ text

namespace Progress.Within

variable {text : List Char}

theorem of_moveTo {cur : Cursor} (h : s.Within text) (hc : cur.rest <:+ text) :
    (s.moveTo cur).Within text :=
  ⟨hc, h.starts⟩

theorem keep (hs : s.Within text) (ht : t.Within text) (label : γ) :
    (t.keep label s.toCursor).Within text :=
  ⟨ht.rest, List.forall_mem_cons.mpr ⟨hs.rest, ht.starts⟩⟩

theorem of_test {p : Prop} [Decidable p] (h : s.Within text) (ht : t ∈ if p then [s] else []) :
    t.Within text := by
  split at ht
  case isTrue  => exact List.mem_singleton.mp ht ▸ h
  case isFalse => cases ht

theorem rounds {step : Progress γ → List (Progress γ)}
    (h : ∀ s : Progress γ, s.Within text → ∀ t ∈ step s, t.Within text) (hs : s.Within text)
    {n : Nat} (ht : t ∈ Pattern.rounds step n s) : t.Within text := by
  induction n generalizing s
  case zero => exact List.mem_singleton.mp ht ▸ hs
  case succ n hi =>
    cases List.mem_append.mp ht
    case inr ht => exact List.mem_singleton.mp ht ▸ hs
    case inl ht =>
      obtain ⟨s', hs', ht⟩ := List.mem_flatMap.mp ht
      split at ht
      case isTrue  => exact hi (h s hs s' hs') ht
      case isFalse => cases ht

theorem ways (hs : s.Within text) (h : t ∈ a.ways s) : t.Within text := by
  induction a generalizing s t
  case empty    => exact List.mem_singleton.mp h ▸ hs
  case wordEdge => exact hs.of_test h
  case textEnd  => exact hs.of_test h
  case notAhead => exact hs.of_test h
  case char p =>
    rw [Pattern.ways] at h
    split at h
    case h_1 => cases h
    case h_2 c cs hr =>
      split at h
      case isFalse => cases h
      case isTrue  =>
        exact List.mem_singleton.mp h ▸ hs.of_moveTo ((List.suffix_cons c cs).trans (hr ▸ hs.rest))
  case run p =>
    obtain ⟨cur, hc, rfl⟩ := List.mem_map.mp h
    obtain ⟨w, _, hw⟩ := Cursor.mem_runs_iff.mp hc
    exact hs.of_moveTo (List.IsSuffix.trans ⟨w, hw.rest_eq.symm⟩ hs.rest)
  case seq a b ha hb =>
    obtain ⟨m, hm, h⟩ := List.mem_flatMap.mp h
    exact hb (ha hs hm) h
  case alt a b ha hb => exact (List.mem_append.mp h).elim (ha hs) (hb hs)
  case repeated a ha => exact rounds (fun _ hs _ => ha hs) hs h
  case group label a ha =>
    obtain ⟨m, hm, rfl⟩ := List.mem_map.mp h
    exact hs.keep (ha hs hm) label

end Progress.Within

variable [DecidableEq γ]

theorem group_isInfix_of_match? {cur : Cursor} (h : a.match? cur = some t) (label : γ) :
    t.group label <:+: cur.rest := by
  have hs : (Progress.ofCursor cur : Progress γ).Within cur.rest :=
    ⟨List.suffix_refl cur.rest, fun _ he => absurd he List.not_mem_nil⟩
  rw [Progress.group]
  split
  case h_1 => exact List.nil_infix
  case h_2 start stop hl =>
    obtain ⟨_, _, he, _⟩ := List.lookup_eq_some_iff.mp hl
    have hstart := (hs.ways (mem_ways_of_match? h)).starts (label, start, stop) (by simp [he])
    exact (List.take_prefix _ _).isInfix.trans hstart.isInfix

theorem group_isInfix {text : List Char} (h : a.matchText? text = some t) (label : γ) :
    t.group label <:+: text :=
  group_isInfix_of_match? h label

theorem group_eq_of_not_mem_labels (h : t ∈ a.ways s) (hl : label ∉ a.labels) :
    t.group label = s.group label := by
  obtain ⟨kept, hk, hk'⟩ := keepsOnly_labels h
  have hn : kept.lookup label = none :=
    List.lookup_eq_none_iff.mpr fun entry he => by
      have : label ≠ entry.1 := fun hm => hl (hm ▸ hk' entry he)
      simpa using this
  rw [Progress.group, Progress.group, hk, List.lookup_append, hn, Option.none_or]

theorem exists_of_mem_ways_group (h : t ∈ (Pattern.group label a).ways s) :
    ∃ w, s.Reaches t.toCursor w ∧ a.Matches s.before w t.rest ∧ t.group label = w := by
  obtain ⟨m, hm, rfl⟩ := List.mem_map.mp h
  obtain ⟨w, hw, hmatch⟩ := a.exact.sound hm
  refine ⟨w, hw, hmatch, ?_⟩
  rw [Progress.group, Progress.keep, List.lookup_cons_self]
  exact hw.textTo_eq

end SchemaGraph.Pattern
