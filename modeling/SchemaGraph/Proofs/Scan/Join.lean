import SchemaGraph.Proofs.Scan.Levels

namespace SchemaGraph.Scan

variable {c q : Char} {cs u v w part text : List Char} {d e f pos depth : Nat} {m : Mode}
variable {separates : Char → Bool} {parts : List (List Char)}

def isIdle (c : Char) : Bool :=
  !Mode.opens c && !(['(', ')', ','].contains c)

-- A text that leads from depth `d` to depth `e`, when the scan stands outside before it, and leaves
-- the scan outside.
structure Passes (d : Nat) (w : List Char) (e : Nat) : Prop where
  isOutside : (Mode.outside.after w).isOutside
  levels    : Levels d (shown .outside w) e

instance (d : Nat) (w : List Char) (e : Nat) : Decidable (Passes d w e) :=
  decidable_of_iff ((Mode.outside.after w).isOutside ∧ Levels d (shown .outside w) e)
    ⟨fun ⟨ho, hl⟩ => ⟨ho, hl⟩, fun ⟨ho, hl⟩ => ⟨ho, hl⟩⟩

theorem Mode.after_inside (hw : ∀ c ∈ w, c ≠ q ∧ c ≠ '\\') :
    (inside q).after w = inside q ∧ shown (inside q) w = [] := by
  induction w
  case nil          => exact ⟨rfl, rfl⟩
  case cons c w hi =>
    obtain ⟨⟨hc, hb⟩, hw⟩ := List.forall_mem_cons.mp hw
    have hn : (inside q).next c = inside q := by simp [next, hc, hb]
    exact ⟨by rw [after_cons, hn, (hi hw).left], by rw [shown_cons, hn, (hi hw).right]; rfl⟩

namespace Passes

theorem nil : Passes d [] d :=
  ⟨rfl, .nil⟩

theorem of_cons (hc : Mode.opens c = false) (ho : (Mode.outside.after cs).isOutside)
    (hl : Levels d (c :: shown .outside cs) e) : Passes d (c :: cs) e := by
  have hx : Mode.outside.exposes c := by simp [Mode.exposes, hc]
  have hn := Mode.next_of_exposes hx
  refine ⟨?_, ?_⟩
  · rwa [Mode.after_cons, hn]
  · rwa [shown_cons, if_pos hx, hn, List.singleton_append]

theorem cons (hc : isIdle c) (h : Passes d cs e) : Passes d (c :: cs) e := by
  simp only [isIdle, Bool.and_eq_true, Bool.not_eq_true', List.contains_eq_mem,
    decide_eq_false_iff_not] at hc
  exact .of_cons hc.left h.isOutside (.other hc.right h.levels)

theorem opening (h : Passes (d + 1) cs e) : Passes d ('(' :: cs) e :=
  .of_cons (by decide) h.isOutside (.opening h.levels)

theorem closing (h : Passes d cs e) : Passes (d + 1) (')' :: cs) e :=
  .of_cons (by decide) h.isOutside (.closing h.levels)

theorem comma (h : Passes (d + 1) cs e) : Passes (d + 1) (',' :: cs) e :=
  .of_cons (by decide) h.isOutside (.comma h.levels)

theorem idle (hw : ∀ c ∈ w, isIdle c) (h : Passes d v e) : Passes d (w ++ v) e := by
  induction w
  case nil         => exact h
  case cons c w hi =>
    have ⟨hc, hw⟩ := List.forall_mem_cons.mp hw
    exact .cons hc (hi hw)

theorem literal (hq : Mode.opens q) (hw : ∀ c ∈ w, c ≠ q ∧ c ≠ '\\') (h : Passes d v e)
    (hv : ∀ c ∈ v.head?, Mode.opens c = false) : Passes d (q :: w ++ q :: v) e := by
  obtain ⟨ha, hs⟩ := Mode.after_inside hw
  have hb : q ≠ '\\' := fun he => by simp [he, Mode.opens] at hq
  have hn : Mode.outside.next q = .inside q := by simp [Mode.next, Mode.enter, hq]
  have hc : (Mode.inside q).next q = .closing q := by simp [Mode.next, hb]
  have hclosing : (Mode.closing q).Valid := hq
  have hx : Mode.outside.exposes q = false := by simp [Mode.exposes, hq]
  have hx' : (Mode.inside q).exposes q = false := rfl
  refine ⟨?_, ?_⟩
  · rw [List.cons_append, Mode.after_cons, hn, Mode.after_append, ha, Mode.after_cons, hc]
    exact isOutside_after_of_isOutside hclosing rfl hv h.isOutside
  · rw [List.cons_append, shown_cons, hn, hx, shown_append, ha, hs, shown_cons, hc, hx',
      shown_of_isOutside hclosing rfl hv]
    exact h.levels

theorem balanced (h : Passes 0 w 0) : Balanced (shown .outside w) :=
  h.levels.balanced

end Passes

-- A part that a split leaves in one piece, with nothing open at its end.
structure Closed (separates : Char → Bool) (part : List Char) : Prop where
  isOutside : (Mode.outside.after part).isOutside
  no_cut    : cutsFrom separates 0 (exposed part) = []
  depth_eq  : (shown .outside part).foldl depthAfter 0 = 0

instance (separates : Char → Bool) (part : List Char) : Decidable (Closed separates part) :=
  decidable_of_iff
    ((Mode.outside.after part).isOutside ∧ cutsFrom separates 0 (exposed part) = [] ∧
      (shown .outside part).foldl depthAfter 0 = 0)
    ⟨fun ⟨ho, hc, hd⟩ => ⟨ho, hc, hd⟩, fun ⟨ho, hc, hd⟩ => ⟨ho, hc, hd⟩⟩

theorem Passes.closed (h : Passes 0 part 0) : Closed (· == ',') part where
  isOutside := h.isOutside
  no_cut := (show Levels 0 (chars (exposed part)) 0 by
    rw [exposed_eq, chars, map_snd_exposedFrom]
    exact h.levels).cutsFrom_eq_nil
  depth_eq := h.levels.foldl_depthAfter

theorem Splitting.foldl_step_of_no_cut (h : cutsFrom separates depth (exposedFrom m pos cs) = [])
    (part : List Char) (parts : List (List Char)) :
    cs.foldl (step separates) ⟨m, depth, part.reverse, parts⟩ =
      ⟨m.after cs, (shown m cs).foldl depthAfter depth, (part ++ cs).reverse, parts⟩ := by
  induction cs generalizing m depth pos part
  case nil          => simp
  case cons c cs hi =>
    rw [exposedFrom_cons] at h
    rw [List.foldl_cons, step_eq, shown_cons]
    by_cases he : m.exposes c
    case pos =>
      rw [if_pos he, List.singleton_append, cutsFrom, List.append_eq_nil_iff] at h
      have hc : isCut separates depth c = false := by simpa using h.left
      rw [hc, Bool.and_false, if_neg (by simp), if_pos he, hi h.right, if_pos he]
      simp
    case neg =>
      rw [if_neg he, List.nil_append] at h
      rw [if_neg (by simp [he]), if_neg he, hi h, if_neg he]
      simp

theorem settled_intercalate (hq : Mode.opens c = false) (ho : c ≠ '(') (hc : c ≠ ')')
    (h : ∀ part ∈ parts, (Mode.outside.after part).isOutside ∧ Balanced (shown .outside part)) :
    (Mode.outside.after ([c].intercalate parts)).isOutside ∧
      Balanced (shown .outside ([c].intercalate parts)) := by
  induction parts
  case nil               => exact ⟨rfl, .nil⟩
  case cons part parts hi =>
    obtain ⟨⟨hp, hb⟩, hps⟩ := List.forall_mem_cons.mp h
    cases parts
    case nil             => exact List.intercalate_singleton ▸ ⟨hp, hb⟩
    case cons next parts =>
      have ⟨ha, hbs⟩ := hi hps
      have hx : (Mode.outside.after part).exposes c :=
        Mode.exposes_of_isOutside (Mode.after_outside_valid part) hp hq
      have hm : Mode.outside.after (part ++ [c]) = .outside := by
        rw [Mode.after_append, Mode.after_cons, Mode.next_of_exposes hx, Mode.after_nil]
      have hsep : Balanced [c] := .of_not_mem (by simpa using ho.symm) (by simpa using hc.symm)
      rw [List.intercalate_cons_cons, Mode.after_append, shown_append, hm, shown_append, shown_cons,
        if_pos hx, shown_nil, List.append_nil]
      exact ⟨ha, (hb.append hsep).append hbs⟩

theorem split_eq_self_iff (ht : text ≠ []) :
    split separates text = [text] ↔ cutsFrom separates 0 (exposed text) = [] := by
  rw [split_eq_slices]
  constructor
  case mp =>
    intro h
    by_contra hn
    obtain ⟨cut, cuts, hc⟩ := List.exists_cons_of_ne_nil hn
    obtain ⟨_, hm⟩ := mem_of_mem_cutsFrom (hc ▸ List.mem_cons_self)
    have hlt := lt_of_mem_exposedFrom (exposed_eq text ▸ hm)
    rw [hc, slices] at h
    have hl := congrArg List.length (List.cons.inj h).left
    simp [slice] at hl
    omega
  case mpr =>
    intro h
    rw [h, slices, if_pos (List.length_pos_iff.mpr ht)]
    simp [slice]

theorem split_nil : split separates [] = [] :=
  rfl

theorem Closed.split_cons (h : Closed separates part) (hq : Mode.opens c = false) (ho : c ≠ '(')
    (hc : c ≠ ')') (hs : separates c) :
    split separates (part ++ c :: cs) = part :: split separates cs := by
  have hstep : part.foldl (Splitting.step separates) ⟨.outside, 0, [], []⟩ =
      ⟨Mode.outside.after part, 0, part.reverse, []⟩ := by
    have hf := Splitting.foldl_step_of_no_cut (exposed_eq part ▸ h.no_cut) [] []
    rwa [h.depth_eq] at hf
  have hx : (Mode.outside.after part).exposes c :=
    Mode.exposes_of_isOutside (Mode.after_outside_valid part) h.isOutside hq
  have hcut : isCut separates 0 c := by simp [isCut, ho, hc, hs]
  have hrest := finish_foldl_step separates (List.nil_append cs).symm
    (Nat.le_refl 0) .outside 0 [part]
  rw [split, List.foldl_append, hstep, List.foldl_cons, Splitting.step_eq,
    if_pos (by simp [hx, hcut]), Mode.next_of_exposes hx, split_eq_slices separates cs, exposed_eq]
  simpa using hrest

theorem Closed.split_append (h : Closed separates part) (hm : Mode.outside.after part = .outside)
    (hw : w ≠ []) (hs : split separates w = [w]) : split separates (part ++ w) = [part ++ w] := by
  have hd : (chars (exposedFrom .outside 0 part)).foldl depthAfter 0 = 0 := h.depth_eq
  rw [split_eq_self_iff (by simp [hw]), exposed_eq, exposedFrom_append, cutsFrom_append, hd, hm,
    ←exposed_eq, h.no_cut, ←map_moved_exposed, cutsFrom_moved, (split_eq_self_iff hw).mp hs]
  rfl

theorem split_intercalate_eq (hq : Mode.opens c = false) (ho : c ≠ '(') (hc : c ≠ ')')
    (hs : separates c) (h : ∀ part ∈ parts, Closed separates part) :
    split separates ([c].intercalate parts) =
      if parts.getLast? = some [] then parts.dropLast else parts := by
  induction parts
  case nil               => rfl
  case cons part parts hi =>
    obtain ⟨hp, hps⟩ := List.forall_mem_cons.mp h
    cases parts
    case nil =>
      rw [List.intercalate_singleton]
      by_cases hn : part = []
      case pos => simp [hn, split_nil]
      case neg => simp [(split_eq_self_iff hn).mpr hp.no_cut, hn]
    case cons next parts =>
      rw [List.intercalate_cons_cons, List.append_assoc, List.singleton_append,
        hp.split_cons hq ho hc hs, hi hps, List.getLast?_cons_cons, List.dropLast_cons_cons]
      split <;> rfl

theorem split_intercalate (hq : Mode.opens c = false) (ho : c ≠ '(') (hc : c ≠ ')')
    (hs : separates c) (h : ∀ part ∈ parts, Closed separates part) (hl : parts.getLast? ≠ some []) :
    split separates ([c].intercalate parts) = parts := by
  rw [split_intercalate_eq hq ho hc hs h, if_neg hl]

end SchemaGraph.Scan
