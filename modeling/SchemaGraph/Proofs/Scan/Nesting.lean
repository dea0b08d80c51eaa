import SchemaGraph.Proofs.Scan.Enclosed

namespace SchemaGraph.Scan

def Innermost (pairs : List (Nat × Nat)) (o p : Nat) : Prop :=
  (∃ pair ∈ pairs, pair.1 = o ∧ o < p ∧ p < pair.2) ∧
    ∀ pair ∈ pairs, pair.1 < p → p < pair.2 → pair.1 ≤ o

instance (pairs : List (Nat × Nat)) (o p : Nat) : Decidable (Innermost pairs o p) :=
  inferInstanceAs (Decidable (_ ∧ _))

def depth (cs : List Char) : Nat :=
  cs.count '(' - cs.count ')'

variable {text u body v cs : List Char} {o c p : Nat} {ch : Char} {pre post xs : Found}

theorem depthAfter_depth (h : NeverBelow (cs ++ [ch])) :
    depthAfter (depth cs) ch = depth (cs ++ [ch]) := by
  have h₁ := h.left.count_le
  have h₂ := h.count_le
  by_cases ho : ch = '('
  case pos =>
    simp [ho, depth, depthAfter]
    omega
  by_cases hc : ch = ')'
  case pos =>
    simp [hc, depth, depthAfter]
    omega
  case neg => simp [ho, hc, depth, depthAfter]

theorem foldl_depthAfter (h : NeverBelow cs) : cs.foldl depthAfter 0 = depth cs := by
  induction cs using List.reverseRecOn
  case nil => rfl
  case append_singleton cs c hi =>
    rw [List.foldl_append, hi h.left]
    exact depthAfter_depth h

theorem exists_open_of_depth (h : NeverBelow (chars xs)) (hd : depth (chars xs) ≠ 0) :
    ∃ l a inner, xs = l ++ (a, '(') :: inner ∧ Balanced (chars inner) := by
  have hl := Pairing.length_opened_foldl (s := .empty) <| ClosesAtMost.of_neverBelow h 0
  have ho := (Pairing.Sound.empty.foldl xs).opened
  rw [List.nil_append] at ho
  generalize (xs.foldl Pairing.step .empty).opened = os at hl ho
  cases ho
  case nil =>
    simp [depth, Pairing.empty] at hl hd
    omega
  case cons l os a inner h hi => exact ⟨l, a, inner, rfl, hi⟩

theorem exists_close_of_count_lt (h : (chars xs).count '(' < (chars xs).count ')') :
    ∃ inner b r, xs = inner ++ (b, ')') :: r ∧ Balanced (chars inner) := by
  have hn : ¬ NeverBelow (chars xs) := fun hn => by have := hn.count_le; omega
  have ⟨_, _, hq, hb⟩ := exists_close_of_not_neverBelow hn
  have ⟨inner, b, r, hx, hi, _⟩ := exists_of_chars_eq hq
  exact ⟨inner, b, r, hx, by rwa [hi]⟩

theorem exists_pair_of_depth (hb : Balanced (chars (pre ++ (p, ch) :: post)))
    (ho : ch ≠ '(') (hc : ch ≠ ')') (hd : depth (chars pre) ≠ 0) :
    ∃ l a inner inner' b r, pre = l ++ (a, '(') :: inner ∧ post = inner' ++ (b, ')') :: r ∧
      Balanced (chars (inner ++ (p, ch) :: inner')) := by
  rw [chars_append, chars_cons] at hb
  have ⟨l, a, inner, hl, hi⟩ := exists_open_of_depth hb.neverBelow.left hd
  have hlt : (chars post).count '(' < (chars post).count ')' := by
    have := hb.count_eq
    simp [ho, hc, depth] at this hd
    omega
  have ⟨inner', b, r, hr, hi'⟩ := exists_close_of_count_lt hlt
  refine ⟨l, a, inner, inner', b, r, hl, hr, ?_⟩
  have hs : Balanced [ch] := .of_not_mem (by simpa using ho.symm) (by simpa using hc.symm)
  simpa using hi.append (hs.append hi')

theorem matched_of_depth (hb : Balanced (chars (pre ++ (p, ch) :: post)))
    (hs : (pre ++ (p, ch) :: post).Pairwise (·.1 < ·.1)) (ho : ch ≠ '(') (hc : ch ≠ ')')
    (hd : depth (chars pre) ≠ 0) :
    ∃ a b, Matched (pre ++ (p, ch) :: post) a b ∧ (a, '(') ∈ pre ∧ a < p ∧ p < b := by
  have ⟨l, a, inner, inner', b, r, hl, hr, hi⟩ := exists_pair_of_depth hb ho hc hd
  have ha : (a, '(') ∈ pre := by simp [hl]
  have ⟨_, hp, hab⟩ := List.pairwise_append.mp hs
  have hpb : (p, ch).1 < (b, ')').1 := List.rel_of_pairwise_cons hp (by simp [hr])
  exact ⟨a, b, ⟨l, inner ++ (p, ch) :: inner', r, by simp [hl, hr], hi⟩, ha,
    hab _ ha _ List.mem_cons_self, hpb⟩

theorem mem_of_lt_of_lt {before after : Found} {x y : Nat × Char}
    (hs : (before ++ pre ++ x :: after).Pairwise (·.1 < ·.1)) (hy : y ∈ before ++ pre ++ x :: after)
    (hb : ∀ z ∈ before, z.1 < y.1) (hx : y.1 < x.1) : y ∈ pre := by
  rw [List.append_assoc, List.mem_append, List.mem_append, List.mem_cons] at hy
  have hp := (List.pairwise_append.mp hs).right.left
  cases hy
  case inl hy => exact absurd (hb y hy) (Nat.lt_irrefl _)
  case inr hy =>
    cases hy
    case inl hy => exact hy
    case inr hy =>
      cases hy
      case inl hy => exact absurd hx (hy ▸ Nat.lt_irrefl _)
      case inr hy => exact absurd (List.rel_of_pairwise_cons hp hy) (Nat.lt_asymm hx)

theorem depth_ne_zero_of_matched {before after : Found} {a b : Nat}
    (hs : (before ++ pre ++ (p, ch) :: after).Pairwise (·.1 < ·.1))
    (hm : Matched (before ++ pre ++ (p, ch) :: after) a b) (ha : (a, '(') ∈ pre) (hb : p < b)
    (hn : NeverBelow (chars pre)) : depth (chars pre) ≠ 0 := by
  have ⟨pre₁, pre₂, hp⟩ := List.append_of_mem ha
  subst hp
  have ⟨before', inner, after', he, hi⟩ := hm
  simp only [List.append_assoc, List.cons_append] at he hs
  rw [←List.append_assoc] at he hs
  have ⟨_, hr⟩ := append_cons_inj hs he
  have hlt : ∀ d, (b, d) ∉ pre₂ := by
    intro d hm
    have h₁ := (List.pairwise_append.mp hs).right.left.of_cons
    have h₂ := (List.pairwise_append.mp h₁).right.right _ hm _ List.mem_cons_self
    simp at h₂
    omega
  have hpi : pre₂ <+: inner := by
    cases List.append_eq_append_iff.mp hr
    case inl h =>
      have ⟨w, hw, _⟩ := h
      exact ⟨w, hw.symm⟩
    case inr h =>
      have ⟨w, hw, hw'⟩ := h
      cases w
      case nil       => exact ⟨[], by simp [hw]⟩
      case cons x w =>
        have hx := (List.cons.inj hw').left
        exact absurd (by simp [hw, ←hx]) (hlt ')')
  have h₁ := (NeverBelow.left (chars_append _ _ ▸ hn)).count_le
  have h₂ := hi.neverBelow (chars pre₂) (hpi.map _)
  simp [depth]
  omega

namespace Enclosed

theorem matched_of_body {a b : Nat} (h : Enclosed text u body v)
    (hm : Matched (exposedFrom .outside (u.length + 1) body) a b) : Matched (exposed text) a b := by
  have ⟨before, inner, after, he, hi⟩ := hm
  refine ⟨exposed u ++ (u.length, '(') :: before, inner,
    after ++ (u.length + 1 + body.length, ')') ::
    exposedFrom .outside (u.length + 1 + body.length + 1) v, ?_, hi⟩
  rw [h.exposed_eq, he]
  simp

theorem innermost_iff (h : Enclosed text u body v)
    (he : exposedFrom .outside (u.length + 1) body = pre ++ (p, ch) :: post)
    (ho : ch ≠ '(') (hc : ch ≠ ')') :
    Innermost (matchParens text) u.length p ↔ depth (chars pre) = 0 := by
  have hb : Balanced (chars (pre ++ (p, ch) :: post)) := by
    rw [←he, chars, map_snd_exposedFrom]
    exact h.balanced
  have hs := he ▸ pairwise_exposedFrom .outside (u.length + 1) body
  have hpos {a d} (ha : (a, d) ∈ pre ++ (p, ch) :: post) :
      u.length + 1 ≤ a ∧ a < u.length + 1 + body.length :=
    ⟨le_of_mem_exposedFrom (he ▸ ha), lt_of_mem_exposedFrom (he ▸ ha)⟩
  constructor
  case mp =>
    intro hi
    by_contra hd
    obtain ⟨a, b, hm, ha, hap, hpb⟩ := matched_of_depth hb hs ho hc hd
    have := hi.right _ (mem_matchParens_iff.mpr <| h.matched_of_body (he ▸ hm)) hap hpb
    have := hpos (List.mem_append_left _ ha)
    simp at *
    omega
  case mpr =>
    intro hd
    have := hpos (List.mem_append_right pre List.mem_cons_self)
    refine ⟨⟨_, mem_matchParens_iff.mpr h.matched, rfl, by omega, by simp; omega⟩, ?_⟩
    rintro ⟨a, b⟩ hm hap hpb
    simp at hap hpb ⊢
    by_contra hlt
    have hm := mem_matchParens_iff.mp hm
    have hx := pairwise_exposed text
    have hn : NeverBelow (chars pre) := (chars_append _ _ ▸ hb.neverBelow).left
    have heq : exposed text = (exposed u ++ [(u.length, '(')]) ++ pre ++ (p, ch) :: (post ++
        (u.length + 1 + body.length, ')') ::
          exposedFrom .outside (u.length + 1 + body.length + 1) v) := by
      rw [h.exposed_eq, he]
      simp
    rw [heq] at hm hx
    have ha : (a, '(') ∈ pre := by
      refine mem_of_lt_of_lt hx hm.mem_open ?_ hap
      rintro ⟨z, d⟩ hz
      cases List.mem_append.mp hz
      case inl hz =>
        have := lt_of_mem_exposedFrom (Scan.exposed_eq u ▸ hz)
        simp
        omega
      case inr hz =>
        simp at hz
        simp
        omega
    exact depth_ne_zero_of_matched hx hm ha hpb hn hd

-- The commas of the text whose innermost pair is that of the body are those outside the
-- parentheses of the body.
theorem cutsFrom_eq (h : Enclosed text u body v)
    (he : exposedFrom .outside (u.length + 1) body = pre ++ post) :
    cutsFrom (· == ',') (depth (chars pre)) post =
      (post.filter fun (p, ch) => ch == ',' && Innermost (matchParens text) u.length p).map
        Prod.fst := by
  induction post generalizing pre
  case nil => rfl
  case cons x post hi =>
    obtain ⟨p, ch⟩ := x
    have hn : NeverBelow (chars pre ++ [ch]) := by
      have hb := h.balanced.neverBelow
      rw [←map_snd_exposedFrom _ (u.length + 1), he] at hb
      exact hb.of_prefix ⟨chars post, by simp [chars]⟩
    have hcut : isCut (· == ',') (depth (chars pre)) ch =
        (ch == ',' && decide (Innermost (matchParens text) u.length p)) := by
      by_cases hc : ch = ','
      case neg =>
        have hc : (ch == ',') = false := by simpa using hc
        simp [isCut, hc]
      case pos =>
        have hi := h.innermost_iff he (by simp [hc]) (by simp [hc])
        simp [isCut, hc, hi, beq_eq_decide]
    have hi := @hi (pre ++ [(p, ch)]) (by simp [he])
    rw [chars_append, chars_cons, chars_nil] at hi
    rw [cutsFrom, hcut, depthAfter_depth hn, hi, List.filter_cons]
    split <;> simp_all

end Enclosed
end SchemaGraph.Scan
