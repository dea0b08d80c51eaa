import SchemaGraph.Proofs.Scan.Nesting

namespace SchemaGraph.Scan

def movedPair (k : Nat) : Nat × Nat → Nat × Nat
  | (o, c) => (o + k, c + k)

variable {text u body v : List Char} {o c start stop : Nat}

theorem Pairing.step_moved (k : Nat) (x : Nat × Char) (s : Pairing) :
    step ⟨s.opened.map (· + k), s.pairs.map (movedPair k)⟩ (moved k x) =
      ⟨(s.step x).opened.map (· + k), (s.step x).pairs.map (movedPair k)⟩ := by
  obtain ⟨p, ch⟩ := x
  by_cases ho : ch = '('
  case pos => subst ho; rfl
  by_cases hc : ch = ')'
  case neg => rw [moved, step_other ho hc, step_other ho hc]
  case pos =>
    subst hc
    cases hs : s.opened <;> simp [step, moved, movedPair, hs]

theorem Pairing.foldl_moved (k : Nat) (xs : Found) (s : Pairing) :
    (xs.map (moved k)).foldl step ⟨s.opened.map (· + k), s.pairs.map (movedPair k)⟩ =
      ⟨(xs.foldl step s).opened.map (· + k), (xs.foldl step s).pairs.map (movedPair k)⟩ := by
  induction xs generalizing s
  case nil => rfl
  case cons x xs hi =>
    rw [List.map_cons, List.foldl_cons, List.foldl_cons, step_moved, hi]

theorem cutsFrom_moved (separates : Char → Bool) (depth k : Nat) (xs : Found) :
    cutsFrom separates depth (xs.map (moved k)) = (cutsFrom separates depth xs).map (· + k) := by
  induction xs generalizing depth
  case nil => rfl
  case cons x xs hi =>
    obtain ⟨p, ch⟩ := x
    rw [List.map_cons, moved, cutsFrom, cutsFrom, hi, List.map_append]
    by_cases hc : isCut separates depth ch <;> simp [hc]

theorem slice_moved (ht : text = u ++ (body ++ v)) (hs : stop ≤ body.length) :
    slice text (start + u.length) (stop + u.length) = slice body start stop := by
  rw [slice, slice, ht, Nat.add_comm start, List.drop_length_add_append, Nat.add_comm,
    Nat.add_sub_add_left]
  by_cases h : start ≤ stop
  case pos =>
    rw [List.drop_append_of_le_length (Nat.le_trans h hs),
      List.take_append_of_le_length (by rw [List.length_drop]; omega)]
  case neg =>
    have h : stop - start = 0 := by omega
    rw [h, List.take_zero, List.take_zero]

theorem slices_moved (ht : text = u ++ (body ++ v)) {cuts : List Nat}
    (hc : ∀ cut ∈ cuts, cut < body.length) (start : Nat) :
    slices text (body.length + u.length) (start + u.length) (cuts.map (· + u.length)) =
      slices body body.length start cuts := by
  induction cuts generalizing start
  case nil => simp [slices, slice_moved ht (Nat.le_refl _)]
  case cons cut cuts hi =>
    have hc' : cut ≤ body.length := Nat.le_of_lt <| hc cut List.mem_cons_self
    have hi := hi (fun cut hm => hc cut (List.mem_cons_of_mem _ hm)) (cut + 1)
    rw [List.map_cons, slices, slices, slice_moved ht hc', ←hi, Nat.add_right_comm]

-- The text between two parentheses, scanned on its own, against the scan of the whole text.
structure ScansInPlace (text : List Char) (o c : Nat) : Prop where
  exposed_eq :
    (exposed (slice text (o + 1) c)).map (moved (o + 1)) =
      (exposed text).filter fun (p, _) => o < p && p < c
  matchParens_eq :
    (matchParens (slice text (o + 1) c)).map (movedPair (o + 1)) =
      (matchParens text).filter fun (a, b) => o < a && b < c
  balanced : Balanced (shown .outside (slice text (o + 1) c))
  -- The depth is never zero where a parenthesis closes.
  depth_ne_zero {pre p post} :
    exposed (slice text (o + 1) c) = pre ++ (p, ')') :: post →
      (chars pre).foldl depthAfter 0 ≠ 0
  split_eq :
    split (· == ',') (slice text (o + 1) c) =
      slices text c (o + 1) (((exposed text).filter fun (p, ch) =>
        ch == ',' && Innermost (matchParens text) o p).map Prod.fst)

namespace Enclosed

theorem slice_eq (h : Enclosed text u body v) :
    slice text (u.length + 1) (u.length + 1 + body.length) = body := by
  have ht : text = (u ++ ['(']) ++ (body ++ ')' :: v) := by simp [h.text_eq]
  have hs : _ = slice body 0 body.length := slice_moved ht (Nat.le_refl _)
  simpa [slice, Nat.add_comm] using hs

theorem filter_exposed_of (h : Enclosed text u body v) (q : Nat × Char → Bool)
    (hq : ∀ p ch, q (p, ch) → u.length < p ∧ p < u.length + 1 + body.length) :
    (exposed text).filter q = (exposedFrom .outside (u.length + 1) body).filter q := by
  have hn (p ch) (hp : p ≤ u.length ∨ u.length + 1 + body.length ≤ p) : q (p, ch) = false := by
    by_contra ht
    have := hq p ch (by simpa using ht)
    omega
  have hu : (exposed u).filter q = [] := List.filter_eq_nil_iff.mpr fun (p, ch) hm => by
    have := lt_of_mem_exposedFrom (Scan.exposed_eq u ▸ hm)
    simp [hn p ch (by omega)]
  have hv : (exposedFrom .outside (u.length + 1 + body.length + 1) v).filter q = [] :=
    List.filter_eq_nil_iff.mpr fun (p, ch) hm => by
      have := le_of_mem_exposedFrom hm
      simp [hn p ch (by omega)]
  rw [h.exposed_eq, List.filter_append, List.filter_append, hu, List.filter_cons_of_neg,
    List.filter_cons_of_neg, hv]
  · simp
  · simp [hn]
  · simp [hn]

theorem filter_exposed (h : Enclosed text u body v) :
    ((exposed text).filter fun (p, _) => u.length < p && p < u.length + 1 + body.length) =
      exposedFrom .outside (u.length + 1) body := by
  rw [h.filter_exposed_of _ fun p ch hp => by simpa using hp, List.filter_eq_self]
  intro (p, ch) hm
  have := le_of_mem_exposedFrom hm
  have := lt_of_mem_exposedFrom hm
  simp
  omega

theorem filter_commas (h : Enclosed text u body v) :
    ((exposed text).filter fun (p, ch) => ch == ',' && Innermost (matchParens text) u.length p) =
      (exposedFrom .outside (u.length + 1) body).filter fun (p, ch) =>
        ch == ',' && Innermost (matchParens text) u.length p := by
  apply h.filter_exposed_of
  intro p ch hp
  simp at hp
  have ⟨_, ⟨⟨o, c⟩, hm, ho, hop, hpc⟩, _⟩ := hp
  have hm : (u.length, c) ∈ matchParens text := ho ▸ hm
  have hc := (mem_matchParens_iff.mp hm).unique (pairwise_exposed text) h.matched
  exact ⟨hop, hc ▸ hpc⟩

theorem filter_matchParens_of (h : Enclosed text u body v) (q : Nat × Nat → Bool)
    (hq : ∀ a b, q (a, b) ↔ u.length < a ∧ b < u.length + 1 + body.length) :
    (matchParens text).filter q =
      ((exposedFrom .outside (u.length + 1) body).foldl Pairing.step .empty).pairs := by
  have hb : Balanced (chars (exposedFrom .outside (u.length + 1) body)) := by
    rw [chars, map_snd_exposedFrom]
    exact h.balanced
  obtain ⟨later, hl, hm⟩ := matchParens_split h.exposed_eq hb
  have hlater : later.filter q = [] := by
    apply List.filter_eq_nil_iff.mpr
    rintro ⟨a, b⟩ hab
    obtain ⟨⟨p, ch⟩, hp, hpb⟩ := List.mem_map.mp (hm a b hab)
    have := le_of_mem_exposedFrom hp
    simp at hpb
    rw [hq]
    omega
  have hearlier : ((exposed u).foldl Pairing.step .empty).pairs.filter q = [] := by
    apply List.filter_eq_nil_iff.mpr
    rintro ⟨a, b⟩ hab
    have ha := (Pairing.matched_of_mem_foldl hab).mem_open
    have := lt_of_mem_exposedFrom (Scan.exposed_eq u ▸ ha)
    rw [hq]
    omega
  rw [hl, List.filter_append, List.filter_append, hlater, List.filter_cons_of_neg (by simp [hq]),
    hearlier, List.nil_append, List.append_nil, List.filter_eq_self]
  rintro ⟨a, b⟩ hab
  have hm := Pairing.matched_of_mem_foldl hab
  have := le_of_mem_exposedFrom hm.mem_open
  have := lt_of_mem_exposedFrom hm.mem_close
  rw [hq]
  omega

theorem scansInPlace (h : Enclosed text u body v) :
    ScansInPlace text u.length (u.length + 1 + body.length) where
  exposed_eq := by rw [h.slice_eq, h.filter_exposed, map_moved_exposed]
  matchParens_eq := by
    rw [h.slice_eq, h.filter_matchParens_of _ (by simp), Scan.matchParens_eq, ←map_moved_exposed]
    exact (congrArg Pairing.pairs (Pairing.foldl_moved _ _ .empty)).symm
  balanced := by rw [h.slice_eq]; exact h.balanced
  depth_ne_zero {pre p post} he := by
    rw [h.slice_eq] at he
    have hb : Balanced (chars (pre ++ (p, ')') :: post)) := by
      rw [←he, Scan.exposed_eq, chars, map_snd_exposedFrom]
      exact h.balanced
    have hn : NeverBelow (chars pre ++ [')']) :=
      hb.neverBelow.of_prefix ⟨chars post, by simp [chars]⟩
    have := hn.count_le
    rw [foldl_depthAfter hn.left, depth]
    simp at this
    omega
  split_eq := by
    have hc := @cutsFrom_eq _ _ _ _ [] _ h rfl
    have ht : text = (u ++ ['(']) ++ (body ++ ')' :: v) := by simp [h.text_eq]
    have hlt : ∀ cut ∈ cutsFrom (· == ',') 0 (exposed body), cut < body.length := by
      intro cut hm
      obtain ⟨_, hm⟩ := mem_of_mem_cutsFrom hm
      have := lt_of_mem_exposedFrom (Scan.exposed_eq body ▸ hm)
      omega
    have hs := slices_moved ht hlt 0
    rw [h.slice_eq, split_eq_slices, h.filter_commas, ←hc, ←hs, ←map_moved_exposed, depth]
    simp [cutsFrom_moved, Nat.add_comm]

end Enclosed

theorem scansInPlace_of_mem_matchParens (h : (o, c) ∈ matchParens text) :
    ScansInPlace text o c := by
  have ⟨u, body, v, he, ho, hc⟩ := mem_matchParens_iff_enclosed.mp h
  exact ho ▸ hc ▸ he.scansInPlace

theorem scansInPlace_literal :
    (4, 21) ∈ matchParens "a (b(x, '(''', c(1,2))".toList ∧
      ScansInPlace "a (b(x, '(''', c(1,2))".toList 4 21 :=
  ⟨by decide, scansInPlace_of_mem_matchParens (by decide)⟩

end SchemaGraph.Scan
