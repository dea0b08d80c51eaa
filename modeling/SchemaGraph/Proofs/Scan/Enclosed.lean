import SchemaGraph.Proofs.Scan.Cuts

namespace SchemaGraph.Scan

variable {text u body v w x y : List Char} {o c p : Nat} {ch : Char} {pre post : Found}

structure Enclosed (text u body v : List Char) : Prop where
  text_eq       : text = u ++ '(' :: (body ++ ')' :: v)
  exposes_open  : (Mode.outside.after u).exposes '('
  exposes_close : (Mode.outside.after body).exposes ')'
  balanced      : Balanced (shown .outside body)

namespace Enclosed

theorem exposed_eq (h : Enclosed text u body v) :
    exposed text = exposed u ++ (u.length, '(') :: exposedFrom .outside (u.length + 1) body ++
      (u.length + 1 + body.length, ')') ::
        exposedFrom .outside (u.length + 1 + body.length + 1) v := by
  rw [h.text_eq, Scan.exposed_eq, exposedFrom_append_cons h.exposes_open,
    exposedFrom_append_cons h.exposes_close, Scan.exposed_eq]
  simp

theorem matched (h : Enclosed text u body v) :
    Matched (exposed text) u.length (u.length + 1 + body.length) :=
  ⟨_, _, _, h.exposed_eq, by simpa [chars, map_snd_exposedFrom] using h.balanced⟩

-- What stands behind an enclosed text, or before it, does not matter to it.

theorem swap_right (h : Enclosed (w ++ x) u body v) (hl : u.length + 1 + body.length < w.length)
    (y : List Char) : ∃ v', Enclosed (w ++ y) u body v' := by
  have ht : w ++ x = (u ++ '(' :: body ++ [')']) ++ v := by simp [h.text_eq]
  obtain ⟨v', hw⟩ : u ++ '(' :: body ++ [')'] <+: w :=
    List.prefix_of_prefix_length_le ⟨v, ht.symm⟩ (List.prefix_append w x) (by simp; omega)
  exact ⟨v' ++ y, by simp [←hw], h.exposes_open, h.exposes_close, h.balanced⟩

theorem swap_left (h : Enclosed (x ++ w) u body v) (hl : x.length ≤ u.length)
    (hm : Mode.outside.after x = Mode.outside.after y) :
    ∃ u', u = x ++ u' ∧ Enclosed (y ++ w) (y ++ u') body v := by
  obtain ⟨u', hu⟩ : x <+: u :=
    List.prefix_of_prefix_length_le (List.prefix_append x w) ⟨_, h.text_eq.symm⟩ hl
  have hw : w = u' ++ '(' :: (body ++ ')' :: v) := by
    have ht := h.text_eq
    rw [←hu, List.append_assoc] at ht
    exact List.append_cancel_left ht
  have ho := h.exposes_open
  rw [←hu, Mode.after_append, hm, ←Mode.after_append] at ho
  exact ⟨u', hu.symm, by rw [hw, List.append_assoc], ho, h.exposes_close, h.balanced⟩

end Enclosed

theorem Matched.exists_enclosed (h : Matched (exposed text) o c) :
    ∃ u body v, Enclosed text u body v ∧ o = u.length ∧ c = u.length + 1 + body.length := by
  have ⟨before, inner, after, he, hb⟩ := h
  rw [List.append_assoc, List.cons_append, exposed_eq] at he
  have hs := he ▸ pairwise_exposedFrom .outside 0 text
  have ho : (o, '(') ∈ exposedFrom .outside 0 text := by simp [he]
  have ⟨u, w, ht, hu, hxo⟩ := exists_of_mem_exposedFrom ho
  rw [Nat.zero_add] at hu
  rw [ht, exposedFrom_append_cons hxo, Nat.zero_add, ←hu] at he
  have ⟨_, hw⟩ := append_cons_inj hs he.symm
  have hc : (c, ')') ∈ exposedFrom .outside (o + 1) w := by simp [←hw]
  have ⟨body, v, hb', hcb, hxc⟩ := exists_of_mem_exposedFrom hc
  rw [hb', exposedFrom_append_cons hxc, ←hcb] at hw
  have hs' : (inner ++ (c, ')') :: after).Pairwise (·.1 < ·.1) :=
    (List.pairwise_append.mp hs).right.left |> List.Pairwise.of_cons
  have ⟨hi, _⟩ := append_cons_inj hs' hw
  refine ⟨u, body, v, ⟨by rw [ht, hb'], hxo, hxc, ?_⟩, hu, by rw [hcb, hu]⟩
  rwa [hi, chars, map_snd_exposedFrom] at hb

theorem mem_matchParens_iff_enclosed :
    (o, c) ∈ matchParens text ↔
      ∃ u body v, Enclosed text u body v ∧ o = u.length ∧ c = u.length + 1 + body.length where
  mp h := (mem_matchParens_iff.mp h).exists_enclosed
  mpr := fun ⟨_, _, _, h, ho, hc⟩ => ho ▸ hc ▸ mem_matchParens_iff.mpr h.matched

theorem lookup_matchParens_eq_none (ht : text = u ++ '(' :: v)
    (hn : NeverBelow (shown .outside v)) : (matchParens text).lookup u.length = none := by
  cases hl : (matchParens text).lookup u.length
  case none   => rfl
  case some c =>
    have ⟨u', body, v', h, hu, _⟩ := (lookup_matchParens_eq_some_iff.mp hl).exists_enclosed
    have hv : v = body ++ ')' :: v' :=
      (List.cons.inj (List.append_inj_right (ht.symm.trans h.text_eq) hu)).right
    rw [hv, shown_append, shown_cons, if_pos h.exposes_close] at hn
    have := (hn.of_prefix ⟨_, List.append_assoc ..⟩ : NeverBelow
      (shown .outside body ++ [')'])).count_le
    have := h.balanced.count_eq
    simp at *
    omega

end SchemaGraph.Scan
