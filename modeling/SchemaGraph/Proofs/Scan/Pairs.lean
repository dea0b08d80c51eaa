import SchemaGraph.Proofs.Scan.Matching

-- Which parentheses of a text belong together, told from what is found in the text.
namespace SchemaGraph.Scan

def between (xs : Found) (o c : Nat) : Found :=
  (xs.filter (o < ·.1)).filter (·.1 < c)

-- The parenthesis at `o` is closed by the one at `c`: both stand outside literals, and so many
-- parentheses open between them as close, none of which closes before one is open.
structure Pairs (text : List Char) (o c : Nat) : Prop where
  lt            : o < c
  opens         : text[o]? = some '('
  closes        : text[c]? = some ')'
  exposed_open  : o ∈ (exposed text).map Prod.fst
  exposed_close : c ∈ (exposed text).map Prod.fst
  balanced      : Balanced (chars (between (exposed text) o c))

def NoneOpen (cs : List Char) : Prop :=
  ∀ w, w <:+ cs → w.count '(' ≤ w.count ')'

inductive Nested (o c o' c' : Nat) : Prop
  | same   (opening : o = o') (closing : c = c')
  | before (h : c < o')
  | after  (h : c' < o)
  | around (opening : o < o') (closing : c' < c)
  | within (opening : o' < o) (closing : c < c')

variable {text cs : List Char} {xs before after inner : Found} {o c o' c' p : Nat} {ch : Char}

theorem NoneOpen.balanced (h : NoneOpen cs) (hc : cs.count ')' ≤ cs.count '(') : Balanced cs where
  count_eq := Nat.le_antisymm (h cs (List.suffix_refl cs)) hc
  neverBelow := by
    intro u ⟨w, hw⟩
    have := h w ⟨u, hw⟩
    simp only [←hw, List.count_append] at hc
    omega

theorem exists_open_of_not_noneOpen (h : ¬ NoneOpen cs) :
    ∃ u v, cs = u ++ '(' :: v ∧ Balanced v := by
  induction cs
  case nil => simp [NoneOpen] at h
  case cons ch cs hi =>
    by_cases hcs : NoneOpen cs
    case neg =>
      have ⟨u, v, he, hv⟩ := hi hcs
      exact ⟨ch :: u, v, by simp [he], hv⟩
    case pos =>
      -- What makes the difference is the first character, and nothing behind it closes it.
      have ho : ch = '(' ∧ cs.count ')' ≤ cs.count '(' := by
        by_contra hn
        refine h fun w hw => ?_
        cases List.suffix_cons_iff.mp hw
        case inr hw => exact hcs w hw
        case inl he =>
          have := hcs cs (List.suffix_refl cs)
          by_cases ho : ch = '('
          case pos =>
            have : ¬ cs.count ')' ≤ cs.count '(' := fun hc => hn ⟨ho, hc⟩
            simp [he, ho]
            omega
          case neg =>
            simp [he, List.count_cons, ho]
            omega
      exact ⟨[], cs, by simp [ho.left], hcs.balanced ho.right⟩

-- What is found.

theorem getElem?_of_mem_exposed (h : (p, ch) ∈ exposed text) : text[p]? = some ch := by
  have ⟨u, v, ht, hp, _⟩ := exists_of_mem_exposedFrom (exposed_eq text ▸ h)
  simp [ht, hp]

theorem mem_exposed_iff :
    (p, ch) ∈ exposed text ↔ text[p]? = some ch ∧ p ∈ (exposed text).map Prod.fst where
  mp h := ⟨getElem?_of_mem_exposed h, List.mem_map_of_mem h⟩
  mpr := fun ⟨ht, hm⟩ => by
    have ⟨⟨q, d⟩, hq, hp⟩ := List.mem_map.mp hm
    cases hp
    cases (getElem?_of_mem_exposed hq).symm.trans ht
    exact hq

section

-- A found character parts what is found before it from what is found behind it.
variable (hs : (before ++ (p, ch) :: after).Pairwise (·.1 < ·.1))
include hs

theorem lt_of_mem_before {x : Nat × Char} (hx : x ∈ before) : x.1 < p :=
  (List.pairwise_append.mp hs).right.right x hx _ List.mem_cons_self

theorem lt_of_mem_after {x : Nat × Char} (hx : x ∈ after) : p < x.1 :=
  List.rel_of_pairwise_cons (List.pairwise_append.mp hs).right.left hx

theorem filter_before : (before ++ (p, ch) :: after).filter (·.1 < p) = before := by
  have hb : before.filter (·.1 < p) = before :=
    List.filter_eq_self.mpr fun x hx => by simp [lt_of_mem_before hs hx]
  have ha : ((p, ch) :: after).filter (·.1 < p) = [] := by
    refine List.filter_eq_nil_iff.mpr fun x hx => ?_
    cases List.mem_cons.mp hx
    case inl hx => simp [hx]
    case inr hx => simp [Nat.le_of_lt (lt_of_mem_after hs hx)]
  rw [List.filter_append, hb, ha, List.append_nil]

theorem filter_after : (before ++ (p, ch) :: after).filter (p < ·.1) = after := by
  have hb : before.filter (p < ·.1) = [] :=
    List.filter_eq_nil_iff.mpr fun x hx => by simp [Nat.le_of_lt (lt_of_mem_before hs hx)]
  have ha : ((p, ch) :: after).filter (p < ·.1) = after := by
    rw [List.filter_cons_of_neg (by simp)]
    exact List.filter_eq_self.mpr fun x hx => by simp [lt_of_mem_after hs hx]
  rw [List.filter_append, hb, ha, List.nil_append]

end

theorem between_enclosed
    (hs : (before ++ (o, '(') :: (inner ++ (c, ')') :: after)).Pairwise (·.1 < ·.1)) :
    between (before ++ (o, '(') :: (inner ++ (c, ')') :: after)) o c = inner := by
  have hr := (List.pairwise_append.mp hs).right.left.of_cons
  rw [between, filter_after hs, filter_before hr]

theorem between_split (hs : xs.Pairwise (·.1 < ·.1)) (hp : (p, ch) ∈ xs) (ho : o < p) (hc : p < c) :
    between xs o c = between xs o p ++ (p, ch) :: between xs p c := by
  obtain ⟨before, after, rfl⟩ := List.append_of_mem hp
  have ho' : (before.filter (o < ·.1)).filter (·.1 < c) = before.filter (o < ·.1) :=
    List.filter_eq_self.mpr fun x hx => by
      have := lt_of_mem_before hs (List.mem_filter.mp hx).left
      simp [Nat.lt_trans this hc]
  have hc' : after.filter (o < ·.1) = after :=
    List.filter_eq_self.mpr fun x hx => by simp [Nat.lt_trans ho (lt_of_mem_after hs hx)]
  have hl : between (before ++ (p, ch) :: after) o p = before.filter (o < ·.1) := by
    simp only [between, List.filter_filter, Bool.and_comm]
    rw [←List.filter_filter, filter_before hs]
  have hr : between (before ++ (p, ch) :: after) p c = after.filter (·.1 < c) := by
    rw [between, filter_after hs]
  rw [hl, hr, between, List.filter_append, List.filter_append, ho',
    List.filter_cons_of_pos (by simpa), List.filter_cons_of_pos (by simpa), hc']

theorem pairs_iff_matched : Pairs text o c ↔ Matched (exposed text) o c where
  mp h := by
    obtain ⟨before, rest, he⟩ := List.append_of_mem (mem_exposed_iff.mpr ⟨h.opens, h.exposed_open⟩)
    have hs := he ▸ pairwise_exposed text
    have hc : (c, ')') ∈ rest := by
      have hm := mem_exposed_iff.mpr ⟨h.closes, h.exposed_close⟩
      rw [he] at hm
      rw [←filter_after hs]
      exact List.mem_filter.mpr ⟨hm, decide_eq_true h.lt⟩
    obtain ⟨inner, after, rfl⟩ := List.append_of_mem hc
    have hb := h.balanced
    rw [he, between_enclosed hs] at hb
    exact ⟨before, inner, after, by simp [he], hb⟩
  mpr h := by
    have ⟨before, inner, after, he, hb⟩ := h
    rw [List.append_assoc, List.cons_append] at he
    have hs := he ▸ pairwise_exposed text
    have ho := mem_exposed_iff.mp h.mem_open
    have hc := mem_exposed_iff.mp h.mem_close
    exact {
      lt            := lt_of_mem_after hs (x := (c, ')')) (by simp)
      opens         := ho.left
      closes        := hc.left
      exposed_open  := ho.right
      exposed_close := hc.right
      balanced      := by rwa [he, between_enclosed hs] }

namespace Pairs

theorem lt_of_lt (h : Pairs text o c) (h' : Pairs text o' c') (ho : o < o') (hc : o' < c) :
    c' < c := by
  by_contra hn
  -- Up to `c` the inner pair closes no more than it opens, so that the outer one is not balanced.
  have hs := pairwise_exposed text
  have hm := mem_exposed_iff.mpr ⟨h'.opens, h'.exposed_open⟩
  have hp : between (exposed text) o' c <+: between (exposed text) o' c' := by
    rcases Nat.lt_or_eq_of_le (Nat.le_of_not_lt hn) with hn | rfl
    · rw [between_split hs (mem_exposed_iff.mpr ⟨h.closes, h.exposed_close⟩) hc hn]
      exact List.prefix_append ..
    · exact List.prefix_refl _
  have hb := h.balanced
  rw [between_split hs hm ho hc, chars_append, chars_cons] at hb
  have h₁ := h'.balanced.neverBelow _ (hp.map Prod.snd)
  have h₂ := hb.neverBelow.left.count_le
  have h₃ := hb.count_eq
  simp [chars] at h₁ h₂ h₃
  omega

theorem unique (h : Pairs text o c) (h' : Pairs text o c') : c = c' :=
  (pairs_iff_matched.mp h).unique (pairwise_exposed text) (pairs_iff_matched.mp h')

theorem ne (h : Pairs text o c) (h' : Pairs text o' c') : o' ≠ c := by
  rintro rfl
  have := h.closes.symm.trans h'.opens
  simp at this

theorem nested (h : Pairs text o c) (h' : Pairs text o' c') : Nested o c o' c' := by
  rcases Nat.lt_trichotomy o o' with ho | rfl | ho
  · by_cases hc : o' < c
    case pos => exact .around ho (h.lt_of_lt h' ho hc)
    case neg => exact .before (by have := h.ne h'; omega)
  · exact .same rfl (h.unique h')
  · by_cases hc : o < c'
    case pos => exact .within ho (h'.lt_of_lt h ho hc)
    case neg => exact .after (by have := h'.ne h; omega)

end Pairs

theorem lookup_matchParens_iff_pairs : (matchParens text).lookup o = some c ↔ Pairs text o c :=
  lookup_matchParens_eq_some_iff.trans pairs_iff_matched.symm

theorem exists_close_iff (he : exposed text = before ++ (p, '(') :: after) :
    (∃ c, (matchParens text).lookup p = some c) ↔ ¬ NeverBelow (chars after) := by
  simp only [lookup_matchParens_eq_some_iff]
  constructor
  case mp =>
    intro ⟨c, before', inner, after', he', hb⟩ hn
    rw [List.append_assoc, List.cons_append] at he'
    have ⟨_, ha⟩ := append_cons_inj (he ▸ pairwise_exposed text) (he.symm.trans he')
    have hc : NeverBelow (chars inner ++ [')']) := hn.of_prefix ⟨chars after', by simp [ha]⟩
    have h₁ := hc.count_le
    have h₂ := hb.count_eq
    simp at h₁
    omega
  case mpr =>
    intro hn
    have ⟨u, v, hu, hb⟩ := exists_close_of_not_neverBelow hn
    have ⟨inner, c, after', ha, hi, _⟩ := exists_of_chars_eq hu
    exact ⟨c, before, inner, after', by simp [he, ha], by rwa [hi]⟩

theorem exists_open_iff (he : exposed text = before ++ (p, ')') :: after) :
    (∃ o, (matchParens text).lookup o = some p) ↔ ¬ NoneOpen (chars before) := by
  simp only [lookup_matchParens_eq_some_iff]
  constructor
  case mp =>
    intro ⟨o, before', inner, after', he', hb⟩ hn
    have ⟨hl, _⟩ := append_cons_inj (he ▸ pairwise_exposed text) (he.symm.trans he')
    have h₁ := hn (chars ((o, '(') :: inner)) ⟨chars before', by simp [hl]⟩
    have h₂ := hb.count_eq
    simp at h₁
    omega
  case mpr =>
    intro hn
    have ⟨u, v, hu, hb⟩ := exists_open_of_not_noneOpen hn
    have ⟨before', o, inner, hl, _, hi⟩ := exists_of_chars_eq hu
    exact ⟨o, before', inner, after, by simp [he, hl], by rwa [hi]⟩

structure ExactlyMatched (text : List Char) : Prop where
  mem_iff : ∀ o c, (o, c) ∈ matchParens text ↔ (matchParens text).lookup o = some c
  lookup_iff : ∀ o c, (matchParens text).lookup o = some c ↔ Pairs text o c
  nested : ∀ o c o' c', (matchParens text).lookup o = some c →
    (matchParens text).lookup o' = some c' → Nested o c o' c'
  -- An opening parenthesis that is never closed is in no pair, whatever comes before it, and a
  -- closing one too many is in none, whatever comes after it.
  close_iff : ∀ before p after, exposed text = before ++ (p, '(') :: after →
    ((∃ c, (matchParens text).lookup p = some c) ↔ ¬ NeverBelow (chars after))
  open_iff : ∀ before p after, exposed text = before ++ (p, ')') :: after →
    ((∃ o, (matchParens text).lookup o = some p) ↔ ¬ NoneOpen (chars before))

theorem exactlyMatched_matchParens (text : List Char) : ExactlyMatched text where
  mem_iff _ _      := mem_matchParens_iff.trans lookup_matchParens_eq_some_iff.symm
  lookup_iff _ _   := lookup_matchParens_iff_pairs
  nested _ _ _ _ h h' :=
    (lookup_matchParens_iff_pairs.mp h).nested (lookup_matchParens_iff_pairs.mp h')
  close_iff _ _ _  := exists_close_iff
  open_iff _ _ _   := exists_open_iff

end SchemaGraph.Scan
