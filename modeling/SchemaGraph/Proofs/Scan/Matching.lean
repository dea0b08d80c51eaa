import SchemaGraph.Proofs.Scan.Balanced
import SchemaGraph.Proofs.Scan.Exposed
import SchemaGraph.Scan.Parens

namespace SchemaGraph.Scan

abbrev Found := List (Nat × Char)

def chars (xs : Found) : List Char :=
  xs.map Prod.snd

@[simp]
theorem chars_nil : chars [] = [] :=
  rfl

@[simp]
theorem chars_cons (x : Nat × Char) (xs : Found) : chars (x :: xs) = x.2 :: chars xs :=
  rfl

@[simp]
theorem chars_append (xs ys : Found) : chars (xs ++ ys) = chars xs ++ chars ys :=
  List.map_append

theorem exists_of_chars_eq {xs : Found} {u v : List Char} {d : Char} (h : chars xs = u ++ d :: v) :
    ∃ l p r, xs = l ++ (p, d) :: r ∧ chars l = u ∧ chars r = v := by
  have ⟨l, rest, hx, hl, hr⟩ := List.map_eq_append_iff.mp h
  have ⟨(p, _), r, hrest, hd, hv⟩ := List.map_eq_cons_iff.mp hr
  exact ⟨l, p, r, by rw [hx, hrest, ←hd], hl, hv⟩

-- The parenthesis at `o` is closed by the one at `c`: what is found between them is balanced.
inductive Matched (xs : Found) (o c : Nat) : Prop
  | intro (before inner after : Found) (eq : xs = before ++ (o, '(') :: inner ++ (c, ')') :: after)
      (balanced : Balanced (chars inner))

-- The parentheses in `os`, the latest first, are open at the end of `xs`. Below the last of them
-- nothing is known, since closing parentheses too many are passed over.
inductive Opened : Found → List Nat → Prop
  | nil {xs} : Opened xs []
  | cons {xs os o inner} : Opened xs os → Balanced (chars inner) →
      Opened (xs ++ (o, '(') :: inner) (o :: os)

variable {xs ys : Found} {os : List Nat} {o c p : Nat} {ch : Char}

namespace Opened

theorem append_balanced (h : Opened xs os) (hy : Balanced (chars ys)) : Opened (xs ++ ys) os := by
  cases h
  case nil          => exact .nil
  case cons inner h hi =>
    rw [List.append_assoc, List.cons_append]
    exact .cons h (by simpa using hi.append hy)

theorem push (h : Opened xs os) (p : Nat) : Opened (xs ++ [(p, '(')]) (p :: os) :=
  .cons h .nil

theorem pop (h : Opened xs (o :: os)) (p : Nat) :
    Opened (xs ++ [(p, ')')]) os ∧ Matched (xs ++ [(p, ')')]) o p := by
  cases h
  case cons before inner hi h =>
    constructor
    case left =>
      rw [List.append_assoc]
      exact h.append_balanced (by simpa using hi.wrap)
    case right => exact ⟨before, inner, [], by simp, hi⟩

theorem other (h : Opened xs os) (p : Nat) (ho : ch ≠ '(') (hc : ch ≠ ')') :
    Opened (xs ++ [(p, ch)]) os :=
  h.append_balanced <| .of_not_mem (by simp [ho.symm]) (by simp [hc.symm])

end Opened

theorem Matched.mem_open (h : Matched xs o c) : (o, '(') ∈ xs :=
  have ⟨_, _, _, he, _⟩ := h
  by simp [he]

theorem Matched.mem_close (h : Matched xs o c) : (c, ')') ∈ xs :=
  have ⟨_, _, _, he, _⟩ := h
  by simp [he]

theorem Matched.append (h : Matched xs o c) (ys : Found) : Matched (xs ++ ys) o c :=
  have ⟨before, inner, after, he, hb⟩ := h
  ⟨before, inner, after ++ ys, by simp [he], hb⟩

namespace Pairing

variable {s : Pairing}

def empty : Pairing where
  opened := []
  pairs := []

theorem step_other (ho : ch ≠ '(') (hc : ch ≠ ')') : s.step (p, ch) = s := by
  unfold Pairing.step
  split
  case h_1 he => exact absurd (congrArg Prod.snd he) ho
  case h_2 he => exact absurd (congrArg Prod.snd he) hc
  case h_3    => rfl

structure Sound (s : Pairing) (xs : Found) : Prop where
  opened  : Opened xs s.opened
  matched : ∀ o c, (o, c) ∈ s.pairs → Matched xs o c

theorem Sound.step (h : s.Sound xs) : (s.step (p, ch)).Sound (xs ++ [(p, ch)]) := by
  have keep : ∀ o c, (o, c) ∈ s.pairs → Matched (xs ++ [(p, ch)]) o c :=
    fun o c hm => (h.matched o c hm).append _
  by_cases ho : ch = '('
  case pos => subst ho; exact ⟨h.opened.push p, keep⟩
  by_cases hc : ch = ')'
  case neg => rw [step_other ho hc]; exact ⟨h.opened.other p ho hc, keep⟩
  case pos =>
    subst hc
    simp only [Pairing.step]
    split
    case h_1 hs => exact ⟨hs ▸ .nil, keep⟩
    case h_2 o os hs =>
      have ⟨hos, hm⟩ := (hs ▸ h.opened).pop p
      refine ⟨hos, fun o' c' h' => ?_⟩
      cases List.mem_cons.mp h'
      case inl he => cases he; exact hm
      case inr h' => exact keep o' c' h'

theorem Sound.foldl (h : s.Sound xs) (ys : Found) : (ys.foldl Pairing.step s).Sound (xs ++ ys) := by
  induction ys generalizing s xs
  case nil          => simpa using h
  case cons y ys hi => simpa using hi h.step

theorem Sound.empty : empty.Sound [] :=
  ⟨.nil, by simp [Pairing.empty]⟩

theorem matched_of_mem_foldl (h : (o, c) ∈ (xs.foldl Pairing.step .empty).pairs) : Matched xs o c :=
  (Sound.empty.foldl xs).matched o c h

def on (s t : Pairing) : Pairing where
  opened := s.opened ++ t.opened
  pairs := s.pairs ++ t.pairs

structure StaysOn (s s' : Pairing) (x : Nat × Char) : Prop where
  step_on : ∀ t, (s.on t).step x = s'.on t
  length  : s'.opened.length + [x.2].count ')' = s.opened.length + [x.2].count '('

theorem step_staysOn (h : ClosesAtMost s.opened.length (chars ((p, ch) :: xs))) :
    StaysOn s (s.step (p, ch)) (p, ch) ∧
      ClosesAtMost (s.step (p, ch)).opened.length (chars xs) := by
  rw [chars_cons] at h
  by_cases ho : ch = '('
  case pos =>
    subst ho
    exact ⟨⟨fun t => rfl, by simp [step]⟩, h.after_open⟩
  by_cases hc : ch = ')'
  case pos =>
    subst hc
    have ⟨k, hk, hxs⟩ := h.after_close
    cases hs : s.opened
    case nil         => simp [hs] at hk
    case cons o opened =>
      have hl : opened.length = k := by simpa [hs] using hk
      exact ⟨⟨fun t => by simp [step, on, hs], by simp [step, hs]⟩, by
        simpa [step, hs, hl] using hxs⟩
  case neg =>
    rw [step_other ho hc]
    exact ⟨⟨fun t => step_other ho hc, by simp [ho, hc]⟩, h.after_other ho hc⟩

-- What is read after `t` leaves `t` as it was, unless it closes more than it opens.
theorem foldl_on (h : ClosesAtMost s.opened.length (chars xs)) (t : Pairing) :
    xs.foldl step (s.on t) = (xs.foldl step s).on t := by
  induction xs generalizing s
  case nil => rfl
  case cons x xs hi =>
    have ⟨hx, hxs⟩ := step_staysOn h
    rw [List.foldl_cons, List.foldl_cons, hx.step_on, hi hxs]

theorem length_opened_foldl (h : ClosesAtMost s.opened.length (chars xs)) :
    (xs.foldl step s).opened.length + (chars xs).count ')' =
      s.opened.length + (chars xs).count '(' := by
  induction xs generalizing s
  case nil => rfl
  case cons x xs hi =>
    obtain ⟨p, ch⟩ := x
    have ⟨hx, hxs⟩ := step_staysOn h
    have h₁ := hi hxs
    have h₂ := hx.length
    simp only [List.foldl_cons, chars_cons, List.count_cons, List.count_nil] at h₂ ⊢
    omega

theorem foldl_balanced (h : Balanced (chars xs)) (t : Pairing) :
    xs.foldl step t = ⟨t.opened, (xs.foldl step empty).pairs ++ t.pairs⟩ := by
  have hn := ClosesAtMost.of_neverBelow h.neverBelow empty.opened.length
  have hl := length_opened_foldl hn
  rw [h.count_eq, Nat.add_right_cancel_iff] at hl
  have ho := List.eq_nil_of_length_eq_zero hl
  calc
    xs.foldl step t = xs.foldl step (empty.on t)   := rfl
    _               = (xs.foldl step empty).on t   := foldl_on hn t
    _               = ⟨t.opened, (xs.foldl step empty).pairs ++ t.pairs⟩ := by rw [on, ho]; rfl

theorem exists_pairs_foldl (xs : Found) (s : Pairing) :
    ∃ new, (xs.foldl step s).pairs = new ++ s.pairs ∧ ∀ o c, (o, c) ∈ new →
      c ∈ xs.map Prod.fst := by
  induction xs generalizing s
  case nil => exact ⟨[], rfl, by simp⟩
  case cons x xs hi =>
    have ⟨new, he, hn⟩ := hi (s.step x)
    have hc : ∀ o c, (o, c) ∈ new → c ∈ (x :: xs).map Prod.fst :=
      fun o c hm => List.mem_cons_of_mem _ (hn o c hm)
    have hs : (s.step x).pairs = s.pairs ∨ ∃ o, (s.step x).pairs = (o, x.1) :: s.pairs := by
      unfold step
      repeat' split
      all_goals simp
    cases hs
    case inl hs => exact ⟨new, by simp [he, hs], hc⟩
    case inr hs =>
      have ⟨o, hs⟩ := hs
      refine ⟨new ++ [(o, x.1)], by simp [he, hs], fun o' c' hm => ?_⟩
      cases List.mem_append.mp hm
      case inl hm => exact hc o' c' hm
      case inr hm => simp_all

end Pairing

theorem matchParens_eq (text : List Char) :
    matchParens text = ((exposed text).foldl Pairing.step .empty).pairs :=
  rfl

theorem matchParens_split {text : List Char} {before inner after : Found}
    (h : exposed text = before ++ (o, '(') :: inner ++ (c, ')') :: after)
    (hi : Balanced (chars inner)) :
    ∃ later, matchParens text = later ++ (o, c) :: (inner.foldl Pairing.step .empty).pairs
        ++ (before.foldl Pairing.step .empty).pairs ∧
      ∀ o' c', (o', c') ∈ later → c' ∈ after.map Prod.fst := by
  have ⟨later, hl, hm⟩ := Pairing.exists_pairs_foldl after <|
    Pairing.step (((o, '(') :: inner).foldl Pairing.step (before.foldl Pairing.step .empty))
      (c, ')')
  refine ⟨later, ?_, hm⟩
  rw [matchParens_eq, h, List.foldl_append, List.foldl_append, List.foldl_cons, hl, List.foldl_cons,
    Pairing.foldl_balanced hi]
  simp [Pairing.step]

theorem mem_matchParens_iff {text : List Char} :
    (o, c) ∈ matchParens text ↔ Matched (exposed text) o c where
  mp := Pairing.matched_of_mem_foldl
  mpr := by
    intro ⟨before, inner, after, he, hb⟩
    have ⟨later, hl, _⟩ := matchParens_split he hb
    simp [hl]

theorem pairwise_exposed (text : List Char) : (exposed text).Pairwise (·.1 < ·.1) :=
  exposed_eq text ▸ pairwise_exposedFrom ..

theorem append_cons_inj {before before' after after' : Found} {d d' : Char}
    (hs : (before ++ (p, d) :: after).Pairwise (·.1 < ·.1))
    (h : before ++ (p, d) :: after = before' ++ (p, d') :: after') :
    before = before' ∧ after = after' := by
  have key {us vs ws : Found} {e e' : Char}
      (hs : (us ++ (p, e) :: vs ++ (p, e') :: ws).Pairwise (·.1 < ·.1)) : False := by
    have := (List.pairwise_append.mp hs).right.right (p, e) (by simp) (p, e') (by simp)
    omega
  cases List.append_eq_append_iff.mp h
  case inl h =>
    have ⟨w, hw, he⟩ := h
    cases w
    case nil       => exact ⟨by simpa using hw.symm, (List.cons.inj he).right⟩
    case cons x w =>
      have ⟨hx, ha⟩ := List.cons.inj he
      subst hx ha
      exact (key (by simpa using hs)).elim
  case inr h =>
    have ⟨w, hw, he⟩ := h
    cases w
    case nil       => exact ⟨by simpa using hw, (List.cons.inj he).right.symm⟩
    case cons x w =>
      have ⟨hx, ha⟩ := List.cons.inj he
      subst hx hw
      exact (key hs).elim

theorem Matched.unique {c' : Nat} (hs : xs.Pairwise (·.1 < ·.1)) (h : Matched xs o c)
    (h' : Matched xs o c') : c = c' := by
  have ⟨before, inner, after, he, hb⟩ := h
  have ⟨before', inner', after', he', hb'⟩ := h'
  simp only [List.append_assoc, List.cons_append] at he he'
  have ⟨_, hr⟩ := append_cons_inj (he ▸ hs) (he.symm.trans he')
  have hn := Balanced.append_close_inj hb hb' (by simpa using congrArg chars hr)
  have hl : inner.length = inner'.length := by simpa [chars] using congrArg List.length hn
  have ⟨_, hc⟩ := List.append_inj hr hl
  simpa using (List.cons.inj hc).left

theorem lookup_matchParens_eq_some_iff {text : List Char} :
    (matchParens text).lookup o = some c ↔ Matched (exposed text) o c := by
  rw [←mem_matchParens_iff]
  constructor
  case mp =>
    intro h
    have ⟨l, r, he, _⟩ := List.lookup_eq_some_iff.mp h
    simp [he]
  case mpr =>
    intro h
    cases hl : (matchParens text).lookup o
    case none => simp [List.lookup_eq_none_iff] at hl; exact absurd rfl (hl _ _ h)
    case some c' =>
      have ⟨l, r, he, _⟩ := List.lookup_eq_some_iff.mp hl
      have h' : (o, c') ∈ matchParens text := by simp [he]
      have hu := mem_matchParens_iff.mp h |>.unique (pairwise_exposed text)
        (mem_matchParens_iff.mp h')
      rw [hu]

end SchemaGraph.Scan
