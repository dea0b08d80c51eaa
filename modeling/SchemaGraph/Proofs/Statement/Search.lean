import SchemaGraph.Proofs.Statement.Visits

-- Where the statements of a text stand, and what the search for them passes over.
namespace SchemaGraph

def Cursor.ofPos (text : List Char) (pos : Nat) : Cursor where
  before := (text.take pos).getLast?
  rest   := text.drop pos
  pos    := pos

namespace Statement

open Scan Pattern

structure HeaderAt (text : List Char) (start opening : Nat) (name : String) : Prop where
  exists_match : ∃ s, header.match? (.ofPos text start) = some s ∧ s.pos = opening + 1 ∧
    String.ofList (Identifier.unquoteQualified (s.group ())) = name

structure Leftmost (text : List Char) (pos : Nat) (visit : Visit) : Prop where
  le_start   : pos ≤ visit.start
  header     : HeaderAt text visit.start visit.opening visit.name
  no_earlier : ∀ q o name, pos ≤ q → q < visit.start → ¬ HeaderAt text q o name
  closing_eq : visit.closing? = (matchParens text).lookup visit.opening

-- A search that goes on behind the body of each header that it finds, or behind the header when its
-- body never closes, until there is no header left.
inductive Search (text : List Char) : Nat → List Visit → Prop
  | done {pos} : (∀ q o name, pos ≤ q → ¬ HeaderAt text q o name) → Search text pos []
  | visit {pos visit visits} : Leftmost text pos visit → pos < visit.stop →
      Search text visit.stop visits → Search text pos (visit :: visits)

structure Span where
  start : Nat
  opening : Nat
  closing : Nat

def Visit.span? (visit : Visit) : Option Span :=
  match visit.closing? with
  | none         => none
  | some closing => if visit.name.isEmpty then none else some ⟨visit.start, visit.opening, closing⟩

def spans (text : List Char) : List Span :=
  (visits text).filterMap (·.span?)

-- A place that the search does not come to, since it stands in the statement of a visit, which may
-- have no name, or in its header, when the body never closes.
inductive Visit.PassesOver (visit : Visit) (pos : Nat) : Prop
  | statement {closing} : visit.closing? = some closing → visit.start < pos → pos < closing →
      PassesOver visit pos
  | header : visit.closing? = none → visit.start < pos → pos < visit.opening → PassesOver visit pos

structure StandsAt (text : List Char) (statement : Statement) (span : Span) : Prop where
  start_lt   : span.start < span.opening
  opening_lt : span.opening < span.closing
  header     : HeaderAt text span.start span.opening statement.name
  opens      : text[span.opening]? = some '('
  closes     : (matchParens text).lookup span.opening = some span.closing
  body_eq    : statement.body = slice text (span.opening + 1) span.closing
  name_ne    : statement.name ≠ ""

variable {text cs seen : List Char} {pos start opening q o c n skip : Nat} {name name' : String}
variable {visit : Visit} {vs vs' : List Visit} {span : Span} {s : Progress Unit}

theorem ofPos_length (seen cs : List Char) :
    Cursor.ofPos (seen ++ cs) seen.length = ⟨behind none seen, cs, seen.length⟩ := by
  rw [Cursor.ofPos, List.take_left, List.drop_left, behind_none]

namespace HeaderAt

theorem unique (h : HeaderAt text start opening name) (h' : HeaderAt text start o name') :
    opening = o ∧ name = name' := by
  obtain ⟨s, hs, hp, hn⟩ := h
  obtain ⟨t, ht, hp', hn'⟩ := h'
  cases hs.symm.trans ht
  exact ⟨by omega, hn.symm.trans hn'⟩

theorem refuses_eq_false (h : HeaderAt text start opening name) :
    header.refuses text[start]? = false := by
  by_contra hr
  obtain ⟨s, hs, -⟩ := h
  have hf : header.Fails (Cursor.ofPos text start).before (Cursor.ofPos text start).rest :=
    fails_of_refuses (by simpa [Cursor.ofPos] using hr)
  cases hf.match?_eq_none.symm.trans hs

theorem ne_parenthesis (h : HeaderAt text start opening name) :
    text[start]? ≠ some '(' ∧ text[start]? ≠ some ')' := by
  have hr := h.refuses_eq_false
  constructor
  all_goals
    intro hc
    rw [hc] at hr
    exact absurd hr (by decide)

theorem opens (h : HeaderAt text start opening name) : text[opening]? = some '(' := by
  obtain ⟨s, hs, hp, -⟩ := h
  rw [match?_eq_head?] at hs
  obtain ⟨w, hw, u, v, rfl, _, c, rfl, hc⟩ := header.exact.sound (List.mem_of_mem_head? hs)
  have hr : text.drop start = u ++ [c] ++ s.rest := hw.rest_eq
  have hpos : s.pos = start + (u ++ [c]).length := hw.pos_eq
  have ho : opening = start + u.length := by simp at hpos; omega
  rw [ho, ←List.getElem?_drop, hr]
  simpa using hc

theorem start_lt (h : HeaderAt text start opening name) : start < opening := by
  have ho := h.opens
  have hs := h.ne_parenthesis.left
  obtain ⟨s, hm, hp, -⟩ := h
  have := lt_of_match? hm
  have hne : start ≠ opening := fun he => hs (he ▸ ho)
  omega

theorem of_match? (hs : header.match? ⟨behind none seen, cs, seen.length⟩ = some s) :
    HeaderAt (seen ++ cs) seen.length (s.pos - 1)
      (String.ofList (Identifier.unquoteQualified (s.group ()))) :=
  have := lt_of_match? hs
  ⟨s, by rw [ofPos_length, hs], by omega, rfl⟩

theorem not_of_match? (hs : header.match? ⟨behind none seen, cs, seen.length⟩ = none) :
    ¬ HeaderAt (seen ++ cs) seen.length opening name := by
  intro ⟨s, h, _⟩
  rw [ofPos_length, hs] at h
  cases h

theorem lt_length (h : HeaderAt text start opening name) : start < text.length := by
  by_contra hl
  have hr := h.refuses_eq_false
  rw [List.getElem?_eq_none (Nat.le_of_not_lt hl)] at hr
  exact absurd hr (by decide)

end HeaderAt

theorem lt_of_lookup (h : (matchParens text).lookup o = some c) : o < c ∧ text[c]? = some ')' := by
  obtain ⟨u, body, v, he, rfl, rfl⟩ := lookup_eq_some_iff.mp h
  have ht : text = (u ++ '(' :: body) ++ ')' :: v := by simp [he.text_eq]
  have hl : u.length + 1 + body.length = (u ++ '(' :: body).length := by simp; omega
  exact ⟨by omega, by rw [hl, ht]; simp⟩

namespace Leftmost

theorem lt_stop (h : Leftmost text pos visit) : pos < visit.stop := by
  have := h.le_start
  have := h.header.start_lt
  have := opening_lt_stop h.closing_eq
  omega

theorem unique {visit' : Visit} (h : Leftmost text pos visit) (h' : Leftmost text pos visit') :
    visit = visit' := by
  have key {v v' : Visit} (h : Leftmost text pos v) (h' : Leftmost text pos v') :
      v.start ≤ v'.start :=
    Nat.le_of_not_lt fun hlt => h.no_earlier _ _ _ h'.le_start hlt h'.header
  obtain ⟨name, start, opening, closing?⟩ := visit
  obtain ⟨name', start', opening', closing?'⟩ := visit'
  obtain rfl : start = start' := Nat.le_antisymm (key h h') (key h' h)
  obtain ⟨rfl, rfl⟩ := h.header.unique h'.header
  obtain rfl : closing? = closing?' := h.closing_eq.trans h'.closing_eq.symm
  rfl

theorem passesOver (h : Leftmost text pos visit) (hs : visit.start < q) (hq : q < visit.stop)
    (hh : HeaderAt text q o name) : visit.PassesOver q := by
  have ⟨ho, hc⟩ := hh.ne_parenthesis
  have hlookup := h.closing_eq
  rw [Visit.stop] at hq
  cases hclosing : visit.closing?
  case none =>
    have hne : q ≠ visit.opening := fun he => ho (he ▸ h.header.opens)
    simp [hclosing] at hq
    exact .header hclosing hs (by omega)
  case some closing =>
    have hne : q ≠ closing := fun he => hc (he ▸ (lt_of_lookup (hlookup.symm.trans hclosing)).right)
    simp [hclosing] at hq
    exact .statement hclosing hs (by omega)

theorem stands (h : Leftmost text pos visit) :
    (visit.statement? text = none ∧ visit.span? = none) ∨
      ∃ statement span, visit.statement? text = some statement ∧ visit.span? = some span ∧
        StandsAt text statement span := by
  have hc := h.closing_eq
  rw [Visit.statement?, Visit.span?]
  cases hclosing : visit.closing?
  case none => exact .inl ⟨rfl, rfl⟩
  case some closing =>
    rw [hclosing] at hc
    by_cases hn : visit.name.isEmpty
    case pos => exact .inl ⟨if_pos hn, if_pos hn⟩
    case neg =>
      refine .inr ⟨_, _, if_neg hn, if_neg hn, ?_⟩
      exact {
        start_lt   := h.header.start_lt
        opening_lt := (lt_of_lookup hc.symm).left
        header     := h.header
        opens      := h.header.opens
        closes     := hc.symm
        body_eq    := rfl
        name_ne    := by simpa using hn }

end Leftmost

namespace Search

theorem of_succ (hn : ∀ o name, ¬ HeaderAt text pos o name) (h : Search text (pos + 1) vs) :
    Search text pos vs := by
  have key {q o name} (hq : pos ≤ q) (hh : HeaderAt text q o name) : pos + 1 ≤ q :=
    Nat.lt_of_le_of_ne hq fun he => hn o name (he ▸ hh)
  match h with
  | .done h         => exact .done fun q o name hq hh => h q o name (key hq hh) hh
  | .visit hl hlt h =>
    have hl' : Leftmost text pos _ := {
      le_start   := Nat.le_of_succ_le hl.le_start
      header     := hl.header
      no_earlier := fun q o name hq hs hh => hl.no_earlier q o name (key hq hh) hs hh
      closing_eq := hl.closing_eq }
    exact .visit hl' hl'.lt_stop h

theorem unique (h : Search text pos vs) (h' : Search text pos vs') : vs = vs' := by
  induction h generalizing vs'
  case done hn =>
    match h' with
    | .done _       => rfl
    | .visit hl _ _ => exact absurd hl.header (hn _ _ _ hl.le_start)
  case visit hl _ _ hi =>
    match h' with
    | .done hn        => exact absurd hl.header (hn _ _ _ hl.le_start)
    | .visit hl' _ h' =>
      cases hl.unique hl'
      rw [hi h']

theorem le_start (h : Search text pos vs) (hv : visit ∈ vs) : pos ≤ visit.start := by
  induction h
  case done            => cases hv
  case visit hl hlt _ hi =>
    cases List.mem_cons.mp hv
    case inl hv => exact hv ▸ hl.le_start
    case inr hv => exact Nat.le_of_lt (Nat.lt_of_lt_of_le hlt (hi hv))

theorem pairwise (h : Search text pos vs) : vs.Pairwise (·.stop ≤ ·.start) := by
  induction h
  case done          => exact .nil
  case visit _ _ h hi => exact .cons (fun _ hv => h.le_start hv) hi

theorem stands (h : Search text pos vs) :
    List.Forall₂ (StandsAt text) (vs.filterMap (·.statement? text)) (vs.filterMap (·.span?)) := by
  induction h
  case done => exact .nil
  case visit hl _ _ hi =>
    rcases hl.stands with ⟨hs, hp⟩ | ⟨statement, span, hs, hp, hat⟩
    · rwa [List.filterMap_cons_none hs, List.filterMap_cons_none hp]
    · rw [List.filterMap_cons_some hs, List.filterMap_cons_some hp]
      exact .cons hat hi

theorem meets (h : Search text pos vs) (hq : pos ≤ q) (hh : HeaderAt text q o name) :
    ∃ visit ∈ vs, visit = ⟨name, q, o, (matchParens text).lookup o⟩ ∨ visit.PassesOver q := by
  induction h
  case done hn => exact absurd hh (hn q o name hq)
  case visit pos v vs hl _ _ hi =>
    rcases Nat.lt_trichotomy q v.start with hs | rfl | hs
    · exact absurd hh (hl.no_earlier q o name hq hs)
    · obtain ⟨rfl, rfl⟩ := hh.unique hl.header
      exact ⟨v, List.mem_cons_self, .inl (by rw [←hl.closing_eq])⟩
    · by_cases hstop : q < v.stop
      case pos => exact ⟨v, List.mem_cons_self, .inr (hl.passesOver hs hstop hh)⟩
      case neg =>
        have ⟨v', hm, hv'⟩ := hi (Nat.le_of_not_lt hstop)
        exact ⟨v', List.mem_cons_of_mem v hm, hv'⟩

end Search

-- A scan that leaves out the next `skip` characters is a search from behind them.
theorem search_visitsFrom (seen cs : List Char) (skip : Nat) :
    Search (seen ++ cs) (seen.length + skip)
      (visitsFrom (seen ++ cs) skip (behind none seen) seen.length cs) := by
  induction cs generalizing seen skip
  case nil =>
    refine .done fun q o name hq hh => ?_
    have := hh.lt_length
    simp at this
    omega
  case cons ch cs hi =>
    have hi (skip : Nat) := hi (seen ++ [ch]) skip
    rw [List.append_assoc, List.singleton_append, behind_append, List.length_append] at hi
    cases skip
    case succ skip =>
      have hp : seen.length + (skip + 1) = seen.length + 1 + skip := by omega
      exact hp ▸ hi skip
    case zero =>
      cases hm : header.match? ⟨behind none seen, ch :: cs, seen.length⟩
      case none =>
        rw [visitsFrom_none hm]
        exact Search.of_succ (fun o name => HeaderAt.not_of_match? hm) (hi 0)
      case some s =>
        have hh := HeaderAt.of_match? hm
        have hl : Leftmost (seen ++ ch :: cs) seen.length
            (visitOf (seen ++ ch :: cs) seen.length s) :=
          ⟨Nat.le_refl _, hh, fun q o name hq hs => absurd hs (Nat.not_lt_of_le hq), rfl⟩
        obtain ⟨k, hk⟩ := Nat.exists_eq_add_of_lt hl.lt_stop
        have hskip : (visitOf (seen ++ ch :: cs) seen.length s).stop - seen.length - 1 =
            k := by omega
        have hstop : seen.length + 1 + k = (visitOf (seen ++ ch :: cs) seen.length s).stop := by
          omega
        rw [visitsFrom_some hm, hskip]
        exact .visit hl hl.lt_stop (hstop ▸ hi k)

theorem search_visits (text : List Char) : Search text 0 (visits text) :=
  search_visitsFrom [] text 0

theorem stop_of_span?_eq_some (h : visit.span? = some span) :
    visit.start = span.start ∧ visit.stop = span.closing + 1 := by
  rw [Visit.span?] at h
  split at h
  case h_1            => cases h
  case h_2 closing hc =>
    split at h
    case isTrue  => cases h
    case isFalse =>
      cases h
      exact ⟨rfl, by rw [Visit.stop, hc]; rfl⟩

structure Extraction (text : List Char) : Prop where
  search : Search text 0 (visits text)
  visits_eq : ∀ vs, Search text 0 vs → vs = visits text
  stands : List.Forall₂ (StandsAt text) (extract text) (spans text)
  apart  : (spans text).Pairwise (·.closing < ·.start)
  nothing_missed : ∀ start opening closing name, HeaderAt text start opening name →
    (matchParens text).lookup opening = some closing → name ≠ "" →
      ⟨start, opening, closing⟩ ∈ spans text ∨ ∃ visit ∈ visits text, visit.PassesOver start

theorem extraction_extract (text : List Char) : Extraction text := by
  have h := search_visits text
  refine ⟨h, fun vs hvs => hvs.unique h, h.stands, ?apart, ?nothing_missed⟩
  case apart =>
    refine h.pairwise.filterMap _ fun visit visit' hle span hs span' hs' => ?_
    have ⟨_, hstop⟩ := stop_of_span?_eq_some hs
    have ⟨hstart, _⟩ := stop_of_span?_eq_some hs'
    omega
  case nothing_missed =>
    intro start opening closing name hh hc hn
    obtain ⟨visit, hm, rfl | hp⟩ := h.meets (Nat.zero_le start) hh
    case inl =>
      refine .inl (List.mem_filterMap.mpr ⟨_, hm, ?_⟩)
      rw [Visit.span?, hc]
      simp [hn]
    case inr => exact .inr ⟨visit, hm, hp⟩

end Statement
end SchemaGraph
