import Mathlib.Data.List.Forall2
import SchemaGraph.Proofs.Pattern.Takes

namespace SchemaGraph.Pattern

variable {γ : Type}

-- A pattern that looks no further than one character past what it takes.
def isNear : Pattern γ → Bool
  | seq a b    => a.isNear && b.isNear
  | alt a b    => a.isNear && b.isNear
  | repeated a => a.isNear
  | group _ a  => a.isNear
  | notAhead _ => false
  | _          => true

structure Alike (x y : List Char) : Prop where
  head?_eq    : x.head? = y.head?
  newline_iff : x = ['\n'] ↔ y = ['\n']

-- A place in front of `x` and one in front of `y`, with the same text between. Their positions are
-- counted from `k` and from `l`.
structure TwinPlaces (x y : List Char) (k l : Nat) (c d : Cursor) : Prop where
  before_eq : c.before = d.before
  rest_eq   : ∃ u, c.rest = u ++ x ∧ d.rest = u ++ y
  pos_eq    : c.pos + l = d.pos + k

structure Twin (x y : List Char) (k l : Nat) (s t : Progress γ) : Prop extends
    TwinPlaces x y k l s.toCursor t.toCursor where
  texts_eq : s.texts = t.texts

def isUpTo (x : List Char) (c : Cursor) : Bool :=
  x.length ≤ c.rest.length

def upTo (x : List Char) (ss : List (Progress γ)) : List (Progress γ) :=
  ss.filter fun s => isUpTo x s.toCursor

variable {a b : Pattern γ} {p : Char → Bool} {x y u w : List Char} {k l n : Nat} {s t : Progress γ}
variable {before : Option Char} {pos pos' : Nat} {c d : Cursor}

namespace Alike

theorem refl (x : List Char) : Alike x x :=
  ⟨rfl, Iff.rfl⟩

theorem nil_iff (h : Alike x y) : x = [] ↔ y = [] := by
  rw [←List.head?_eq_none_iff, h.head?_eq, List.head?_eq_none_iff]

theorem append (h : Alike x y) (u : List Char) : Alike (u ++ x) (u ++ y) := by
  cases u
  case nil       => exact h
  case cons c cs => exact ⟨rfl, by simp [h.nil_iff]⟩

end Alike

theorem upTo_append (ss ts : List (Progress γ)) : upTo x (ss ++ ts) = upTo x ss ++ upTo x ts :=
  List.filter_append ..

theorem isUpTo_of_reaches (h : c.Reaches d w) (hd : isUpTo x d) : isUpTo x c := by
  simp [isUpTo, h.rest_eq] at hd ⊢
  omega

theorem isUpTo_of_mem (h : t ∈ a.ways s) (ht : isUpTo x t.toCursor) : isUpTo x s.toCursor :=
  have ⟨_, hw, _⟩ := a.exact.sound h
  isUpTo_of_reaches hw ht

theorem upTo_flatMap {f : Progress γ → List (Progress γ)}
    (h : ∀ s, ∀ t ∈ f s, isUpTo x t.toCursor → isUpTo x s.toCursor) (ss : List (Progress γ)) :
    upTo x (ss.flatMap f) = (upTo x ss).flatMap fun s => upTo x (f s) := by
  induction ss
  case nil          => rfl
  case cons s ss hi =>
    rw [List.flatMap_cons, upTo_append, hi]
    by_cases hs : isUpTo x s.toCursor
    case pos => simp [upTo, hs]
    case neg =>
      have hn : upTo x (f s) = [] := List.filter_eq_nil_iff.mpr fun t ht hu => hs (h s t ht hu)
      rw [hn, List.nil_append]
      simp [upTo, hs]

namespace TwinPlaces

theorem isUpTo_left (h : TwinPlaces x y k l c d) : isUpTo x c := by
  have ⟨u, hc, _⟩ := h.rest_eq
  simp [isUpTo, hc]

theorem isUpTo_right (h : TwinPlaces x y k l c d) : isUpTo y d := by
  have ⟨u, _, hd⟩ := h.rest_eq
  simp [isUpTo, hd]

theorem length_rest_stops (h : c ∈ Cursor.stops p before pos w) : c.rest.length ≤ w.length := by
  have ⟨v, _, hr⟩ := Cursor.mem_stops_iff.mp h
  have hr := congrArg List.length hr.rest_eq
  simp at hr
  omega

theorem stops (hp : pos + l = pos' + k) (u : List Char) :
    List.Forall₂ (TwinPlaces x y k l) ((Cursor.stops p before pos (u ++ x)).filter (isUpTo x))
      ((Cursor.stops p before pos' (u ++ y)).filter (isUpTo y)) := by
  have here (c d) (hc : c = ⟨before, u ++ x, pos⟩) (hd : d = ⟨before, u ++ y, pos'⟩) :
      TwinPlaces x y k l c d :=
    hc ▸ hd ▸ ⟨rfl, ⟨u, rfl, rfl⟩, hp⟩
  induction u generalizing before pos pos'
  case nil =>
    have only (x pos) : (Cursor.stops p before pos x).filter (isUpTo x) = [⟨before, x, pos⟩] := by
      cases x
      case nil       => rfl
      case cons c cs =>
        rw [Cursor.stops, List.filter_cons_of_pos (by simp [isUpTo])]
        refine congrArg _ (List.filter_eq_nil_iff.mpr fun d hd => ?_)
        split at hd
        case isFalse => cases hd
        case isTrue  =>
          have := length_rest_stops hd
          simp [isUpTo]
          omega
    rw [List.nil_append, List.nil_append, only, only]
    exact .cons (here _ _ rfl rfl) .nil
  case cons c u hi =>
    rw [List.cons_append, List.cons_append, Cursor.stops, Cursor.stops,
      List.filter_cons_of_pos (by simp [isUpTo]; omega),
      List.filter_cons_of_pos (by simp [isUpTo]; omega)]
    refine .cons (here _ _ rfl rfl) ?_
    split
    case isFalse => exact .nil
    case isTrue  => exact hi (by omega) fun _ _ hc hd =>
      hc ▸ hd ▸ ⟨rfl, ⟨u, rfl, rfl⟩, by simp; omega⟩

theorem atWordEdge (hx : Alike x y) (h : TwinPlaces x y k l c d) : c.atWordEdge = d.atWordEdge := by
  have ⟨u, hc, hd⟩ := h.rest_eq
  rw [Cursor.atWordEdge, Cursor.atWordEdge, h.before_eq, hc, hd, (hx.append u).head?_eq]

theorem atTextEnd (hx : Alike x y) (h : TwinPlaces x y k l c d) : c.atTextEnd = d.atTextEnd := by
  have ⟨u, hc, hd⟩ := h.rest_eq
  have hu := hx.append u
  rw [Cursor.atTextEnd, Cursor.atTextEnd, hc, hd, Bool.eq_iff_iff]
  simp only [Bool.or_eq_true, List.isEmpty_iff, beq_iff_eq, hu.nil_iff, hu.newline_iff]

end TwinPlaces

namespace Twin

theorem singleton (h : Twin x y k l s t) :
    List.Forall₂ (Twin x y k l) (upTo x [s]) (upTo y [t]) := by
  simp [upTo, h.isUpTo_left, h.isUpTo_right, h]

theorem test (h : Twin x y k l s t) {i j : Bool} (hij : i = j) :
    List.Forall₂ (Twin x y k l) (upTo x (if i then [s] else []))
      (upTo y (if j then [t] else [])) := by
  subst hij
  cases i
  case false => exact .nil
  case true  => exact h.singleton

theorem flatMap {f g : Progress γ → List (Progress γ)} {ss ts : List (Progress γ)}
    (h : List.Forall₂ (Twin x y k l) (upTo x ss) (upTo y ts))
    (hfg : ∀ s t, Twin x y k l s t → List.Forall₂ (Twin x y k l) (upTo x (f s)) (upTo y (g t)))
    (hf : ∀ s, ∀ t ∈ f s, isUpTo x t.toCursor → isUpTo x s.toCursor)
    (hg : ∀ s, ∀ t ∈ g s, isUpTo y t.toCursor → isUpTo y s.toCursor) :
    List.Forall₂ (Twin x y k l) (upTo x (ss.flatMap f)) (upTo y (ts.flatMap g)) := by
  rw [upTo_flatMap hf, upTo_flatMap hg]
  exact List.rel_flatMap h fun s t hst => hfg s t hst

theorem keep (h : Twin x y k l s t) {s' t' : Progress γ} (h' : Twin x y k l s' t')
    (hw : s.Reaches s'.toCursor w) (label : γ) :
    Twin x y k l (s'.keep label s.toCursor) (t'.keep label t.toCursor) := by
  obtain ⟨u, hs, ht⟩ := h.rest_eq
  obtain ⟨v, hs', _⟩ := h'.rest_eq
  have hu : u = w ++ v := by
    have hr := hw.rest_eq
    rw [hs, hs', ←List.append_assoc] at hr
    exact List.append_cancel_right hr
  have hl : t'.pos - t.pos = w.length := by
    have := h.pos_eq
    have := h'.pos_eq
    have := hw.pos_eq
    omega
  have ht : t.textTo t'.toCursor = w := by
    rw [Cursor.textTo, ht, hl, hu, List.append_assoc, List.take_left]
  refine ⟨h'.toTwinPlaces, ?_⟩
  show (label, s.textTo s'.toCursor) :: s'.texts = (label, t.textTo t'.toCursor) :: t'.texts
  rw [hw.textTo_eq, ht, h'.texts_eq]

theorem rounds
    (ha : ∀ {s t}, Twin x y k l s t →
      List.Forall₂ (Twin x y k l) (upTo x (a.ways s)) (upTo y (a.ways t)))
    (h : Twin x y k l s t) (n : Nat) :
    List.Forall₂ (Twin x y k l) (upTo x (Pattern.rounds a.ways n s))
      (upTo y (Pattern.rounds a.ways n t)) := by
  have up {x} {n} {r s t : Progress γ}
      (hr : r ∈ if s.pos < t.pos then Pattern.rounds a.ways n t else [])
      (hx : isUpTo x r.toCursor) : isUpTo x t.toCursor := by
    split at hr
    case isFalse => cases hr
    case isTrue  =>
      have ⟨_, hw, _⟩ := a.exact.rounds_sound hr
      exact isUpTo_of_reaches hw hx
  induction n generalizing s t
  case zero      => exact h.singleton
  case succ n hi =>
    rw [Pattern.rounds, Pattern.rounds, upTo_append, upTo_append]
    refine List.rel_append
      (flatMap (ha h) (fun s' t' h' => ?_) (fun _ _ => up) fun _ _ => up) h.singleton
    have hp : s.pos < s'.pos ↔ t.pos < t'.pos := by
      have := h.pos_eq
      have := h'.pos_eq
      omega
    by_cases hs : s.pos < s'.pos
    case pos =>
      rw [if_pos hs, if_pos (hp.mp hs)]
      exact hi h'
    case neg =>
      rw [if_neg hs, if_neg (mt hp.mpr hs)]
      exact .nil

-- From such places a pattern can come to such places in the same ways, in the same order.
theorem ways (hx : Alike x y) (ha : a.isNear) (h : Twin x y k l s t) :
    List.Forall₂ (Twin x y k l) (upTo x (a.ways s)) (upTo y (a.ways t)) := by
  induction a generalizing s t
  case empty => exact h.singleton
  case char p =>
    obtain ⟨u, hs, ht⟩ := h.rest_eq
    cases u
    case nil =>
      have none {x} {s : Progress γ} (hs : s.rest = x) : upTo x ((Pattern.char p).ways s) = [] := by
        refine List.filter_eq_nil_iff.mpr fun t ht hu => ?_
        obtain ⟨w, hw, c, hc, _⟩ := (Pattern.char p).exact.sound ht
        have hl := congrArg List.length hw.rest_eq
        simp [hs, hc] at hl
        simp [isUpTo] at hu
        omega
      rw [none (by simpa using hs), none (by simpa using ht)]
      exact .nil
    case cons c u =>
      have hst : Twin x y k l (s.moveTo ⟨some c, u ++ x, s.pos + 1⟩)
          (t.moveTo ⟨some c, u ++ y, t.pos + 1⟩) :=
        ⟨⟨rfl, ⟨u, rfl, rfl⟩, by have := h.pos_eq; simp [Progress.moveTo]; omega⟩, h.texts_eq⟩
      rw [Pattern.ways, Pattern.ways, hs, ht]
      exact hst.test rfl
  case run p =>
    obtain ⟨u, hs, ht⟩ := h.rest_eq
    have upTo_runs {x} (s : Progress γ) : upTo x ((Pattern.run p).ways s) =
        (((Cursor.stops p s.before s.pos s.rest).filter (isUpTo x)).reverse).map s.moveTo := by
      rw [Pattern.ways, Cursor.runs_eq, upTo, List.filter_map, List.filter_reverse]
      rfl
    rw [upTo_runs, upTo_runs, hs, ht, ←h.before_eq]
    refine List.forall₂_map_left_iff.mpr (List.forall₂_map_right_iff.mpr ?_)
    refine (List.forall₂_reverse_iff.mpr (TwinPlaces.stops h.pos_eq u)).imp fun c d hcd => ?_
    exact ⟨hcd, h.texts_eq⟩
  case seq a b hi hi' =>
    obtain ⟨ha, hb⟩ : _ ∧ _ := Bool.and_eq_true _ _ ▸ ha
    exact flatMap (hi ha h) (fun s t hst => hi' hb hst) (fun _ _ => isUpTo_of_mem) fun _ _ =>
      isUpTo_of_mem
  case alt a b hi hi' =>
    obtain ⟨ha, hb⟩ : _ ∧ _ := Bool.and_eq_true _ _ ▸ ha
    rw [Pattern.ways, Pattern.ways, upTo_append, upTo_append]
    exact List.rel_append (hi ha h) (hi' hb h)
  case repeated a hi =>
    have hn := Nat.le_max_left s.rest.length t.rest.length
    have hm := Nat.le_max_right s.rest.length t.rest.length
    rw [Pattern.ways, Pattern.ways, rounds_eq a (Nat.le_refl _) hn, rounds_eq a (Nat.le_refl _) hm]
    exact h.rounds (hi ha) _
  case group label a hi =>
    have hmem : ∀ s' ∈ upTo x (a.ways s), ∃ w, s.Reaches s'.toCursor w := by
      intro s' hs'
      obtain ⟨w, hw, _⟩ := a.exact.sound (List.mem_filter.mp hs').left
      exact ⟨w, hw⟩
    have upTo_keep {x} {s : Progress γ} (ss) :
        upTo x (List.map (·.keep label s.toCursor) ss) =
          (upTo x ss).map (·.keep label s.toCursor) := by
      rw [upTo, List.filter_map]
      rfl
    rw [Pattern.ways, Pattern.ways, upTo_keep, upTo_keep]
    refine List.forall₂_map_left_iff.mpr (List.forall₂_map_right_iff.mpr ?_)
    refine ((List.forall₂_and_left _ _).mpr ⟨hmem, hi ha h⟩).imp ?_
    rintro s' t' ⟨⟨w, hw⟩, hst⟩
    exact h.keep hst hw label
  case wordEdge => exact h.test (h.atWordEdge hx)
  case textEnd => exact h.test (h.atTextEnd hx)
  case notAhead => cases ha

end Twin

theorem reaches_of_match? (h : a.match? c = some s) : ∃ w, c.Reaches s.toCursor w := by
  rw [match?_eq_head?] at h
  have ⟨w, hw, _⟩ := a.exact.sound (List.mem_of_mem_head? h)
  exact ⟨w, hw⟩

theorem isUpTo_match? (hc : c.rest = u ++ x) (h : a.match? c = some s) :
    isUpTo x s.toCursor ↔ s.pos ≤ c.pos + u.length := by
  have ⟨w, hw⟩ := reaches_of_match? h
  have hl := congrArg List.length (hc.symm.trans hw.rest_eq)
  have := hw.pos_eq
  simp at hl
  simp [isUpTo]
  omega

namespace TwinPlaces

theorem match? (hx : Alike x y) (ha : a.isNear) (h : TwinPlaces x y k l c d)
    (hc : ∀ s ∈ a.match? c, isUpTo x s.toCursor) (hd : ∀ t ∈ a.match? d, isUpTo y t.toCursor) :
    Option.Rel (Twin x y k l) (a.match? c) (a.match? d) := by
  have hst : Twin x y k l (.ofCursor c : Progress γ) (.ofCursor d) := ⟨h, rfl⟩
  have head_upTo {x} {ss : List (Progress γ)} (hs : ∀ s ∈ ss.head?, isUpTo x s.toCursor) :
      ss.head? = (upTo x ss).head? := by
    cases ss
    case nil       => rfl
    case cons s ss => simp [upTo, hs s rfl]
  rw [match?_eq_head?] at hc hd ⊢
  rw [match?_eq_head?, head_upTo hc, head_upTo hd]
  have hways := hst.ways hx ha
  generalize upTo x (a.ways (.ofCursor c)) = ss, upTo y (a.ways (.ofCursor d)) = ts at hways
  cases hways
  case nil    => exact .none
  case cons hs _ => exact .some hs

end TwinPlaces
end SchemaGraph.Pattern
