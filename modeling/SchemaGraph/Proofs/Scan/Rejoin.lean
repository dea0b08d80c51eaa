import Mathlib.Data.List.Sort
import SchemaGraph.Proofs.Scan.Join

-- Splitting a text and joining its parts again.
namespace SchemaGraph.Scan

-- How many parentheses are open after a text, when closing ones too many are passed over.
def endDepth (text : List Char) : Nat :=
  (shown .outside text).foldl depthAfter 0

structure Settled (text : List Char) : Prop where
  isOutside : (Mode.outside.after text).isOutside
  depth_eq  : endDepth text = 0

structure Separates (d : Char) (text : List Char) (p : Nat) : Prop where
  mem_exposed : (p, d) ∈ exposed text
  depth_eq    : endDepth (text.take p) = 0

instance (d : Char) (text : List Char) (p : Nat) : Decidable (Separates d text p) :=
  decidable_of_iff ((p, d) ∈ exposed text ∧ endDepth (text.take p) = 0)
    ⟨fun ⟨hm, hd⟩ => ⟨hm, hd⟩, fun ⟨hm, hd⟩ => ⟨hm, hd⟩⟩

-- A text as its parts: each but the last is ended by a separator, and the last is not empty.
inductive Parted (d : Char) : List Char → List (List Char) → Prop
  | nil : Parted d [] []
  | whole {text} : text ≠ [] → cutsFrom (· == d) 0 (exposed text) = [] → Parted d text [text]
  | cons {part text parts} : Closed (· == d) part → Parted d text parts →
      Parted d (part ++ d :: text) (part :: parts)

variable {text part rest u v : List Char} {parts : List (List Char)} {d c : Char} {p : Nat}
variable {m : Mode}
variable {separates : Char → Bool}

theorem Mode.isOutside_of_exposes (h : m.exposes c) : m.isOutside := by
  cases m <;> simp_all [Mode.exposes, Mode.isOutside]

theorem cutsFrom_append_cons (h : (Mode.outside.after u).exposes c) :
    cutsFrom separates 0 (exposed (u ++ c :: v)) = cutsFrom separates 0 (exposed u) ++
      ((if isCut separates (endDepth u) c then [u.length] else []) ++
        cutsFrom separates (depthAfter (endDepth u) c)
          (exposedFrom .outside (u.length + 1) v)) := by
  have hd : (chars (exposedFrom .outside 0 u)).foldl depthAfter 0 = endDepth u := rfl
  rw [exposed_eq, exposedFrom_append_cons h, cutsFrom_append, hd, Nat.zero_add, exposed_eq]
  rfl

theorem mem_cutsFrom_append_cons (h : (Mode.outside.after u).exposes c) :
    u.length ∈ cutsFrom separates 0 (exposed (u ++ c :: v)) ↔ isCut separates (endDepth u) c := by
  have hu : u.length ∉ cutsFrom separates 0 (exposed u) := fun hm => by
    have ⟨_, hm⟩ := mem_of_mem_cutsFrom hm
    have := lt_of_mem_exposedFrom (exposed_eq u ▸ hm)
    omega
  have hv (depth : Nat) : u.length ∉ cutsFrom separates depth
      (exposedFrom .outside (u.length + 1) v) :=
    fun hm => by
      have ⟨_, hm⟩ := mem_of_mem_cutsFrom hm
      have := le_of_mem_exposedFrom hm
      omega
  rw [cutsFrom_append_cons h]
  by_cases hc : isCut separates (endDepth u) c <;> simp [hu, hv, hc]

section

variable (ho : d ≠ '(') (hc : d ≠ ')')
include ho hc

theorem isCut_iff : isCut (· == d) p c ↔ c = d ∧ p = 0 := by
  by_cases h : c = d
  case pos => subst h; simp [isCut, ho, hc]
  case neg => simp [isCut, h]

theorem mem_cutsFrom_iff : p ∈ cutsFrom (· == d) 0 (exposed text) ↔ Separates d text p := by
  have key {c : Char} (hm : (p, c) ∈ exposed text) :
      p ∈ cutsFrom (· == d) 0 (exposed text) ↔ c = d ∧ endDepth (text.take p) = 0 := by
    have ⟨u, v, ht, hp, hx⟩ := exists_of_mem_exposedFrom (exposed_eq text ▸ hm)
    rw [Nat.zero_add] at hp
    rw [ht, hp, mem_cutsFrom_append_cons hx, isCut_iff ho hc, List.take_left]
  constructor
  case mp =>
    intro h
    have ⟨c, hm⟩ := mem_of_mem_cutsFrom h
    have ⟨he, hd⟩ := (key hm).mp h
    exact ⟨he ▸ hm, hd⟩
  case mpr => exact fun ⟨hm, hd⟩ => (key hm).mpr ⟨rfl, hd⟩

theorem Closed.cutsFrom_cons (h : Closed (· == d) part) (hq : Mode.opens d = false) :
    cutsFrom (· == d) 0 (exposed (part ++ d :: text)) =
      part.length :: (cutsFrom (· == d) 0 (exposed text)).map (· + (part.length + 1)) := by
  have hx := Mode.exposes_of_isOutside (Mode.after_outside_valid part) h.isOutside hq
  have hcut : isCut (· == d) (endDepth part) d := (isCut_iff ho hc).mpr ⟨rfl, h.depth_eq⟩
  have hd : endDepth part = 0 := h.depth_eq
  rw [cutsFrom_append_cons hx, h.no_cut, if_pos hcut, depthAfter_of_isCut hcut, hd,
    ←map_moved_exposed, cutsFrom_moved]
  rfl

theorem Closed.separates_append_iff (h : Closed (· == d) part) (hq : Mode.opens d = false) :
    Separates d (part ++ d :: text) (p + (part.length + 1)) ↔ Separates d text p := by
  have hne : p + (part.length + 1) ≠ part.length := by omega
  rw [←mem_cutsFrom_iff ho hc, ←mem_cutsFrom_iff ho hc, h.cutsFrom_cons ho hc hq]
  simp [hne]

theorem exists_closed_of_cutsFrom_ne_nil (h : cutsFrom (· == d) 0 (exposed text) ≠ []) :
    ∃ part rest, text = part ++ d :: rest ∧ Closed (· == d) part := by
  obtain ⟨p, cuts, he⟩ := List.exists_cons_of_ne_nil h
  obtain ⟨c, hm⟩ := mem_of_mem_cutsFrom (he ▸ List.mem_cons_self)
  obtain ⟨part, rest, rfl, hp, hx⟩ := exists_of_mem_exposedFrom (exposed_eq text ▸ hm)
  rw [Nat.zero_add] at hp
  subst hp
  obtain ⟨rfl, hd⟩ := (isCut_iff ho hc).mp <| (mem_cutsFrom_append_cons hx).mp <|
    he ▸ List.mem_cons_self
  refine ⟨part, rest, rfl, Mode.isOutside_of_exposes hx, ?no_cut, hd⟩
  case no_cut =>
    by_contra hn
    obtain ⟨q, qs, hq⟩ := List.exists_cons_of_ne_nil hn
    have ⟨_, hm⟩ := mem_of_mem_cutsFrom (hq ▸ List.mem_cons_self)
    have hlt := lt_of_mem_exposedFrom (exposed_eq part ▸ hm)
    rw [cutsFrom_append_cons hx, hq] at he
    have := (List.cons.inj he).left
    omega

theorem parted_split (hq : Mode.opens d = false) (text : List Char) :
    Parted d text (split (· == d) text) := by
  -- On the length: what comes behind the first part is shorter, but not the tail of the text.
  induction hl : text.length using Nat.strongRecOn generalizing text
  case ind n hi =>
    by_cases hn : text = []
    case pos => exact hn ▸ .nil
    by_cases hcut : cutsFrom (· == d) 0 (exposed text) = []
    case pos => exact (split_eq_self_iff hn).mpr hcut ▸ .whole hn hcut
    case neg =>
      obtain ⟨part, rest, rfl, hp⟩ := exists_closed_of_cutsFrom_ne_nil ho hc hcut
      rw [hp.split_cons hq ho hc (by simp)]
      exact .cons hp (hi rest.length (by simp at hl; omega) rest rfl)

end

namespace Parted

theorem eq_nil_iff (h : Parted d text parts) : parts = [] ↔ text = [] := by
  cases h
  case nil        => simp
  case whole hn _ => simp [hn]
  case cons       => simp

theorem intercalate_eq (ho : d ≠ '(') (hc : d ≠ ')') (hq : Mode.opens d = false)
    (h : Parted d text parts) :
    [d].intercalate parts = if Separates d text (text.length - 1) then text.dropLast else text := by
  induction h
  case nil => rfl
  case whole text hn hcut =>
    have hs : ¬ Separates d text (text.length - 1) := by simp [←mem_cutsFrom_iff ho hc, hcut]
    rw [if_neg hs, List.intercalate_singleton]
  case cons part text parts hp h hi =>
    by_cases ht : text = []
    case pos =>
      have hs : Separates d (part ++ [d]) part.length := by
        rw [←mem_cutsFrom_iff ho hc, hp.cutsFrom_cons ho hc hq]
        exact List.mem_cons_self
      simp [ht, h.eq_nil_iff.mpr ht, hs]
    case neg =>
      -- The last character is that of what comes behind the first separator.
      obtain ⟨next, later, rfl⟩ := List.exists_cons_of_ne_nil (mt h.eq_nil_iff.mp ht)
      have hl : (part ++ d :: text).length - 1 = text.length - 1 + (part.length + 1) := by
        have := List.length_pos_iff.mpr ht
        simp
        omega
      have hd : (part ++ d :: text).dropLast = part ++ d :: text.dropLast := by
        rw [List.dropLast_append_of_ne_nil (by simp), List.dropLast_cons_of_ne_nil ht]
      have hs : Separates d (part ++ d :: text) (text.length - 1 + (part.length + 1)) ↔ _ :=
        hp.separates_append_iff ho hc hq
      simp only [List.intercalate_cons_cons, hi, hl, hs, hd, List.append_assoc,
        List.singleton_append]
      split <;> rfl

theorem settled (h : Parted d text parts) : ∀ part ∈ parts.dropLast, Settled part := by
  induction h
  case nil   => simp
  case whole => simp
  case cons part text parts hp h hi =>
    intro other hm
    cases parts
    case nil  => simp at hm
    case cons =>
      cases List.mem_cons.mp hm
      case inl he => exact he ▸ ⟨hp.isOutside, hp.depth_eq⟩
      case inr hm => exact hi other hm

theorem no_cut (h : Parted d text parts) :
    ∀ part ∈ parts, cutsFrom (· == d) 0 (exposed part) = [] := by
  induction h
  case nil               => simp
  case whole hcut        => simpa using hcut
  case cons hp _ hi      => exact List.forall_mem_cons.mpr ⟨hp.no_cut, hi⟩

end Parted

structure SplitsAt (d : Char) (text : List Char) : Prop where
  join_eq : [d].intercalate (split (· == d) text) =
    if Separates d text (text.length - 1) then text.dropLast else text
  -- The cuts are the separators outside literals and parentheses.
  split_eq : split (· == d) text =
    slices text text.length 0 ((List.range text.length).filter fun p => Separates d text p)
  settled : ∀ part ∈ (split (· == d) text).dropLast, Settled part
  split_part : ∀ part ∈ split (· == d) text, part ≠ [] → split (· == d) part = [part]

theorem pairwise_cutsFrom (separates : Char → Bool) (depth : Nat) {xs : Found}
    (h : xs.Pairwise (·.1 < ·.1)) :
    (cutsFrom separates depth xs).Pairwise (· < ·) := by
  induction h generalizing depth
  case nil               => exact .nil
  case cons x xs hx _ hi =>
    obtain ⟨p, c⟩ := x
    rw [cutsFrom]
    split
    case isFalse => exact hi _
    case isTrue  =>
      refine .cons (fun cut hm => ?_) (hi _)
      obtain ⟨ch, hm⟩ := mem_of_mem_cutsFrom hm
      exact hx _ hm

theorem cutsFrom_eq_filter (ho : d ≠ '(') (hc : d ≠ ')') (text : List Char) :
    cutsFrom (· == d) 0 (exposed text) =
      (List.range text.length).filter fun p => Separates d text p := by
  refine (pairwise_cutsFrom _ _ (pairwise_exposed text)).eq_of_mem_iff
    (List.pairwise_lt_range.filter _) fun p => ?_
  rw [mem_cutsFrom_iff ho hc, List.mem_filter, List.mem_range, decide_eq_true_iff]
  refine ⟨fun h => ⟨?_, h⟩, (·.right)⟩
  have := lt_of_mem_exposedFrom (exposed_eq text ▸ h.mem_exposed)
  omega

theorem closed_iff (ho : d ≠ '(') (hc : d ≠ ')') :
    Closed (· == d) part ↔ Settled part ∧ ∀ p, ¬ Separates d part p where
  mp h := ⟨⟨h.isOutside, h.depth_eq⟩, fun p hs => by
    rw [←mem_cutsFrom_iff ho hc, h.no_cut] at hs
    cases hs⟩
  mpr := fun ⟨⟨hm, hd⟩, hs⟩ => ⟨hm, List.eq_nil_iff_forall_not_mem.mpr fun p =>
    mt (mem_cutsFrom_iff ho hc).mp (hs p), hd⟩

theorem split_and_join (h : d ∉ ['(', ')', '\'', '"']) :
    (∀ text, SplitsAt d text) ∧
      ∀ parts : List (List Char), (∀ part ∈ parts, Settled part ∧ ∀ p, ¬ Separates d part p) →
        parts.getLast? ≠ some [] → split (· == d) ([d].intercalate parts) = parts := by
  simp only [List.mem_cons, List.not_mem_nil, or_false, not_or] at h
  have ⟨ho, hc, hs, hd⟩ := h
  have hq : Mode.opens d = false := by simp [Mode.opens, hs, hd]
  constructor
  case left =>
    intro text
    have hp := parted_split ho hc hq text
    exact {
      join_eq    := hp.intercalate_eq ho hc hq
      split_eq   := cutsFrom_eq_filter ho hc text ▸ split_eq_slices _ text
      settled    := hp.settled
      split_part := fun part hm hn => (split_eq_self_iff hn).mpr (hp.no_cut part hm) }
  case right =>
    intro parts hparts hl
    exact split_intercalate hq ho hc (by simp)
      (fun part hm => (closed_iff ho hc).mpr (hparts part hm)) hl

theorem split_and_join_stray :
    ';' ∉ ['(', ')', '\'', '"'] ∧ SplitsAt ';' "a;(b;c);;')' d;".toList ∧
      split (· == ';') "f(x;y);;) ';' ;z".toList =
        ["f(x;y)".toList, [], ") ';' ".toList, "z".toList] := by
  have hd : ';' ∉ ['(', ')', '\'', '"'] := by decide
  have hparts : ∀ part ∈ ["f(x;y)".toList, [], ") ';' ".toList, "z".toList],
      Closed (· == ';') part := by
    decide
  have ⟨hsplits, hjoin⟩ := split_and_join hd
  exact ⟨hd, hsplits _,
    hjoin _ (fun part hm => (closed_iff (by decide) (by decide)).mp (hparts part hm))
    (by decide)⟩

end SchemaGraph.Scan
