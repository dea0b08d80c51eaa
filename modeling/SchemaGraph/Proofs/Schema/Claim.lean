import Mathlib.Data.Finset.Card
import SchemaGraph.Proofs.Schema.Ids

-- That the search for a new id ends.
namespace SchemaGraph

namespace Link

-- What there is before each round of the search: the id that is tried, and the number that the next
-- one gets.
structure Trial where
  id     : String
  number : Nat

namespace Trial

def first (base : String) : Trial where
  id     := base
  number := 2

def next (base : String) (trial : Trial) : Trial where
  id     := numbered base trial.number
  number := trial.number + 1

inductive Search (used : List String) (base : String) : Trial → (rounds : Nat) → Trial → Prop
  | stop {trial} : trial.id ∉ used → Search used base trial 0 trial
  | round {trial rounds last} : trial.id ∈ used → Search used base (trial.next base) rounds last →
      Search used base trial (rounds + 1) last

def ofVariant (base : String) (n : Nat) : Trial where
  id     := variant base n
  number := n + 2

theorem next_ofVariant (base : String) (n : Nat) :
    (ofVariant base n).next base = ofVariant base (n + 1) :=
  Trial.mk.injEq .. ▸ ⟨(variant_succ base n).symm, rfl⟩

variable {used : List String} {base : String} {trial last last' : Trial} {rounds rounds' n : Nat}

namespace Search

theorem unique (h : Search used base trial rounds last)
    (h' : Search used base trial rounds' last') :
    rounds = rounds' ∧ last = last' := by
  induction h generalizing rounds'
  case stop hn =>
    cases h'
    case stop       => exact ⟨rfl, rfl⟩
    case round hm _ => exact absurd hm hn
  case round hm _ hi =>
    cases h'
    case stop hn    => exact absurd hm hn
    case round h'   => exact (hi h').imp_left (congrArg (· + 1))

theorem eq_ofVariant (h : Search used base trial rounds last) (ht : trial = ofVariant base n) :
    last = ofVariant base (n + rounds) ∧ last.id ∉ used ∧
      ∀ m < rounds, variant base (n + m) ∈ used := by
  induction h generalizing n
  case stop hn =>
    exact ⟨ht, hn, fun m hm => absurd hm (Nat.not_lt_zero m)⟩
  case round hm _ hi =>
    subst ht
    obtain ⟨hl, hn, hused⟩ := hi (next_ofVariant base n)
    refine ⟨by rw [hl, Nat.add_right_comm, Nat.add_assoc], hn, fun m hlt => ?_⟩
    cases m
    case zero   => exact hm
    case succ m =>
      have := hused m (Nat.lt_of_succ_lt_succ hlt)
      rwa [Nat.add_right_comm, Nat.add_assoc] at this

-- Different variants have been left behind, so there were no more of them than there are used ids.
theorem rounds_le (h : Search used base (ofVariant base n) rounds last) :
    rounds ≤ used.toFinset.card := by
  obtain ⟨-, -, hused⟩ := h.eq_ofVariant rfl
  have hinj : Function.Injective fun m => variant base (n + m) :=
    (variant_injective base).comp fun _ _ => Nat.add_left_cancel
  have hsub : (Finset.range rounds).image (fun m => variant base (n + m)) ⊆ used.toFinset := by
    intro id hid
    obtain ⟨m, hm, rfl⟩ := Finset.mem_image.mp hid
    exact List.mem_toFinset.mpr (hused m (Finset.mem_range.mp hm))
  calc rounds = ((Finset.range rounds).image fun m => variant base (n + m)).card := by
        rw [Finset.card_image_of_injective _ hinj, Finset.card_range]
    _ ≤ used.toFinset.card := Finset.card_le_card hsub

theorem of_variants (hused : ∀ m < rounds, variant base (n + m) ∈ used)
    (hn : variant base (n + rounds) ∉ used) :
    Search used base (ofVariant base n) rounds (ofVariant base (n + rounds)) := by
  induction rounds generalizing n
  case zero           => exact .stop hn
  case succ rounds hi =>
    have step (m : Nat) : n + (m + 1) = n + 1 + m := by omega
    refine .round (hused 0 (Nat.succ_pos rounds)) ?_
    rw [next_ofVariant, step rounds]
    exact hi (fun m hm => step m ▸ hused (m + 1) (Nat.succ_lt_succ hm)) (step rounds ▸ hn)

end Search

theorem search_freshId (used : List String) (base : String) :
    ∃ rounds last, Search used base (first base) rounds last ∧ freshId used base = last.id := by
  let rounds := freshVariant used base used.length 0
  have hused {m : Nat} (hm : m < rounds) : variant base (0 + m) ∈ used := by
    rw [Nat.zero_add]
    exact variant_mem_of_lt_freshVariant (Nat.zero_le m) hm
  have hnew : variant base (0 + rounds) ∉ used := by
    rw [Nat.zero_add]
    exact freshId_not_mem used base
  refine ⟨rounds, ofVariant base (0 + rounds), .of_variants (fun _ => hused) hnew, ?_⟩
  rw [Nat.zero_add, freshId, ofVariant]

end Trial
end Link

namespace Relationship

open Link

-- The search for an id from the one that a relationship has: it ends, in one way only and after no
-- more rounds than there are used ids. The relationship keeps all but its id, which was not used
-- and is the only one that is used in addition.
structure Claims (used : List String) (rel : Relationship) (rounds : Nat) (last : Trial) :
    Prop where
  search    : Trial.Search used rel.id (.first rel.id) rounds last
  unique    : ∀ rounds' last', Trial.Search used rel.id (.first rel.id) rounds' last' →
    rounds' = rounds ∧ last' = last
  rounds_le : rounds ≤ used.toFinset.card
  number_eq : last.number = 2 + rounds
  not_mem   : last.id ∉ used
  claimed   : rel.claimId used = ({ rel with id := last.id }, last.id :: used)

theorem claims_claimId (used : List String) (rel : Relationship) :
    ∃ rounds last, Claims used rel rounds last := by
  obtain ⟨rounds, last, hs, hid⟩ := Trial.search_freshId used rel.id
  obtain ⟨hlast, hnew, -⟩ := Trial.Search.eq_ofVariant (n := 0) hs rfl
  exact ⟨rounds, last, {
    search    := hs
    unique    := fun _ _ h => h.unique hs
    rounds_le := Trial.Search.rounds_le (n := 0) hs
    number_eq := by rw [hlast, Trial.ofVariant, Nat.zero_add, Nat.add_comm]
    not_mem   := hnew
    claimed   := by rw [claimId, hid] }⟩

end Relationship
end SchemaGraph
