import Mathlib.Data.List.Nodup
import Mathlib.Data.List.Perm.Subperm
import SchemaGraph.Schema.Relationships

-- That relationships have ids of their own, and which ones.
namespace SchemaGraph

theorem toString_injective : Function.Injective (toString : Nat → String) := by
  intro i j h
  rw [Nat.toString_eq_ofList_toDigits, Nat.toString_eq_ofList_toDigits, String.ofList_inj] at h
  rw [←Nat.ofDigitChars_ten_toDigits (n := i), ←Nat.ofDigitChars_ten_toDigits (n := j), h]

theorem exists_not_mem_of_injective {α : Type} {f : Nat → α} (hf : Function.Injective f)
    (xs : List α) :
    ∃ n ≤ xs.length, f n ∉ xs := by
  by_contra h
  push Not at h
  have hs : (List.range (xs.length + 1)).map f ⊆ xs := by
    intro x hx
    obtain ⟨n, hn, rfl⟩ := List.mem_map.mp hx
    exact h n (Nat.le_of_lt_succ (List.mem_range.mp hn))
  have hl := ((List.nodup_range.map hf).subperm hs).length_le
  rw [List.length_map, List.length_range] at hl
  exact Nat.not_succ_le_self _ hl

namespace Link

variable {used used' : List String} {base id : String} {tries n m : Nat}

def numbered (base : String) (k : Nat) : String :=
  base ++ "_" ++ toString k

theorem variant_succ (base : String) (n : Nat) : variant base (n + 1) = numbered base (n + 2) := by
  simp [variant, numbered, toString]

theorem numbered_injective (base : String) : Function.Injective (numbered base) :=
  fun _ _ h => toString_injective (String.append_right_inj _ |>.mp h)

theorem numbered_ne (base : String) (k : Nat) : numbered base k ≠ base := by
  intro h
  have := congrArg (·.toList.length) h
  simp [numbered] at this

theorem variant_injective (base : String) : Function.Injective (variant base) := by
  intro m n h
  cases m <;> cases n
  case zero.zero => rfl
  case zero.succ => exact absurd (h.trans (variant_succ ..)).symm (numbered_ne base _)
  case succ.zero => exact absurd ((variant_succ ..).symm.trans h) (numbered_ne base _)
  case succ.succ =>
    rw [variant_succ, variant_succ] at h
    have := numbered_injective base h
    omega

theorem variant_mem_of_lt_freshVariant (hn : n ≤ m) (h : m < freshVariant used base tries n) :
    variant base m ∈ used := by
  induction tries generalizing n
  case zero => exact absurd h (Nat.not_lt.mpr hn)
  case succ tries hi =>
    rw [freshVariant] at h
    split at h
    case isFalse => exact absurd h (Nat.not_lt.mpr hn)
    case isTrue hu =>
      cases Nat.eq_or_lt_of_le hn
      case inl he => exact he ▸ List.contains_iff_mem.mp hu
      case inr hl => exact hi hl h

theorem freshVariant_new_or_last (used : List String) (base : String) (tries n : Nat) :
    variant base (freshVariant used base tries n) ∉ used ∨
      freshVariant used base tries n = n + tries := by
  induction tries generalizing n
  case zero => exact .inr rfl
  case succ tries hi =>
    rw [freshVariant]
    split
    case isTrue     => exact (hi (n + 1)).imp_right fun h => by omega
    case isFalse hu => exact .inl fun hm => hu (List.contains_iff_mem.mpr hm)

theorem freshId_not_mem (used : List String) (base : String) : freshId used base ∉ used := by
  refine (freshVariant_new_or_last used base used.length 0).elim id fun hl hm => ?_
  rw [Nat.zero_add] at hl
  obtain ⟨n, hn, hnew⟩ := exists_not_mem_of_injective (variant_injective base) used
  cases Nat.eq_or_lt_of_le hn
  case inl he => exact hnew (he ▸ hl ▸ hm)
  case inr hn => exact hnew (variant_mem_of_lt_freshVariant (Nat.zero_le n) (hl ▸ hn))

inductive IsId (taken : List String) (plain : String) : String → Prop
  | plain (h : plain ∉ taken) : IsId taken plain plain
  | numbered (k : Nat) (h : plain ∈ taken) (hk : 2 ≤ k) (hn : numbered plain k ∉ taken)
      (least : ∀ j, 2 ≤ j → j < k → numbered plain j ∈ taken) : IsId taken plain (numbered plain k)

theorem IsId.congr (h : IsId used base id) (hm : ∀ x, x ∈ used ↔ x ∈ used') :
    IsId used' base id := by
  cases h
  case plain h => exact .plain (mt (hm _).mpr h)
  case numbered k h hk hn least =>
    exact .numbered k ((hm _).mp h) hk (mt (hm _).mpr hn) fun j hj hjk => (hm _).mp (least j hj hjk)

theorem isId_freshId (used : List String) (base : String) : IsId used base (freshId used base) := by
  have hnew := freshId_not_mem used base
  have before {m} (h : m < freshVariant used base used.length 0) : variant base m ∈ used :=
    variant_mem_of_lt_freshVariant (Nat.zero_le m) h
  rw [freshId] at hnew ⊢
  generalize freshVariant used base used.length 0 = n at hnew before
  cases n
  case zero => exact .plain hnew
  case succ n =>
    rw [variant_succ] at hnew ⊢
    refine .numbered (n + 2) (before n.succ_pos) (Nat.le_add_left 2 n) hnew fun j hj hjn => ?_
    obtain ⟨i, rfl⟩ := Nat.exists_eq_add_of_le' hj
    exact variant_succ base i ▸ before (by omega)

end Link

namespace Relationship

variable {used : List String} {links : List Link} {earlier later : List Relationship}
variable {rel : Relationship}

theorem not_mem_of_mem_ofDistinctLinks (h : rel ∈ ofDistinctLinks used links) : rel.id ∉ used := by
  induction links generalizing used
  case nil => cases h
  case cons link links hi =>
    cases List.mem_cons.mp h
    case inl h => exact h ▸ Link.freshId_not_mem used link.plainId
    case inr h => exact fun hm => hi h (List.mem_cons_of_mem _ hm)

theorem nodup_ids_ofDistinctLinks (used : List String) (links : List Link) :
    ((ofDistinctLinks used links).map (·.id)).Nodup := by
  induction links generalizing used
  case nil => exact .nil
  case cons link links hi =>
    refine List.nodup_cons.mpr ⟨fun hm => ?_, hi _⟩
    obtain ⟨rel, hr, he⟩ := List.mem_map.mp hm
    exact not_mem_of_mem_ofDistinctLinks hr (he ▸ List.mem_cons_self)

theorem isId_ofDistinctLinks (h : ofDistinctLinks used links = earlier ++ rel :: later) :
    Link.IsId ((earlier.map (·.id)).reverse ++ used) rel.plainId rel.id := by
  induction links generalizing used earlier
  case nil => simp [ofDistinctLinks] at h
  case cons link links hi =>
    rw [ofDistinctLinks] at h
    cases earlier
    case nil =>
      obtain ⟨rfl, _⟩ := List.cons.inj h
      exact Link.isId_freshId used link.plainId
    case cons first earlier =>
      obtain ⟨rfl, ht⟩ := List.cons.inj h
      have hid := hi ht
      rwa [List.map_cons, List.reverse_cons, List.append_assoc, List.singleton_append]

-- No two relationships have one id, and each has the plain one, or else the first numbered one,
-- that no relationship before it has.
structure Identified (rels : List Relationship) : Prop where
  nodup : (rels.map (·.id)).Nodup
  isId  : ∀ earlier rel later, rels = earlier ++ rel :: later →
    Link.IsId (earlier.map (·.id)) rel.plainId rel.id

theorem identified_ofLinks (links : List Link) : Identified (ofLinks links) where
  nodup := nodup_ids_ofDistinctLinks [] links.eraseDups
  isId _ _ _ h := (isId_ofDistinctLinks h).congr fun x => by
    rw [List.append_nil, List.mem_reverse]

end Relationship

theorem Catalog.identified_relationships (cat : Catalog) :
    Relationship.Identified cat.explicitRelationships ∧
      Relationship.Identified cat.conventionRelationships :=
  ⟨Relationship.identified_ofLinks _, Relationship.identified_ofLinks _⟩

-- A numbered id may be the plain one of a later link.
example :
    (Relationship.ofLinks [⟨"a_b", "c", "t", "x"⟩, ⟨"a", "b_c", "t", "x"⟩,
      ⟨"a_b", "c", "t", "x_2"⟩]).map (·.id) =
        ["a_b_c_to_t_x", "a_b_c_to_t_x_2", "a_b_c_to_t_x_2_2"] := by
  decide +kernel

end SchemaGraph
