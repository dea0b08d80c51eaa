import Mathlib.Data.List.Forall2
import SchemaGraph.Proofs.Schema.Redefinition

-- That the explicit relationships are the foreign keys that lead to a table, each once, and that
-- the other foreign keys have no part in them.
namespace SchemaGraph

variable {cat cat' : Catalog} {link : Link} {links : List Link} {table : Table}

theorem Relationship.ofDistinctLinks_concat (used : List String) (links : List Link) (link : Link) :
    ofDistinctLinks used (links ++ [link]) = ofDistinctLinks used links ++
      [((ofLink link).claimId (((ofDistinctLinks used links).map (·.id)).reverse ++ used)).1] := by
  induction links generalizing used
  case nil              => rfl
  case cons first links hi =>
    rw [List.cons_append, ofDistinctLinks, ofDistinctLinks, hi, List.cons_append, List.map_cons,
      List.reverse_cons, List.append_assoc, List.singleton_append]
    rfl

inductive Thinned {α : Type} (p : α → Prop) : List α → List α → Prop
  | nil : Thinned p [] []
  | keep {xs ys : List α} (x : α) (h : Thinned p xs ys) : Thinned p (x :: xs) (x :: ys)
  | drop {xs ys : List α} {x : α} (hx : p x) (h : Thinned p xs ys) : Thinned p (x :: xs) ys

theorem Thinned.filter_eq {α : Type} {q : α → Bool} {xs ys : List α}
    (h : Thinned (fun x => ¬ q x) xs ys) : ys.filter q = xs.filter q := by
  induction h
  case nil            => rfl
  case keep x _ hi    => rw [List.filter_cons, List.filter_cons, hi]
  case drop hx _ hi   => rw [List.filter_cons_of_neg hx, hi]

-- What there is after some links have been read one after another: the relationships, the links
-- that have come up, and the ids that have been given away.
structure Collected where
  relationships : List Relationship
  seen : List Link
  ids : List String

namespace Collected

def empty : Collected where
  relationships := []
  seen := []
  ids := []

def add (s : Collected) (link : Link) : Collected :=
  if link ∈ s.seen then s
  else
    let claimed := (Relationship.ofLink link).claimId s.ids
    { relationships := s.relationships ++ [claimed.1]
      seen := link :: s.seen
      ids := claimed.2 }

structure Holds (links : List Link) (s : Collected) : Prop where
  relationships : s.relationships = Relationship.ofLinks links
  seen : ∀ link, link ∈ s.seen ↔ link ∈ links
  ids : s.ids = (s.relationships.map (·.id)).reverse

variable {s : Collected}

namespace Holds

theorem empty : Holds [] .empty where
  relationships := rfl
  seen _ := Iff.rfl
  ids := rfl

theorem add (h : Holds links s) (link : Link) : Holds (links ++ [link]) (s.add link) := by
  have hlinks : Relationship.ofLinks (links ++ [link]) =
      if link ∈ links then Relationship.ofLinks links
      else Relationship.ofDistinctLinks [] (links.eraseDups ++ [link]) := by
    rw [Relationship.ofLinks, eraseDups_concat, apply_ite (Relationship.ofDistinctLinks [])]
    rfl
  rw [Collected.add]
  split
  case isTrue hs =>
    have hm := (h.seen link).mp hs
    refine ⟨by rw [hlinks, if_pos hm, h.relationships], fun l => ?_, h.ids⟩
    rw [h.seen, List.mem_append, List.mem_singleton]
    exact ⟨.inl, Or.rec id fun he => he ▸ hm⟩
  case isFalse hs =>
    have hm : link ∉ links := fun hm => hs ((h.seen link).mpr hm)
    refine ⟨?_, fun l => ?_, ?_⟩
    · rw [hlinks, if_neg hm, Relationship.ofDistinctLinks_concat, List.append_nil, h.ids,
        h.relationships]
      rfl
    · rw [List.mem_cons, h.seen, List.mem_append, List.mem_singleton, or_comm]
    · rw [List.map_append, List.reverse_append, ←h.ids]
      rfl

theorem foldl (h : Holds links s) (more : List Link) :
    Holds (links ++ more) (more.foldl .add s) := by
  induction more generalizing links s
  case nil               => rwa [List.append_nil]
  case cons link more hi =>
    have := hi (h.add link)
    rwa [List.append_assoc] at this

end Holds
end Collected

namespace Catalog

def declaredLinks (cat : Catalog) : List Link :=
  cat.tables.flatMap fun table => table.foreignKeys.map (linkOf table)

def collectKey (cat : Catalog) (table : Table) (s : Collected) (key : ForeignKey) : Collected :=
  if cat.resolves key then s.add (linkOf table key) else s

def collect (cat : Catalog) : Collected :=
  cat.tables.foldl (fun s table => table.foreignKeys.foldl (cat.collectKey table) s) .empty

theorem foldl_collectKey (cat : Catalog) (table : Table) (keys : List ForeignKey) (s : Collected) :
    keys.foldl (cat.collectKey table) s =
      ((keys.filter cat.resolves).map (linkOf table)).foldl .add s := by
  induction keys generalizing s
  case nil             => rfl
  case cons key keys hi =>
    rw [List.foldl_cons, hi, collectKey]
    by_cases hk : cat.resolves key
    case pos => rw [if_pos hk, List.filter_cons_of_pos hk, List.map_cons, List.foldl_cons]
    case neg => rw [if_neg hk, List.filter_cons_of_neg hk]

theorem collect_eq (cat : Catalog) : cat.collect = cat.explicitLinks.foldl .add .empty := by
  rw [collect, explicitLinks, List.foldl_flatMap]
  exact List.foldl_ext _ _ _ fun s table _ => cat.foldl_collectKey table table.foreignKeys s

theorem collect_holds (cat : Catalog) : cat.collect.Holds cat.explicitLinks :=
  cat.collect_eq ▸ Collected.Holds.empty.foldl cat.explicitLinks

theorem explicitLinks_eq (cat : Catalog) :
    cat.explicitLinks = cat.declaredLinks.filter (·.targetTable ∈ cat.keys) := by
  rw [explicitLinks, declaredLinks, List.filter_flatMap]
  refine List.flatMap_congr fun table _ => ?_
  rw [List.filter_map]
  exact congrArg _ (List.filter_congr fun key _ => List.contains_eq_mem key.refTable cat.keys)

-- The same tables, but for some foreign keys that lead to none of them.
def SameButDangling (cat cat' : Catalog) : Prop :=
  List.Forall₂ (fun entry entry' => ∃ keys,
    Thinned (fun key => ¬ cat.resolves key) entry.2.foreignKeys keys ∧
      entry' = (entry.1, { entry.2 with foreignKeys := keys })) cat.entries cat'.entries

namespace SameButDangling

theorem map_eq {γ : Type} {f : String × Table → γ} (h : SameButDangling cat cat')
    (hf : ∀ key table keys, Thinned (fun key => ¬ cat.resolves key) table.foreignKeys keys →
      f (key, { table with foreignKeys := keys }) = f (key, table)) :
    cat'.entries.map f = cat.entries.map f := by
  unfold SameButDangling at h
  generalize cat.entries = es, cat'.entries = es' at h
  induction h
  case nil => rfl
  case cons he _ hi =>
    obtain ⟨keys, hk, rfl⟩ := he
    rw [List.map_cons, List.map_cons, hi, hf _ _ _ hk]

theorem keys_eq (h : SameButDangling cat cat') : cat'.keys = cat.keys :=
  h.map_eq fun _ _ _ _ => rfl

theorem explicitLinks_eq (h : SameButDangling cat cat') :
    cat'.explicitLinks = cat.explicitLinks := by
  have hr : cat'.resolves = cat.resolves := funext fun key => by rw [resolves, resolves, h.keys_eq]
  rw [explicitLinks, explicitLinks, hr, tables, tables, List.flatMap_map, List.flatMap_map,
    List.flatMap_def, List.flatMap_def]
  refine congrArg List.flatten (h.map_eq fun key table keys hk => ?_)
  rw [hk.filter_eq]
  rfl

end SameButDangling

-- The explicit relationships are what comes of reading the foreign keys one after another: their
-- links are those of the foreign keys that lead to a table, in order and each once. Foreign keys
-- that lead to no table leave no trace.
theorem explicitRelationships_declared (cat : Catalog) :
    cat.explicitRelationships = cat.collect.relationships ∧
      cat.explicitRelationships.map (·.toLink) =
        (cat.declaredLinks.filter (·.targetTable ∈ cat.keys)).eraseDups ∧
      ∀ cat', SameButDangling cat cat' → cat'.explicitRelationships =
        cat.explicitRelationships := by
  refine ⟨cat.collect_holds.relationships.symm, ?_, fun cat' h => ?_⟩
  · rw [explicitRelationships, Relationship.map_toLink_ofLinks, cat.explicitLinks_eq]
  · rw [explicitRelationships, explicitRelationships, h.explicitLinks_eq]

theorem explicitRelationships_declared_renamed :
    SameButDangling (ofList [("k", ⟨"t", [], [], [⟨"a", "t", "id"⟩, ⟨"b", "k", "id"⟩]⟩)])
        (ofList [("k", ⟨"t", [], [], [⟨"b", "k", "id"⟩]⟩)]) ∧
      (ofList [("k", ⟨"t", [], [], [⟨"b", "k", "id"⟩]⟩)]).explicitRelationships =
        (ofList [("k",
          ⟨"t", [], [], [⟨"a", "t", "id"⟩, ⟨"b", "k", "id"⟩]⟩)]).explicitRelationships ∧
      (ofList [("k", ⟨"t", [], [], [⟨"a", "t", "id"⟩, ⟨"b", "k", "id"⟩]⟩)]).explicitRelationships =
        [⟨⟨"t", "b", "k", "id"⟩, "t_b_to_k_id", "one-to-many"⟩] := by
  have h : SameButDangling (ofList [("k", ⟨"t", [], [], [⟨"a", "t", "id"⟩, ⟨"b", "k", "id"⟩]⟩)])
      (ofList [("k", ⟨"t", [], [], [⟨"b", "k", "id"⟩]⟩)]) :=
    .cons ⟨_, .drop (by decide) (.keep _ .nil), rfl⟩ .nil
  exact ⟨h, (explicitRelationships_declared _).right.right _ h, by decide +kernel⟩

end Catalog
end SchemaGraph
