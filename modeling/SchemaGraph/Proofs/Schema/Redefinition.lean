import Mathlib.Data.List.Induction
import Mathlib.Data.Prod.Basic
import SchemaGraph.Flow
import SchemaGraph.Proofs.Schema.WellFormed

-- What is left of several definitions of one table.
namespace SchemaGraph

theorem eraseDups_concat {α : Type} [BEq α] [LawfulBEq α] (xs : List α) (x : α) :
    (xs ++ [x]).eraseDups = if x ∈ xs then xs.eraseDups else xs.eraseDups ++ [x] := by
  rw [List.eraseDups_append, List.cons_removeAll]
  by_cases h : x ∈ xs <;> simp [h, List.removeAll, List.eraseDups_cons]

theorem lookup_cons_eq {α β : Type} [BEq α] [LawfulBEq α] [DecidableEq α] (a k : α) (b : β)
    (es : List (α × β)) : ((k, b) :: es).lookup a = if a = k then some b else es.lookup a := by
  rw [List.lookup_cons]
  split
  case h_1 h => rw [if_pos (beq_iff_eq.mp h)]
  case h_2 h => rw [if_neg (beq_eq_false_iff_ne.mp h)]

namespace Catalog

variable {es es' : List (String × Table)} {cat cat' : Catalog} {key name : String} {table : Table}

theorem keys_put (key : String) (table : Table) (es : List (String × Table)) :
    (put key table es).map Prod.fst =
      if key ∈ es.map Prod.fst then es.map Prod.fst else es.map Prod.fst ++ [key] := by
  split
  case isFalse h => rw [put_of_not_mem h, List.map_append, List.map_singleton]
  case isTrue h  =>
    induction es
    case nil          => cases h
    case cons e es hi =>
      rw [put]
      split
      case isTrue         => rfl
      case isFalse hne =>
        have hm : key ∈ es.map Prod.fst := (List.mem_cons.mp h).resolve_left (Ne.symm hne)
        rw [List.map_cons, hi hm, List.map_cons]

theorem lookup_put (key name : String) (table : Table) (es : List (String × Table)) :
    (put key table es).lookup name = if name = key then some table else es.lookup name := by
  induction es
  case nil          => exact lookup_cons_eq ..
  case cons e es hi =>
    rw [put]
    split
    case isTrue h  =>
      rw [lookup_cons_eq, lookup_cons_eq, h]
      split <;> rfl
    case isFalse h =>
      rw [lookup_cons_eq, lookup_cons_eq, hi]
      by_cases hn : name = e.1
      case pos => rw [if_pos hn, if_neg (hn ▸ h), if_pos hn]
      case neg => rw [if_neg hn, if_neg hn]

theorem ofList_concat (es : List (String × Table)) (e : String × Table) :
    ofList (es ++ [e]) = (ofList es).insert e.1 e.2 := by
  rw [ofList, List.foldl_append]
  rfl

theorem keys_ofList (es : List (String × Table)) :
    (ofList es).keys = (es.map Prod.fst).eraseDups := by
  induction es using List.reverseRecOn
  case nil                     => rfl
  case append_singleton es e hi =>
    rw [ofList_concat, List.map_append, List.map_singleton, eraseDups_concat, ←hi]
    have hm : e.1 ∈ (ofList es).keys ↔ e.1 ∈ es.map Prod.fst := hi ▸ List.mem_eraseDups
    exact (keys_put ..).trans (if_congr hm rfl rfl)

theorem find?_ofList (hn : name ∉ es'.map Prod.fst) :
    (ofList (es ++ (name, table) :: es')).find? name = some table := by
  induction es' using List.reverseRecOn
  case nil                      => rw [ofList_concat]; exact (lookup_put ..).trans (if_pos rfl)
  case append_singleton es' e hi =>
    rw [List.map_append, List.mem_append, not_or, List.map_singleton, List.mem_singleton] at hn
    rw [←List.cons_append, ←List.append_assoc, ofList_concat]
    exact (lookup_put ..).trans ((if_neg hn.right).trans (hi hn.left))

theorem eq_of_find?_eq (hk : cat.keys = cat'.keys)
    (hf : ∀ key ∈ cat.keys, cat.find? key = cat'.find? key) : cat = cat' := by
  have found (cat : Catalog) : cat.keys.map (fun key => (key, cat.find? key)) =
      cat.entries.map (Prod.map id some) := by
    rw [keys, List.map_map]
    exact List.map_congr_left fun entry he => congrArg (entry.1, ·) (find?_eq_some_iff.mpr he)
  have he : cat.entries.map (Prod.map id some) = cat'.entries.map (Prod.map id some) := by
    rw [←found, ←found, ←hk]
    exact List.map_congr_left fun key hm => congrArg (key, ·) (hf key hm)
  have hi : Function.Injective (Prod.map (id : String → String) (some : Table → Option Table)) :=
    Function.Injective.prodMap Function.injective_id fun _ _ => Option.some.inj
  cases cat
  cases cat'
  congr
  exact List.map_injective_iff.mpr hi he

end Catalog

-- A catalog that has the distinct names of the statements, in the order in which they first came
-- up, each with the table of its last statement.
structure LastWins (statements : List Statement) (cat : Catalog) : Prop where
  keys  : cat.keys = (statements.map (·.name)).eraseDups
  find? : ∀ name body before behind, statements = before ++ ⟨name, body⟩ :: behind →
    name ∉ behind.map (·.name) → cat.find? name = some (.ofBody name body)

variable {ss ss' : List Statement} {cat cat' : Catalog}

theorem exists_last {name : String} (h : name ∈ ss.map (·.name)) :
    ∃ body before behind, ss = before ++ ⟨name, body⟩ :: behind ∧ name ∉ behind.map (·.name) := by
  induction ss
  case nil          => cases h
  case cons s ss hi =>
    by_cases hm : name ∈ ss.map (·.name)
    case pos =>
      have ⟨body, before, behind, he, hn⟩ := hi hm
      exact ⟨body, s :: before, behind, by rw [he, List.cons_append], hn⟩
    case neg =>
      have hs : name = s.name := (List.mem_cons.mp h).resolve_right hm
      exact ⟨s.body, [], ss, by rw [hs, List.nil_append], hm⟩

namespace LastWins

theorem ofStatements (ss : List Statement) : LastWins ss (.ofStatements ss) where
  keys := by
    rw [Catalog.ofStatements, Catalog.keys_ofList, List.map_map]
    rfl
  find? := by
    intro name body before behind he hn
    rw [he, Catalog.ofStatements, List.map_append, List.map_cons]
    exact Catalog.find?_ofList (by rwa [List.map_map])

theorem unique (h : LastWins ss cat) (h' : LastWins ss cat') : cat = cat' := by
  refine Catalog.eq_of_find?_eq (h.keys.trans h'.keys.symm) fun key hm => ?_
  rw [h.keys, List.mem_eraseDups] at hm
  have ⟨body, before, behind, he, hn⟩ := exists_last hm
  rw [h.find? key body before behind he hn, h'.find? key body before behind he hn]

end LastWins

-- The same names, and bodies that differ only where the name comes up again.
inductive SameSurvivors : List Statement → List Statement → Prop
  | nil : SameSurvivors [] []
  | kept {ss ss' : List Statement} (s : Statement) (h : SameSurvivors ss ss') :
    SameSurvivors (s :: ss) (s :: ss')
  | replaced {ss ss' : List Statement} (name : String) (body body' : List Char)
    (hm : name ∈ ss.map (·.name)) (h : SameSurvivors ss ss') :
    SameSurvivors (⟨name, body⟩ :: ss) (⟨name, body'⟩ :: ss')

namespace SameSurvivors

theorem map_name (h : SameSurvivors ss ss') : ss.map (·.name) = ss'.map (·.name) := by
  induction h
  case nil                     => rfl
  case kept s _ hi             => exact congrArg (s.name :: ·) hi
  case replaced name _ _ _ _ hi => exact congrArg (name :: ·) hi

theorem exists_of_last {s : Statement} {before behind : List Statement} (h : SameSurvivors ss ss')
    (he : ss' = before ++ s :: behind) (hn : s.name ∉ behind.map (·.name)) :
    ∃ before behind, ss = before ++ s :: behind ∧ s.name ∉ behind.map (·.name) := by
  induction h generalizing before
  case nil => simp at he
  case kept ss ss' t h hi =>
    cases before
    case nil =>
      obtain ⟨rfl, rfl⟩ := List.cons_eq_cons.mp he
      exact ⟨[], ss, rfl, h.map_name ▸ hn⟩
    case cons t' before =>
      have ⟨before, behind, he, hn⟩ := hi (List.cons_eq_cons.mp he).right
      exact ⟨t :: before, behind, by rw [he, List.cons_append], hn⟩
  case replaced ss ss' name body body' hm h hi =>
    cases before
    case nil =>
      obtain ⟨rfl, rfl⟩ := List.cons_eq_cons.mp he
      exact absurd (h.map_name ▸ hm) hn
    case cons t' before =>
      have ⟨before, behind, he, hn⟩ := hi (List.cons_eq_cons.mp he).right
      exact ⟨⟨name, body⟩ :: before, behind, by rw [he, List.cons_append], hn⟩

theorem lastWins (h : SameSurvivors ss ss') (hl : LastWins ss cat) : LastWins ss' cat where
  keys := h.map_name ▸ hl.keys
  find? := by
    intro name body before behind he hn
    have ⟨before, behind, he, hn⟩ := h.exists_of_last he hn
    exact hl.find? name body before behind he hn

theorem ofStatements_eq (h : SameSurvivors ss ss') : Catalog.ofStatements ss = .ofStatements ss' :=
  (h.lastWins (.ofStatements ss)).unique (.ofStatements ss')

end SameSurvivors

structure SameOutputs (cat cat' : Catalog) : Prop where
  entries       : cat.entries = cat'.entries
  relationships : cat.relationships = cat'.relationships
  diagram       : (Schema.ofCatalog cat).diagram = (Schema.ofCatalog cat').diagram
  flow          : ∀ layout,
    Flow.ofSchema (.ofCatalog cat) layout = Flow.ofSchema (.ofCatalog cat') layout

namespace Statement

theorem lastWins_extract (text : List Char) :
    LastWins (extract text) (.ofStatements (extract text)) ∧
    ∀ text', SameSurvivors (extract text) (extract text') →
      SameOutputs (.ofStatements (extract text)) (.ofStatements (extract text')) := by
  refine ⟨.ofStatements _, fun text' h => ?_⟩
  rw [h.ofStatements_eq]
  exact ⟨rfl, rfl, rfl, fun _ => rfl⟩

theorem lastWins_extract_replaced :
    SameSurvivors (extract
      "CREATE TABLE t (a INT REFERENCES u);CREATE TABLE u (b INT);CREATE TABLE t (c INT)".toList)
      (extract "CREATE TABLE t (u_id INT);CREATE TABLE u (b INT);CREATE TABLE t (c INT)".toList) ∧
    SameOutputs (.ofStatements (extract
      "CREATE TABLE t (a INT REFERENCES u);CREATE TABLE u (b INT);CREATE TABLE t (c INT)".toList))
      (.ofStatements (extract
        "CREATE TABLE t (u_id INT);CREATE TABLE u (b INT);CREATE TABLE t (c INT)".toList)) := by
  have hs : extract
      "CREATE TABLE t (a INT REFERENCES u);CREATE TABLE u (b INT);CREATE TABLE t (c INT)".toList =
        [⟨"t", "a INT REFERENCES u".toList⟩, ⟨"u", "b INT".toList⟩, ⟨"t", "c INT".toList⟩] := by
    decide +kernel
  have hs' : extract
      "CREATE TABLE t (u_id INT);CREATE TABLE u (b INT);CREATE TABLE t (c INT)".toList =
        [⟨"t", "u_id INT".toList⟩, ⟨"u", "b INT".toList⟩, ⟨"t", "c INT".toList⟩] := by
    decide +kernel
  have h : SameSurvivors (extract
      "CREATE TABLE t (a INT REFERENCES u);CREATE TABLE u (b INT);CREATE TABLE t (c INT)".toList)
      (extract
        "CREATE TABLE t (u_id INT);CREATE TABLE u (b INT);CREATE TABLE t (c INT)".toList) := by
    rw [hs, hs']
    exact .replaced "t" _ _ (by decide) (.kept _ (.kept _ .nil))
  exact ⟨h, (lastWins_extract _).right _ h⟩

end Statement
end SchemaGraph
