import SchemaGraph.Proofs.Statement.Extract

namespace SchemaGraph.Statement

open Scan Pattern

variable {before : Option Char} {u v text : List Char} {pairs : List (Nat × Nat)} {s : Statement}
variable {visit : Visit}
variable {pos : Nat}

theorem spells_create : Spells "CREATE" "CREATE".toList := by
  decide

theorem spells_table : Spells "TABLE" "TABLE".toList := by
  decide

-- The words of a header without optional parts; the name can be any other one.
def plainHeader : Header where
  create       := ⟨"CREATE".toList, spells_create⟩
  createGap    := .space
  orReplace?   := none
  scope?       := none
  temporary?   := none
  table        := ⟨"TABLE".toList, spells_table⟩
  tableGap     := .space
  ifNotExists? := none
  name         := ⟨⟨⟨['t'], by simp, by decide⟩, none⟩, []⟩
  blanks       := Gap.space.toBlanks

def declaring (q : List Char) : List Char :=
  "CREATE TABLE ".toList ++ q ++ " (id INT)".toList

theorem declaring_eq (q : List Char) : declaring q =
    plainHeader.words ++ q ++ plainHeader.blanks.chars ++ ['('] ++ "id INT)".toList := by
  have hwords : "CREATE TABLE ".toList = plainHeader.words := by decide
  have hbody : " (id INT)".toList = plainHeader.blanks.chars ++ ['('] ++ "id INT)".toList := by
    decide
  have h : declaring q = plainHeader.words ++ q ++
      (plainHeader.blanks.chars ++ ['('] ++ "id INT)".toList) :=
    congrArg₂ (fun words body => words ++ q ++ body) hwords hbody
  rw [h, ←List.append_assoc, ←List.append_assoc]

theorem Visit.name_eq (h : visit.statement? text = some s) : s.name = visit.name := by
  unfold statement? at h
  split at h
  case h_1 => cases h
  case h_2 =>
    split at h
    case isTrue  => cases h
    case isFalse => exact Option.some.inj h ▸ rfl

theorem readVisit_declaring {q : List Char} (ht : declaring q = u ++ v) (hv : v ≠ [])
    (hu : (plainHeader.words ++ q ++ plainHeader.blanks.chars).length < u.length) :
    readVisit pairs ⟨before, v, pos⟩ = none := by
  have hm : ∀ c ∈ v, c ∈ "id INT)".toList := by
    rw [declaring_eq, eq_comm, List.append_eq_append_iff] at ht
    rcases ht with ⟨w, hw, hr⟩ | ⟨w, _, hr⟩
    case inl =>
      have hl := congrArg List.length hw
      have hn : w = [] := List.eq_nil_of_length_eq_zero (by simp at hl hu; omega)
      simp [hr, hn]
    case inr => exact fun c hc => by simp [hr, hc]
  obtain ⟨c, cs, rfl⟩ := List.exists_cons_of_ne_nil hv
  exact readVisit_eq_none <| header_fails <| fails_of_refuses <|
    (by decide : ∀ c ∈ "id INT)".toList, (keyword "CREATE" : Pattern Unit).refuses (some c)) c
      (hm c (by simp))

theorem name_of_extract_declaring (name : Identifier.Spelled)
    (h : extract (declaring name.text) = [s]) :
    s.name = String.ofList name.name := by
  let lead := plainHeader.words ++ name.text ++ plainHeader.blanks.chars
  let visit : Visit := {
    name := String.ofList name.name
    start := 0
    opening := 0 + lead.length
    closing? := (matchParens (declaring name.text)).lookup (0 + lead.length) }
  have hvisit : readVisit (matchParens (declaring name.text)) ⟨none, declaring name.text, 0⟩ =
      some (visit, visit.stop) := by
    have hv := @Header.visit?_named none plainHeader name rfl "id INT)".toList 0
      (matchParens (declaring name.text))
    rw [←declaring_eq] at hv
    rw [readVisit, hv]
    rfl
  have hstop : 0 + lead.length < visit.stop := @opening_lt_stop (declaring name.text) visit rfl
  have hvisits : visits (declaring name.text) = [visit] := by
    have hn : declaring name.text ≠ [] := by rw [declaring_eq]; simp
    obtain ⟨c, cs, hc⟩ := List.exists_cons_of_ne_nil hn
    show Cursor.readAll.go (readVisit _) 0 none 0 (declaring name.text) = [visit]
    rw [hc] at hvisit ⊢
    rw [Cursor.readAll.go, hvisit]
    refine congrArg _ (Cursor.readAll_go_eq_nil fun u v _ _ ht hu hv => ?_)
    have hl : lead.length < (c :: u).length := by rw [List.length_cons]; omega
    exact readVisit_declaring (by rw [hc, ht]; rfl) hv hl
  have hs : visit.statement? (declaring name.text) = some s := by
    rw [extract, hvisits, List.filterMap_cons, List.filterMap_nil] at h
    cases hv : visit.statement? (declaring name.text) <;> simp_all
  exact Visit.name_eq hs

end SchemaGraph.Statement
