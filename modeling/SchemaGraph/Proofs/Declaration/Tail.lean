import SchemaGraph.Proofs.Declaration.Keys

namespace SchemaGraph.Declaration

open Pattern Clause

variable {before : Option Char} {u v w rest : List Char} {kept : List (Part × List Char)}

-- What stands behind the type of a column.

def tailText (isPrimaryKey : Bool) (reference? : Option (Name × Option Quoted)) : List Char :=
  keyText isPrimaryKey ++ referenceText reference?

theorem head_tailText {isPrimaryKey : Bool} {reference? : Option (Name × Option Quoted)} :
    ∀ c ∈ (tailText isPrimaryKey reference?).head?, c = ' ' := by
  cases isPrimaryKey <;> cases reference? <;> simp [tailText, keyText, referenceText]

theorem not_parenthesis_tailText (isPrimaryKey : Bool)
    (reference? : Option (Name × Option Quoted)) :
    ((tailText isPrimaryKey reference?).dropWhile Text.isBlank).head? ≠ some '(' := by
  cases isPrimaryKey
  case true  => show some 'P' ≠ some '('; decide
  case false =>
    cases reference?
    case none   => show none ≠ some '('; decide
    case some r => show some 'R' ≠ some '('; decide

-- A text in which no blank follows a `Y` declares no primary key.
def Calm (w : List Char) : Prop :=
  w.IsChain fun c d => Text.folded c ≠ 'y' ∨ Text.isBlank d = false

instance (w : List Char) : Decidable (Calm w) :=
  inferInstanceAs (Decidable (List.IsChain _ _))

namespace Calm

theorem append (hu : Calm u) (hv : Calm v) (h : ∀ c ∈ u.getLast?, Text.folded c ≠ 'y') :
    Calm (u ++ v) :=
  List.isChain_append.mpr ⟨hu, hv, fun c hc _ _ => .inl (h c hc)⟩

theorem of_nonblank (h : ∀ c ∈ w, Text.isBlank c = false) : Calm w := by
  induction w
  case nil          => exact .nil
  case cons c w hi =>
    have ⟨_, hw⟩ := List.forall_mem_cons.mp h
    exact List.isChain_cons.mpr ⟨fun d hd => .inr (hw d (List.mem_of_mem_head? hd)), hi hw⟩

theorem right (h : Calm (u ++ v)) : Calm v :=
  (List.isChain_append.mp h).right.left

theorem fails (h : Calm w) : inlinePrimaryKeyPattern.Fails before w := by
  suffices hf : (wordEdge ++ keyword "PRIMARY" ++ gap : Pattern Part).Fails before w from
    hf.seq_left.seq_left
  refine .seq_right fun x y hw ⟨e, u, hx, he, hu⟩ => .seq_left <| .char fun d hd => ?_
  have hspells := (keyword_matches_iff (by decide)).mp hu
  have he : e = [] := he.left
  have hx : x = u := by rw [hx, he, List.nil_append]
  subst hw
  have hlast : (x.map Text.folded).getLast? = some 'y' := by
    rw [hx, hspells]
    decide
  have ⟨c, hc, hy⟩ : ∃ c, x.getLast? = some c ∧ Text.folded c = 'y' := by simpa using hlast
  have hcalm := (List.isChain_append.mp h).right.right c (by simpa using hc) d hd
  simpa [hy] using hcalm

end Calm

theorem folded_space_ne : Text.folded ' ' ≠ 'y' := by
  decide

theorem calm_listText (q : Quoted) : Calm (listText [q]) :=
  .of_nonblank fun c hc => by
    simp [listText, innerText] at hc
    rcases hc with hc | hc | hc
    · exact hc ▸ by decide
    · exact Quoted.not_isBlank_of_mem_text hc
    · exact hc ▸ by decide

theorem calm_columnsText (column? : Option Quoted) : Calm (columnsText (column?.map ([·]))) := by
  cases column?
  case none   => exact .nil
  case some q => exact .append (by decide) (calm_listText q) (by simpa using folded_space_ne)

theorem calm_reference (table : Name) (hw : Calm w) :
    Calm ([' '] ++ ("REFERENCES".toList ++ [' '] ++ table.text ++ w)) := by
  have htable : Calm table.text := .of_nonblank fun c hc => Name.not_isBlank_of_mem_text hc
  have hlast : ∀ c ∈ ("REFERENCES".toList ++ [' '] ++ table.text).getLast?,
      Text.folded c ≠ 'y' := by
    rw [List.getLast?_append_of_ne_nil _ table.text_ne]
    intro c hc
    exact (by decide : ∀ c ∈ ['\x60', '"', '\'', ']'], Text.folded c ≠ 'y') c (table.last_text c hc)
  have hwords : Calm ("REFERENCES".toList ++ [' '] ++ table.text) :=
    .append (by decide) htable (by simpa using folded_space_ne)
  exact .append (by decide) (hwords.append hw hlast) (by simpa using folded_space_ne)

theorem calm_referenceText (reference? : Option (Name × Option Quoted)) :
    Calm (referenceText reference?) := by
  rcases reference? with _ | ⟨table, column?⟩
  case none => exact .nil
  case some => exact calm_reference table (calm_columnsText column?)

theorem isSome_find?_keyText (isPrimaryKey : Bool) (hw : Calm w)
    (hb : ∀ c ∈ w.head?, Text.isWord c = false) :
    (inlinePrimaryKeyPattern.find? (keyText isPrimaryKey ++ w)).isSome = isPrimaryKey := by
  cases isPrimaryKey
  case false =>
    have hn := @find?_eq_none _ w inlinePrimaryKeyPattern fun u v ht => (ht ▸ hw).right.fails
    exact congrArg Option.isSome hn
  case true =>
    have hblank : Text.isWord ' ' = false := Text.not_isWord_of_isBlank (by decide)
    have hp : Text.isWord 'P' := Text.isWord_of_isLetter (by decide)
    have hy : Text.isWord 'Y' := Text.isWord_of_isLetter (by decide)
    have hedge : (wordEdge : Pattern Part).Takes (some ' ') [] ("PRIMARY".toList ++ ([' '] ++
        ("KEY".toList ++ ([] ++ w)))) [] :=
      .wordEdge (by simp [Cursor.atWordEdge, hblank, hp])
    have hprimary {before rest} := @takes_keyword before rest "PRIMARY" (by decide) (by decide)
    have hspace {before rest} : (gap : Pattern Part).Takes before [' '] ("KEY".toList ++ rest) [] :=
      .space (head_ne_blank (by decide))
    have hkey {before rest} := @takes_keyword before rest "KEY" (by decide) (by decide)
    have hedge' : (wordEdge : Pattern Part).Takes (some 'Y') [] w [] := by
      refine .wordEdge ?_
      cases w
      case nil       => simp [Cursor.atWordEdge, hy]
      case cons c cs => simp [Cursor.atWordEdge, hy, hb c rfl]
    have h := Takes.seq (Takes.seq (Takes.seq (Takes.seq hedge hprimary) hspace) hkey) hedge'
    have hbefore {rest : List Char} (u v) (hx : [' '] = u ++ v) (hv : v ≠ []) :
        inlinePrimaryKeyPattern.Fails (behind none u) (v ++ rest) :=
      (Fails.keyword_within (by decide) (by decide) hx hv).wordEdge_seq.seq_left.seq_left.seq_left
    obtain ⟨t, ht, _⟩ := find?_eq_some (x := [' ']) hbefore h
    exact ht ▸ rfl

theorem isSome_find?_primaryKey (isPrimaryKey : Bool) (reference? : Option (Name × Option Quoted)) :
    (inlinePrimaryKeyPattern.find? (tailText isPrimaryKey reference?)).isSome = isPrimaryKey := by
  refine isSome_find?_keyText isPrimaryKey (calm_referenceText reference?) fun c hc => ?_
  have hc : c = ' ' := by cases reference? <;> simp [referenceText] at hc; exact hc.symm
  exact Text.not_isWord_of_isBlank (hc ▸ by decide)

theorem find?_reference_none (isPrimaryKey : Bool) :
    inlineReferencePattern.find? (tailText isPrimaryKey none) = none := by
  refine find?_eq_none fun u v ht => .wordEdge_seq ?_
  suffices h : (keyword "REFERENCES" : Pattern Part).Fails (behind none u) v from
    h.seq_left.seq_left.seq_left
  by_cases hv : v = []
  case pos => exact fails_of_refuses (by rw [hv]; decide)
  case neg =>
    rw [←List.append_nil v]
    exact .keyword_within (by decide) (by cases isPrimaryKey <;> decide) ht hv

theorem find?_reference (isPrimaryKey : Bool) (hw : w.head? = some 'R')
    (h : ∀ before, references.Takes before w [] kept) :
    ∃ found : Found, inlineReferencePattern.find? (keyText isPrimaryKey ++ ([' '] ++ w)) =
      some found ∧ found.texts = kept := by
  have hblank : Text.isWord ' ' = false := Text.not_isWord_of_isBlank (by decide)
  have hr : Text.isWord 'R' := Text.isWord_of_isLetter (by decide)
  have hb : behind none (keyText isPrimaryKey ++ [' ']) = some ' ' := by cases isPrimaryKey <;> rfl
  have hedge : (wordEdge : Pattern Part).Takes (behind none (keyText isPrimaryKey ++ [' '])) []
      (w ++ []) [] := by
    refine .wordEdge ?_
    simp only [Cursor.atWordEdge, hb, List.append_nil, hw, Option.any_some, hblank, hr]
    rfl
  have hbefore {rest : List Char} (u v) (hx : keyText isPrimaryKey ++ [' '] = u ++ v)
      (hv : v ≠ []) :
      inlineReferencePattern.Fails (behind none u) (v ++ rest) := by
    suffices hf : (keyword "REFERENCES" : Pattern Part).Fails (behind none u) (v ++ rest) from
      hf.seq_left.seq_left.seq_left.wordEdge_seq
    exact .keyword_within (by decide) (by cases isPrimaryKey <;> decide) hx hv
  obtain ⟨found, hf, hk⟩ := find?_eq_some (x := keyText isPrimaryKey ++ [' ']) hbefore
    (Takes.seq hedge (h _))
  refine ⟨found, ?_, hk.trans (List.append_nil _)⟩
  rwa [List.nil_append, List.append_nil, List.append_assoc] at hf

theorem find?_reference_some (isPrimaryKey : Bool) (table : Name) (column? : Option Quoted) :
    ∃ found : Found, inlineReferencePattern.find? (tailText isPrimaryKey (some (table, column?))) =
      some found ∧ found.texts = keptColumns (column?.map ([·])) ++ [(.refTable, table.text)] :=
  find?_reference isPrimaryKey rfl fun _ => takes_references table (column?.map ([·]))

end SchemaGraph.Declaration
