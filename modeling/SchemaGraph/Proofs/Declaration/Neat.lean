import SchemaGraph.Proofs.Declaration.Column

namespace SchemaGraph.Declaration

open Text

variable {c : Char} {u v : List Char}

-- Every declaration is one neat line.

theorem undashed_of_noComment (h : ¬ ['-', '-'] <:+: u) : Undashed u := by
  refine List.isChain_iff_forall_rel_of_append_cons_cons.mpr fun c d v w hw => ?_
  by_contra hn
  rw [not_or, not_not, not_not] at hn
  exact h ⟨v, w, by simp [hw, hn]⟩

theorem isFirm_of_isWord (h : isWord c) : isFirm c := by
  have hb := Identifier.not_isBlank_of_isPlain (isPlain_of_isWord h)
  have hd : c ≠ '-' := fun he => by
    rw [he] at h
    exact absurd h (by decide +kernel)
  simp [isFirm, hb, hd]

namespace Quoted

theorem solid (q : Quoted) : Solid q.text where
  ne := by simp [text, Identifier.Style.quote]
  nonblank _ hc := not_isBlank_of_mem_text hc
  undashed := by
    have hfirst : isFirm q.style.first := by cases q.style <;> decide
    have hlast : q.style.last ≠ '-' := by cases q.style <;> decide
    have hname : Undashed (q.name.chars ++ [q.style.last]) :=
      List.isChain_append.mpr ⟨undashed_of_noComment q.noComment, .singleton _,
        fun c _ d hd => .inr (by simp at hd; rwa [←hd])⟩
    exact Undashed.append (u := [q.style.first]) (.singleton _) hname (by simpa using hfirst)
  head := by
    intro c hc
    simp [text, Identifier.Style.quote] at hc
    subst hc
    cases q.style <;> decide
  last c hc :=
    (by decide : ∀ c ∈ ['\x60', '"', '\'', ']'], isFirm c) c (q.last_text c hc)

end Quoted

theorem Name.solid (name : Name) : Solid name.text := by
  obtain ⟨first, others⟩ := name
  induction others generalizing first
  case nil          => simpa [text] using first.solid
  case cons q qs hi =>
    have hdot : Solid ['.'] := .of_firm (by simp) (by decide)
    exact text_cons first q qs ▸ first.solid.append (hdot.append (hi q))

theorem TypeName.solid (type : TypeName) : Solid type.chars :=
  .of_firm type.ne fun _ hc => isFirm_of_isWord (type.isWord hc)

theorem neat_innerText (q : Quoted) (qs : List Quoted) : Neat (innerText (q :: qs)) := by
  induction qs generalizing q
  case nil           => simpa [innerText] using Neat.word q.solid
  case cons q' qs hi =>
    have hcomma : Solid [','] := .of_firm (by simp) (by decide)
    simpa [innerText] using Neat.space (.word (q.solid.append hcomma)) (hi q')

theorem neat_listText (qs : List Quoted) : Neat (listText qs) := by
  have hopen : Solid ['('] := .of_firm (by simp) (by decide)
  have hclose : Solid [')'] := .of_firm (by simp) (by decide)
  cases qs
  case nil       => exact .word (hopen.append hclose)
  case cons q qs => exact (Neat.word hopen).append (neat_innerText q qs) |>.append (.word hclose)

theorem neat_arguments (args? : Option TypeArguments) (h : Neat u) :
    Neat (u ++ argumentsText args?) := by
  cases args?
  case none      => exact (List.append_nil u).symm ▸ h
  case some args =>
    have hdigits (digits : Digits) : ∀ c ∈ digits.chars, isFirm c := fun c hc =>
      isFirm_of_isWord (digits.isWord hc)
    refine h.append <| .word <| .of_firm (by simp [argumentsText, TypeArguments.text]) ?_
    obtain ⟨first, second?⟩ := args
    cases second?
    case none =>
      simpa [argumentsText, TypeArguments.text, TypeArguments.inner, or_imp, forall_and] using
        ⟨by decide, hdigits first, by decide⟩
    case some second =>
      simpa [argumentsText, TypeArguments.text, TypeArguments.inner, or_imp, forall_and] using
        ⟨by decide, hdigits first, by decide, hdigits second, by decide⟩

theorem neat_columnsText (columns? : Option (List Quoted)) (h : Neat u) :
    Neat (u ++ columnsText columns?) := by
  cases columns?
  case none    => exact (List.append_nil u).symm ▸ h
  case some qs => exact .space h (neat_listText qs)

theorem neat_referencesText (table : Name) (columns? : Option (List Quoted)) :
    Neat (referencesText table columns?) :=
  have hword : Neat "REFERENCES".toList := .word (.of_firm (by decide) (by decide))
  neat_columnsText columns? (hword.spaced (.word table.solid))

theorem neat_tailText (isPrimaryKey : Bool) (reference? : Option (Name × Option Quoted))
    (h : Neat u) :
    Neat (u ++ tailText isPrimaryKey reference?) := by
  have hprimary : Neat "PRIMARY".toList := .word (.of_firm (by decide) (by decide))
  have hword : Neat "KEY".toList := .word (.of_firm (by decide) (by decide))
  have hkey : Neat (u ++ keyText isPrimaryKey) := by
    cases isPrimaryKey
    case false => exact (List.append_nil u).symm ▸ h
    case true  => exact .space h (.space hprimary hword)
  rw [tailText, ←List.append_assoc]
  rcases reference? with _ | ⟨table, column?⟩
  case none => exact (List.append_nil _).symm ▸ hkey
  case some => exact .space hkey (neat_referencesText table _)

theorem neat_constraintText (constraint? : Option Quoted) (h : Neat u) :
    Neat (constraintText constraint? ++ u) := by
  cases constraint?
  case none   => exact h
  case some q =>
    have hword : Neat "CONSTRAINT".toList := .word (.of_firm (by decide) (by decide))
    exact (hword.spaced (.word q.solid)).spaced h

theorem Item.neat (item : Item) : Neat item.text := by
  have hkey : Neat "KEY".toList := .word (.of_firm (by decide) (by decide))
  cases item
  case column name type args? isPrimaryKey reference? =>
    exact neat_tailText isPrimaryKey reference? <| neat_arguments args? <|
      Neat.spaced (.word name.solid) (.word type.solid)
  case primaryKey constraint? first others =>
    have hprimary : Neat "PRIMARY".toList := .word (.of_firm (by decide) (by decide))
    have h := neat_constraintText constraint?
      ((hprimary.spaced hkey).spaced (neat_listText (first :: others)))
    simpa only [text, List.append_assoc] using h
  case foreignKey constraint? first others table refColumns? =>
    have hforeign : Neat "FOREIGN".toList := .word (.of_firm (by decide) (by decide))
    have h := neat_constraintText constraint? (((hforeign.spaced hkey).spaced
      (neat_listText (first :: others))).spaced (neat_referencesText table refColumns?))
    simpa only [text, List.append_assoc] using h

end SchemaGraph.Declaration
