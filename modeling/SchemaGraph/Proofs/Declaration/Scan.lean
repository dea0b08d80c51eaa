import SchemaGraph.Proofs.Declaration.Column
import SchemaGraph.Proofs.Identifier.Scan

namespace SchemaGraph.Declaration

open Scan

variable {c : Char} {v : List Char} {d e : Nat}

-- Every item leaves the scan outside and at the depth at which it found it.

theorem isIdle_of_isWord (h : Text.isWord c) : isIdle c :=
  Identifier.isIdle_of_isPlain (isPlain_of_isWord h)

theorem Digits.idle (digits : Digits) : ∀ c ∈ digits.chars, isIdle c :=
  fun _ hc => isIdle_of_isWord (digits.isWord hc)

theorem Quoted.passes (q : Quoted) (h : Passes d v e) (hv : ∀ c ∈ v.head?, Mode.opens c = false) :
    Passes d (q.text ++ v) e :=
  q.style.passes q.name h hv

theorem Name.passes (name : Name) (h : Passes d v e) (hv : ∀ c ∈ v.head?, Mode.opens c = false) :
    Passes d (name.text ++ v) e :=
  name.dotted_text ▸ name.dotted.passes h hv

theorem passes_listText (qs : List Quoted) (h : Passes d v e) : Passes d (listText qs ++ v) e := by
  have inner (h : Passes d v e) : Passes (d + 1) (innerText qs ++ ')' :: v) e := by
    induction qs
    case nil          => exact .closing h
    case cons q qs hi =>
      cases qs
      case nil => simpa [innerText] using q.passes (.closing h) (by simp [Mode.opens])
      case cons q' qs =>
        have hp := q.passes (.comma (.cons (by decide : isIdle ' ') hi)) (by simp [Mode.opens])
        simpa [innerText] using hp
  simpa [listText] using Passes.opening (inner h)

theorem passes_arguments (args? : Option TypeArguments) (h : Passes d v e) :
    Passes d (argumentsText args? ++ v) e := by
  cases args?
  case none      => exact h
  case some args =>
    obtain ⟨first, second?⟩ := args
    cases second?
    case none =>
      simpa [argumentsText, TypeArguments.text, TypeArguments.inner] using
        Passes.opening (.idle first.idle (.closing h))
    case some second =>
      simpa [argumentsText, TypeArguments.text, TypeArguments.inner] using
        Passes.opening (.idle first.idle (.comma (.idle second.idle (.closing h))))

theorem passes_columnsText (columns? : Option (List Quoted)) (h : Passes d v e) :
    Passes d (columnsText columns? ++ v) e := by
  cases columns?
  case none    => exact h
  case some qs => exact .cons (by decide) (passes_listText qs h)

theorem passes_referencesText (table : Name) (columns? : Option (List Quoted)) :
    Passes d (referencesText table columns?) d := by
  have hcolumns := passes_columnsText columns? (@Passes.nil d)
  have hopens : ∀ c ∈ (columnsText columns? ++ []).head?, Mode.opens c = false := by
    cases columns? <;> simp [columnsText, Mode.opens]
  have hword : ∀ c ∈ "REFERENCES".toList ++ [' '], isIdle c := by decide
  have h := Passes.idle hword (table.passes hcolumns hopens)
  rwa [List.append_nil, ←List.append_assoc] at h

theorem passes_constraintText (constraint? : Option Quoted) (h : Passes d v e) :
    Passes d (constraintText constraint? ++ v) e := by
  cases constraint?
  case none   => exact h
  case some q =>
    have hword : ∀ c ∈ "CONSTRAINT".toList ++ [' '], isIdle c := by decide
    have hspace : ∀ c ∈ [' '], isIdle c := by decide
    have h := Passes.idle hword (q.passes (.idle hspace h) (by simp [Mode.opens]))
    rwa [←List.append_assoc, ←List.append_assoc] at h

theorem passes_tailText (isPrimaryKey : Bool) (reference? : Option (Name × Option Quoted)) :
    Passes d (tailText isPrimaryKey reference?) d := by
  have hkey : ∀ c ∈ keyText isPrimaryKey, isIdle c := by cases isPrimaryKey <;> decide
  refine .idle hkey ?_
  rcases reference? with _ | ⟨table, column?⟩
  case none => exact .nil
  case some => exact .cons (by decide) (passes_referencesText table _)

theorem Item.passes (item : Item) : Passes d item.text d := by
  cases item
  case column name type args? isPrimaryKey reference? =>
    have htype : ∀ c ∈ [' '] ++ type.chars, isIdle c :=
      List.forall_mem_append.mpr ⟨by decide, fun c hc => isIdle_of_isWord (type.isWord hc)⟩
    have htail := passes_arguments args? (@passes_tailText d isPrimaryKey reference?)
    have h := name.passes (.idle htype htail) (by simp [Mode.opens])
    simpa only [text, tailText, List.append_assoc] using h
  case primaryKey constraint? first others =>
    have hwords : ∀ c ∈ "PRIMARY".toList ++ [' '] ++ "KEY".toList ++ [' '], isIdle c := by decide
    have hlist := passes_listText (first :: others) (@Passes.nil d)
    have h := passes_constraintText constraint? (.idle hwords hlist)
    simpa only [text, List.append_assoc, List.append_nil] using h
  case foreignKey constraint? first others table refColumns? =>
    have hwords : ∀ c ∈ "FOREIGN".toList ++ [' '] ++ "KEY".toList ++ [' '], isIdle c := by decide
    have hreferences : Passes d ([' '] ++ referencesText table refColumns?) d :=
      .cons (by decide) (passes_referencesText table refColumns?)
    have hlist := passes_listText (first :: others) hreferences
    have h := passes_constraintText constraint? (.idle hwords hlist)
    simpa only [text, List.append_assoc] using h

end SchemaGraph.Declaration
