import SchemaGraph.Proofs.Declaration.Tail

namespace SchemaGraph.Declaration

open Pattern Clause

variable {before : Option Char} {c : Char} {u v w rest raw : List Char} {found : Found}

-- Letters, digits and underscores are plain, so that a type is read like a bare name.

theorem isPlain_of_isWord (h : Text.isWord c) : Identifier.isPlain c := by
  have hb : Text.isBlank c = false := Text.Ranges.not_contains_of_areApart (by decide +kernel) h
  have hne {d} (hd : Text.isWord d = false) : c ≠ d := fun he => by simp [he, hd] at h
  have hp : c ∉ ['\x60', '"', '\'', '\\', '[', ']', '(', ')', ',', ';', '.'] := fun hm => by
    have hd : ∀ d ∈ ['\x60', '"', '\'', '\\', '[', ']', '(', ')', ',', ';', '.'],
        Text.isWord d = false := by decide +kernel
    exact hne (hd c hm) rfl
  simpa [Identifier.isPlain, hb] using hp

def asciiWordRanges : Text.Ranges :=
  [(0x30, 0x39), (0x41, 0x5A), (0x5F, 0x5F), (0x61, 0x7A)]

theorem isWord_of_ascii (h : asciiWordRanges.contains c) : Text.isWord c :=
  Text.Ranges.contains_of_areWithin (by decide +kernel) h

theorem TypeName.isWord (type : TypeName) (hc : c ∈ type.chars) : Text.isWord c := by
  refine isWord_of_ascii ?_
  have h := type.word c hc
  change (((decide (c.val ≥ 65 ∧ c.val ≤ 90) || decide (c.val ≥ 97) && decide (c.val ≤ 122))
    || decide (c.val ≥ 48) && decide (c.val ≤ 57)) || c == '_') = true at h
  simp [UInt32.le_iff_toNat_le] at h
  simp [Text.Ranges.contains, asciiWordRanges]
  rcases h with ((h | h) | h) | h
  · omega
  · omega
  · omega
  · subst h
    decide

theorem Digits.isWord (digits : Digits) (hc : c ∈ digits.chars) : Text.isWord c := by
  refine isWord_of_ascii <| Text.Ranges.contains_iff.mpr
    ⟨(0x30, 0x39), by simp [asciiWordRanges], ?_⟩
  simpa [Char.isDigit, UInt32.le_iff_toNat_le] using digits.digit c hc

def TypeName.plain (type : TypeName) : Identifier.Plain where
  chars := type.chars
  ne := type.ne
  plain _ hc := isPlain_of_isWord (type.isWord hc)

theorem unquote_plain (name : Identifier.Plain) : Identifier.unquote name.chars = name.chars :=
  Identifier.Part.unquote_text_self ⟨name, none⟩

theorem TypeArguments.ne_of_mem_inner (args : TypeArguments) (hc : c ∈ args.inner) : c ≠ ')' := by
  have hdigit (digits : Digits) (hc : c ∈ digits.chars) : c ≠ ')' := fun he => by
    simpa [he] using digits.digit c hc
  unfold inner at hc
  split at hc
  case h_1          => exact hdigit _ hc
  case h_2 second _ =>
    simp at hc
    rcases hc with hc | hc | hc
    · exact hdigit _ hc
    · exact hc ▸ by decide
    · exact hdigit _ hc

theorem takes_arguments (args? : Option TypeArguments)
    (hr : (rest.dropWhile Text.isBlank).head? ≠ some '(') :
    (opt (blanks ++ only '(' ++ run (· != ')') ++ only ')') : Pattern Part).Takes before
      (argumentsText args?) rest [] := by
  cases args?
  case none =>
    have hp : (blanks ++ only '(' : Pattern Part).Fails before rest := by
      refine .run_seq (fun _ => .only hr) fun c hc => ?_
      have hne : c ≠ '(' := fun he => absurd (he ▸ hc) (by decide)
      simpa [only, refuses] using hne
    exact .opt_none hp.seq_left.seq_left
  case some args =>
    have hinner : ∀ c ∈ args.inner, (c != ')') = true :=
      fun c hc => bne_iff_ne.mpr (args.ne_of_mem_inner hc)
    have hblanks {before rest} : (blanks : Pattern Part).Takes before [] (['('] ++ rest) [] :=
      .run (by simp) (head_ne_blank (by decide))
    exact .opt <| .seq (.seq (.seq hblanks (.only '(')) (.run hinner (by simp))) (.only ')')

-- A name of a column: one that does not begin like a constraint.
structure ColumnName extends Identifier.Token where
  name_ne        : toToken.name ≠ []
  not_primaryKey : primaryKeyPattern.refuses toToken.text.head?
  not_foreignKey : foreignKeyPattern.refuses toToken.text.head?
  not_constraint : otherConstraintPattern.refuses toToken.text.head?

def ColumnName.string (name : ColumnName) : String :=
  String.ofList name.name

def Quoted.columnName (q : Quoted) : ColumnName where
  toToken := q.part.token
  name_ne := Identifier.name_token q.part ▸ q.name.ne
  not_primaryKey := by
    show primaryKeyPattern.refuses (some q.style.first)
    cases q.style <;> decide
  not_foreignKey := by
    show foreignKeyPattern.refuses (some q.style.first)
    cases q.style <;> decide
  not_constraint := by
    show otherConstraintPattern.refuses (some q.style.first)
    cases q.style <;> decide

theorem Quoted.text_columnName (q : Quoted) : q.columnName.text = q.text :=
  rfl

theorem Quoted.string_columnName (q : Quoted) : q.columnName.string = q.string :=
  congrArg String.ofList (Identifier.name_token q.part)

def columnText (name : ColumnName) (type : Identifier.Plain) (args? : Option TypeArguments)
    (tail : List Char) : List Char :=
  name.text ++ [' '] ++ type.chars ++ argumentsText args? ++ tail

structure Tail (w : List Char) : Prop where
  space           : ∀ c ∈ w.head?, c = ' '
  not_parenthesis : (w.dropWhile Text.isBlank).head? ≠ some '('

theorem takes_column (name : ColumnName) (type : Identifier.Plain) (args? : Option TypeArguments)
    (hw : Tail w) :
    columnPattern.Takes none (columnText name type args? w) []
      [(.tail, w), (.declaredType, type.chars), (.name, name.text)] := by
  have hname {rest} : (group Part.name Identifier.part).Takes none name.text ([' '] ++ rest)
      [(.name, name.text)] :=
    .group (name.takes_part (by simp; decide)) _
  have hchars : ∀ c ∈ type.chars, (!Text.isBlank c && c != '(' && c != ',') = true := by
    intro c hc
    have := type.plain c hc
    simp [Identifier.isPlain] at this
    simp [this]
  have hspace {before rest} : (gap : Pattern Part).Takes before [' '] (type.chars ++ rest) [] := by
    obtain ⟨c, cs, hc⟩ := List.exists_cons_of_ne_nil type.ne
    have hp := type.plain c (by simp [hc])
    rw [hc]
    exact .space (head_ne_blank (Identifier.not_isBlank_of_isPlain hp))
  have htail : ∀ c ∈ (argumentsText args? ++ (w ++ ([] ++ []))).head?,
      ¬ (!Text.isBlank c && c != '(' && c != ',') = true := by
    intro c hc
    cases args?
    case none =>
      have hc : c = ' ' := hw.space c (by simpa [argumentsText] using hc)
      subst hc
      decide
    case some args =>
      have hc : c = '(' := by simpa [argumentsText, TypeArguments.text, eq_comm] using hc
      subst hc
      decide
  have htype {before} :=
    Takes.group (@Takes.many _ before type.chars _ _ type.ne hchars htail) Part.declaredType
  have harguments {before} := @takes_arguments before (w ++ ([] ++ [])) args?
    (by simpa using hw.not_parenthesis)
  have hrest {before} : (group Part.tail (run fun _ => true)).Takes before w
      ([] ++ []) [(.tail, w)] :=
    .group (.run (by simp) (by simp)) _
  have h := Takes.seq (Takes.seq (Takes.seq (Takes.seq (Takes.seq hname hspace) htype) harguments)
    hrest) Takes.textEnd
  rwa [List.append_nil] at h

def referenceIn (column : String) (tail : List Char) : Option ForeignKey :=
  (inlineReferencePattern.find? tail).map fun (ref : Found) => {
    column
    refTable := ref.refTable
    refColumn := (ref.names .refColumns).headD defaultRefColumn }

theorem classify_columnText (name : ColumnName) (type : Identifier.Plain)
    (args? : Option TypeArguments) (hw : Tail w)
    (h : Text.collapse raw = columnText name type args? w) :
    classify raw = .column name.string (String.ofList type.chars)
      (inlinePrimaryKeyPattern.find? w).isSome (referenceIn name.string w) := by
  have refused {a : Pattern Part} (ha : a.refuses name.text.head?) :
      a.matchText? (columnText name type args? w) = none := by
    refine matchText?_eq_none (fails_of_refuses ?_)
    simp only [columnText, List.append_assoc]
    rwa [List.head?_append_of_ne_nil _ name.text_ne]
  have hprimary := refused name.not_primaryKey
  have hforeign := refused name.not_foreignKey
  have hother := refused name.not_constraint
  obtain ⟨(found : Found), hf, hk⟩ := matchText?_eq_some (takes_column name type args? hw)
  have hname : found.group .name = name.text := by rw [Progress.group_eq, hk]; rfl
  have htype : found.group .declaredType = type.chars := by rw [Progress.group_eq, hk]; rfl
  have htail : found.group .tail = w := by rw [Progress.group_eq, hk]; rfl
  have hn : String.ofList name.name ≠ "" := mt String.ofList_eq_empty_iff.mp name.name_ne
  have ht : String.ofList type.chars ≠ "" := mt String.ofList_eq_empty_iff.mp type.ne
  have he : columnText name type args? w ≠ [] := by simp [columnText]
  rw [classify, h]
  simp only [List.isEmpty_iff, he, hprimary, hforeign, hother, hf, if_false, Option.isSome_none,
    Bool.false_eq_true, ofColumn, hname, htype, htail, name.unquote_text_self, unquote_plain,
    Bool.or_eq_true, String.isEmpty_iff, hn, ht, or_self]
  rfl

theorem tail_tailText (isPrimaryKey : Bool) (reference? : Option (Name × Option Quoted)) :
    Tail (tailText isPrimaryKey reference?) where
  space := head_tailText
  not_parenthesis := not_parenthesis_tailText isPrimaryKey reference?

theorem reference_eq (column : String) (table : Name) (column? : Option Quoted) {found : Found}
    (h : found.texts = keptColumns (column?.map ([·])) ++ [(.refTable, table.text)]) :
    { column
      refTable := found.refTable
      refColumn := (found.names .refColumns).headD defaultRefColumn : ForeignKey } =
      ⟨column, table.string, (column?.map (·.string)).getD defaultColumn⟩ := by
  have hn : found.names .refColumns = _ :=
    names_refColumns (column?.map ([·])) (by rw [h]; cases column? <;> rfl)
  have ht : found.refTable = table.string := refTable_eq table (by rw [h]; cases column? <;> rfl)
  rw [hn, ht]
  cases column? <;> rfl

theorem referenceIn_tailText (column : String) (isPrimaryKey : Bool)
    (reference? : Option (Name × Option Quoted)) :
    referenceIn column (tailText isPrimaryKey reference?) = reference?.map fun (table, column?) =>
      ⟨column, table.string, (column?.map (·.string)).getD defaultColumn⟩ := by
  rcases reference? with _ | ⟨table, column?⟩
  case none => rw [referenceIn, find?_reference_none]; rfl
  case some =>
    obtain ⟨found, hf, hk⟩ := find?_reference_some isPrimaryKey table column?
    rw [referenceIn, hf, Option.map_some, Option.map_some, reference_eq column table column? hk]

theorem classify_column (name : Quoted) (type : TypeName) (args? : Option TypeArguments)
    (isPrimaryKey : Bool) (reference? : Option (Name × Option Quoted))
    (h : Text.collapse raw = (Item.column name type args? isPrimaryKey reference?).text) :
    classify raw = .column name.string (String.ofList type.chars) isPrimaryKey
      (Item.column name type args? isPrimaryKey reference?).foreignKeys.head? := by
  rw [classify_columnText name.columnName type.plain args?
    (tail_tailText isPrimaryKey reference?) h,
    isSome_find?_primaryKey, referenceIn_tailText, name.string_columnName]
  cases reference? <;> rfl

end SchemaGraph.Declaration
