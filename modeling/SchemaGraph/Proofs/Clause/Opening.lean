import SchemaGraph.Clause.Classify
import SchemaGraph.Proofs.Clause.Keyless

-- What a clause begins with can keep it from being a key or a column.
namespace SchemaGraph.Clause

open Identifier Pattern Text

variable {before : Option Char} {c : Char} {u v w cs rest raw : List Char} {word : String}
variable {words : List String} {token : Token} {b : Blanks}

def IsUnrecognized (raw : List Char) : Prop :=
  ∃ fault, classify raw = .unrecognized (String.ofList (collapse raw)) fault

structure KeyFree (cs : List Char) : Prop where
  primaryKey : primaryKeyPattern.Fails none cs
  foreignKey : foreignKeyPattern.Fails none cs

theorem IsUnrecognized.of_keyFree (h : KeyFree (collapse raw)) (hn : collapse raw ≠ [])
    (hc : (otherConstraintPattern.matchText? (collapse raw)).isSome ∨
      columnPattern.Fails none (collapse raw)) : IsUnrecognized raw := by
  rw [IsUnrecognized, classify]
  simp only [List.isEmpty_iff, hn, if_false, matchText?_eq_none h.primaryKey,
    matchText?_eq_none h.foreignKey]
  rcases hc with hc | hc
  · exact ⟨_, if_pos hc⟩
  · simp only [matchText?_eq_none hc]
    split
    case isTrue  => exact ⟨_, rfl⟩
    case isFalse => exact ⟨_, rfl⟩

theorem IsUnrecognized.of_matches (hc : collapse raw = w ++ rest) (hw : w ≠ [])
    (hk : KeyFree (w ++ rest)) (h : otherConstraintPattern.Matches none w rest) :
    IsUnrecognized raw :=
  .of_keyFree (hc ▸ hk) (hc ▸ List.append_ne_nil_of_left_ne_nil hw rest)
    (.inl (hc ▸ isSome_matchText? h))

theorem IsUnrecognized.of_fails (hc : collapse raw = cs) (hn : cs ≠ []) (hk : KeyFree cs)
    (h : columnPattern.Fails none cs) : IsUnrecognized raw :=
  .of_keyFree (hc ▸ hk) (hc ▸ hn) (.inr (hc ▸ h))

theorem KeyFree.of_fails
    (h : ∀ word ∈ ["PRIMARY", "FOREIGN"], (constraintName ++ keyword word).Fails none cs) :
    KeyFree cs where
  primaryKey := (h "PRIMARY" (by decide)).seq_left.seq_left.seq_left.seq_left.seq_left
  foreignKey := (h "FOREIGN" (by decide)).seq_left.seq_left.seq_left.seq_left.seq_left.seq_left

def droppedWords : List String :=
  ["UNIQUE", "CHECK", "EXCLUDE", "INDEX", "KEY", "FULLTEXT", "SPATIAL"]

theorem keyword_fails_of_beginsWith (h : BeginsWith droppedWords cs)
    (hw : word ∈ ["CONSTRAINT", "PRIMARY", "FOREIGN"]) :
    (keyword word : Pattern Part).Fails before cs := by
  have ha : ∀ word ∈ ["CONSTRAINT", "PRIMARY", "FOREIGN"], isKeyword word ∧
      droppedWords.all fun word' =>
        areApart (word.toList.map Char.toLower) (word'.toList.map Char.toLower) := by decide
  exact h.keyword_fails (ha word hw).left (ha word hw).right

theorem keyFree_of_beginsWith (h : BeginsWith droppedWords cs) : KeyFree cs := by
  refine .of_fails fun word hw =>
    .opt_seq ?_ (keyword_fails_of_beginsWith h (List.mem_cons_of_mem _ hw))
  exact (keyword_fails_of_beginsWith h List.mem_cons_self).seq_left.seq_left.seq_left.seq_left

theorem part_gap_keyword_fails (hb : IsSpaced token b) (hk : isKeyword word) (hw : word ≠ "")
    (hr : ∀ c ∈ rest.head?, ¬ isBlank c)
    (h : ∀ before, (keyword word : Pattern Part).Fails before rest) :
    (part ++ (gap ++ keyword word) : Pattern Part).Fails before
      (token.text ++ (b.chars ++ rest)) := by
  refine token.part_seq_fails (fun before => .many_seq (fun before => ?_) ?blank) ?bare hb.not_bare
  case blank => exact fun c hc => refuses_keyword_of_isBlank hk hw hc
  case bare  => exact fun c hc => refuses_seq_left (refuses_many (not_isBlank_of_isBare hc))
  rw [List.dropWhile_append_of_pos b.blank, dropWhile_eq_self hr]
  exact h before

theorem head_text_append (token : Token) : ∀ c ∈ (token.text ++ rest).head?, ¬ isBlank c := by
  rw [List.head?_append_of_ne_nil _ token.text_ne]
  exact fun c hc => by simp [(token.head_text c hc).left]

theorem keyFree_constraint (s : AnySpelling ["CONSTRAINT"]) (name : Naming)
    (hb : IsSpaced name.token b) (h : BeginsWith droppedWords rest) :
    KeyFree (s.chars ++ (name.text ++ (b.chars ++ rest))) := by
  refine .of_fails fun word hw => ?_
  have hk : ∀ word ∈ ["PRIMARY", "FOREIGN"], isKeyword word ∧ word ≠ "" ∧
      ["CONSTRAINT"].all fun word' =>
        areApart (word.toList.map Char.toLower) (word'.toList.map Char.toLower) := by decide
  have ⟨hkeyword, hne, ha⟩ := hk word hw
  have hconstraint := s.beginsWith (fun _ => id) (name.text ++ (b.chars ++ rest))
  have hspells := s.spells (List.mem_singleton.mp s.mem)
  refine .opt_seq (.assoc (.assoc (.assoc (.of_forced (.keyword (by decide) hspells) ?_))))
    (hconstraint.keyword_fails hkeyword ha)
  refine .many_seq (fun before => ?_) fun c hc => refuses_seq_left (part_refuses_of_isBlank hc)
  rw [Naming.text, List.append_assoc, List.dropWhile_append_of_pos name.blanks.blank,
    dropWhile_eq_self (head_text_append name.token)]
  exact part_gap_keyword_fails hb hkeyword hne (h.not_blank (by decide)) fun before =>
    keyword_fails_of_beginsWith h (List.mem_cons_of_mem _ hw)

-- Constraints and indexes that are known as such.

theorem wordEdge_matches (s : AnySpelling words)
    (hk : words.all fun word => isKeyword word && word != "") (hr : ∀ c ∈ rest.head?, ¬ isWord c) :
    (wordEdge : Pattern Part).Matches (behind before s.chars) [] rest := by
  have hn := s.chars_ne hk
  have hlast : isWord (s.chars.getLast hn) :=
    isWord_of_isLetter (s.isLetter hk _ (List.getLast_mem hn))
  have hrest : rest.head?.any isWord = false := by
    cases h : rest.head?
    case none   => rfl
    case some c => simpa using hr c h
  refine ⟨rfl, ?_⟩
  rw [Cursor.atWordEdge, behind_of_ne_nil hn, List.getLast?_eq_getLast_of_ne_nil hn, hrest,
    Option.any_some, hlast]
  rfl

theorem keyword_matches (s : AnySpelling words) (hw : s.word = word) (hk : isKeyword word) :
    (keyword word : Pattern Part).Matches before s.chars rest :=
  (keyword_matches_iff hk).mpr (s.spells hw)

theorem either_matches {word' : String} (s : AnySpelling [word, word'])
    (hk : [word, word'].all isKeyword) :
    (keyword word <|> keyword word' : Pattern Part).Matches before s.chars rest := by
  simp at hk
  exact (List.mem_pair.mp s.mem).imp (keyword_matches s · hk.left) (keyword_matches s · hk.right)

theorem gap_matches (g : Gap) : (gap : Pattern Part).Matches before g.chars rest :=
  many_matches_iff.mpr ⟨g.ne, g.blank⟩

theorem rule_matches (s : AnySpelling ["UNIQUE", "CHECK", "EXCLUDE"])
    (hr : ∀ c ∈ rest.head?, ¬ isWord c) : otherConstraintPattern.Matches none s.chars rest := by
  refine .inl <| .seq_nil (.nil_seq (.inr rfl) ?_) (wordEdge_matches s (by decide) hr)
  rcases List.mem_cons.mp s.mem with hw | hw
  · exact .inl (keyword_matches s hw (by decide))
  · exact .inr (either_matches ⟨s.word, hw, s.spelling⟩ (by decide))

theorem constraint_matches (s : AnySpelling ["CONSTRAINT"]) (hr : ∀ c ∈ rest.head?, ¬ isWord c) :
    otherConstraintPattern.Matches none s.chars rest :=
  .inr <| .inl <| .seq_nil (keyword_matches s (List.mem_singleton.mp s.mem) (by decide))
    (wordEdge_matches s (by decide) hr)

theorem textIndex_matches (s : AnySpelling ["FULLTEXT", "SPATIAL"]) (g : Gap) (s' : IndexWord)
    (hr : ∀ c ∈ rest.head?, ¬ isWord c) :
    otherConstraintPattern.Matches none (s.chars ++ (g.chars ++ s'.chars)) rest := by
  rw [←List.append_assoc]
  refine .inr <| .inr <| .inl <|
    .seq_nil (.seq (.seq (either_matches s (by decide)) (gap_matches g))
      (either_matches s' (by decide))) ?_
  rw [behind_append]
  exact wordEdge_matches s' (by decide) hr

def isArgument (c : Char) : Bool :=
  isDigit c || c == '\''

theorem arguments_fail (hr : ∀ c ∈ (rest.dropWhile isBlank).head?, ¬ isArgument c) :
    (blanks ++ char isArgument : Pattern Part).Fails before rest :=
  .run_seq (fun _ => .char hr) fun c hc => by
    have hq : c ≠ '\'' := fun he => absurd (he ▸ hc) (by decide)
    simp [refuses, isArgument, not_isDigit_of_isBlank hc, hq]

theorem index_matches (s : IndexWord) (b : Blanks) (name? : Option Naming)
    (hn : ∀ name ∈ name?, name.blanks.chars ≠ [])
    (hr : ∀ c ∈ (rest.dropWhile isBlank).head?, ¬ isArgument c) :
    otherConstraintPattern.Matches none (s.chars ++ (nameText name? ++ (b.chars ++ ['('])))
      rest := by
  have hname {before rest} : (opt (gap ++ part) : Pattern Part).Matches before
      (nameText name?) rest := by
    cases name?
    case none      => exact .inr rfl
    case some name =>
      exact .inl (.seq (gap_matches ⟨name.blanks, hn name rfl⟩)
        (part_matches_iff.mpr ⟨name.token, rfl⟩))
  have hblanks {before rest} : (blanks : Pattern Part).Matches before b.chars rest := b.blank
  have hopening {before rest} : (only '(' : Pattern Part).Matches before ['('] rest :=
    ⟨'(', rfl, rfl⟩
  have hword {rest} : (opt (keyword "UNIQUE" ++ gap) ++ (keyword "INDEX" <|> keyword "KEY")
      : Pattern Part).Matches none s.chars rest :=
    .nil_seq (.inr rfl) (either_matches s (by decide))
  rw [←List.append_assoc, ←List.append_assoc]
  exact .inr <| .inr <| .inr <| .inl <|
    .seq_nil (.seq (.seq (.seq hword hname) hblanks) hopening) ⟨rfl, arguments_fail hr⟩

-- Behind the name of a column there are blanks, and then its type. A list is no type.

theorem columnPattern_fails (hw : w ≠ []) (hl : ∀ c ∈ w, isLetter c)
    (hr : ∀ c ∈ rest.head?, ¬ isBare c)
    (h : ∀ before, (gap ++ group Part.declaredType
      (many fun c => !isBlank c && c != '(' && c != ',')).Fails before rest) :
    columnPattern.Fails none (w ++ rest) := by
  let token : Token := ⟨w, hw, none, fun c hc => isBare_of_isLetter (hl c hc)⟩
  have hname : (group Part.name part ++ (gap ++ _)).Fails none (token.text ++ rest) :=
    token.part_seq_fails h (fun c hc => refuses_seq_left (refuses_many (not_isBlank_of_isBare hc)))
      fun _ => hr
  exact hname.assoc.seq_left.seq_left.seq_left

theorem columnPattern_fails_list (hw : w ≠ []) (hl : ∀ c ∈ w, isLetter c) (b : Blanks) :
    columnPattern.Fails none (w ++ (b.chars ++ '(' :: rest)) := by
  have hbare : ∀ c ∈ (b.chars ++ '(' :: rest).head?, ¬ isBare c :=
    forall_head?_blanks b (fun _ hc => not_isBare_of_isBlank hc) fun _ c hc =>
      Option.some.inj hc ▸ by decide
  refine columnPattern_fails hw hl hbare fun before => .many_seq (fun before => ?_) fun c hc => ?_
  · rw [List.dropWhile_append_of_pos b.blank, List.dropWhile_cons_of_neg (by decide)]
    exact fails_of_refuses (refuses_many (by decide))
  · exact refuses_many (by simp [hc])

theorem columnPattern_fails_quoted (hw : w ≠ []) (hl : ∀ c ∈ w, isLetter c)
    (ht : token.style? ≠ none) :
    columnPattern.Fails none (w ++ (token.text ++ rest)) := by
  obtain ⟨chars, hn, style?, hf⟩ := token
  cases style?
  case none       => exact absurd rfl ht
  case some style =>
    have hfirst : isBare style.first = false ∧ isBlank style.first = false := by
      cases style <;> decide
    refine columnPattern_fails hw hl (fun c hc => ?_) fun before =>
      fails_of_refuses <| refuses_seq_left ?_
    · rw [←Option.some.inj hc, hfirst.left]
      exact Bool.false_ne_true
    · exact refuses_many hfirst.right

-- The same for a clause as it is written, with any blanks.

theorem collapse_chars_append (b : Blanks) (s : AnySpelling words)
    (hk : words.all fun word => isKeyword word && word != "") (hl : ∀ c ∈ v.getLast?, ¬ isBlank c) :
    collapse (b.chars ++ (s.chars ++ (v ++ rest))) =
      s.chars ++ (squeeze v ++ squeeze (stripEnd rest)) := by
  have hchars : ∀ c ∈ s.chars.getLast?, ¬ isBlank c := fun c hc =>
    s.not_isBlank hk c (List.mem_of_mem_getLast? hc)
  have hhead : ∀ c ∈ (s.chars ++ v).head?, ¬ isBlank c := by
    rw [List.head?_append_of_ne_nil _ (s.chars_ne hk)]
    exact fun c hc => s.not_isBlank hk c (List.mem_of_mem_head? hc)
  have hlast : ∀ c ∈ (s.chars ++ v).getLast?, ¬ isBlank c := by
    by_cases hv : v = []
    case pos => rwa [hv, List.append_nil]
    case neg => rwa [List.getLast?_append_of_ne_nil _ hv]
  have hne : s.chars ++ v ≠ [] := List.append_ne_nil_of_left_ne_nil (s.chars_ne hk) v
  rw [←List.append_assoc s.chars, collapse_append b.blank hne hhead hlast,
    squeeze_append_of_getLast? hchars, squeeze_eq_self (s.not_isBlank hk), List.append_assoc]

theorem head?_rest (hr : ∀ c ∈ rest.head?, ¬ isWord c) :
    ∀ c ∈ (squeeze (stripEnd rest)).head?, ¬ isWord c := by
  intro c hc
  rcases head?_squeeze hc with hc | rfl
  · exact hr c (head?_trimEnd hc)
  · exact Bool.not_eq_true _ ▸ not_isWord_of_isBlank (by decide)

theorem squeeze_nameText (name? : Option Naming) :
    squeeze (nameText name?) = nameText (name?.map (·.squeeze)) := by
  cases name?
  case none      => rfl
  case some name => exact name.text_squeeze.symm

section
variable (before : Blanks)

theorem isUnrecognized_rule (s : AnySpelling ["UNIQUE", "CHECK", "EXCLUDE"])
    (hr : ∀ c ∈ rest.head?, ¬ isWord c) : IsUnrecognized (before.chars ++ (s.chars ++ rest)) :=
  .of_matches (@collapse_chars_append [] rest _ before s (by decide) (by simp))
    (s.chars_ne (by decide))
    (keyFree_of_beginsWith (s.beginsWith (by decide) _)) (rule_matches s (head?_rest hr))

theorem isUnrecognized_constraint (constraint : ConstraintName)
    (s : AnySpelling ["UNIQUE", "CHECK", "EXCLUDE"]) (rest : List Char) :
    IsUnrecognized (before.chars ++ (constraint.text ++ (s.chars ++ rest))) := by
  obtain ⟨word, name, b, hb⟩ := constraint
  have hs : ∀ c ∈ s.chars, ¬ isBlank c := s.not_isBlank (by decide)
  have hlast : ∀ c ∈ (name.text ++ (b.chars ++ s.chars)).getLast?, ¬ isBlank c := by
    rw [←List.append_assoc, List.getLast?_append_of_ne_nil _ (s.chars_ne (by decide))]
    exact fun c hc => hs c (List.mem_of_mem_getLast? hc)
  have hv : squeeze (name.text ++ (b.chars ++ s.chars)) =
      name.squeeze.text ++ (b.squeeze.chars ++ s.chars) := by
    rw [squeeze_around name.last_text fun c hc => hs c (List.mem_of_mem_head? hc),
      squeeze_eq_self hs, name.text_squeeze]
    rfl
  have hc := @collapse_chars_append _ rest _ before word (by decide) hlast
  rw [hv] at hc
  simp only [ConstraintName.text, List.append_assoc] at hc ⊢
  exact .of_matches hc (word.chars_ne (by decide))
    (keyFree_constraint word name.squeeze hb.squeeze (s.beginsWith (by decide) _))
    (constraint_matches word name.squeeze.not_isWord)

theorem isUnrecognized_textIndex (s : AnySpelling ["FULLTEXT", "SPATIAL"]) (g : Gap)
    (s' : IndexWord) (hr : ∀ c ∈ rest.head?, ¬ isWord c) :
    IsUnrecognized (before.chars ++ (s.chars ++ ((g.chars ++ s'.chars) ++ rest))) := by
  have hs' : ∀ c ∈ s'.chars, ¬ isBlank c := s'.not_isBlank (by decide)
  have hlast : ∀ c ∈ (g.chars ++ s'.chars).getLast?, ¬ isBlank c := by
    rw [List.getLast?_append_of_ne_nil _ (s'.chars_ne (by decide))]
    exact fun c hc => hs' c (List.mem_of_mem_getLast? hc)
  have hv : squeeze (g.chars ++ s'.chars) = g.squeeze.chars ++ s'.chars := by
    rw [squeeze_append fun c hc => hs' c (List.mem_of_mem_head? hc), squeeze_eq_self hs']
    rfl
  have hc := @collapse_chars_append _ rest _ before s (by decide) hlast
  rw [hv] at hc
  have hn : s.chars ++ (g.squeeze.chars ++ s'.chars) ≠ [] := by simp [s.chars_ne (by decide)]
  refine .of_matches (hc.trans (List.append_assoc ..).symm) hn (keyFree_of_beginsWith ?_)
    (textIndex_matches s g.squeeze s' (head?_rest hr))
  rw [List.append_assoc]
  exact s.beginsWith (by decide) _

theorem collapse_list (s : AnySpelling words)
    (hk : words.all fun word => isKeyword word && word != "") (name? : Option Naming) (b : Blanks)
    (rest : List Char) :
    collapse (before.chars ++ (s.chars ++ ((nameText name? ++ (b.chars ++ ['('])) ++ rest))) =
      s.chars ++ ((nameText (name?.map (·.squeeze)) ++ (b.squeeze.chars ++ ['('])) ++
        squeeze (stripEnd rest)) := by
  have hlast : ∀ c ∈ (nameText name?).getLast?, ¬ isBlank c := by
    cases name?
    case none      => simp [nameText]
    case some name => exact name.last_text
  have hparenthesis : ∀ c ∈ ['('].head?, ¬ isBlank c := fun c hc => Option.some.inj hc ▸ by decide
  have hv : squeeze (nameText name? ++ (b.chars ++ ['('])) =
      nameText (name?.map (·.squeeze)) ++ (b.squeeze.chars ++ ['(']) := by
    rw [squeeze_around hlast hparenthesis, squeeze_nameText]
    rfl
  rw [collapse_chars_append before s hk (by simp; decide), hv]

theorem isUnrecognized_index (s : IndexWord) (name? : Option Naming)
    (hn : ∀ name ∈ name?, name.blanks.chars ≠ []) (b : Blanks)
    (hr : ∀ c ∈ (rest.dropWhile isBlank).head?, ¬ isArgument c) :
    IsUnrecognized
      (before.chars ++ (s.chars ++ ((nameText name? ++ (b.chars ++ ['('])) ++ rest))) := by
  have hc := collapse_list before s (by decide) name? b rest
  have hn' : ∀ name ∈ name?.map (·.squeeze), name.blanks.chars ≠ [] := by
    intro _ hm
    obtain ⟨name, hs, rfl⟩ := Option.map_eq_some_iff.mp hm
    exact squeeze_ne_nil (hn name hs)
  refine .of_matches (hc.trans (List.append_assoc ..).symm) (by simp) (keyFree_of_beginsWith ?_)
    (index_matches s b.squeeze _ hn' fun c hc => hr c (head?_dropWhile_squeeze hc))
  rw [List.append_assoc]
  exact s.beginsWith (by decide) _

variable (s : AnySpelling words) (hw : ∀ word ∈ words, word ∈ droppedWords)
include hw

theorem isKeyword_of_subset : words.all fun word => isKeyword word && word != "" :=
  List.all_eq_true.mpr fun word hm =>
    (by decide : ∀ word ∈ droppedWords, (isKeyword word && word != "") = true) word (hw word hm)

theorem isUnrecognized_list (b : Blanks) (rest : List Char) :
    IsUnrecognized (before.chars ++ (s.chars ++ (b.chars ++ '(' :: rest))) := by
  have hk := isKeyword_of_subset hw
  have hc : collapse (before.chars ++ (s.chars ++ (b.chars ++ '(' :: rest))) =
      s.chars ++ (b.squeeze.chars ++ '(' :: squeeze (stripEnd rest)) := by
    simpa [nameText] using collapse_list before s hk none b rest
  exact .of_fails hc (by simp) (keyFree_of_beginsWith (s.beginsWith hw _))
    (columnPattern_fails_list (s.chars_ne hk) (s.isLetter hk) b.squeeze)

theorem isUnrecognized_quoted (name : Naming) (hn : name.blanks.chars = []) (rest : List Char) :
    IsUnrecognized (before.chars ++ (s.chars ++ (name.text ++ rest))) := by
  have hk := isKeyword_of_subset hw
  have hc := @collapse_chars_append _ rest _ before s hk name.last_text
  have hv : squeeze name.text = name.token.squeeze.text := by
    rw [Naming.text, hn, List.nil_append, name.token.text_squeeze]
  rw [hv] at hc
  exact .of_fails hc (by simp [s.chars_ne hk]) (keyFree_of_beginsWith (s.beginsWith hw _))
    (columnPattern_fails_quoted (s.chars_ne hk) (s.isLetter hk) (name.spaced hn))

end

end SchemaGraph.Clause
