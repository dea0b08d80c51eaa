import SchemaGraph.Proofs.Clause.Dropped
import SchemaGraph.Proofs.Declaration.Column
import SchemaGraph.Proofs.Pattern.Kept

-- Indexes that are read as columns all the same.
namespace SchemaGraph.Clause

open Identifier Pattern Text

variable {before : Option Char} {c : Char} {u v w cs rest raw : List Char} {found : Found}
variable {word : String}
variable {words : List String} {token : Token} {b : Blanks}

theorem not_isBlank_of_isLetter_head {token : Token} {u v : List Char}
    (h : w ++ u = token.text ++ v) (hw : w ≠ []) (hl : ∀ c ∈ w, isLetter c) :
    ∀ c ∈ token.text, ¬ isBlank c := by
  obtain ⟨chars, hn, style?, hf⟩ := token
  cases style?
  case none       => exact fun c hc => by simp [not_isBlank_of_isBare (hf c hc)]
  case some style =>
    obtain ⟨d, ds, rfl⟩ := List.exists_cons_of_ne_nil hw
    have hd : d = style.first := (List.cons.inj h).left
    have hletter := hl d List.mem_cons_self
    rw [hd] at hletter
    cases style <;> exact absurd hletter (by decide)

theorem eq_of_append_eq_append {v' : List Char} (h : w ++ v = u ++ v') (hw : ∀ c ∈ w, ¬ isBlank c)
    (hu : ∀ c ∈ u, ¬ isBlank c) (hv : ∀ c ∈ v.head?, isBlank c) (hv' : ∀ c ∈ v'.head?, isBlank c) :
    w = u := by
  have upTo {x y : List Char} (hx : ∀ c ∈ x, ¬ isBlank c) (hy : ∀ c ∈ y.head?, isBlank c) :
      (x ++ y).takeWhile (!isBlank ·) = x := by
    rw [List.takeWhile_append_of_pos (by simpa using hx)]
    cases y
    case nil       => exact List.append_nil x
    case cons c cs => rw [List.takeWhile_cons_of_neg (by simp [hy c rfl]), List.append_nil]
  rw [←upTo hw hv, h, upTo hu hv']

-- What the pattern of a column keeps: a part, and behind some blanks a text without any, which
-- opens no parenthesis and goes over no comma.
theorem exists_of_columnPattern (h : columnPattern.matchText? raw = some found) :
    ∃ (token : Token) (g : Gap) (x r : List Char), raw = token.text ++ (g.chars ++ (x ++ r)) ∧
      found.group .name = token.text ∧ found.group .declaredType = x ∧ x ≠ [] ∧
        ∀ c ∈ x, ¬ isBlank c ∧ c ≠ '(' ∧ c ≠ ',' := by
  obtain ⟨m₅, h₅, hend⟩ := mem_ways_append.mp (mem_ways_of_match? h)
  obtain ⟨m₄, h₄, htail⟩ := mem_ways_append.mp h₅
  obtain ⟨m₃, h₃, hopt⟩ := mem_ways_append.mp h₄
  obtain ⟨m₂, h₂, htype⟩ := mem_ways_append.mp h₃
  obtain ⟨m₁, hname, hgap⟩ := mem_ways_append.mp h₂
  obtain ⟨u, hu, hpart, hkept⟩ := exists_of_mem_ways_group hname
  obtain ⟨g, hg, hblank⟩ := gap.exact.sound hgap
  obtain ⟨x, hx, hchars, hkept'⟩ := exists_of_mem_ways_group htype
  obtain ⟨token, rfl⟩ := part_matches_iff.mp hpart
  have ⟨hgn, hgb⟩ := many_matches_iff.mp hblank
  have ⟨hxn, hxc⟩ := many_matches_iff.mp hchars
  refine ⟨token, ⟨⟨g, hgb⟩, hgn⟩, x, m₃.rest, ?_, ?_, ?_, hxn, fun c hc => ?_⟩
  · rw [←hx.rest_eq, ←hg.rest_eq]
    exact hu.rest_eq
  · rw [group_eq_of_not_mem_labels hend (by decide), group_eq_of_not_mem_labels htail (by decide),
      group_eq_of_not_mem_labels hopt (by decide), group_eq_of_not_mem_labels htype (by decide),
      group_eq_of_not_mem_labels hgap (by decide), hkept]
  · rw [group_eq_of_not_mem_labels hend (by decide), group_eq_of_not_mem_labels htail (by decide),
      group_eq_of_not_mem_labels hopt (by decide), hkept']
  · have := hxc c hc
    simp at this
    exact ⟨by simp [this], this.left.right, this.right⟩

theorem groups_of_matchText? (hw : w ≠ []) (hl : ∀ c ∈ w, isLetter c)
    (hr : ∀ c ∈ rest.head?, isBlank c) (h : columnPattern.matchText? (w ++ rest) = some found) :
    found.group .name = w ∧ found.group .declaredType ≠ [] ∧
      found.group .declaredType <+: rest.dropWhile isBlank := by
  obtain ⟨token, g, x, r, htext, hname, htype, hxn, hxb⟩ := exists_of_columnPattern h
  have hghead : ∀ c ∈ (g.chars ++ (x ++ r)).head?, isBlank c := by
    rw [List.head?_append_of_ne_nil _ g.ne]
    exact fun c hc => g.blank c (List.mem_of_mem_head? hc)
  have hxhead : ∀ c ∈ (x ++ r).head?, ¬ isBlank c := by
    rw [List.head?_append_of_ne_nil _ hxn]
    exact fun c hc => (hxb c (List.mem_of_mem_head? hc)).left
  have hwb : ∀ c ∈ w, ¬ isBlank c := fun c hc => by simp [not_isBlank_of_isLetter (hl c hc)]
  have he : w = token.text :=
    eq_of_append_eq_append htext hwb (not_isBlank_of_isLetter_head htext hw hl) hr hghead
  have hrest : rest = g.chars ++ (x ++ r) := List.append_cancel_left (he ▸ htext)
  refine ⟨hname.trans he.symm, htype ▸ hxn, htype ▸ ?_⟩
  rw [hrest, List.dropWhile_append_of_pos g.blank, dropWhile_eq_self hxhead]
  exact List.prefix_append x r

theorem columnPattern_matches (hw : w ≠ []) (hl : ∀ c ∈ w, isLetter c) (g : Gap) (hc : isBare c) :
    columnPattern.Matches none (w ++ g.chars ++ [c] ++ rest) [] := by
  have hname {before rest} : (part : Pattern Part).Matches before w rest :=
    part_matches_iff.mpr ⟨⟨w, hw, none, fun c hc => isBare_of_isLetter (hl c hc)⟩, rfl⟩
  have hchar : (!isBlank c && c != '(' && c != ',') = true := by
    simp [isBare] at hc
    simp [hc]
  have htype {before rest} : (many fun c => !isBlank c && c != '(' && c != ','
      : Pattern Part).Matches before [c] rest :=
    many_matches_iff.mpr ⟨by simp, by simpa using hchar⟩
  exact .seq_nil (.seq (.seq_nil (.seq (.seq hname (gap_matches g)) htype) (.inr rfl))
    fun _ _ => rfl)
    ⟨rfl, rfl⟩

-- A name that is not in quotes stands behind blanks, and a type can begin with what it begins with.

def Naming.gap (name : Naming) (hs : name.token.style? = none) : Gap :=
  ⟨name.blanks, fun hn => name.spaced hn hs⟩

theorem exists_text_cons (hs : token.style? = none) : ∃ c cs, token.text = c :: cs ∧ isBare c := by
  obtain ⟨chars, hn, style?, hf⟩ := token
  subst hs
  obtain ⟨c, cs, rfl⟩ := List.exists_cons_of_ne_nil hn
  exact ⟨c, cs, rfl, hf c List.mem_cons_self⟩

def IsColumn (raw name : List Char) : Prop :=
  ∃ declaredType isPrimaryKey reference?,
    classify raw = .column (String.ofList name) declaredType isPrimaryKey reference?

theorem classify_eq_ofColumn (hn : collapse raw ≠ []) (hfree : KeyFree (collapse raw))
    (ho : otherConstraintPattern.Fails none (collapse raw))
    (hf : columnPattern.matchText? (collapse raw) = some found) :
    classify raw = ofColumn (collapse raw) found := by
  rw [classify]
  simp only [List.isEmpty_iff, hn, if_false, matchText?_eq_none hfree.primaryKey,
    matchText?_eq_none hfree.foreignKey, matchText?_eq_none ho, Option.isSome_none,
    Bool.false_eq_true, hf]

theorem isColumn_of_fails (s : AnySpelling words)
    (hk : words.all fun word => isKeyword word && word != "") (name : Naming)
    (hs : name.token.style? = none) (h : collapse raw = s.chars ++ (name.text ++ rest))
    (hfree : KeyFree (collapse raw)) (ho : otherConstraintPattern.Fails none (collapse raw)) :
    IsColumn raw s.chars := by
  have hn := s.chars_ne hk
  have hl := s.isLetter hk
  let g := name.gap hs
  obtain ⟨c, cs, hcons, hc⟩ := exists_text_cons hs
  have h : collapse raw = s.chars ++ (g.chars ++ c :: (cs ++ rest)) := by
    rw [h, Naming.text, hcons, List.append_assoc]
    rfl
  have hmatch := isSome_matchText? (@columnPattern_matches c s.chars (cs ++ rest) hn hl g hc)
  have htext : s.chars ++ g.chars ++ [c] ++ (cs ++ rest) ++ [] = collapse raw := by simp [h]
  rw [htext] at hmatch
  obtain ⟨(found : Found), hf⟩ := Option.isSome_iff_exists.mp hmatch
  have hhead : ∀ d ∈ (g.chars ++ c :: (cs ++ rest)).head?, isBlank d := by
    rw [List.head?_append_of_ne_nil _ g.ne]
    exact fun d hd => g.blank d (List.mem_of_mem_head? hd)
  obtain ⟨hname, hx, hprefix⟩ := groups_of_matchText? hn hl hhead (h ▸ hf)
  rw [List.dropWhile_append_of_pos g.blank,
    List.dropWhile_cons_of_neg (by simp [not_isBlank_of_isBare hc])] at hprefix
  obtain ⟨d, ds, hd⟩ := List.exists_cons_of_ne_nil hx
  rw [hd, List.cons_prefix_cons] at hprefix
  obtain ⟨es, hes⟩ := exists_unquote_cons hc ds
  have htype : unquote (found.group .declaredType) = c :: es := by rw [hd, hprefix.left, hes]
  have hplain : unquote s.chars = s.chars := Declaration.unquote_plain
    ⟨s.chars, hn, fun c hc => Declaration.isPlain_of_isWord (isWord_of_isLetter (hl c hc))⟩
  have hne : collapse raw ≠ [] := by simp [h]
  rw [IsColumn, classify_eq_ofColumn hne hfree ho hf, ofColumn]
  simp only [hname, hplain, htype, Bool.or_eq_true, String.isEmpty_iff, String.ofList_eq_empty_iff,
    hn, List.cons_ne_nil, or_self, if_false]
  exact ⟨_, _, _, rfl⟩

def indexWords : List String :=
  ["INDEX", "KEY", "FULLTEXT", "SPATIAL"]

theorem indexWord_fails (h : BeginsWith indexWords cs)
    (hw : word ∈ ["UNIQUE", "CHECK", "EXCLUDE", "CONSTRAINT", "PRIMARY", "FOREIGN"]) :
    (keyword word : Pattern Part).Fails before cs := by
  have ha : ∀ word ∈ ["UNIQUE", "CHECK", "EXCLUDE", "CONSTRAINT", "PRIMARY", "FOREIGN"],
      isKeyword word ∧ indexWords.all fun word' =>
        areApart (word.toList.map Char.toLower) (word'.toList.map Char.toLower) := by decide
  exact h.keyword_fails (ha word hw).left (ha word hw).right

theorem otherConstraintPattern_fails (h : BeginsWith indexWords cs)
    (ht : ((keyword "FULLTEXT" <|> keyword "SPATIAL") ++ gap ++ (keyword "INDEX" <|> keyword "KEY")
      ++ wordEdge : Pattern Part).Fails none cs)
    (hi : indexPattern.Fails none cs) : otherConstraintPattern.Fails none cs := by
  have fails {word}
      (hw : word ∈ ["UNIQUE", "CHECK", "EXCLUDE", "CONSTRAINT", "PRIMARY", "FOREIGN"]) :
      (keyword word : Pattern Part).Fails none cs := indexWord_fails h hw
  have hrule :
      (keyword "UNIQUE" <|> keyword "CHECK" <|> keyword "EXCLUDE" : Pattern Part).Fails none cs :=
    .alt (fails (by decide)) (.alt (fails (by decide)) (fails (by decide)))
  have hconstraint : (keyword "CONSTRAINT" : Pattern Part).Fails none cs := fails (by decide)
  refine .alt (.seq_left ?_) <| .alt hconstraint.seq_left <| .alt ht <| .alt hi <|
    .alt (fails (by decide)).seq_left.seq_left.seq_left
      (fails (by decide)).seq_left.seq_left.seq_left
  exact .opt_seq hconstraint.seq_left.seq_left.seq_left.seq_left hrule

theorem keyword_forced (s : AnySpelling words) (hk : isKeyword word)
    (h : ∀ word' ∈ words, word' ≠ word →
      areApart (word.toList.map Char.toLower) (word'.toList.map Char.toLower)) :
    (keyword word : Pattern Part).Forced before s.chars rest := by
  by_cases hw : s.word = word
  case pos => exact .keyword hk (s.spells hw)
  case neg => exact .of_fails (.keyword hk (by rw [s.spells rfl]; exact h s.word s.mem hw))

theorem textIndex_fails (s : AnySpelling ["FULLTEXT", "SPATIAL"]) (b : Blanks)
    (hr : ∀ c ∈ rest.head?, ¬ isBlank c)
    (h : ∀ before, ((keyword "INDEX" <|> keyword "KEY") ++ wordEdge : Pattern Part).Fails
      before rest) :
    otherConstraintPattern.Fails none (s.chars ++ (b.chars ++ rest)) := by
  have hb := s.beginsWith (fun _ => id) (b.chars ++ rest)
  have hi : BeginsWith indexWords (s.chars ++ (b.chars ++ rest)) := hb.mono (by decide)
  refine otherConstraintPattern_fails hi
    (.assoc <| .assoc <| .of_forced ?forced <| .many_seq (fun before => ?inner) ?blank)
    (.seq_left <| .seq_left <| .seq_left <| .seq_left <| .opt_seq ?_ ?index)
  case forced =>
    exact .alt (keyword_forced s (by decide) (by decide)) (keyword_forced s (by decide) (by decide))
  case inner  =>
    rw [List.dropWhile_append_of_pos b.blank, dropWhile_eq_self hr]
    exact h before
  case blank  =>
    exact fun c hc => refuses_seq_left <| refuses_alt
      (refuses_keyword_of_isBlank (by decide) (by decide) hc)
      (refuses_keyword_of_isBlank (by decide) (by decide) hc)
  case index  =>
    exact .alt (hb.keyword_fails (by decide) (by decide)) (hb.keyword_fails (by decide) (by decide))
  exact (indexWord_fails hi (by decide)).seq_left.seq_left

theorem head_ne_parenthesis (token : Token) : ∀ c ∈ (token.text ++ rest).head?, c ≠ '(' := by
  obtain ⟨chars, hn, style?, hf⟩ := token
  intro c hc
  rw [List.head?_append_of_ne_nil _ (Token.text_ne _)] at hc
  cases style?
  case some style =>
    rw [←Option.some.inj hc]
    cases style <;> decide
  case none       =>
    rintro rfl
    exact absurd (hf _ (List.mem_of_mem_head? hc)) (by decide)

theorem list_fails (hu : ∀ c ∈ u, isBlank c) (hv : ∀ c ∈ v.head?, ¬ isBlank c ∧ c ≠ '(') :
    (blanks ++ only '(' : Pattern Part).Fails before (u ++ v) := by
  refine .run_seq (fun _ => ?_) fun c hc => ?_
  · rw [List.dropWhile_append_of_pos hu, dropWhile_eq_self fun c hc => (hv c hc).left]
    exact .only fun he => (hv _ he).right rfl
  · have hne : c ≠ '(' := fun he => absurd (he ▸ hc) (by decide)
    simp [refuses, only, hne]

theorem list_refuses_of_isBare (hc : isBare c) :
    (blanks ++ only '(' : Pattern Part).refuses (some c) := by
  have hne : c ≠ '(' := fun he => absurd (he ▸ hc) (by decide)
  show (refuses (.seq (.run isBlank) (.char (· == '('))) (some c)) = true
  simp [refuses, stays, not_isBlank_of_isBare hc, hne]

theorem index_fails (s : IndexWord) (name : Naming) (hb : IsSpaced name.token b)
    (hr : ∀ c ∈ rest.head?, ¬ isBlank c ∧ c ≠ '(') :
    otherConstraintPattern.Fails none (s.chars ++ (name.text ++ (b.chars ++ rest))) := by
  have hs := s.beginsWith (fun _ => id) (name.text ++ (b.chars ++ rest))
  have hi : BeginsWith indexWords _ := hs.mono (by decide)
  refine otherConstraintPattern_fails hi ?text <| .seq_left <| .assoc <| .assoc <| .assoc <|
    .opt_seq ?_ <| .of_forced ?forced <|
      .opt_seq (.assoc (.many_seq (fun before => ?named) ?blank)) ?unnamed
  case text    =>
    exact (Fails.alt (hs.keyword_fails (by decide) (by decide))
      (hs.keyword_fails (by decide) (by decide))).seq_left.seq_left.seq_left
  case forced  =>
    exact .alt (keyword_forced s (by decide) (by decide)) (keyword_forced s (by decide) (by decide))
  case blank   => exact fun c hc => refuses_seq_left (part_refuses_of_isBlank hc)
  case unnamed =>
    rw [Naming.text, List.append_assoc]
    exact list_fails name.blanks.blank fun c hc =>
      ⟨head_text_append name.token c hc, head_ne_parenthesis name.token c hc⟩
  case named   =>
    rw [Naming.text, List.append_assoc, List.dropWhile_append_of_pos name.blanks.blank,
      dropWhile_eq_self (head_text_append name.token)]
    exact name.token.part_seq_fails (fun before => list_fails b.blank hr)
      (fun c => list_refuses_of_isBare) hb.not_bare
  exact (indexWord_fails hi (by decide)).seq_left.seq_left

-- Within letters, digits and underscores no word ends.
theorem keyword_wordEdge_fails (hk : isKeyword word ∧ word ≠ "") (hw : ∀ c ∈ w, isWord c)
    (hn : ¬ Spells word w) (hr : ∀ c ∈ rest.head?, ¬ isWord c) :
    (keyword word ++ wordEdge : Pattern Part).Fails before (w ++ rest) := by
  refine .seq_right fun u v ht hu => ?_
  have hs := (keyword_matches_iff hk.left).mp hu
  have hletter : ∀ c ∈ u, isWord c := fun c hc => isWord_of_isLetter (hs.isLetter hk.left c hc)
  rintro x y rfl ⟨rfl, he⟩
  rcases List.append_eq_append_iff.mp ht with ⟨u', rfl, hr'⟩ | ⟨w', rfl, hy⟩
  case inl =>
    cases u'
    case nil       => exact hn (by simpa using hs)
    case cons c cs => exact hr c (by simp [hr']) (hletter c (by simp))
  case inr =>
    cases w'
    case nil       => exact hn (by simpa using hs)
    case cons c cs =>
      have hne : u ≠ [] :=
        (⟨word, List.mem_singleton_self word, u, hs⟩ : AnySpelling [word]).chars_ne (by simp [hk])
      rw [List.nil_append] at hy
      rw [Cursor.atWordEdge, hy, behind_of_ne_nil hne, List.getLast?_eq_getLast_of_ne_nil hne] at he
      simp [hw c (by simp), hletter (u.getLast hne) (List.getLast_mem hne)] at he

section
variable (before : Blanks)

theorem isColumn_index (s : IndexWord) (name : Naming) (hs : name.token.style? = none)
    (hb : IsSpaced name.token b) (h : BeginsWith ["USING", "BTREE", "HASH"] rest) :
    IsColumn (before.chars ++ (s.chars ++ (name.text ++ (b.chars ++ rest)))) s.chars := by
  obtain ⟨c, cs, rfl, hletter⟩ := h.head_isLetter (by decide)
  have hc : ¬ isBlank c ∧ c ≠ '(' :=
    ⟨by simp [not_isBlank_of_isLetter hletter], ne_of_isLetter hletter (by decide)⟩
  have hblank : ∀ d ∈ [c].head?, ¬ isBlank d := by simpa using hc.left
  have hv : squeeze (name.text ++ (b.chars ++ [c])) =
      name.squeeze.text ++ (b.squeeze.chars ++ [c]) := by
    have hs : squeeze [c] = [c] := squeeze_eq_self (by simpa using hc.left)
    rw [squeeze_around name.last_text hblank, name.text_squeeze, hs]
    rfl
  have hlast : ∀ d ∈ (name.text ++ (b.chars ++ [c])).getLast?, ¬ isBlank d := by simpa using hc.left
  have hcollapse := @collapse_chars_append _ cs _ before s (by decide) hlast
  rw [hv] at hcollapse
  simp only [List.append_assoc, List.singleton_append] at hcollapse
  refine isColumn_of_fails s (by decide) name.squeeze hs hcollapse ?_ ?_
  · exact hcollapse ▸ keyFree_of_beginsWith (s.beginsWith (by decide) _)
  · exact hcollapse ▸ index_fails s name.squeeze hb.squeeze (by simpa using hc)

theorem isColumn_textIndex (s : AnySpelling ["FULLTEXT", "SPATIAL"]) (name : Naming)
    (hs : name.token.style? = none) (hw : ∀ c ∈ name.token.text, isWord c)
    (hn : ∀ word ∈ ["INDEX", "KEY"], ¬ Spells word name.token.text)
    (hr : ∀ c ∈ rest.head?, ¬ isWord c) :
    IsColumn (before.chars ++ (s.chars ++ (name.text ++ rest))) s.chars := by
  have hcollapse := @collapse_chars_append _ rest _ before s (by decide) name.last_text
  rw [←name.text_squeeze] at hcollapse
  have htoken : name.squeeze.token.text = name.token.text := name.token.text_squeeze.trans <|
    squeeze_eq_self fun c hc hb => by simpa [not_isWord_of_isBlank hb] using hw c hc
  refine isColumn_of_fails s (by decide) name.squeeze hs hcollapse ?_ ?_
  · exact hcollapse ▸ keyFree_of_beginsWith (s.beginsWith (by decide) _)
  · rw [hcollapse, Naming.text, List.append_assoc]
    refine textIndex_fails s name.squeeze.blanks (head_text_append _) fun before => ?_
    rw [htoken]
    exact .alt_seq (keyword_wordEdge_fails (by decide) hw (hn _ (by decide)) (head?_rest hr))
      (keyword_wordEdge_fails (by decide) hw (hn _ (by decide)) (head?_rest hr))

end

namespace Keyless

variable (before behind : Blanks)

-- In a clause without a name, the word for how the index is kept stands where a name could.
def wordNaming (u : Using) (hu : u.blanks.chars ≠ []) : Naming where
  blanks := u.blanks
  token  :=
    let s : AnySpelling ["USING"] := ⟨"USING", by decide, u.word⟩
    ⟨s.chars, s.chars_ne (by decide), none,
      fun c hc => isBare_of_isLetter (s.isLetter (by decide) c hc)⟩
  spaced := fun h => absurd h hu

theorem isColumn_using (word : IndexWord) (name? : Option Naming) (u : Using) (list : Listing)
    (hs : ∀ name ∈ name?, name.token.style? = none) (hu : u.blanks.chars ≠ []) :
    IsColumn (before.chars ++ ((index none word name? (some u) list).text ++ behind.chars))
      word.chars := by
  simp only [text, Option.elim_none, List.nil_append, usingText, Option.elim_some,
    List.append_assoc]
  cases name?
  case some name =>
    exact isColumn_index before word name (hs name rfl) (fun h => absurd h hu)
      (u.word.beginsWith (by decide) _)
  case none      =>
    have hspaced : IsSpaced (wordNaming u hu).token u.gap.toBlanks := fun h => absurd h u.gap.ne
    have h := isColumn_index before word (wordNaming u hu) rfl hspaced
      (u.method.beginsWith (by decide) (list.text ++ behind.chars))
    rw [Naming.text, List.append_assoc] at h
    exact h

theorem isColumn_named (word : AnySpelling ["FULLTEXT", "SPATIAL"]) (name : Naming) (list : Listing)
    (hs : name.token.style? = none) (hw : ∀ c ∈ name.token.text, isWord c)
    (hn : ∀ word ∈ ["INDEX", "KEY"], ¬ Spells word name.token.text) :
    IsColumn (before.chars ++ ((textIndex word none (some name) list).text ++ behind.chars))
      word.chars := by
  have h := isColumn_textIndex before word name hs hw hn (@not_isWord_list behind.chars list)
  simpa [text, indexText, nameText] using h

-- No name is in quotes, and blanks stand in front of `USING`. The name of an index over text is
-- none of the words that could stand there.
def IsBare : Keyless → Prop
  | index _ _ name? using? _ =>
    (∀ name ∈ name?, name.token.style? = none) ∧ ∀ u ∈ using?, u.blanks.chars ≠ []
  | textIndex _ _ name? _    => ∀ name ∈ name?, name.token.style? = none ∧
    (∀ c ∈ name.token.text, isWord c) ∧ ∀ word ∈ ["INDEX", "KEY"], ¬ Spells word name.token.text
  | constraint ..            => True

theorem isColumn_of_isMisread (clause : Keyless) (h : clause.IsMisread) (hb : clause.IsBare) :
    ∃ name, IsColumn (before.chars ++ (clause.text ++ behind.chars)) name := by
  cases clause
  case index unique? word name? using? list =>
    match unique?, using?, h with
    | none, some u, _ =>
      exact ⟨_, isColumn_using before behind word name? u list hb.left (hb.right u rfl)⟩
  case textIndex word index? name? list     =>
    match index?, name?, h with
    | none, some name, _ =>
      have ⟨hs, hw, hn⟩ := hb name rfl
      exact ⟨_, isColumn_named before behind word name list hs hw hn⟩
  case constraint                           => exact h.elim

-- Among the clauses without quotes these are the only ones that are not dropped.
theorem isDropped_iff_not_isMisread (clause : Keyless) (hb : clause.IsBare) :
    IsDropped (before.chars ++ (clause.text ++ behind.chars)) ↔ ¬ clause.IsMisread where
  mp hd hm := by
    have ⟨_, hu⟩ := hd.unrecognized
    have ⟨_, _, _, _, hc⟩ := clause.isColumn_of_isMisread before behind hm hb
    exact absurd (hu.symm.trans hc) (by simp)
  mpr hm   := isDropped_of_isUnrecognized (clause.isUnrecognized before behind hm)

end Keyless

end SchemaGraph.Clause
