import SchemaGraph.Proofs.Pattern.Unambiguous
import SchemaGraph.Proofs.Statement.Header

-- That a header can be matched in one way only.
namespace SchemaGraph

open Pattern

variable {γ : Type} {p : List Char → Prop} {text : List Char} {c : Char}

namespace Identifier

theorem unambiguous_quotedPart {first last : Char} :
    (quotedPart first last : Pattern γ).Unambiguous p :=
  .seq (.seq .char (.many fun text h => by simp [h.head_of_only])) .char

theorem not_then_of_quotedPart {first last : Char} {a : Pattern γ} (ha : a.refuses (some first))
    (h : (quotedPart first last : Pattern γ).Then p text) : ¬ a.Then p text := by
  have hh := h.of_seq.of_seq.head_of_only
  exact Fails.not_then fun _ => fails_of_refuses (hh ▸ ha)

theorem unambiguous_part (hp : ∀ text, p text → ∀ c ∈ text.head?, ¬ isBare c) :
    (part : Pattern γ).Unambiguous p := by
  have quoted {first last c : Char} (h : c ≠ first) :
      (quotedPart first last : Pattern γ).refuses (some c) :=
    Style.quotedPart_refuses h
  have bare {c : Char} (h : isBare c = false) : (barePart : Pattern γ).refuses (some c) :=
    refuses_many h
  refine .alt unambiguous_quotedPart (.alt unambiguous_quotedPart
    (.alt unambiguous_quotedPart (.alt unambiguous_quotedPart (.many hp) ?_) ?_) ?_) ?_
  · exact fun _ => not_then_of_quotedPart (bare (by decide))
  · exact fun _ => not_then_of_quotedPart (refuses_alt (quoted (by decide)) (bare (by decide)))
  · exact fun _ => not_then_of_quotedPart <|
      refuses_alt (quoted (by decide)) <| refuses_alt (quoted (by decide)) (bare (by decide))
  · exact fun _ => not_then_of_quotedPart <| refuses_alt (quoted (by decide)) <|
      refuses_alt (quoted (by decide)) <| refuses_alt (quoted (by decide)) (bare (by decide))

theorem not_blank_of_then_part (h : (part : Pattern γ).Then p text) :
    ∀ c ∈ text.head?, ¬ Text.isBlank c := by
  obtain ⟨_, w, rest, rfl, hm, _⟩ := h
  obtain ⟨token, rfl⟩ := part_matches_iff.mp hm
  rw [List.head?_append_of_ne_nil _ token.text_ne]
  exact fun c hc => by simp [(token.head_text c hc).left]

theorem unambiguous_link (hp : ∀ text, p text → ∀ c ∈ text.head?, ¬ isBare c) :
    (blanks ++ only '.' ++ blanks ++ part : Pattern γ).Unambiguous p := by
  exact .seq (.seq (.seq (.run fun _ h => h.not_blank_of_only (by decide)) .char)
    (.run fun _ => not_blank_of_then_part)) (unambiguous_part hp)

theorem unambiguous_qualified (hp : ∀ text, p text → Ends text) :
    (qualified : Pattern γ).Unambiguous p := by
  have hlinks (text)
      (h : (repeated (blanks ++ only '.' ++ blanks ++ part) : Pattern γ).Then p text) :
      ∀ c ∈ text.head?, ¬ isBare c := by
    obtain ⟨_, w, rest, rfl, hm, hrest⟩ := h
    obtain ⟨links, rfl⟩ := repeats_iff.mp hm
    exact not_bare_links links (hp rest hrest).not_bare
  exact .seq (unambiguous_part hlinks) <| .repeated (unambiguous_link hlinks) fun text h =>
    Fails.not_then fun _ => (hp text h).link_fails

end Identifier

namespace Statement

def Opens (text : List Char) : Prop :=
  (text.dropWhile Text.isBlank).head? = some '('

def NameOpens (text : List Char) : Prop :=
  ∃ name : Identifier.Spelled, ∃ rest, text = name.text ++ rest ∧ Opens rest

theorem Opens.not_bare (h : Opens text) : ∀ c ∈ text.head?, ¬ Identifier.isBare c := by
  cases text
  case nil       => simp
  case cons c cs =>
    intro d hd
    obtain rfl : c = d := by simpa using hd
    by_cases hc : Text.isBlank c
    case pos => exact Identifier.not_isBare_of_isBlank hc
    case neg =>
      obtain rfl : c = '(' := by simpa [Opens, hc] using h
      decide

theorem Opens.ends (h : Opens text) : Identifier.Ends text where
  not_bare := h.not_bare
  not_dot  := by
    rw [Opens] at h
    rw [h]
    decide

theorem NameOpens.not_blank (h : NameOpens text) : ∀ c ∈ text.head?, ¬ Text.isBlank c := by
  obtain ⟨name, rest, rfl, _⟩ := h
  exact Header.not_blank_name name

theorem opens_of_then (h : (blanks : Pattern γ).Then ((only '(' : Pattern γ).Then p) text) :
    Opens text :=
  (h.dropWhile_of_run fun _ hp => hp.not_blank_of_only (by decide)).head_of_only

theorem nameOpens_of_then (h : (Identifier.qualified : Pattern γ).Then Opens text) :
    NameOpens text := by
  obtain ⟨_, w, rest, ht, hm, ho⟩ := h
  obtain ⟨name, rfl⟩ := Identifier.Spelled.matches_iff.mp hm
  exact ⟨name, rest, ht, ho⟩

-- The optional parts of a header, and all that stands before the name.

def orReplacePart : Pattern Unit :=
  opt (keyword "OR" ++ gap ++ keyword "REPLACE" ++ gap)

def scopePart : Pattern Unit :=
  opt ((keyword "GLOBAL" <|> keyword "LOCAL") ++ gap)

def temporaryPart : Pattern Unit :=
  opt (keyword "TEMP" ++ opt (keyword "ORARY") ++ gap)

def ifNotExistsPart : Pattern Unit :=
  opt (keyword "IF" ++ gap ++ keyword "NOT" ++ gap ++ keyword "EXISTS" ++ gap)

def wordsPart : Pattern Unit :=
  wordEdge ++ keyword "CREATE" ++ gap ++ orReplacePart ++ scopePart ++ temporaryPart ++
    keyword "TABLE"
    ++ gap ++ ifNotExistsPart

theorem header_eq : header = wordsPart ++ group () Identifier.qualified ++ blanks ++ only '(' :=
  rfl

-- No optional part can be taken for what follows it.

theorem unambiguous_ifNotExistsPart : ifNotExistsPart.Unambiguous NameOpens := by
  refine .opt (.seq (.seq (.seq (.seq (.seq .keyword (.gap_keyword (by decide))) .keyword)
    (.gap_keyword (by decide))) .keyword) (.many fun _ h => h.not_blank)) ?_
  rintro _ ⟨name, rest, rfl, ho⟩
  exact Fails.not_then fun _ =>
    (Header.ifNotExists_fails name ho ho.not_bare).seq_left.seq_left.seq_left

theorem unambiguous_temporaryPart : temporaryPart.Unambiguous (BeginsWith ["TABLE"]) := by
  have hgap {text} (h : (gap : Pattern Unit).Then (BeginsWith ["TABLE"]) text) :
      ¬ (keyword "ORARY" : Pattern Unit).Then
        ((gap : Pattern Unit).Then (BeginsWith ["TABLE"])) text := by
    intro horary
    obtain ⟨c, hc, hblank⟩ := h.head_of_many
    exact (horary.beginsWith (by decide)).not_blank (by decide) c hc hblank
  refine .opt (.seq (.seq .keyword (.opt .keyword fun _ => hgap))
    (.many fun _ h => h.not_blank (by decide))) fun text h => ?_
  exact Fails.not_then fun _ => (h.keyword_fails (by decide) (by decide)).seq_left.seq_left

theorem unambiguous_scopePart : scopePart.Unambiguous (BeginsWith ["TEMP", "TABLE"]) := by
  have hwords {text p} (h : (keyword "GLOBAL" : Pattern Unit).Then p text) :
      ¬ (keyword "LOCAL" : Pattern Unit).Then p text :=
    Fails.not_then fun _ => (h.beginsWith (by decide)).keyword_fails (by decide) (by decide)
  refine .opt (.seq (.alt .keyword .keyword fun _ => hwords)
    (.many fun _ h => h.not_blank (by decide))) fun text h => ?_
  exact Fails.not_then fun _ => .seq_left <|
    .alt (h.keyword_fails (by decide) (by decide)) (h.keyword_fails (by decide) (by decide))

theorem unambiguous_orReplacePart :
    orReplacePart.Unambiguous (BeginsWith ["GLOBAL", "LOCAL", "TEMP", "TABLE"]) := by
  refine .opt (.seq (.seq (.seq .keyword (.gap_keyword (by decide))) .keyword)
    (.many fun _ h => h.not_blank (by decide))) fun text h => ?_
  exact Fails.not_then fun _ => (h.keyword_fails (by decide) (by decide)).seq_left.seq_left.seq_left

-- What a text begins with before these parts.

theorem beginsWith_temporaryPart (h : temporaryPart.Then (BeginsWith ["TABLE"]) text) :
    BeginsWith ["TEMP", "TABLE"] text := by
  cases h.of_opt
  case inl h => exact (h.of_seq.of_seq.beginsWith (by decide)).mono (by simp)
  case inr h => exact h.mono (by simp)

theorem beginsWith_scopePart (h : scopePart.Then (BeginsWith ["TEMP", "TABLE"]) text) :
    BeginsWith ["GLOBAL", "LOCAL", "TEMP", "TABLE"] text := by
  cases h.of_opt
  case inr h => exact h.mono (by simp)
  case inl h =>
    cases h.of_seq.of_alt
    case inl h => exact (h.beginsWith (by decide)).mono (by simp)
    case inr h => exact (h.beginsWith (by decide)).mono (by simp)

theorem beginsWith_orReplacePart
    (h : orReplacePart.Then (BeginsWith ["GLOBAL", "LOCAL", "TEMP", "TABLE"]) text) :
    BeginsWith ["OR", "GLOBAL", "LOCAL", "TEMP", "TABLE"] text := by
  cases h.of_opt
  case inl h => exact (h.of_seq.of_seq.of_seq.beginsWith (by decide)).mono (by simp)
  case inr h => exact h.mono (by simp)

theorem not_blank_of_then_ifNotExistsPart (h : ifNotExistsPart.Then NameOpens text) :
    ∀ c ∈ text.head?, ¬ Text.isBlank c := by
  cases h.of_opt
  case inl h =>
    exact (h.of_seq.of_seq.of_seq.of_seq.of_seq.beginsWith (by decide)).not_blank (by decide)
  case inr h => exact h.not_blank

theorem unambiguous_wordsPart : wordsPart.Unambiguous NameOpens := by
  have htable : (wordEdge ++ keyword "CREATE" ++ gap ++ orReplacePart ++ scopePart ++ temporaryPart
      : Pattern Unit).Unambiguous (BeginsWith ["TABLE"]) := by
    refine .seq (.mono ?scope fun _ => beginsWith_temporaryPart) unambiguous_temporaryPart
    refine .seq (.mono ?orReplace fun _ => beginsWith_scopePart) unambiguous_scopePart
    refine .seq (.mono ?create fun _ => beginsWith_orReplacePart) unambiguous_orReplacePart
    exact .seq (.seq .wordEdge .keyword) (.many fun _ h => h.not_blank (by decide))
  refine .seq (.seq (.seq (htable.mono fun _ h => h.beginsWith (by decide)) .keyword) (.many ?_))
    unambiguous_ifNotExistsPart
  exact fun _ => not_blank_of_then_ifNotExistsPart

theorem unambiguous_header : header.Unambiguous fun _ => True := by
  have hname : (wordsPart ++ group () Identifier.qualified : Pattern Unit).Unambiguous Opens :=
    .seq (unambiguous_wordsPart.mono fun _ => nameOpens_of_then)
      (.group (Identifier.unambiguous_qualified fun _ h => h.ends) ())
  exact .seq (.seq (hname.mono fun _ => opens_of_then)
    (.run fun _ h => h.not_blank_of_only (by decide))) .char

end Statement
end SchemaGraph
