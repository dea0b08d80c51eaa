import SchemaGraph.Identifier
import SchemaGraph.Proofs.Pattern.Forced
import SchemaGraph.Proofs.Pattern.Search
import SchemaGraph.Proofs.Text.Neat

namespace SchemaGraph

namespace Identifier

open Pattern

inductive Style
  | backtick
  | double
  | single
  | bracket
  deriving DecidableEq, Repr

namespace Style

def first : Style → Char
  | backtick => '\x60'
  | double   => '"'
  | single   => '\''
  | bracket  => '['

def last : Style → Char
  | bracket => ']'
  | style   => style.first

def quote (style : Style) (name : List Char) : List Char :=
  style.first :: name ++ [style.last]

end Style

def fits (style? : Option Style) (c : Char) : Bool :=
  match style? with
  | none       => isBare c
  | some style => c != style.last

-- A part of a name: bare, or in quotes with anything in them but the closing one.
structure Token where
  chars  : List Char
  ne     : chars ≠ []
  style? : Option Style
  fit    : ∀ c ∈ chars, fits style? c

def Token.text (token : Token) : List Char :=
  match token.style? with
  | none       => token.chars
  | some style => style.quote token.chars

structure Link where
  blanksBeforeDot : Blanks
  blanksAfterDot : Blanks
  token : Token

def Link.text (link : Link) : List Char :=
  link.blanksBeforeDot.chars ++ ['.'] ++ link.blanksAfterDot.chars ++ link.token.text

structure Spelled where
  first : Token
  links : List Link

namespace Spelled

def text (name : Spelled) : List Char :=
  name.first.text ++ name.links.flatMap (·.text)

def tokens (name : Spelled) : List Token :=
  name.first :: name.links.map (·.token)

end Spelled

variable {γ : Type} {before : Option Char} {c : Char} {w rest : List Char} {style : Style}
variable {p : Char → Bool}

namespace Style

theorem takes_quotedPart (style : Style) (hw : w ≠ []) (h : ∀ c ∈ w, c ≠ style.last) :
    (quotedPart style.first style.last : Pattern γ).Takes before (style.quote w) rest [] := by
  have hw : (Pattern.many (· != style.last) : Pattern γ).Takes (some style.first) w
      ([style.last] ++ rest) [] :=
    .many hw (by simpa using h) (by simp)
  exact .seq (.seq (.only _) hw) (.only _)

theorem quotedPart_refuses {first last : Char} (h : c ≠ first) :
    (quotedPart first last : Pattern γ).refuses (some c) :=
  refuses_seq_left <| refuses_seq_left <| by simpa [only, refuses] using h

theorem takes_part (style : Style) (hw : w ≠ []) (h : ∀ c ∈ w, c ≠ style.last) :
    (part : Pattern γ).Takes before (style.quote w) rest [] := by
  have other {first last : Char} (hf : style.first ≠ first) :
      (quotedPart first last : Pattern γ).Fails before (style.quote w ++ rest) :=
    fails_of_refuses (quotedPart_refuses hf)
  have hq := @takes_quotedPart γ before w rest style hw h
  cases style
  case backtick => exact .left hq
  case double   => exact .right (other (by decide)) <| .left hq
  case single   => exact .right (other (by decide)) <| .right (other (by decide)) <| .left hq
  case bracket  =>
    exact .right (other (by decide)) <| .right (other (by decide)) <|
      .right (other (by decide)) <| .left hq

theorem quotedPart_forced (style : Style) (h : ∀ c ∈ w, c ≠ style.last) :
    (quotedPart style.first style.last : Pattern γ).Forced before (style.quote w) rest := by
  intro u v ht ⟨x, z, hu, ⟨x', y, hx, ⟨f, hf, hfirst⟩, hy⟩, ⟨l, hl, hlast⟩⟩
  have hfirst := eq_of_beq hfirst
  have hlast := eq_of_beq hlast
  subst hu hx hf hl hfirst hlast
  have hy : ∀ c ∈ y, (c != style.last) = true := by
    have ⟨_, _, hy', ⟨c, hc, hne⟩, hrun⟩ := hy
    subst hy' hc
    exact List.forall_mem_cons.mpr ⟨hne, hrun⟩
  have upTo {x z : List Char} (hx : ∀ c ∈ x, (c != style.last) = true) :
      (x ++ style.last :: z).takeWhile (· != style.last) = x := by
    rw [List.takeWhile_append_of_pos hx, List.takeWhile_cons_of_neg (by simp), List.append_nil]
  have ht : w ++ style.last :: rest = y ++ style.last :: v := by simpa [quote] using ht
  have he : w = y := by
    rw [←@upTo w rest (by simpa using h), ht, upTo hy]
  simp [quote, he]

theorem part_forced (style : Style) (h : ∀ c ∈ w, c ≠ style.last) :
    (part : Pattern γ).Forced before (style.quote w) rest := by
  have other {first last : Char} (hf : style.first ≠ first) :
      (quotedPart first last : Pattern γ).Forced before (style.quote w) rest :=
    .of_fails <| fails_of_refuses (quotedPart_refuses hf)
  have hb : isBare style.first = false := by cases style <;> decide
  have bare : (barePart : Pattern γ).Forced before (style.quote w) rest :=
    .of_fails <| fails_of_refuses <| refuses_seq_left <| by simp [refuses, quote, hb]
  have hq := @quotedPart_forced γ before w rest style h
  cases style
  case backtick =>
    exact .alt hq <| .alt (other (by decide)) <| .alt (other (by decide)) <|
      .alt (other (by decide)) bare
  case double   =>
    exact .alt (other (by decide)) <| .alt hq <| .alt (other (by decide)) <|
      .alt (other (by decide)) bare
  case single   =>
    exact .alt (other (by decide)) <| .alt (other (by decide)) <| .alt hq <|
      .alt (other (by decide)) bare
  case bracket  =>
    exact .alt (other (by decide)) <| .alt (other (by decide)) <| .alt (other (by decide)) <|
      .alt hq bare

end Style

theorem quotedPart_fails {first last : Char} (hw : w ≠ []) (h : ∀ c ∈ w, isBare c)
    (hf : isBare first = false) : (quotedPart first last : Pattern γ).Fails before (w ++ rest) := by
  obtain ⟨c, cs, rfl⟩ := List.exists_cons_of_ne_nil hw
  have hb : isBare c := h c List.mem_cons_self
  exact fails_of_refuses <| Style.quotedPart_refuses fun he => by simp [←he, hb] at hf

theorem takes_barePart (hw : w ≠ []) (h : ∀ c ∈ w, isBare c) (hr : ∀ c ∈ rest.head?, ¬ isBare c) :
    (part : Pattern γ).Takes before w rest [] := by
  have other {first last : Char} (hf : isBare first = false) :
      (quotedPart first last : Pattern γ).Fails before (w ++ rest) :=
    quotedPart_fails hw h hf
  exact .right (other (by decide)) <| .right (other (by decide)) <|
    .right (other (by decide)) <| .right (other (by decide)) <| .many hw h hr

theorem many_matches_iff : (many p : Pattern γ).Matches before w rest ↔ w ≠ [] ∧ ∀ c ∈ w, p c := by
  constructor
  case mp =>
    intro ⟨u, v, hw, ⟨c, hu, hc⟩, hv⟩
    subst hw hu
    exact ⟨by simp, List.forall_mem_cons.mpr ⟨hc, hv⟩⟩
  case mpr =>
    intro ⟨hn, h⟩
    obtain ⟨c, cs, rfl⟩ := List.exists_cons_of_ne_nil hn
    have ⟨hc, hcs⟩ := List.forall_mem_cons.mp h
    exact ⟨[c], cs, rfl, ⟨c, rfl, hc⟩, hcs⟩

theorem Style.quotedPart_matches_iff (style : Style) :
    (quotedPart style.first style.last : Pattern γ).Matches before w rest ↔
      ∃ chars, w = style.quote chars ∧ chars ≠ [] ∧ ∀ c ∈ chars, c ≠ style.last := by
  constructor
  case mp =>
    intro ⟨x, z, hw, ⟨f, y, hx, ⟨c, hf, hc⟩, hy⟩, ⟨l, hz, hl⟩⟩
    have ⟨hn, h⟩ := many_matches_iff.mp hy
    have hc := eq_of_beq hc
    have hl := eq_of_beq hl
    subst hw hx hf hz hc hl
    exact ⟨y, rfl, hn, by simpa using h⟩
  case mpr =>
    intro ⟨chars, hw, hn, h⟩
    exact ⟨style.first :: chars, [style.last], hw, ⟨[style.first], chars, rfl,
      ⟨_, rfl, beq_self_eq_true _⟩, many_matches_iff.mpr ⟨hn, by simpa using h⟩⟩,
      ⟨_, rfl, beq_self_eq_true _⟩⟩

theorem part_matches_iff :
    (part : Pattern γ).Matches before w rest ↔ ∃ token : Token, w = token.text := by
  have quoted (style : Style) :
      (quotedPart style.first style.last : Pattern γ).Matches before w rest ↔
        ∃ token : Token, token.style? = some style ∧ w = token.text := by
    rw [style.quotedPart_matches_iff]
    constructor
    case mp  => exact fun ⟨chars, hw, hn, h⟩ =>
      ⟨⟨chars, hn, some style, by simpa [fits] using h⟩, rfl, hw⟩
    case mpr =>
      intro ⟨⟨chars, hn, style?, h⟩, hs, hw⟩
      subst hs
      exact ⟨chars, hw, hn, by simpa [fits] using h⟩
  constructor
  case mp =>
    rintro (h | h | h | h | h)
    · exact ((quoted .backtick).mp h).imp fun _ => And.right
    · exact ((quoted .double).mp h).imp fun _ => And.right
    · exact ((quoted .single).mp h).imp fun _ => And.right
    · exact ((quoted .bracket).mp h).imp fun _ => And.right
    · have ⟨hn, h⟩ := many_matches_iff.mp h
      exact ⟨⟨w, hn, none, h⟩, rfl⟩
  case mpr =>
    intro ⟨⟨chars, hn, style?, hf⟩, hw⟩
    cases style?
    case none       => exact .inr (.inr (.inr (.inr (many_matches_iff.mpr (hw ▸ ⟨hn, hf⟩)))))
    case some style =>
      have h := (quoted style).mpr ⟨⟨chars, hn, some style, hf⟩, rfl, hw⟩
      cases style
      case backtick => exact .inl h
      case double   => exact .inr (.inl h)
      case single   => exact .inr (.inr (.inl h))
      case bracket  => exact .inr (.inr (.inr (.inl h)))

theorem not_isBlank_of_isBare (h : isBare c) : Text.isBlank c = false := by
  simp [isBare] at h
  exact h.left

theorem isBare_of_isLetter (h : Text.isLetter c) : isBare c := by
  have hne {d} (hd : Text.isLetter d = false) : c ≠ d := Text.ne_of_isLetter h hd
  simp [isBare, Text.not_isBlank_of_isLetter h, hne (d := '\x60') (by decide),
    hne (d := '"') (by decide), hne (d := '\'') (by decide), hne (d := '(') (by decide),
    hne (d := ')') (by decide), hne (d := '[') (by decide), hne (d := ']') (by decide),
    hne (d := ',') (by decide), hne (d := ';') (by decide), hne (d := '.') (by decide)]

theorem part_refuses_of_isBlank (h : Text.isBlank c) : (part : Pattern γ).refuses (some c) := by
  have quoted {first last : Char} (hf : Text.isBlank first = false) :
      (quotedPart first last : Pattern γ).refuses (some c) :=
    Style.quotedPart_refuses fun he => by simp [he, hf] at h
  exact refuses_alt (quoted (by decide)) <| refuses_alt (quoted (by decide)) <|
    refuses_alt (quoted (by decide)) <| refuses_alt (quoted (by decide)) <|
      refuses_many (by simp [isBare, h])

namespace Token

theorem takes_part (token : Token) (hr : ∀ c ∈ rest.head?, ¬ isBare c) :
    (part : Pattern γ).Takes before token.text rest [] := by
  obtain ⟨chars, hn, style?, hf⟩ := token
  cases style?
  case none       => exact takes_barePart hn hf hr
  case some style => exact style.takes_part hn (by simpa [fits] using hf)

-- Of a bare part less can be taken, but then what follows begins in the midst of it.
theorem part_seq_fails (token : Token) {a : Pattern γ} (ha : ∀ before, a.Fails before rest)
    (hbare : ∀ c, isBare c → a.refuses (some c))
    (hr : token.style? = none → ∀ c ∈ rest.head?, ¬ isBare c) :
    (part ++ a).Fails before (token.text ++ rest) := by
  obtain ⟨chars, hn, style?, hf⟩ := token
  cases style?
  case some style =>
    exact .of_forced (style.part_forced (by simpa [fits] using hf)) (ha _)
  case none       =>
    have other {first last : Char} (hq : isBare first = false) :
        (quotedPart first last ++ a).Fails before (chars ++ rest) :=
      (quotedPart_fails hn hf hq).seq_left
    have bare : (barePart ++ a).Fails before (chars ++ rest) := by
      refine .many_seq (fun before => ?_) hbare
      rw [List.dropWhile_append_of_pos (p := isBare) hf, Text.dropWhile_eq_self (hr rfl)]
      exact ha before
    exact .alt_seq (other (by decide)) <| .alt_seq (other (by decide)) <|
      .alt_seq (other (by decide)) <| .alt_seq (other (by decide)) bare

theorem text_ne (token : Token) : token.text ≠ [] := by
  obtain ⟨chars, hn, style?, _⟩ := token
  cases style?
  case none => exact hn
  case some => simp [text, Style.quote]

-- A part begins with a character that is neither blank nor a dot, and ends with no blank.

theorem head_text (token : Token) : ∀ c ∈ token.text.head?, Text.isBlank c = false ∧ c ≠ '.' := by
  obtain ⟨chars, _, style?, hf⟩ := token
  intro c hc
  cases style?
  case none       =>
    have hb : isBare c := hf c (List.mem_of_mem_head? hc)
    exact ⟨not_isBlank_of_isBare hb, fun he => by simp [he, isBare] at hb⟩
  case some style =>
    simp [text, Style.quote] at hc
    subst hc
    cases style <;> decide

theorem last_text (token : Token) : ∀ c ∈ token.text.getLast?, Text.isBlank c = false := by
  obtain ⟨chars, _, style?, hf⟩ := token
  intro c hc
  cases style?
  case none       => exact not_isBlank_of_isBare (hf c (List.mem_of_mem_getLast? hc))
  case some style =>
    have hc : c = style.last := by
      simpa [text, Style.quote, List.getLast?_cons, eq_comm] using hc
    subst hc
    cases style <;> decide

end Token

-- What can stand after a name: neither a character that goes on with it nor a further part.
structure Ends (rest : List Char) : Prop where
  not_bare : ∀ c ∈ rest.head?, ¬ isBare c
  not_dot  : (rest.dropWhile Text.isBlank).head? ≠ some '.'

theorem not_isBare_of_isBlank (h : Text.isBlank c) : ¬ isBare c := by
  simp [isBare, h]

namespace Link

variable {link : Link}

theorem text_ne (link : Link) : link.text ≠ [] := by
  simp [text]

theorem not_bare (link : Link) : ∀ c ∈ (link.text ++ rest).head?, ¬ isBare c := by
  intro c hc
  unfold text at hc
  cases h : link.blanksBeforeDot.chars
  case nil =>
    simp [h] at hc
    exact hc ▸ by decide
  case cons d ds =>
    simp [h] at hc
    exact not_isBare_of_isBlank <| link.blanksBeforeDot.blank c (by simp [h, hc])

theorem takes_text (link : Link) (hr : ∀ c ∈ rest.head?, ¬ isBare c) :
    (blanks ++ only '.' ++ blanks ++ Identifier.part : Pattern γ).Takes before link.text
      rest [] := by
  have hd : ¬ Text.isBlank '.' := by decide
  have hp : ∀ c ∈ (link.token.text ++ rest).head?, ¬ Text.isBlank c := by
    rw [List.head?_append_of_ne_nil _ link.token.text_ne]
    exact fun c hc => by simp [(link.token.head_text c hc).left]
  exact .seq (.seq (.seq (.run link.blanksBeforeDot.blank (by simpa using hd))
    (.only '.'))
    (.run link.blanksAfterDot.blank hp)) (link.token.takes_part hr)

theorem last_text (link : Link) : ∀ c ∈ link.text.getLast?, Text.isBlank c = false := by
  rw [text, List.getLast?_append_of_ne_nil _ link.token.text_ne]
  exact link.token.last_text

theorem matches_iff :
    (blanks ++ only '.' ++ blanks ++ Identifier.part : Pattern γ).Matches before w rest ↔
      ∃ link : Link, w = link.text := by
  constructor
  case mp =>
    intro ⟨_, t, hw, ⟨_, b', hv, ⟨b, _, hu, hb, ⟨d, hd, hdot⟩⟩, hb'⟩, ht⟩
    have ⟨token, htoken⟩ := part_matches_iff.mp ht
    have hdot := eq_of_beq hdot
    subst hw hv hu hd hdot htoken
    exact ⟨⟨⟨b, hb⟩, ⟨b', hb'⟩, token⟩, rfl⟩
  case mpr =>
    intro ⟨link, hw⟩
    exact ⟨_, _, hw,
      ⟨_, _, rfl, ⟨_, _, rfl, link.blanksBeforeDot.blank, ⟨_, rfl, beq_self_eq_true _⟩⟩,
      link.blanksAfterDot.blank⟩, part_matches_iff.mpr ⟨_, rfl⟩⟩

end Link

theorem not_bare_links (links : List Link) (h : ∀ c ∈ rest.head?, ¬ isBare c) :
    ∀ c ∈ (links.flatMap (·.text) ++ rest).head?, ¬ isBare c := by
  cases links
  case nil             => exact h
  case cons link links =>
    rw [List.flatMap_cons, List.append_assoc]
    exact link.not_bare

theorem Ends.link_fails (h : Ends rest) :
    (blanks ++ only '.' ++ blanks ++ part : Pattern γ).Fails before rest := by
  have hb : (blanks ++ only '.' : Pattern γ).Fails before rest := by
    refine .run_seq (fun _ => .only h.not_dot) fun c hc => ?_
    have hd : c ≠ '.' := fun he => by simp [he] at hc; exact absurd hc (by decide)
    simpa [only, refuses] using hd
  exact hb.seq_left.seq_left

theorem takes_links (links : List Link) (h : Ends rest) :
    (repeated (blanks ++ only '.' ++ blanks ++ part) : Pattern γ).Takes before
      (links.flatMap (·.text)) rest [] := by
  induction links generalizing before
  case nil                => exact .repeated_nil h.link_fails
  case cons link links hi =>
    exact .repeated_append link.text_ne (link.takes_text (not_bare_links links h.not_bare)) hi

theorem repeats_iff :
    (repeated (blanks ++ only '.' ++ blanks ++ part) : Pattern γ).Matches before w rest ↔
      ∃ links : List Link, w = links.flatMap (·.text) := by
  constructor
  case mp =>
    intro h
    induction h
    case nil => exact ⟨[], rfl⟩
    case cons hu _ hi =>
      have ⟨link, hl⟩ := Link.matches_iff.mp hu
      have ⟨links, hls⟩ := hi
      exact ⟨link :: links, by rw [hl, hls, List.flatMap_cons]⟩
  case mpr =>
    intro ⟨links, hw⟩
    subst hw
    induction links generalizing before
    case nil                => exact .nil
    case cons link links hi => exact .cons (Link.matches_iff.mpr ⟨link, rfl⟩) hi

namespace Spelled

theorem takes_text (name : Spelled) (h : Ends rest) :
    (qualified : Pattern γ).Takes before name.text rest [] :=
  .seq (name.first.takes_part (not_bare_links name.links h.not_bare)) (takes_links name.links h)

theorem text_ne (name : Spelled) : name.text ≠ [] := by
  simp [text, name.first.text_ne]

-- Neither end of a name is blank.

theorem head_text (name : Spelled) : ∀ c ∈ name.text.head?, Text.isBlank c = false := by
  rw [text, List.head?_append_of_ne_nil _ name.first.text_ne]
  exact fun c hc => (name.first.head_text c hc).left

theorem last_text (name : Spelled) : ∀ c ∈ name.text.getLast?, Text.isBlank c = false := by
  obtain ⟨first, links⟩ := name
  obtain rfl | ⟨links, link, rfl⟩ := List.eq_nil_or_concat' links
  case inl => simpa [text] using first.last_text
  case inr =>
    rw [text, List.flatMap_append, ←List.append_assoc,
      List.getLast?_append_of_ne_nil _ (by simp [link.text_ne])]
    simpa using link.last_text

theorem matches_iff :
    (qualified : Pattern γ).Matches before w rest ↔ ∃ name : Spelled, w = name.text := by
  constructor
  case mp =>
    intro ⟨_, _, hw, hu, hv⟩
    have ⟨first, hf⟩ := part_matches_iff.mp hu
    have ⟨links, hl⟩ := repeats_iff.mp hv
    exact ⟨⟨first, links⟩, by rw [hw, hf, hl]; rfl⟩
  case mpr =>
    intro ⟨name, hw⟩
    exact ⟨_, _, hw, part_matches_iff.mpr ⟨_, rfl⟩, repeats_iff.mpr ⟨_, rfl⟩⟩

end Spelled

end Identifier
end SchemaGraph
