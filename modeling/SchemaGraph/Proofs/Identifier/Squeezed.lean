import SchemaGraph.Proofs.Identifier.Unquote
import SchemaGraph.Proofs.Text.Squeeze

namespace SchemaGraph

open Text

-- A name in which the runs of blanks have become single spaces is spelled in the same way, and
-- means the name in which they have.

variable {c : Char} {v : List Char}

def Blanks.squeeze (b : Blanks) : Blanks where
  chars := Text.squeeze b.chars
  blank c hc := by
    cases mem_of_mem_squeezeAfter hc
    case inl h => exact b.blank c h
    case inr h => exact h ▸ by decide

def Gap.squeeze (g : Gap) : Gap where
  toBlanks := g.toBlanks.squeeze
  ne := squeeze_ne_nil g.ne

namespace Identifier

namespace Token

theorem fits_squeeze (token : Token) : ∀ c ∈ squeeze token.chars, fits token.style? c := by
  obtain ⟨chars, hn, style?, hf⟩ := token
  cases style?
  case none       =>
    have hb : ∀ c ∈ chars, ¬ isBlank c := fun c hc => by simp [not_isBlank_of_isBare (hf c hc)]
    exact (squeeze_eq_self hb).symm ▸ hf
  case some style =>
    intro c hc
    cases mem_of_mem_squeezeAfter hc
    case inl h => exact hf c h
    case inr h => exact h ▸ (by cases style <;> rfl : fits (some style) ' ')

def squeeze (token : Token) : Token where
  chars := Text.squeeze token.chars
  ne := squeeze_ne_nil token.ne
  style? := token.style?
  fit := token.fits_squeeze

theorem text_squeeze (token : Token) : token.squeeze.text = Text.squeeze token.text := by
  obtain ⟨chars, hn, style?, hf⟩ := token
  cases style?
  case none       => rfl
  case some style =>
    have hfirst : ¬ isBlank style.first := by cases style <;> decide
    have hlast : ¬ isBlank style.last := by cases style <;> decide
    have hs := squeeze_append_cons hlast chars []
    show style.first :: (Text.squeeze chars ++ [style.last]) =
      Text.squeeze (style.first :: (chars ++ [style.last]))
    rw [squeeze_cons_of_not_isBlank hfirst, hs]
    rfl

theorem name_squeeze (token : Token) : token.squeeze.name = Text.squeeze token.name := by
  have hq : ∀ c, quoteChars.contains c → ¬ isBlank c := by
    intro c hc
    exact (by decide : ∀ c ∈ quoteChars, ¬ isBlank c) c (by simpa using hc)
  rw [name, squeeze, trim_squeeze hq, strip_squeeze, name]

end Token

def Link.squeeze (link : Link) : Link where
  blanksBeforeDot := link.blanksBeforeDot.squeeze
  blanksAfterDot := link.blanksAfterDot.squeeze
  token := link.token.squeeze

theorem Link.text_squeeze (link : Link) : link.squeeze.text = Text.squeeze link.text := by
  have hdot : ¬ isBlank '.' := by decide
  have hb := squeeze_append_cons hdot link.blanksBeforeDot.chars
    (link.blanksAfterDot.chars ++ link.token.text)
  have ha : Text.squeeze (link.blanksAfterDot.chars ++ link.token.text) =
      Text.squeeze link.blanksAfterDot.chars ++ Text.squeeze link.token.text :=
    squeeze_append fun c hc => by simp [(link.token.head_text c hc).left]
  rw [ha] at hb
  simpa [text, squeeze, Token.text_squeeze, Blanks.squeeze] using hb.symm

theorem text_squeeze_links (links : List Link) :
    (links.map (·.squeeze)).flatMap (·.text) = Text.squeeze (links.flatMap (·.text)) := by
  induction links
  case nil                => rfl
  case cons link links hi =>
    rw [List.map_cons, List.flatMap_cons, List.flatMap_cons, hi, link.text_squeeze,
      squeeze_append_of_getLast? fun c hc => by simp [link.last_text c hc]]

namespace Spelled

def squeeze (name : Spelled) : Spelled where
  first := name.first.squeeze
  links := name.links.map (·.squeeze)

theorem text_squeeze (name : Spelled) : name.squeeze.text = Text.squeeze name.text := by
  rw [text, text, squeeze_append_of_getLast? fun c hc => by simp [name.first.last_text c hc],
    ←text_squeeze_links, ←name.first.text_squeeze]
  rfl

theorem tokens_squeeze (name : Spelled) : name.squeeze.tokens = name.tokens.map (·.squeeze) := by
  simp [tokens, squeeze, Link.squeeze]

theorem squeeze_intercalate (names : List (List Char)) :
    Text.squeeze (['.'].intercalate names) = ['.'].intercalate (names.map Text.squeeze) := by
  induction names
  case nil                => rfl
  case cons name names hi =>
    cases names
    case nil             => simp
    case cons next names =>
      rw [List.intercalate_cons_cons, List.append_assoc, List.singleton_append,
        squeeze_append_cons (by decide), hi]
      simp

theorem not_blank_intercalate {names : List (List Char)}
    (h : ∀ name ∈ names, (∀ c ∈ name.head?, ¬ isBlank c) ∧ ∀ c ∈ name.getLast?, ¬ isBlank c) :
    (∀ c ∈ (['.'].intercalate names).head?, ¬ isBlank c) ∧
      ∀ c ∈ (['.'].intercalate names).getLast?, ¬ isBlank c := by
  have hdot : ¬ isBlank '.' := by decide
  induction names
  case nil                => simp
  case cons name names hi =>
    have ⟨hname, hnames⟩ := List.forall_mem_cons.mp h
    cases names
    case nil             => simpa using hname
    case cons next names =>
      rw [List.intercalate_cons_cons, List.append_assoc, List.singleton_append]
      refine ⟨?_, ?_⟩
      · cases name
        case nil  => simpa using hdot
        case cons => simpa using hname.left
      · rw [List.getLast?_append_of_ne_nil _ (by simp)]
        have hlast := (hi hnames).right
        cases hj : ['.'].intercalate (next :: names)
        case nil  => simpa using hdot
        case cons => rw [List.getLast?_cons_of_ne_nil (by simp), ←hj]; exact hlast

theorem collapse_name (name : Spelled) : collapse name.name = Text.squeeze name.name := by
  have h : ∀ w ∈ name.tokens.map (·.name),
      (∀ c ∈ w.head?, ¬ isBlank c) ∧ ∀ c ∈ w.getLast?, ¬ isBlank c := by
    intro _ hm
    obtain ⟨token, _, rfl⟩ := List.mem_map.mp hm
    exact ⟨head?_trim _ _, getLast?_trim _ _⟩
  exact collapse_eq_squeeze (not_blank_intercalate h).left (not_blank_intercalate h).right

theorem name_squeeze (name : Spelled) : name.squeeze.name = Text.squeeze name.name := by
  rw [Spelled.name, Spelled.name, tokens_squeeze, squeeze_intercalate, List.map_map, List.map_map]
  exact congrArg _ (List.map_congr_left fun token _ => token.name_squeeze)

end Spelled
end Identifier
end SchemaGraph
