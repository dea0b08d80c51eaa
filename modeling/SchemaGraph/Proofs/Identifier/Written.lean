import SchemaGraph.Proofs.Identifier.Token

namespace SchemaGraph

namespace Identifier

open Pattern

def isPlain (c : Char) : Bool :=
  !Text.isBlank c &&
    !(['\x60', '"', '\'', '\\', '[', ']', '(', ')', ',', ';', '.'].contains c)

structure Plain where
  chars : List Char
  ne : chars ≠ []
  plain : ∀ c ∈ chars, isPlain c

structure Part where
  name : Plain
  style? : Option Style

def Part.text (part : Part) : List Char :=
  match part.style? with
  | none       => part.name.chars
  | some style => style.quote part.name.chars

structure Joint where
  blanksBeforeDot : Blanks
  blanksAfterDot : Blanks
  part : Part

def Joint.text (joint : Joint) : List Char :=
  joint.blanksBeforeDot.chars ++ ['.'] ++ joint.blanksAfterDot.chars ++ joint.part.text

structure Dotted where
  first : Part
  joints : List Joint

namespace Dotted

def text (dotted : Dotted) : List Char :=
  dotted.first.text ++ dotted.joints.flatMap (·.text)

def parts (dotted : Dotted) : List Part :=
  dotted.first :: dotted.joints.map (·.part)

def name (dotted : Dotted) : List Char :=
  ['.'].intercalate (dotted.parts.map (·.name.chars))

end Dotted

variable {γ : Type} {before : Option Char} {c : Char} {rest : List Char}

theorem not_isBlank_of_isPlain (h : isPlain c) : Text.isBlank c = false := by
  simp [isPlain] at h
  exact h.left

theorem isBare_of_isPlain (h : isPlain c) : isBare c := by
  simp [isPlain] at h
  simp [isBare, h]

theorem Style.ne_last_of_isPlain (style : Style) (h : isPlain c) : c ≠ style.last := by
  intro he
  subst he
  cases style <;> simp [isPlain, last, first] at h

-- Plain characters fit everywhere.

theorem fits_of_isPlain (style? : Option Style) (h : isPlain c) : fits style? c := by
  cases style?
  case none       => exact isBare_of_isPlain h
  case some style => simpa [fits] using style.ne_last_of_isPlain h

def Part.token (part : Part) : Token where
  chars := part.name.chars
  ne := part.name.ne
  style? := part.style?
  fit c hc := fits_of_isPlain part.style? (part.name.plain c hc)

def Joint.link (joint : Joint) : Link where
  blanksBeforeDot := joint.blanksBeforeDot
  blanksAfterDot := joint.blanksAfterDot
  token := joint.part.token

namespace Dotted

def spelled (dotted : Dotted) : Spelled where
  first := dotted.first.token
  links := dotted.joints.map (·.link)

theorem text_spelled (dotted : Dotted) : dotted.spelled.text = dotted.text := by
  rw [Spelled.text, spelled, List.flatMap_map]
  rfl

theorem tokens_spelled (dotted : Dotted) : dotted.spelled.tokens = dotted.parts.map (·.token) := by
  simp [Spelled.tokens, spelled, parts, Joint.link]

end Dotted

end Identifier
end SchemaGraph
