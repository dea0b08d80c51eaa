import SchemaGraph.Proofs.Identifier.Squeezed

-- Clauses for indexes and constraints that declare neither a column nor a key, as they can be
-- written.
namespace SchemaGraph.Clause

open Identifier Text

variable {rest : List Char} {token : Token} {b : Blanks}

theorem forall_head?_blanks {p : Char → Prop} (b : Blanks) (hb : ∀ c, isBlank c → p c)
    (h : b.chars = [] → ∀ c ∈ rest.head?, p c) : ∀ c ∈ (b.chars ++ rest).head?, p c := by
  intro c hc
  cases hchars : b.chars
  case nil       => exact h hchars c (by simpa [hchars] using hc)
  case cons d ds =>
    rw [hchars] at hc
    exact Option.some.inj hc ▸ hb d (b.blank d (hchars ▸ List.mem_cons_self))

theorem not_isWord_blanks (b : Blanks) (h : b.chars = [] → ∀ c ∈ rest.head?, ¬ isWord c) :
    ∀ c ∈ (b.chars ++ rest).head?, ¬ isWord c :=
  forall_head?_blanks b (fun _ hc => by simp [not_isWord_of_isBlank hc]) h

def IsSpaced (token : Token) (b : Blanks) : Prop :=
  b.chars = [] → token.style? ≠ none

namespace IsSpaced

theorem squeeze (h : IsSpaced token b) : IsSpaced token.squeeze b.squeeze :=
  fun hn => h (by_contra fun hb => squeeze_ne_nil hb hn)

theorem not_bare (h : IsSpaced token b) (hs : token.style? = none) :
    ∀ c ∈ (b.chars ++ rest).head?, ¬ isBare c :=
  forall_head?_blanks b (fun _ hc => not_isBare_of_isBlank hc) fun hn => absurd hs (h hn)

end IsSpaced

structure Naming where
  blanks : Blanks
  token  : Token
  spaced : IsSpaced token blanks

namespace Naming

def text (name : Naming) : List Char :=
  name.blanks.chars ++ name.token.text

def squeeze (name : Naming) : Naming where
  blanks := name.blanks.squeeze
  token  := name.token.squeeze
  spaced := name.spaced.squeeze

theorem text_squeeze (name : Naming) : name.squeeze.text = Text.squeeze name.text := by
  rw [text, text, squeeze_append fun c hc => by simp [(name.token.head_text c hc).left], squeeze,
    name.token.text_squeeze]
  rfl

theorem last_text (name : Naming) : ∀ c ∈ name.text.getLast?, ¬ isBlank c := by
  rw [text, List.getLast?_append_of_ne_nil _ name.token.text_ne]
  exact fun c hc => by simp [name.token.last_text c hc]

theorem not_isWord (name : Naming) : ∀ c ∈ (name.text ++ rest).head?, ¬ isWord c := by
  obtain ⟨blanks, ⟨chars, hn, style?, hf⟩, hs⟩ := name
  rw [text, List.append_assoc]
  refine not_isWord_blanks blanks fun hb c hc => ?_
  cases style?
  case none       => exact absurd rfl (hs hb)
  case some style =>
    rw [←Option.some.inj hc]
    cases style <;> decide +kernel

end Naming

def nameText (name? : Option Naming) : List Char :=
  name?.elim [] (·.text)

-- A name in a list, and the blanks around it. It begins neither with a digit nor with a single
-- quote.
structure Entry where
  before : Blanks
  token  : Token
  behind : Blanks
  head   : ∀ c ∈ token.text.head?, ¬ isDigit c ∧ c ≠ '\''

def Entry.text (entry : Entry) : List Char :=
  entry.before.chars ++ (entry.token.text ++ entry.behind.chars)

structure Listing where
  blanks  : Blanks
  entries : List Entry

def Listing.inner (list : Listing) : List Char :=
  [','].intercalate (list.entries.map (·.text)) ++ [')']

def Listing.text (list : Listing) : List Char :=
  list.blanks.chars ++ ('(' :: list.inner)

-- How an index is kept. Behind a name in quotes there can be no blanks.
structure Using where
  blanks : Blanks
  word   : Spelling "USING"
  gap    : Gap
  method : AnySpelling ["BTREE", "HASH"]

def usingText (using? : Option Using) : List Char :=
  using?.elim [] fun u => u.blanks.chars ++ (u.word.chars ++ (u.gap.chars ++ u.method.chars))

abbrev IndexWord := AnySpelling ["INDEX", "KEY"]

def indexText (index? : Option (Gap × IndexWord)) : List Char :=
  index?.elim [] fun (gap, word) => gap.chars ++ word.chars

-- What a constraint demands. The expression of a check and what an exclusion consists of can be
-- anything.
inductive Rule
  | unique (word : Spelling "UNIQUE") (index? : Option (Gap × IndexWord)) (name? : Option Naming)
      (list : Listing)
  | check (word : Spelling "CHECK") (blanks : Blanks) (expression : List Char)
  | exclude (word : Spelling "EXCLUDE") (next : Char) (opens : isBlank next ∨ next = '(')
      (others : List Char)

namespace Rule

def word : Rule → AnySpelling ["UNIQUE", "CHECK", "EXCLUDE"]
  | unique word ..  => ⟨"UNIQUE", by decide, word⟩
  | check word ..   => ⟨"CHECK", by decide, word⟩
  | exclude word .. => ⟨"EXCLUDE", by decide, word⟩

def tail : Rule → List Char
  | unique _ index? name? list => indexText index? ++ (nameText name? ++ list.text)
  | check _ blanks expression  => blanks.chars ++ ('(' :: (expression ++ [')']))
  | exclude _ next _ others    => next :: others

end Rule

structure ConstraintName where
  word   : AnySpelling ["CONSTRAINT"]
  name   : Naming
  blanks : Blanks
  spaced : IsSpaced name.token blanks

def ConstraintName.text (constraint : ConstraintName) : List Char :=
  constraint.word.chars ++ (constraint.name.text ++ constraint.blanks.chars)

inductive Keyless
  | index (unique? : Option (Spelling "UNIQUE" × Gap)) (word : IndexWord) (name? : Option Naming)
      (using? : Option Using) (list : Listing)
  | textIndex (word : AnySpelling ["FULLTEXT", "SPATIAL"]) (index? : Option (Gap × IndexWord))
      (name? : Option Naming) (list : Listing)
  | constraint (name? : Option ConstraintName) (rule : Rule)

namespace Keyless

def text : Keyless → List Char
  | index unique? word name? using? list   =>
    unique?.elim [] (fun (word, gap) => word.chars ++ gap.chars)
      ++ (word.chars ++ (nameText name? ++ (usingText using? ++ list.text)))
  | textIndex word index? name? list       =>
    word.chars ++ (indexText index? ++ (nameText name? ++ list.text))
  | constraint name? rule                  =>
    name?.elim [] (·.text) ++ (rule.word.chars ++ rule.tail)

end Keyless

end SchemaGraph.Clause
