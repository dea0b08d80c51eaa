import Mathlib.Data.List.Infix
import SchemaGraph.Proofs.Pattern.Keyword

namespace SchemaGraph

structure Blanks where
  chars : List Char
  blank : ∀ c ∈ chars, Text.isBlank c

structure Spelling (word : String) where
  chars : List Char
  spells : Spells word chars

structure AnySpelling (words : List String) where
  word     : String
  mem      : word ∈ words
  spelling : Spelling word

def AnySpelling.chars {words : List String} (s : AnySpelling words) : List Char :=
  s.spelling.chars

structure Gap extends Blanks where
  ne : chars ≠ []

def Blanks.empty : Blanks where
  chars := []
  blank := by simp

def Blanks.lineEnd : Blanks where
  chars := ['\n']
  blank := by decide

def Gap.space : Gap where
  chars := [' ']
  blank := by decide
  ne    := by simp

def BeginsWith (words : List String) (text : List Char) : Prop :=
  ∃ word ∈ words, ∃ w rest, Spells word w ∧ text = w ++ rest

def areApart (u v : List Char) : Bool :=
  !u.isPrefixOf v && !v.isPrefixOf u

variable {γ : Type} {word : String} {words : List String} {before : Option Char}
variable {u v x cs rest : List Char}

theorem Pattern.Fails.keyword (hk : isKeyword word)
    (ha : areApart (word.toList.map Char.toLower) (v.map Text.folded)) :
    (Pattern.keyword word : Pattern γ).Fails before (v ++ cs) := by
  intro u rest hu hmatch
  have hu' := (Pattern.keyword_matches_iff hk).mp hmatch
  have hp : word.toList.map Char.toLower <+: (v ++ cs).map Text.folded :=
    ⟨rest.map Text.folded, by rw [←hu', hu, List.map_append]⟩
  have hp' : v.map Text.folded <+: (v ++ cs).map Text.folded := (List.prefix_append v cs).map _
  simp only [areApart, Bool.and_eq_true, Bool.not_eq_true'] at ha
  cases List.prefix_or_prefix_of_prefix hp hp'
  case inl h => simp [List.isPrefixOf_iff_prefix.mpr h] at ha
  case inr h => simp [List.isPrefixOf_iff_prefix.mpr h] at ha

theorem Pattern.Fails.keyword_within (hk : isKeyword word)
    (ha : ∀ v ∈ x.tails, v ≠ [] → areApart (word.toList.map Char.toLower) (v.map Text.folded))
    (hx : x = u ++ v) (hv : v ≠ []) : (Pattern.keyword word : Pattern γ).Fails before (v ++ rest) :=
  .keyword hk (ha v ((List.mem_tails _ _).mpr ⟨u, hx.symm⟩) hv)

theorem Spelling.beginsWith (s : Spelling word) (h : word ∈ words) (rest : List Char) :
    BeginsWith words (s.chars ++ rest) :=
  ⟨word, h, s.chars, rest, s.spells, rfl⟩

namespace AnySpelling

theorem beginsWith (s : AnySpelling words) {words' : List String}
    (h : ∀ word ∈ words, word ∈ words') (rest : List Char) : BeginsWith words' (s.chars ++ rest) :=
  s.spelling.beginsWith (h s.word s.mem) rest

theorem spells (s : AnySpelling words) (hw : s.word = word) : Spells word s.chars :=
  hw ▸ s.spelling.spells

section
variable (s : AnySpelling words) (hk : words.all fun word => isKeyword word && word != "")
include hk

theorem isKeyword_word : isKeyword s.word ∧ s.word ≠ "" := by
  simpa using List.all_eq_true.mp hk s.word s.mem

theorem isLetter : ∀ c ∈ s.chars, Text.isLetter c :=
  s.spelling.spells.isLetter (s.isKeyword_word hk).left

theorem not_isBlank : ∀ c ∈ s.chars, ¬ Text.isBlank c := fun c hc => by
  simp [Text.not_isBlank_of_isLetter (s.isLetter hk c hc)]

theorem chars_ne : s.chars ≠ [] := by
  intro hn
  have hl : s.chars.length = s.word.toList.length := s.spelling.spells.length_eq
  have hw : s.word.toList = [] := List.eq_nil_of_length_eq_zero (by rw [←hl, hn]; rfl)
  exact (s.isKeyword_word hk).right (by simpa using hw)

end

end AnySpelling

namespace BeginsWith

theorem keyword_fails (h : BeginsWith words cs) (hk : isKeyword word)
    (ha : words.all fun word' => areApart (word.toList.map Char.toLower)
      (word'.toList.map Char.toLower)) :
    (Pattern.keyword word : Pattern γ).Fails before cs := by
  have ⟨word', hm, w, r, hw, ht⟩ := h
  subst ht
  exact .keyword hk (by rw [hw]; exact List.all_eq_true.mp ha word' hm)

theorem head_isLetter (h : BeginsWith words cs)
    (hk : words.all fun word => isKeyword word && word != "") :
    ∃ d ds, cs = d :: ds ∧ Text.isLetter d := by
  have ⟨word, hm, w, r, hw, ht⟩ := h
  have hk := List.all_eq_true.mp hk word hm
  simp at hk
  have hl := hw.length_eq
  cases w
  case nil =>
    have hn : word.toList = [] := List.eq_nil_of_length_eq_zero hl.symm
    exact absurd (by simpa using hn) hk.right
  case cons d ds =>
    exact ⟨d, ds ++ r, ht, hw.isLetter (by simp [hk.left]) d List.mem_cons_self⟩

theorem mono (h : BeginsWith words cs) {words' : List String} (hw : ∀ word ∈ words, word ∈ words') :
    BeginsWith words' cs :=
  have ⟨word, hm, hs⟩ := h
  ⟨word, hw word hm, hs⟩

theorem not_blank (h : BeginsWith words cs)
    (hk : words.all fun word => isKeyword word && word != "") :
    ∀ c ∈ cs.head?, ¬ Text.isBlank c := by
  have ⟨d, ds, ht, hd⟩ := h.head_isLetter hk
  intro c hc
  simp [ht] at hc
  simp [←hc, Text.not_isBlank_of_isLetter hd]

end BeginsWith

theorem Pattern.Takes.gap (g : Gap) (hr : ∀ c ∈ rest.head?, ¬ Text.isBlank c) :
    (Pattern.gap : Pattern γ).Takes before g.chars rest [] :=
  .many g.ne g.blank hr

theorem Pattern.Takes.space (hr : ∀ c ∈ rest.head?, ¬ Text.isBlank c) :
    (Pattern.gap : Pattern γ).Takes before [' '] rest [] :=
  .many (by simp) (by decide) hr

theorem Spelling.takes (s : Spelling word) (hk : isKeyword word) :
    (Pattern.keyword word : Pattern γ).Takes before s.chars rest [] :=
  .keyword hk s.spells

end SchemaGraph
