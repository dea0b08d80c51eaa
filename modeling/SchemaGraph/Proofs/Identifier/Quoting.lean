import SchemaGraph.Proofs.Identifier.Unquote

-- That unquoting undoes quoting.
namespace SchemaGraph.Identifier

open Pattern

structure Token.IsTrim (token : Token) : Prop where
  head : ∀ c ∈ token.chars.head?, ¬ Text.isBlank c ∧ c ∉ quoteChars
  last : ∀ c ∈ token.chars.getLast?, ¬ Text.isBlank c ∧ c ∉ quoteChars

theorem not_contains_quoteChars_iff {c : Char} : ¬ quoteChars.contains c ↔ c ∉ quoteChars := by
  rw [List.contains_iff_mem]

namespace Token

theorem name_isInfix_chars (token : Token) : token.name <:+: token.chars :=
  (Text.trim_isInfix _ _).trans (Text.trim_isInfix _ _)

theorem name_eq_chars_iff (token : Token) : token.name = token.chars ↔ token.IsTrim := by
  constructor
  case mp =>
    intro h
    have hle : token.chars.length ≤ (Text.trim (quoteChars.contains ·) token.chars).length :=
      Nat.le_trans (Nat.le_of_eq (congrArg List.length h.symm)) (Text.trim_isInfix _ _).length_le
    have hquotes : Text.trim (quoteChars.contains ·) token.chars = token.chars :=
      (Text.trim_isInfix _ _).eq_of_length_le hle
    have hblanks : Text.strip token.chars = token.chars := by rwa [name, hquotes] at h
    have hblank := Text.head?_trim Text.isBlank token.chars
    have hquote := Text.head?_trim (quoteChars.contains ·) token.chars
    have hblank' := Text.getLast?_trim Text.isBlank token.chars
    have hquote' := Text.getLast?_trim (quoteChars.contains ·) token.chars
    rw [←Text.strip, hblanks] at hblank hblank'
    rw [hquotes] at hquote hquote'
    exact {
      head c hc := ⟨hblank c hc, not_contains_quoteChars_iff.mp (hquote c hc)⟩
      last c hc := ⟨hblank' c hc, not_contains_quoteChars_iff.mp (hquote' c hc)⟩ }
  case mpr =>
    intro h
    have hquotes : Text.trim (quoteChars.contains ·) token.chars = token.chars :=
      Text.trim_eq_self (fun c hc => not_contains_quoteChars_iff.mpr (h.head c hc).right)
        fun c hc => not_contains_quoteChars_iff.mpr (h.last c hc).right
    rw [name, hquotes]
    exact Text.trim_eq_self (fun c hc => (h.head c hc).left) fun c hc => (h.last c hc).left

end Token

namespace Spelled

theorem length_intercalate_le {f g : Token → List Char} (h : ∀ token, f token <:+: g token)
    (tokens : List Token) :
    (['.'].intercalate (tokens.map f)).length ≤ (['.'].intercalate (tokens.map g)).length := by
  induction tokens
  case nil                    => exact Nat.le_refl _
  case cons token tokens hi =>
    have := (h token).length_le
    cases tokens
    case nil  => simpa using this
    case cons =>
      simp only [List.map_cons, List.intercalate_cons_cons, List.length_append] at hi ⊢
      omega

theorem name_eq_of_intercalate_eq {tokens : List Token}
    (h : ['.'].intercalate (tokens.map Token.name) = ['.'].intercalate (tokens.map Token.chars)) :
    ∀ token ∈ tokens, token.name = token.chars := by
  induction tokens
  case nil                  => simp
  case cons token tokens hi =>
    cases tokens
    case nil              => simpa using h
    case cons next tokens =>
      simp only [List.map_cons, List.intercalate_cons_cons, List.append_assoc,
        List.singleton_append] at h hi
      have hl := congrArg List.length h
      have hrest := length_intercalate_le Token.name_isInfix_chars (next :: tokens)
      have hle := token.name_isInfix_chars.length_le
      simp only [List.map_cons, List.length_append, List.length_cons] at hl hrest
      have ⟨hname, htail⟩ := List.append_inj h (by omega)
      exact List.forall_mem_cons.mpr ⟨hname, hi (List.cons.inj htail).right⟩

-- What is written is read as a whole. Its unquoted parts are the ones that have been written,
-- whatever quotes and blanks these stand in, if they have neither blanks nor quotes at their ends,
-- and only then.
theorem quoting_undone {γ : Type} (spelled : Spelled) :
    (∃ t, (qualified : Pattern γ).matchText? spelled.text = some t ∧ t.rest = []) ∧
      (unquoteQualified spelled.text = ['.'].intercalate (spelled.tokens.map (·.chars)) ↔
        ∀ token ∈ spelled.tokens, token.IsTrim) := by
  refine ⟨?whole, ?unquotes⟩
  case whole    =>
    have htakes : (qualified : Pattern γ).Takes none spelled.text [] [] :=
      spelled.takes_text ⟨by simp, by simp⟩
    obtain ⟨t, ht, _, hc⟩ := htakes.match? 0
    rw [List.append_nil] at ht
    exact ⟨t, ht, by rw [hc]⟩
  case unquotes =>
    rw [unquoteQualified_text, name]
    constructor
    case mp  => exact fun h token hm =>
      token.name_eq_chars_iff.mp (name_eq_of_intercalate_eq h token hm)
    case mpr =>
      exact fun h =>
        congrArg _ (List.map_congr_left fun token hm => token.name_eq_chars_iff.mpr (h token hm))

end Spelled
end SchemaGraph.Identifier
