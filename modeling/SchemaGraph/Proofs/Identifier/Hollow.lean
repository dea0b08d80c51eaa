import SchemaGraph.Proofs.Identifier.Unquote

-- Parts of names that mean nothing.
namespace SchemaGraph.Identifier

theorem not_isBlank_of_mem_quoteChars : ∀ c ∈ quoteChars, Text.isBlank c = false := by
  decide

def Token.IsHollow (token : Token) : Prop :=
  ∃ u b v, token.chars = u ++ (b ++ v) ∧ (∀ c ∈ u, c ∈ quoteChars) ∧ (∀ c ∈ b, Text.isBlank c) ∧
    ∀ c ∈ v, c ∈ quoteChars

theorem Token.name_eq_nil_iff (token : Token) : token.name = [] ↔ token.IsHollow := by
  have quote {w : List Char} : (∀ c ∈ w, quoteChars.contains c) ↔ ∀ c ∈ w, c ∈ quoteChars := by simp
  rw [name, Text.strip, Text.trim_eq_nil_iff]
  constructor
  case mp =>
    intro h
    obtain ⟨u, v, hc, hu, hv⟩ := Text.exists_eq_trim_append (quoteChars.contains ·) token.chars
    exact ⟨u, _, v, hc, quote.mp hu, h, quote.mp hv⟩
  case mpr =>
    intro h
    obtain ⟨u, b, v, hc, hu, hb, hv⟩ := h
    have hn : ∀ c ∈ b, ¬ quoteChars.contains c := fun c hm hq => by
      have := not_isBlank_of_mem_quoteChars c (List.contains_iff_mem.mp hq)
      simp [hb c hm] at this
    rw [hc,
      Text.trim_append (quote.mpr hu) (quote.mpr hv) (fun c hc => hn c (List.mem_of_mem_head? hc))
        fun c hc => hn c (List.mem_of_mem_getLast? hc)]
    exact hb

def Spelled.IsHollow (name : Spelled) : Prop :=
  name.links = [] ∧ name.first.IsHollow

theorem Spelled.name_eq_nil_iff (spelled : Spelled) : spelled.name = [] ↔ spelled.IsHollow := by
  obtain ⟨first, links⟩ := spelled
  rw [IsHollow, ←first.name_eq_nil_iff, name, tokens]
  cases links
  case nil  => simp
  case cons => simp [List.intercalate_cons_cons]

end SchemaGraph.Identifier
