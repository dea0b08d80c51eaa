import SchemaGraph.Proofs.Pattern.Spelling

namespace SchemaGraph.Pattern

variable {γ : Type} {a b : Pattern γ} {before : Option Char} {u v w rest : List Char}
variable {word : String}

-- In front of `w ++ rest` a pattern can match nothing but `w`.
def Forced (a : Pattern γ) (before : Option Char) (w rest : List Char) : Prop :=
  ∀ u v, w ++ rest = u ++ v → a.Matches before u v → u = w

namespace Forced

theorem seq (ha : a.Forced before u (v ++ rest)) (hb : b.Forced (behind before u) v rest) :
    (a ++ b).Forced before (u ++ v) rest := by
  intro w r ht ⟨x, y, hw, hx, hy⟩
  subst hw
  rw [List.append_assoc, List.append_assoc] at ht
  have hu := ha x (y ++ r) ht hx
  subst hu
  rw [hb y r (List.append_cancel_left ht) hy]

theorem alt (ha : a.Forced before w rest) (hb : b.Forced before w rest) :
    (a <|> b).Forced before w rest :=
  fun u v ht hm => hm.elim (ha u v ht) (hb u v ht)

theorem of_fails (h : a.Fails before (w ++ rest)) : a.Forced before w rest :=
  fun u v ht hm => absurd hm (h u v ht)

theorem of_length (h : ∀ u v, w ++ rest = u ++ v → a.Matches before u v → u.length = w.length) :
    a.Forced before w rest :=
  fun u v ht hm => (List.append_inj_left ht (h u v ht hm).symm).symm

theorem keyword (hk : isKeyword word) (hw : Spells word w) :
    (Pattern.keyword word : Pattern γ).Forced before w rest :=
  .of_length fun _ _ _ hu => by rw [((keyword_matches_iff hk).mp hu).length_eq, hw.length_eq]

theorem space (hr : ∀ c ∈ rest.head?, ¬ Text.isBlank c) :
    (Pattern.gap : Pattern γ).Forced before [' '] rest := by
  intro u v ht ⟨x, y, hu, ⟨c, hx, _⟩, hy⟩
  subst hu hx
  have ⟨hc, ht⟩ := List.cons.inj ht
  have hn : y = [] := by
    by_contra hn
    obtain ⟨d, ds, hd⟩ := List.exists_cons_of_ne_nil hn
    subst hd
    exact hr d (by simpa using congrArg List.head? ht) (hy d List.mem_cons_self)
  rw [hn, hc]
  rfl

end Forced

namespace Fails

theorem of_forced (ha : a.Forced before w rest) (hb : b.Fails (behind before w) rest) :
    (a ++ b).Fails before (w ++ rest) := by
  refine .seq_right fun u v ht hu => ?_
  have hu := ha u v ht hu
  rw [hu] at ht ⊢
  exact List.append_cancel_left ht ▸ hb

theorem assoc {c : Pattern γ} (h : (a ++ (b ++ c)).Fails before w) :
    ((a ++ b) ++ c).Fails before w := by
  intro x rest ht ⟨_, y, hx, ⟨u, v, huv, hu, hv⟩, hy⟩
  subst hx huv
  rw [behind_append] at hy
  rw [List.append_assoc u] at ht
  exact h _ rest ht ⟨u, v ++ y, rfl, List.append_assoc v y rest ▸ hu, v, y, rfl, hv, hy⟩

theorem alt_seq {c : Pattern γ} (ha : (a ++ c).Fails before w) (hb : (b ++ c).Fails before w) :
    ((a <|> b) ++ c).Fails before w := by
  intro x rest ht ⟨u, v, hx, hu, hv⟩
  cases hu
  case inl hu => exact ha x rest ht ⟨u, v, hx, hu, hv⟩
  case inr hu => exact hb x rest ht ⟨u, v, hx, hu, hv⟩

theorem opt_seq (ha : (a ++ b).Fails before w) (hb : b.Fails before w) :
    (opt a ++ b).Fails before w := by
  intro x rest ht ⟨u, v, hx, hu, hv⟩
  cases hu
  case inl hu => exact ha x rest ht ⟨u, v, hx, hu, hv⟩
  case inr hu =>
    have hu : u = [] := hu
    subst hu
    exact hb x rest ht (hx ▸ hv)

end Fails
end SchemaGraph.Pattern
