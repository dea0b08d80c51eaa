import SchemaGraph.Proofs.Text.Letter
import SchemaGraph.Text.Letter

namespace SchemaGraph.Text

variable {c d : Char} {u v u₁ u₂ v₁ v₂ w : List Char}

theorem forall_ascii {p : Char → Prop} (h : ∀ n < 128, p (Char.ofNat n)) (hc : c.toNat < 128) :
    p c :=
  Char.ofNat_toNat c ▸ h c.toNat hc

theorem lowerChar_of_ascii (h : c.toNat < 128) : lowerChar c = c.toLower :=
  @forall_ascii _ (fun c => lowerChar c = c.toLower) (by decide +kernel) h

theorem folded_of_ascii (h : c.toNat < 128) : folded c = c.toLower :=
  @forall_ascii _ (fun c => folded c = c.toLower) (by decide +kernel) h

theorem lowerFrom_of_ascii (before : List Char) (h : ∀ c ∈ w, c.toNat < 128) :
    lowerFrom before w = w.map Char.toLower := by
  induction w generalizing before
  case nil          => rfl
  case cons c cs hi =>
    have ⟨hc, hcs⟩ := List.forall_mem_cons.mp h
    have hsigma : c ≠ '\u03A3' := fun he => by simp [he] at hc
    have hdotted : c ≠ '\u0130' := fun he => by simp [he] at hc
    rw [lowerFrom, if_neg hsigma, if_neg hdotted, hi _ hcs, lowerChar_of_ascii hc]
    rfl

structure SameButCase (u v : List Char) : Prop where
  ascii_left  : ∀ c ∈ u, c.toNat < 128
  ascii_right : ∀ c ∈ v, c.toNat < 128
  toLower_eq  : u.map Char.toLower = v.map Char.toLower

namespace SameButCase

theorem symm (h : SameButCase u v) : SameButCase v u :=
  ⟨h.ascii_right, h.ascii_left, h.toLower_eq.symm⟩

theorem of_ascii (h : ∀ c ∈ w, c.toNat < 128) : SameButCase w w :=
  ⟨h, h, rfl⟩

theorem append (h₁ : SameButCase u₁ v₁) (h₂ : SameButCase u₂ v₂) :
    SameButCase (u₁ ++ u₂) (v₁ ++ v₂) where
  ascii_left := List.forall_mem_append.mpr ⟨h₁.ascii_left, h₂.ascii_left⟩
  ascii_right := List.forall_mem_append.mpr ⟨h₁.ascii_right, h₂.ascii_right⟩
  toLower_eq := by rw [List.map_append, List.map_append, h₁.toLower_eq, h₂.toLower_eq]

theorem exists_append (h : SameButCase (u₁ ++ u₂) v) :
    ∃ v₁ v₂, v = v₁ ++ v₂ ∧ SameButCase u₁ v₁ ∧ SameButCase u₂ v₂ := by
  obtain ⟨v₁, v₂, rfl, h₁, h₂⟩ :=
    List.map_eq_append_iff.mp (h.toLower_eq.symm.trans List.map_append)
  have ⟨hu₁, hu₂⟩ := List.forall_mem_append.mp h.ascii_left
  have ⟨hv₁, hv₂⟩ := List.forall_mem_append.mp h.ascii_right
  exact ⟨v₁, v₂, rfl, ⟨hu₁, hv₁, h₁.symm⟩, ⟨hu₂, hv₂, h₂.symm⟩⟩

theorem lower_eq (h : SameButCase u v) : lower (String.ofList u) = lower (String.ofList v) := by
  rw [lower, lower, String.toList_ofList, String.toList_ofList, lowerFrom_of_ascii [] h.ascii_left,
    lowerFrom_of_ascii [] h.ascii_right, h.toLower_eq]

theorem folded_eq (h : SameButCase u v) : u.map folded = v.map folded := by
  have ascii {w : List Char} (hw : ∀ c ∈ w, c.toNat < 128) : w.map folded = w.map Char.toLower :=
    List.map_congr_left fun c hc => folded_of_ascii (hw c hc)
  rw [ascii h.ascii_left, ascii h.ascii_right, h.toLower_eq]

theorem eq_nil (h : SameButCase [] v) : v = [] :=
  List.map_eq_nil_iff.mp h.toLower_eq.symm

theorem exists_eq_singleton (h : SameButCase [d] v) : ∃ c, v = [c] ∧ SameButCase [d] [c] := by
  obtain ⟨c, rfl, _⟩ := List.map_eq_singleton_iff.mp h.toLower_eq.symm
  exact ⟨c, rfl, h⟩

theorem mem_of_singleton (h : SameButCase [d] [c]) {cs : List Char}
    (hd : ∀ n < 128, (Char.ofNat n).toLower = d.toLower → Char.ofNat n ∈ cs) : c ∈ cs := by
  have ⟨he, _⟩ := List.cons.inj h.toLower_eq
  exact @forall_ascii c (fun c => c.toLower = d.toLower → c ∈ cs) hd
    (h.ascii_right c List.mem_cons_self) he.symm

theorem exists_getLast? (h : SameButCase u v) (hd : u.getLast? = some d) :
    ∃ c, v.getLast? = some c ∧ SameButCase [d] [c] ∧ SameButCase u.dropLast v.dropLast := by
  obtain ⟨l, rfl⟩ := List.getLast?_eq_some_iff.mp hd
  obtain ⟨l', _, rfl, hl, hx⟩ := h.exists_append
  obtain ⟨c, rfl, hc⟩ := hx.exists_eq_singleton
  exact ⟨c, List.getLast?_concat, hc, by rwa [List.dropLast_concat, List.dropLast_concat]⟩

theorem mem_of_mem (h : SameButCase u v)
    (hd : ∀ n < 128, (Char.ofNat n).toLower = d.toLower → Char.ofNat n ∈ [d]) (hm : d ∈ u) :
    d ∈ v := by
  obtain ⟨l, r, rfl⟩ := List.append_of_mem hm
  obtain ⟨_, _, rfl, _, hr⟩ := h.exists_append
  obtain ⟨x, _, rfl, hx, _⟩ := exists_append (show SameButCase ([d] ++ r) _ from hr)
  obtain ⟨c, rfl, hc⟩ := hx.exists_eq_singleton
  have hcd := List.mem_singleton.mp (hc.mem_of_singleton hd)
  simp [hcd]

end SameButCase
end SchemaGraph.Text
