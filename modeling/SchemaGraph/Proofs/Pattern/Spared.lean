import SchemaGraph.Proofs.Pattern.Search
import SchemaGraph.Proofs.Pattern.Twin

namespace SchemaGraph.Pattern

variable {γ : Type}

def locate (a : Pattern γ) (before : Option Char) (pos : Nat) (cs : List Char) :
    Option (Nat × Progress γ) :=
  match a.match? ⟨before, cs, pos⟩ with
  | some s => some (pos, s)
  | none   =>
    match cs with
    | []      => none
    | c :: cs => locate a (some c) (pos + 1) cs

-- What is found in `u ++ z ++ v`, after `before` and from `pos` on, does not overlap `z`.
def Spares (a : Pattern γ) (before : Option Char) (pos : Nat) (u z v : List Char) : Prop :=
  ∀ start s, a.locate before pos (u ++ (z ++ v)) = some (start, s) →
    s.pos ≤ pos + u.length ∨ pos + u.length + z.length ≤ start

instance (a : Pattern γ) (before : Option Char) (pos : Nat) (u z v : List Char) :
    Decidable (a.Spares before pos u z v) :=
  decidable_of_iff ((a.locate before pos (u ++ (z ++ v))).all fun (start, s) =>
    s.pos ≤ pos + u.length || pos + u.length + z.length ≤ start) <| by
      simp [Spares, Option.all_eq_true, Prod.forall]

variable {a : Pattern γ} {before : Option Char} {pos pos' start k : Nat} {cs u v z z' : List Char}
variable {s : Progress γ}

theorem find?_eq_locate (a : Pattern γ) (text : List Char) :
    a.find? text = (a.locate none 0 text).map Prod.snd := by
  have key (before pos cs) : find?.go a before pos cs = (a.locate before pos cs).map Prod.snd := by
    induction cs generalizing before pos
    case nil =>
      unfold find?.go locate
      cases a.match? ⟨before, [], pos⟩ <;> rfl
    case cons c cs hi =>
      unfold find?.go locate
      cases a.match? ⟨before, c :: cs, pos⟩
      case none   => exact hi _ _
      case some s => rfl
  exact key none 0 text

theorem locate_append
    (h : ∀ start s, a.locate before pos (z ++ v) = some (start, s) → pos + z.length ≤ start) :
    a.locate before pos (z ++ v) = a.locate (behind before z) (pos + z.length) v := by
  induction z generalizing before pos
  case nil         => rfl
  case cons c z hi =>
    have hn : a.match? ⟨before, c :: (z ++ v), pos⟩ = none := by
      cases hm : a.match? ⟨before, c :: (z ++ v), pos⟩
      case none   => rfl
      case some s =>
        have := h pos s (by rw [List.cons_append, locate, hm])
        rw [List.length_cons] at this
        omega
    have hstep : a.locate before pos (c :: z ++ v) = a.locate (some c) (pos + 1) (z ++ v) := by
      rw [List.cons_append, locate, hn]
    rw [hstep] at h ⊢
    have hl : pos + (c :: z).length = pos + 1 + z.length := by simp; omega
    rw [hi fun start s hs => by have := h start s hs; omega, hl, behind_cons]

theorem locate_cons_of_none {c : Char} (h : a.match? ⟨before, c :: cs, pos⟩ = none) :
    a.locate before pos (c :: cs) = a.locate (some c) (pos + 1) cs := by
  rw [locate, h]

theorem locate_of_some (h : a.match? ⟨before, cs, pos⟩ = some s) :
    a.locate before pos cs = some (pos, s) := by
  unfold locate
  rw [h]

theorem locate_texts_eq {cs' : List Char} {before' : Option Char} {x y : List Char} {l : Nat}
    (hm : Option.Rel (Twin x y k l) (a.match? ⟨before, cs, pos⟩) (a.match? ⟨before', cs', pos'⟩))
    (h : a.match? ⟨before, cs, pos⟩ = none → a.match? ⟨before', cs', pos'⟩ = none →
      (a.locate before pos cs).map (·.2.texts) = (a.locate before' pos' cs').map (·.2.texts)) :
    (a.locate before pos cs).map (·.2.texts) = (a.locate before' pos' cs').map (·.2.texts) := by
  cases hs : a.match? ⟨before, cs, pos⟩ <;> cases ht : a.match? ⟨before', cs', pos'⟩ <;>
    rw [hs, ht] at hm
  case none.none => exact h hs ht
  case some.some =>
    cases hm
    case some hst =>
      rw [locate_of_some hs, locate_of_some ht]
      exact congrArg some hst.texts_eq
  all_goals cases hm

-- Where a text begins does not matter for what is found in it.

theorem match?_moved (ha : a.isNear) (before : Option Char) (pos pos' : Nat) (cs : List Char) :
    Option.Rel (Twin [] [] pos pos') (a.match? ⟨before, cs, pos⟩) (a.match? ⟨before, cs, pos'⟩) :=
  TwinPlaces.match? (.refl []) ha ⟨rfl, ⟨cs, by simp⟩, Nat.add_comm ..⟩ (by simp [isUpTo])
    (by simp [isUpTo])

theorem locate_moved (ha : a.isNear) (before : Option Char) (pos pos' : Nat) (cs : List Char) :
    (a.locate before pos cs).map (·.2.texts) = (a.locate before pos' cs).map (·.2.texts) := by
  induction cs generalizing before pos pos'
  case nil =>
    refine locate_texts_eq (match?_moved ha ..) fun hs ht => ?_
    unfold locate
    rw [hs, ht]
  case cons c cs hi =>
    refine locate_texts_eq (match?_moved ha ..) fun hs ht => ?_
    rw [locate_cons_of_none hs, locate_cons_of_none ht]
    exact hi ..

theorem le_of_locate (h : a.locate before pos cs = some (start, s)) :
    pos ≤ start ∧ start ≤ s.pos := by
  have here {before pos cs} (hm : a.match? ⟨before, cs, pos⟩ = some s) : pos ≤ s.pos := by
    have ⟨w, hw⟩ := reaches_of_match? hm
    exact hw.pos_eq ▸ Nat.le_add_right ..
  induction cs generalizing before pos
  case nil =>
    unfold locate at h
    cases hm : a.match? ⟨before, [], pos⟩ <;> simp [hm] at h
    case some t => exact ⟨Nat.le_of_eq h.left, h.left ▸ here (h.right ▸ hm)⟩
  case cons c cs hi =>
    unfold locate at h
    cases hm : a.match? ⟨before, c :: cs, pos⟩ <;> simp [hm] at h
    case some t => exact ⟨Nat.le_of_eq h.left, h.left ▸ here (h.right ▸ hm)⟩
    case none   =>
      have := hi h
      omega

namespace Spares

variable {c : Char}

theorem isUpTo (h : a.Spares before pos u z v) (hz : z ≠ []) :
    ∀ s ∈ a.match? ⟨before, u ++ (z ++ v), pos⟩, isUpTo (z ++ v) s.toCursor := by
  intro s hs
  have hl := List.length_pos_iff.mpr hz
  have := h pos s (locate_of_some hs)
  exact (isUpTo_match? rfl hs).mpr (by simp; omega)

theorem tail (h : a.Spares before pos (c :: u) z v)
    (hn : a.match? ⟨before, c :: u ++ (z ++ v), pos⟩ = none) :
    a.Spares (some c) (pos + 1) u z v := by
  intro start s hs
  have := h start s ((locate_cons_of_none hn).trans hs)
  simp at this
  omega

theorem locate_eq (h : a.Spares before pos [] z v) (hz : z ≠ [])
    (hn : a.match? ⟨before, z ++ v, pos⟩ = none) :
    a.locate before pos (z ++ v) = a.locate (behind before z) (pos + z.length) v := by
  obtain ⟨c, cs, rfl⟩ := List.exists_cons_of_ne_nil hz
  have hstep : a.locate before pos (c :: cs ++ v) = a.locate (some c) (pos + 1) (cs ++ v) :=
    locate_cons_of_none hn
  rw [hstep, locate_append, behind_cons, List.length_cons, Nat.add_assoc, Nat.add_comm 1]
  intro start s hs
  have := h start s (hstep.trans hs)
  have := le_of_locate hs
  simp at *
  omega

theorem match? (ha : a.isNear) (hz : Alike (z ++ v) (z' ++ v)) (hn : z ≠ []) (hn' : z' ≠ [])
    (h : a.Spares before pos u z v) (h' : a.Spares before pos u z' v) :
    Option.Rel (Twin (z ++ v) (z' ++ v) 0 0) (a.match? ⟨before, u ++ (z ++ v), pos⟩)
      (a.match? ⟨before, u ++ (z' ++ v), pos⟩) :=
  TwinPlaces.match? hz ha ⟨rfl, ⟨u, rfl, rfl⟩, rfl⟩ (h.isUpTo hn) (h'.isUpTo hn')

-- What is found is the same whatever is spared, if it looks the same from both sides.
theorem texts_eq (ha : a.isNear) (hz : Alike (z ++ v) (z' ++ v)) (hn : z ≠ []) (hn' : z' ≠ [])
    (hl : ∀ before, behind before z = behind before z') (h : a.Spares before pos u z v)
    (h' : a.Spares before pos u z' v) :
    (a.locate before pos (u ++ (z ++ v))).map (·.2.texts) =
      (a.locate before pos (u ++ (z' ++ v))).map (·.2.texts) := by
  induction u generalizing before pos
  case nil =>
    refine locate_texts_eq (h.match? ha hz hn hn' h') fun hs ht => ?_
    rw [List.nil_append, List.nil_append, h.locate_eq hn hs, h'.locate_eq hn' ht, hl]
    exact locate_moved ha ..
  case cons c u hi =>
    refine locate_texts_eq (h.match? ha hz hn hn' h') fun hs ht => ?_
    have hi := hi (h.tail hs) (h'.tail ht)
    rw [List.cons_append] at hs ht ⊢
    rwa [List.cons_append, locate_cons_of_none hs, locate_cons_of_none ht]

end Spares

theorem find?_texts_eq (ha : a.isNear) (hz : Alike (z ++ v) (z' ++ v)) (hn : z ≠ []) (hn' : z' ≠ [])
    (hl : ∀ before, behind before z = behind before z') (h : a.Spares none 0 u z v)
    (h' : a.Spares none 0 u z' v) :
    (a.find? (u ++ (z ++ v))).map (·.texts) = (a.find? (u ++ (z' ++ v))).map (·.texts) := by
  have ht := h.texts_eq ha hz hn hn' hl h'
  rw [find?_eq_locate, find?_eq_locate, Option.map_map, Option.map_map]
  exact ht

end SchemaGraph.Pattern
