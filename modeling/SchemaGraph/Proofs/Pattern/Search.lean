import SchemaGraph.Proofs.Pattern.Refuses

namespace SchemaGraph

variable {α γ : Type} {before : Option Char} {u v w x rest text : List Char} {pos : Nat}

namespace Pattern

variable {a : Pattern γ} {kept : List (γ × List Char)}

theorem matchText?_eq_some (h : a.Takes none text [] kept) :
    ∃ t, a.matchText? text = some t ∧ t.texts = kept := by
  have ⟨t, ht, hk, _⟩ := h.match? 0
  rw [List.append_nil] at ht
  exact ⟨t, ht, hk⟩

theorem matchText?_eq_none (h : a.Fails none text) : a.matchText? text = none :=
  Fails.match?_eq_none h

theorem isSome_matchText? (h : a.Matches none w rest) : (a.matchText? (w ++ rest)).isSome := by
  have ⟨t, ht, _⟩ := a.exact.complete (s := .ofCursor (.ofText (w ++ rest))) rfl h
  rw [Option.isSome_iff_ne_none, matchText?, match?_eq_head?, ne_eq, List.head?_eq_none_iff]
  exact List.ne_nil_of_mem ht

theorem find?_go_append (h : ∀ u v, x = u ++ v → v ≠ [] → a.Fails (behind before u) (v ++ rest)) :
    find?.go a before pos (x ++ rest) = find?.go a (behind before x) (pos + x.length) rest := by
  induction x generalizing before pos
  case nil => rfl
  case cons c cs hi =>
    have hn : a.match? ⟨before, c :: cs ++ rest, pos⟩ = none :=
      Fails.match?_eq_none (h [] (c :: cs) rfl (by simp))
    rw [List.cons_append] at hn ⊢
    rw [find?.go, hn, behind_cons, hi fun u v hx hv => h (c :: u) v (by rw [hx]; rfl) hv,
      List.length_cons, Nat.add_assoc, Nat.add_comm 1]

theorem find?_eq_none (h : ∀ u v, text = u ++ v → a.Fails (behind none u) v) :
    a.find? text = none := by
  have ht : text ++ [] = text := List.append_nil text
  have hn : a.match? ⟨behind none text, [], 0 + text.length⟩ = none :=
    Fails.match?_eq_none (h text [] ht.symm)
  rw [find?, ←ht, find?_go_append fun u v hx _ => by simpa using h u v hx, find?.go, hn]

theorem find?_eq_some (h : ∀ u v, x = u ++ v → v ≠ [] → a.Fails (behind none u) (v ++ (w ++ rest)))
    (ha : a.Takes (behind none x) w rest kept) :
    ∃ t, a.find? (x ++ (w ++ rest)) = some t ∧ t.texts = kept := by
  have ⟨t, ht, hk, _⟩ := ha.match? (0 + x.length)
  refine ⟨t, ?_, hk⟩
  rw [find?, find?_go_append h]
  unfold find?.go
  rw [ht]

theorem exists_of_find?_eq_some {t : Progress γ} (h : a.find? text = some t) :
    ∃ u v, text = u ++ v ∧ ∃ cur : Cursor, cur.rest = v ∧ a.match? cur = some t := by
  have key (before pos cs) (h : find?.go a before pos cs = some t) :
      ∃ u v, cs = u ++ v ∧ ∃ cur : Cursor, cur.rest = v ∧ a.match? cur = some t := by
    induction cs generalizing before pos
    case nil =>
      unfold find?.go at h
      split at h
      case h_1 s hm => exact ⟨[], [], rfl, _, rfl, hm.trans h⟩
      case h_2      => cases h
    case cons c cs hi =>
      unfold find?.go at h
      split at h
      case h_1 s hm => exact ⟨[], c :: cs, rfl, _, rfl, hm.trans h⟩
      case h_2      =>
        obtain ⟨u, v, hcs, hcur⟩ := hi _ _ h
        exact ⟨c :: u, v, congrArg (c :: ·) hcs, hcur⟩
  exact key none 0 text h

end Pattern

namespace Cursor

variable {read : Cursor → Option (α × Nat)} {item : α}

theorem readAll_go_skip (read : Cursor → Option (α × Nat)) (w : List Char) :
    readAll.go read w.length before pos (w ++ rest) =
      readAll.go read 0 (behind before w) (pos + w.length) rest := by
  induction w generalizing before pos
  case nil => rfl
  case cons c cs hi =>
    rw [List.cons_append, List.length_cons, readAll.go, hi, behind_cons, Nat.add_assoc,
      Nat.add_comm 1]

theorem readAll_go_some (h : read ⟨before, w ++ rest, pos⟩ = some (item, w.length)) (hw : w ≠ []) :
    readAll.go read 0 before pos (w ++ rest) =
      item :: readAll.go read 0 (behind before w) (pos + w.length) rest := by
  cases w
  case nil       => exact absurd rfl hw
  case cons c cs =>
    rw [List.cons_append] at h ⊢
    rw [readAll.go, h]
    show item :: readAll.go read cs.length (some c) (pos + 1) (cs ++ rest) = _
    rw [readAll_go_skip, behind_cons, List.length_cons, Nat.add_assoc, Nat.add_comm 1]

theorem readAll_go_none
    (h : ∀ u v, w = u ++ v → v ≠ [] → read ⟨behind before u, v ++ rest, pos + u.length⟩ = none) :
    readAll.go read 0 before pos (w ++ rest) =
      readAll.go read 0 (behind before w) (pos + w.length) rest := by
  induction w generalizing before pos
  case nil => rfl
  case cons c cs hi =>
    have hn : read ⟨before, c :: (cs ++ rest), pos⟩ = none := h [] (c :: cs) rfl (by simp)
    have hi := @hi (some c) (pos + 1) fun u v hw hv => by
      have := h (c :: u) v (by rw [hw]; rfl) hv
      rwa [List.length_cons, Nat.add_comm u.length, ←Nat.add_assoc] at this
    rw [List.cons_append, readAll.go, hn]
    show readAll.go read 0 (some c) (pos + 1) (cs ++ rest) = _
    rw [hi, behind_cons, List.length_cons, Nat.add_assoc, Nat.add_comm 1]

theorem readAll_go_eq_nil {skip : Nat} {text : List Char}
    (h : ∀ u v before pos, text = u ++ v → skip ≤ u.length → v ≠ [] →
      read ⟨before, v, pos⟩ = none) :
    readAll.go read skip before pos text = [] := by
  induction text generalizing skip before pos
  case nil => rw [readAll.go]
  case cons c cs hi =>
    have hi {k before pos} (hk : skip ≤ k + 1) : readAll.go read k before pos cs = [] :=
      hi fun u v before pos hc hu => h (c :: u) v before pos (hc ▸ rfl) (by simp; omega)
    cases skip
    case zero   => rw [readAll.go, h [] (c :: cs) before pos rfl (Nat.zero_le _) (by simp),
      hi (by omega)]
    case succ k => rw [readAll.go, hi (Nat.le_refl _)]

end Cursor
end SchemaGraph
