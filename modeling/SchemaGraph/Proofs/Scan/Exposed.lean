import SchemaGraph.Scan.Literal

namespace SchemaGraph.Scan

namespace Mode

variable {m : Mode} {c : Char}

@[simp]
theorem after_nil (m : Mode) : m.after [] = m :=
  rfl

@[simp]
theorem after_cons (m : Mode) (c : Char) (cs : List Char) :
    m.after (c :: cs) = (m.next c).after cs :=
  rfl

@[simp]
theorem after_append (m : Mode) (u v : List Char) : m.after (u ++ v) = (m.after u).after v :=
  List.foldl_append

def Valid : Mode → Prop
  | outside                           => True
  | inside q | escaped q | closing q => opens q

theorem enter_valid (c : Char) : (enter c).Valid := by
  by_cases h : opens c <;> simp [enter, h, Valid]

theorem Valid.next (h : m.Valid) (c : Char) : (m.next c).Valid := by
  cases m <;> simp only [Mode.next]
  case outside   => exact enter_valid c
  case inside q  =>
    split
    · exact h
    · split <;> exact h
  case escaped q => exact h
  case closing q =>
    split
    · exact h
    · exact enter_valid c

theorem Valid.after (h : m.Valid) (cs : List Char) : (m.after cs).Valid := by
  induction cs generalizing m
  case nil        => exact h
  case cons c _ hi => exact hi (h.next c)

theorem after_outside_valid (cs : List Char) : (outside.after cs).Valid :=
  (show outside.Valid from trivial).after cs

theorem next_of_exposes (h : m.exposes c) : m.next c = outside := by
  cases m <;> simp_all [exposes, Mode.next, enter]

theorem exposes_of_isOutside (hv : m.Valid) (hm : m.isOutside) (hc : opens c = false) :
    m.exposes c := by
  cases m <;> simp [isOutside] at hm
  case outside   => simp [exposes, hc]
  case closing q =>
    have hq : c ≠ q := fun h => by simp [Valid, ←h, hc] at hv
    simp [exposes, hc, hq]

end Mode

def exposedFrom (m : Mode) (pos : Nat) : List Char → List (Nat × Char)
  | []      => []
  | c :: cs =>
    let later := exposedFrom (m.next c) (pos + 1) cs
    if m.exposes c then (pos, c) :: later else later

variable {m : Mode} {pos p : Nat} {c : Char} {cs u v : List Char}

theorem foldl_step_eq (s : Exposed) (cs : List Char) :
    cs.foldl Exposed.step s =
      ⟨s.mode.after cs, s.pos + cs.length, (exposedFrom s.mode s.pos cs).reverse ++ s.found⟩ := by
  induction cs generalizing s
  case nil => rfl
  case cons c cs hi =>
    rw [List.foldl_cons, hi]
    by_cases h : s.mode.exposes c <;> simp [Exposed.step, exposedFrom, h, Nat.add_assoc,
      Nat.add_comm 1]

theorem exposed_eq (text : List Char) : exposed text = exposedFrom .outside 0 text := by
  simp [exposed, foldl_step_eq]

@[simp]
theorem exposedFrom_nil (m : Mode) (pos : Nat) : exposedFrom m pos [] = [] :=
  rfl

theorem exposedFrom_cons (m : Mode) (pos : Nat) (c : Char) (cs : List Char) :
    exposedFrom m pos (c :: cs) =
      (if m.exposes c then [(pos, c)] else []) ++ exposedFrom (m.next c) (pos + 1) cs := by
  by_cases h : m.exposes c <;> simp [exposedFrom, h]

theorem exposedFrom_append (m : Mode) (pos : Nat) (u v : List Char) :
    exposedFrom m pos (u ++ v) = exposedFrom m pos u ++
      exposedFrom (m.after u) (pos + u.length) v := by
  induction u generalizing m pos
  case nil => simp
  case cons c u hi =>
    simp only [List.cons_append, exposedFrom_cons, hi, Mode.after_cons, List.length_cons,
      List.append_assoc]
    rw [Nat.add_assoc, Nat.add_comm 1]

def moved (k : Nat) : Nat × Char → Nat × Char
  | (p, c) => (p + k, c)

theorem exposedFrom_add (m : Mode) (pos k : Nat) (cs : List Char) :
    exposedFrom m (pos + k) cs = (exposedFrom m pos cs).map (moved k) := by
  induction cs generalizing m pos
  case nil => rfl
  case cons c cs hi =>
    have hk : pos + k + 1 = pos + 1 + k := by omega
    rw [exposedFrom_cons, exposedFrom_cons, hk, hi]
    split <;> simp [moved]

theorem exists_of_mem_exposedFrom (h : (p, c) ∈ exposedFrom m pos cs) :
    ∃ u v, cs = u ++ c :: v ∧ p = pos + u.length ∧ (m.after u).exposes c := by
  induction cs generalizing m pos
  case nil => simp at h
  case cons d cs hi =>
    rw [exposedFrom_cons, List.mem_append] at h
    cases h
    case inl h =>
      split at h <;> simp at h
      case isTrue hd =>
        have ⟨hp, hc⟩ := h
        exact ⟨[], cs, by simp [hc], by simp [hp], by simp [hc, hd]⟩
    case inr h =>
      have ⟨u, v, hu, hp, he⟩ := hi h
      exact ⟨d :: u, v, by simp [hu], by simp [hp]; omega, he⟩

theorem le_of_mem_exposedFrom (h : (p, c) ∈ exposedFrom m pos cs) : pos ≤ p := by
  have ⟨_, _, _, hp, _⟩ := exists_of_mem_exposedFrom h
  omega

theorem lt_of_mem_exposedFrom (h : (p, c) ∈ exposedFrom m pos cs) : p < pos + cs.length := by
  have ⟨_, _, hcs, hp, _⟩ := exists_of_mem_exposedFrom h
  simp [hcs, hp]

theorem pairwise_exposedFrom (m : Mode) (pos : Nat) (cs : List Char) :
    (exposedFrom m pos cs).Pairwise (·.1 < ·.1) := by
  induction cs generalizing m pos
  case nil => exact .nil
  case cons c cs hi =>
    rw [exposedFrom_cons]
    split
    case isFalse => exact hi ..
    case isTrue  => exact .cons (fun _ h => le_of_mem_exposedFrom h) (hi ..)

-- Around an exposed character that opens no literal the scan falls into two independent ones.
theorem exposedFrom_append_cons (h : (m.after u).exposes c) :
    exposedFrom m pos (u ++ c :: v) =
      exposedFrom m pos u ++ (pos + u.length, c) :: exposedFrom .outside
        (pos + u.length + 1) v := by
  rw [exposedFrom_append, exposedFrom_cons, if_pos h, Mode.next_of_exposes h, List.singleton_append]

def shown (m : Mode) (cs : List Char) : List Char :=
  (exposedFrom m 0 cs).map Prod.snd

theorem map_snd_exposedFrom (m : Mode) (pos : Nat) (cs : List Char) :
    (exposedFrom m pos cs).map Prod.snd = shown m cs := by
  rw [shown, ←Nat.zero_add pos, exposedFrom_add, List.map_map]
  rfl

theorem map_moved_exposed (cs : List Char) (k : Nat) :
    (exposed cs).map (moved k) = exposedFrom .outside k cs := by
  rw [exposed_eq, ←exposedFrom_add, Nat.zero_add]

@[simp]
theorem shown_nil (m : Mode) : shown m [] = [] :=
  rfl

theorem shown_cons (m : Mode) (c : Char) (cs : List Char) :
    shown m (c :: cs) = (if m.exposes c then [c] else []) ++ shown (m.next c) cs := by
  rw [shown, exposedFrom_cons, List.map_append, map_snd_exposedFrom]
  split <;> rfl

theorem shown_append (m : Mode) (u v : List Char) :
    shown m (u ++ v) = shown m u ++ shown (m.after u) v := by
  rw [shown, exposedFrom_append, List.map_append, map_snd_exposedFrom, map_snd_exposedFrom]

end SchemaGraph.Scan
