import SchemaGraph.Proofs.Scan.Body

namespace SchemaGraph.Scan

-- From depth `d` on, the characters shown by a text lead to depth `e`. They close nothing that was
-- not opened, and commas come up in parentheses only.
inductive Levels : Nat → List Char → Nat → Prop
  | nil {d}          : Levels d [] d
  | opening {d cs e} : Levels (d + 1) cs e → Levels d ('(' :: cs) e
  | closing {d cs e} : Levels d cs e → Levels (d + 1) (')' :: cs) e
  | comma {d cs e}   : Levels (d + 1) cs e → Levels (d + 1) (',' :: cs) e
  | other {d c cs e} : c ∉ ['(', ')', ','] → Levels d cs e → Levels d (c :: cs) e

variable {cs : List Char} {d e : Nat} {m : Mode}

-- A scan that stands outside every literal goes on like one that begins there, unless the next
-- character is a quote.
theorem shown_of_isOutside (hv : m.Valid) (hm : m.isOutside)
    (hc : ∀ c ∈ cs.head?, Mode.opens c = false) : shown m cs = shown .outside cs := by
  cases cs
  case nil       => rfl
  case cons c cs =>
    have hc := hc c rfl
    have he := Mode.exposes_of_isOutside hv hm hc
    have ho : Mode.outside.exposes c := by simp [Mode.exposes, hc]
    rw [shown_cons, shown_cons, if_pos he, if_pos ho, Mode.next_of_exposes he,
      Mode.next_of_exposes ho]

theorem isOutside_after_of_isOutside (hv : m.Valid) (hm : m.isOutside)
    (hc : ∀ c ∈ cs.head?, Mode.opens c = false) (ho : (Mode.outside.after cs).isOutside) :
    (m.after cs).isOutside := by
  cases cs
  case nil       => exact hm
  case cons c cs =>
    have he := Mode.exposes_of_isOutside hv hm (hc c rfl)
    have ho' : Mode.outside.exposes c := by simp [Mode.exposes, hc c rfl]
    rw [Mode.after_cons, Mode.next_of_exposes ho'] at ho
    rwa [Mode.after_cons, Mode.next_of_exposes he]

namespace Levels

theorem count_eq (h : Levels d cs e) : d + cs.count '(' = e + cs.count ')' := by
  induction h
  case nil             => rfl
  case opening _ hi    => simp; omega
  case closing _ hi    => simp; omega
  case comma _ hi      => simpa using hi
  case other hc _ hi   =>
    simp at hc
    simpa [hc] using hi

theorem closesAtMost (h : Levels d cs e) : ClosesAtMost d cs := by
  intro u hu
  induction h generalizing u
  case nil => simp [List.prefix_nil.mp hu]
  all_goals
    cases u
    case nil => simp
  case opening d cs e _ hi c u =>
    have ⟨hc, hp⟩ := List.cons_prefix_cons.mp hu
    have := hi u hp
    simp [hc]
    omega
  case closing d cs e _ hi c u =>
    have ⟨hc, hp⟩ := List.cons_prefix_cons.mp hu
    have := hi u hp
    simp [hc]
    omega
  case comma d cs e _ hi c u =>
    have ⟨hc, hp⟩ := List.cons_prefix_cons.mp hu
    simpa [hc] using hi u hp
  case other d c cs e ho _ hi c' u =>
    have ⟨hc, hp⟩ := List.cons_prefix_cons.mp hu
    simp at ho
    simpa [hc, ho] using hi u hp

theorem balanced (h : Levels 0 cs 0) : Balanced cs where
  count_eq := by simpa using h.count_eq
  neverBelow := h.closesAtMost

theorem foldl_depthAfter (h : Levels d cs e) : cs.foldl depthAfter d = e := by
  induction h
  case nil           => rfl
  case opening _ hi  => exact hi
  case closing _ hi  => exact hi
  case comma _ hi    => exact hi
  case other hc _ hi =>
    simp at hc
    simpa [depthAfter, hc] using hi

theorem cutsFrom_eq_nil {xs : Found} (h : Levels d (chars xs) e) :
    cutsFrom (· == ',') d xs = [] := by
  generalize hcs : chars xs = cs at h
  induction h generalizing xs
  case nil =>
    have hx := List.map_eq_nil_iff.mp hcs
    subst hx
    rfl
  all_goals
    have ⟨⟨p, ch⟩, ys, hx, hch, hy⟩ := List.map_eq_cons_iff.mp hcs
    subst hx
    simp only at hch
  case opening hi    => simp [cutsFrom, isCut, depthAfter, hch, hi hy]
  case closing hi    => simp [cutsFrom, isCut, depthAfter, hch, hi hy]
  case comma hi      => simp [cutsFrom, isCut, depthAfter, hch, hi hy]
  case other hc _ hi =>
    simp at hc
    simp [cutsFrom, isCut, depthAfter, hch, hc, hi hy]

def reached? (d : Nat) : List Char → Option Nat
  | []      => some d
  | c :: cs =>
    if c = '(' then reached? (d + 1) cs
    else if c ∈ [')', ','] ∧ d = 0 then none
    else if c = ')' then reached? (d - 1) cs
    else reached? d cs

theorem iff_reached? : Levels d cs e ↔ reached? d cs = some e := by
  constructor
  case mp =>
    intro h
    induction h
    case nil           => rfl
    case opening hi    => exact hi
    case closing hi    => exact hi
    case comma hi      => exact hi
    case other hc _ hi =>
      simp at hc
      simpa [reached?, hc] using hi
  case mpr =>
    intro h
    induction cs generalizing d
    case nil          => exact Option.some.inj h ▸ .nil
    case cons c cs hi =>
      rw [reached?] at h
      by_cases ho : c = '('
      case pos =>
        rw [if_pos ho] at h
        exact ho ▸ .opening (hi h)
      rw [if_neg ho] at h
      split at h
      case isTrue     => cases h
      case isFalse hn =>
        cases d
        case zero =>
          have hc : c ∉ ['(', ')', ','] := by simp_all
          rw [if_neg (by simp_all)] at h
          exact .other hc (hi h)
        case succ d =>
          by_cases hc : c = ')'
          case pos =>
            rw [if_pos hc] at h
            exact hc ▸ .closing (hi h)
          rw [if_neg hc] at h
          by_cases hm : c = ','
          case pos => exact hm ▸ .comma (hi h)
          case neg => exact .other (by simp [ho, hc, hm]) (hi h)

instance (d : Nat) (cs : List Char) (e : Nat) : Decidable (Levels d cs e) :=
  decidable_of_iff _ iff_reached?.symm

end Levels
end SchemaGraph.Scan
