import SchemaGraph.Proofs.Scan.Join

namespace SchemaGraph.Scan

def inQuotes (content : List Char) : List Char :=
  '\'' :: (content ++ ['\''])

def Plain (content : List Char) : Prop :=
  ∀ c ∈ content, c ≠ '\'' ∧ c ≠ '\\'

instance (content : List Char) : Decidable (Plain content) :=
  List.decidableBAll _ content

def Mode.Begins (m : Mode) : Prop :=
  m.next '\'' = .inside '\''

instance (m : Mode) : Decidable m.Begins :=
  inferInstanceAs (Decidable (_ = _))

variable {x y u v : List Char} {m : Mode} {d e : Nat}

theorem inQuotes_ne (x : List Char) : inQuotes x ≠ [] :=
  List.cons_ne_nil _ _

theorem getLast?_inQuotes (x : List Char) : (inQuotes x).getLast? = some '\'' :=
  List.getLast?_concat (l := '\'' :: x)

theorem Mode.exposes_quote (m : Mode) : m.exposes '\'' = false := by
  cases m <;> simp [exposes, opens]

theorem Mode.after_inQuotes (hm : m.Begins) (hx : Plain x) :
    m.after (inQuotes x) = .closing '\'' := by
  rw [inQuotes, after_cons, hm, after_append, (after_inside hx).left]
  rfl

theorem shown_inQuotes (hm : m.Begins) (hx : Plain x) : shown m (inQuotes x) = [] := by
  rw [inQuotes, shown_cons, m.exposes_quote, hm, shown_append, (Mode.after_inside hx).left,
    (Mode.after_inside hx).right, shown_cons]
  rfl

-- A scan does not depend on what stands in a literal.

theorem Mode.after_swap (hm : (m.after u).Begins) (hx : Plain x) (hy : Plain y) :
    m.after (u ++ (inQuotes x ++ v)) = m.after (u ++ (inQuotes y ++ v)) := by
  simp only [after_append, after_inQuotes hm hx, after_inQuotes hm hy]

theorem shown_swap (hm : (m.after u).Begins) (hx : Plain x) (hy : Plain y) :
    shown m (u ++ (inQuotes x ++ v)) = shown m (u ++ (inQuotes y ++ v)) := by
  simp only [shown_append, shown_inQuotes hm hx, shown_inQuotes hm hy, Mode.after_inQuotes hm hx,
    Mode.after_inQuotes hm hy]

theorem Passes.swap (hm : (Mode.outside.after u).Begins) (hx : Plain x) (hy : Plain y)
    (h : Passes d (u ++ (inQuotes x ++ v)) e) : Passes d (u ++ (inQuotes y ++ v)) e where
  isOutside := Mode.after_swap hm hx hy ▸ h.isOutside
  levels := shown_swap hm hx hy ▸ h.levels

end SchemaGraph.Scan
