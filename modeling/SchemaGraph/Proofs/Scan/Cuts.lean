import SchemaGraph.Proofs.Scan.Matching
import SchemaGraph.Scan.Split

namespace SchemaGraph.Scan

def slice (text : List Char) (start stop : Nat) : List Char :=
  (text.drop start).take (stop - start)

-- What is left of the text between `start` and `stop` when the characters at `cuts` are cut out.
-- After the last cut an empty piece does not count.
def slices (text : List Char) (stop : Nat) : (start : Nat) → (cuts : List Nat) → List (List Char)
  | start, []          => if start < stop then [slice text start stop] else []
  | start, cut :: cuts => slice text start cut :: slices text stop (cut + 1) cuts

def isCut (separates : Char → Bool) (depth : Nat) (c : Char) : Bool :=
  depth == 0 && c != '(' && c != ')' && separates c

def cutsFrom (separates : Char → Bool) (depth : Nat) : Found → List Nat
  | []           => []
  | (p, c) :: xs =>
    (if isCut separates depth c then [p] else []) ++ cutsFrom separates (depthAfter depth c) xs

variable {text u v cs : List Char} {start depth : Nat} {c : Char} {separates : Char → Bool}

@[simp]
theorem slice_self (text : List Char) (start : Nat) : slice text start start = [] := by
  simp [slice]

theorem slice_succ (ht : text = u ++ c :: cs) (h : start ≤ u.length) :
    slice text start (u.length + 1) = slice text start u.length ++ [c] := by
  have hd : text.drop start = u.drop start ++ c :: cs := by
    rw [ht, List.drop_append_of_le_length h]
  have hl : u.length - start = (u.drop start).length := by simp
  have hs : u.length + 1 - start = (u.drop start).length + 1 := by simp; omega
  rw [slice, slice, hd, hl, hs, List.take_length_add_append, List.take_left]
  rfl

theorem isEmpty_slice (h : start ≤ text.length) :
    (slice text start text.length).isEmpty = !decide (start < text.length) := by
  by_cases hs : start < text.length
  case pos =>
    have : (slice text start text.length).length ≠ 0 := by simp [slice]; omega
    simpa [hs] using this
  case neg =>
    have he : start = text.length := by omega
    simp [he]

theorem depthAfter_of_isCut (h : isCut separates depth c) : depthAfter depth c = depth := by
  simp [isCut] at h
  simp [depthAfter, h]

theorem mem_of_mem_cutsFrom {xs : Found} {cut : Nat} (h : cut ∈ cutsFrom separates depth xs) :
    ∃ d, (cut, d) ∈ xs := by
  induction xs generalizing depth
  case nil => simp [cutsFrom] at h
  case cons x xs hi =>
    obtain ⟨p, d⟩ := x
    rw [cutsFrom, List.mem_append] at h
    cases h
    case inl h =>
      split at h <;> simp at h
      case isTrue => exact ⟨d, by simp [h]⟩
    case inr h =>
      have ⟨d, hd⟩ := hi h
      exact ⟨d, List.mem_cons_of_mem _ hd⟩

theorem cutsFrom_append (separates : Char → Bool) (depth : Nat) (xs ys : Found) :
    cutsFrom separates depth (xs ++ ys) =
      cutsFrom separates depth xs ++ cutsFrom separates ((chars xs).foldl depthAfter depth) ys := by
  induction xs generalizing depth
  case nil => rfl
  case cons x xs hi =>
    rw [List.cons_append, cutsFrom, cutsFrom, hi, List.append_assoc]
    rfl

theorem Splitting.finish_eq (m : Mode) (depth : Nat) (part : List Char) (parts : List (List Char)) :
    finish ⟨m, depth, part.reverse, parts⟩ =
      parts.reverse ++ if part.isEmpty then [] else [part] := by
  cases part <;> simp [finish]

theorem Splitting.step_eq (m : Mode) (depth : Nat) (part : List Char) (parts : List (List Char)) :
    step separates ⟨m, depth, part.reverse, parts⟩ c =
      if m.exposes c && isCut separates depth c then
        ⟨m.next c, depth, [], part :: parts⟩
      else
        ⟨m.next c, if m.exposes c then depthAfter depth c else depth, (part ++ [c]).reverse,
          parts⟩ := by
  by_cases he : m.exposes c
  case neg => simp [step, he]
  case pos =>
    by_cases hc : isCut separates depth c
    case pos =>
      have hd := depthAfter_of_isCut hc
      simp [isCut] at hc
      simp [step, isCut, he, hc, depthAfter]
    case neg => simp [step, he]; grind [isCut]

-- What has been read is `u`, and the part that is being read begins at `start`.
theorem finish_foldl_step (separates : Char → Bool) (ht : text = u ++ cs) (h : start ≤ u.length)
    (m : Mode) (depth : Nat) (parts : List (List Char)) :
    (cs.foldl (Splitting.step separates)
        ⟨m, depth, (slice text start u.length).reverse, parts⟩).finish =
      parts.reverse ++
        slices text text.length start (cutsFrom separates depth (exposedFrom m u.length cs)) := by
  induction cs generalizing u start m depth parts
  case nil =>
    have hu : u.length = text.length := by simp [ht]
    rw [hu] at h ⊢
    rw [List.foldl_nil, Splitting.finish_eq, isEmpty_slice h, exposedFrom_nil, cutsFrom, slices]
    by_cases hs : start < text.length <;> simp [hs]
  case cons c cs hi =>
    have ht' : text = (u ++ [c]) ++ cs := by simp [ht]
    have hl : u.length + 1 = (u ++ [c]).length := by simp
    rw [List.foldl_cons, Splitting.step_eq, exposedFrom_cons]
    by_cases he : m.exposes c
    case neg =>
      rw [if_neg (by simp [he]), if_neg he, ←slice_succ ht h, hl, hi ht' (by simp; omega)]
      simp [he]
    by_cases hc : isCut separates depth c
    case neg =>
      rw [if_neg (by simp [hc]), if_pos he, ←slice_succ ht h, hl, hi ht' (by simp; omega)]
      simp [he, hc, cutsFrom]
    case pos =>
      rw [if_pos (by simp [he, hc]), if_pos he, ←List.reverse_nil, ←slice_self text (u.length + 1),
        hl, hi ht' (Nat.le_refl _)]
      simp [hc, cutsFrom, slices, depthAfter_of_isCut hc]

-- Splitting leaves the slices between the separators outside parentheses and literals.
theorem split_eq_slices (separates : Char → Bool) (text : List Char) :
    split separates text = slices text text.length 0 (cutsFrom separates 0 (exposed text)) := by
  have h := finish_foldl_step separates (List.nil_append text).symm (Nat.le_refl 0) .outside 0 []
  simpa [split, exposed_eq] using h

end SchemaGraph.Scan
