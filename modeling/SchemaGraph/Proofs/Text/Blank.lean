import Mathlib.Data.List.DropRight
import Mathlib.Data.List.TakeWhile
import SchemaGraph.Text.Basic

namespace SchemaGraph.Text

variable {p : Char → Bool} {c d : Char} {u v w cs : List Char}

theorem dropWhile_eq_self (h : ∀ c ∈ w.head?, ¬ p c) : w.dropWhile p = w := by
  cases w
  case nil       => rfl
  case cons c cs => exact List.dropWhile_cons_of_neg (h c rfl)

theorem trim_eq_trimEnd (p : Char → Bool) (w : List Char) : trim p w = trimEnd p (w.dropWhile p) :=
  rfl

theorem trimEnd_append_of_forall (hv : ∀ c ∈ v, p c) : trimEnd p (w ++ v) = trimEnd p w := by
  rw [trimEnd, List.reverse_append, List.dropWhile_append_of_pos (by simpa using hv), trimEnd]

theorem trimEnd_append (hv : ∀ c ∈ v, p c) (hl : ∀ c ∈ w.getLast?, ¬ p c) :
    trimEnd p (w ++ v) = w := by
  have hr : ∀ c ∈ w.reverse.head?, ¬ p c := by simpa using hl
  rw [trimEnd_append_of_forall hv, trimEnd, dropWhile_eq_self hr, List.reverse_reverse]

theorem trim_append (hu : ∀ c ∈ u, p c) (hv : ∀ c ∈ v, p c) (hf : ∀ c ∈ w.head?, ¬ p c)
    (hl : ∀ c ∈ w.getLast?, ¬ p c) : trim p (u ++ (w ++ v)) = w := by
  cases w
  case nil =>
    have h : (u ++ v).dropWhile p = [] := List.dropWhile_eq_nil_iff.mpr <| by
      simpa [or_imp, forall_and] using ⟨hu, hv⟩
    rw [trim, List.nil_append, h]
    rfl
  case cons c cs =>
    rw [trim, List.dropWhile_append_of_pos hu, List.cons_append,
      List.dropWhile_cons_of_neg (hf c rfl), ←List.cons_append]
    exact trimEnd_append hv hl

theorem trim_eq_self (hf : ∀ c ∈ w.head?, ¬ p c) (hl : ∀ c ∈ w.getLast?, ¬ p c) : trim p w = w := by
  have h := @trim_append p [] [] w (by simp) (by simp) hf hl
  rwa [List.nil_append, List.append_nil] at h

-- Nothing in `p` is left at either end.

theorem getLast?_trimEnd (p : Char → Bool) (w : List Char) :
    ∀ c ∈ (trimEnd p w).getLast?, ¬ p c := by
  intro c hc
  rw [trimEnd, List.getLast?_reverse] at hc
  have := List.head?_dropWhile_not p w.reverse
  simp_all

theorem getLast?_trim (p : Char → Bool) (w : List Char) : ∀ c ∈ (trim p w).getLast?, ¬ p c :=
  getLast?_trimEnd p (w.dropWhile p)

theorem head?_trim (p : Char → Bool) (w : List Char) : ∀ c ∈ (trim p w).head?, ¬ p c := by
  intro c hc
  have hp : trim p w <+: w.dropWhile p := List.rdropWhile_prefix p _
  have hd : (w.dropWhile p).head? = some c := by
    obtain ⟨v, hv⟩ := hp
    rw [←hv, List.head?_append, hc, Option.some_or]
  have := List.head?_dropWhile_not p w
  simp_all

theorem exists_eq_trimEnd_append (p : Char → Bool) (w : List Char) :
    ∃ v, w = trimEnd p w ++ v ∧ ∀ c ∈ v, p c := by
  refine ⟨(w.reverse.takeWhile p).reverse, ?_,
    fun c hc => List.mem_takeWhile_imp (List.mem_reverse.mp hc)⟩
  rw [trimEnd, ←List.reverse_append, List.takeWhile_append_dropWhile, List.reverse_reverse]

theorem exists_eq_trim_append (p : Char → Bool) (w : List Char) :
    ∃ u v, w = u ++ (trim p w ++ v) ∧ (∀ c ∈ u, p c) ∧ ∀ c ∈ v, p c := by
  obtain ⟨v, hw, hv⟩ := exists_eq_trimEnd_append p (w.dropWhile p)
  refine ⟨w.takeWhile p, v, ?_, fun c hc => List.mem_takeWhile_imp hc, hv⟩
  exact (List.takeWhile_append_dropWhile (p := p)).symm.trans (congrArg _ hw)

theorem trim_isInfix (p : Char → Bool) (w : List Char) : trim p w <:+: w :=
  have ⟨u, v, hw, _⟩ := exists_eq_trim_append p w
  ⟨u, v, by rw [List.append_assoc, ←hw]⟩

theorem trim_eq_nil_iff : trim p w = [] ↔ ∀ c ∈ w, p c := by
  constructor
  case mp =>
    intro h
    obtain ⟨u, v, hw, hu, hv⟩ := exists_eq_trim_append p w
    rw [hw, h, List.nil_append]
    exact List.forall_mem_append.mpr ⟨hu, hv⟩
  case mpr =>
    intro h
    rw [trim, List.dropWhile_eq_nil_iff.mpr h]
    rfl

-- What is trimmed is nothing to a filter for other characters.

theorem filter_trimEnd {q : Char → Bool} (h : ∀ c, p c → ¬ q c) (w : List Char) :
    (trimEnd p w).filter q = w.filter q := by
  obtain ⟨v, hw, hv⟩ := exists_eq_trimEnd_append p w
  have hf : v.filter q = [] := List.filter_eq_nil_iff.mpr fun c hc => h c (hv c hc)
  conv_rhs => rw [hw, List.filter_append, hf, List.append_nil]

theorem filter_trim {q : Char → Bool} (h : ∀ c, p c → ¬ q c) (w : List Char) :
    (trim p w).filter q = w.filter q := by
  have hf : (w.takeWhile p).filter q = [] :=
    List.filter_eq_nil_iff.mpr fun c hc => h c (List.mem_takeWhile_imp hc)
  rw [trim_eq_trimEnd, filter_trimEnd h]
  conv_rhs => rw [←List.takeWhile_append_dropWhile (p := p) (l := w), List.filter_append, hf,
    List.nil_append]

theorem trimEnd_append_left (hl : ∀ c ∈ u.getLast?, ¬ p c) :
    trimEnd p (u ++ v) = u ++ trimEnd p v := by
  obtain ⟨b, hv, hb⟩ := exists_eq_trimEnd_append p v
  have hlast : ∀ c ∈ (u ++ trimEnd p v).getLast?, ¬ p c := by
    by_cases hn : trimEnd p v = []
    case pos => rwa [hn, List.append_nil]
    case neg =>
      rw [List.getLast?_append_of_ne_nil _ hn]
      exact getLast?_trimEnd p v
  have ht := trimEnd_append hb hlast
  rwa [List.append_assoc, ←hv] at ht

theorem trim_cons_of_neg (h : ¬ p c) (cs : List Char) : trim p (c :: cs) = c :: trimEnd p cs := by
  rw [trim_eq_trimEnd, List.dropWhile_cons_of_neg h]
  exact @trimEnd_append_left p [c] cs (by simpa using h)

theorem dropWhile_append_of_head? (h : ∀ c ∈ v.head?, ¬ p c) :
    (u ++ v).dropWhile p = u.dropWhile p ++ v := by
  induction u
  case nil          => exact dropWhile_eq_self h
  case cons c u hi =>
    rw [List.cons_append]
    by_cases hc : p c
    case pos => rw [List.dropWhile_cons_of_pos hc, List.dropWhile_cons_of_pos hc, hi]
    case neg => rw [List.dropWhile_cons_of_neg hc, List.dropWhile_cons_of_neg hc, List.cons_append]

theorem trimEnd_eq_self (hl : ∀ c ∈ w.getLast?, ¬ p c) : trimEnd p w = w := by
  have h := @trimEnd_append p [] w (by simp) hl
  rwa [List.append_nil] at h

theorem cut_nil (p : Char → Bool) : cut p [] = [[]] :=
  rfl

theorem cut_cons_of_pos (hc : p c) : cut p (c :: cs) = [] :: cut p cs := by
  simp [cut, hc]

theorem cut_ne_nil (p : Char → Bool) (cs : List Char) : cut p cs ≠ [] := by
  cases cs
  case nil => simp [cut]
  case cons c cs =>
    simp only [cut, List.foldr_cons]
    split
    case isTrue  => simp
    case isFalse => split <;> simp

theorem cut_cons_of_neg (hc : ¬ p c) {piece : List Char} {pieces : List (List Char)}
    (h : cut p cs = piece :: pieces) : cut p (c :: cs) = (c :: piece) :: pieces := by
  rw [cut] at h ⊢
  rw [List.foldr_cons, if_neg hc, h]

theorem cut_append_cons (hd : p d) (u v : List Char) :
    cut p (u ++ d :: v) = cut p u ++ cut p v := by
  induction u
  case nil          => rw [List.nil_append, cut_cons_of_pos hd, cut_nil, List.singleton_append]
  case cons c u hi =>
    rw [List.cons_append]
    by_cases hc : p c
    case pos => rw [cut_cons_of_pos hc, cut_cons_of_pos hc, hi, List.cons_append]
    case neg =>
      have ⟨piece, pieces, h⟩ := List.exists_cons_of_ne_nil (cut_ne_nil p u)
      rw [h, List.cons_append] at hi
      rw [cut_cons_of_neg hc hi, cut_cons_of_neg hc h, List.cons_append]

theorem cut_eq_singleton (h : ∀ c ∈ u, ¬ p c) : cut p u = [u] := by
  induction u
  case nil          => rfl
  case cons c u hi =>
    have ⟨hc, hu⟩ := List.forall_mem_cons.mp h
    exact cut_cons_of_neg hc (hi hu)

theorem cut_intercalate {parts : List (List Char)} (hn : parts ≠ []) (hd : p d)
    (h : ∀ part ∈ parts, ∀ c ∈ part, ¬ p c) : cut p ([d].intercalate parts) = parts := by
  induction parts
  case nil               => exact absurd rfl hn
  case cons part parts hi =>
    have ⟨hp, hps⟩ := List.forall_mem_cons.mp h
    cases parts
    case nil => rw [List.intercalate_singleton, cut_eq_singleton hp]
    case cons next parts =>
      rw [List.intercalate_cons_cons, List.append_assoc, List.singleton_append, cut_append_cons hd,
        cut_eq_singleton hp, hi (List.cons_ne_nil next parts) hps, List.singleton_append]

theorem cut_flatMap_append {parts : List (List Char)} (hd : p d)
    (h : ∀ part ∈ parts, ∀ c ∈ part, ¬ p c) (v : List Char) :
    cut p (parts.flatMap (· ++ [d]) ++ v) = parts ++ cut p v := by
  induction parts
  case nil               => rfl
  case cons part parts hi =>
    have ⟨hp, hps⟩ := List.forall_mem_cons.mp h
    rw [List.flatMap_cons, List.append_assoc, List.append_assoc, List.singleton_append,
      cut_append_cons hd, cut_eq_singleton hp, hi hps, List.singleton_append, List.cons_append]

theorem cut_flatMap {parts : List (List Char)} (hd : p d) (h : ∀ part ∈ parts, ∀ c ∈ part, ¬ p c) :
    cut p (parts.flatMap (· ++ [d])) = parts ++ [[]] := by
  have hc := cut_flatMap_append hd h []
  rwa [List.append_nil] at hc

theorem isInfix_of_mem_cut {piece : List Char} (h : piece ∈ cut p cs) : piece <:+: cs := by
  have key (cs : List Char) : ∃ first others, cut p cs = first :: others ∧ first <+: cs ∧
      ∀ piece ∈ others, piece <:+: cs := by
    induction cs
    case nil          => exact ⟨[], [], rfl, List.prefix_rfl, by simp⟩
    case cons c cs hi =>
      obtain ⟨first, others, hc, hf, ho⟩ := hi
      have hcons {piece : List Char} (hp : piece <:+: cs) : piece <:+: c :: cs :=
        hp.trans (List.suffix_cons c cs).isInfix
      by_cases hp : p c
      case pos =>
        refine ⟨[], first :: others, by rw [cut_cons_of_pos hp, hc], List.nil_prefix, ?_⟩
        exact List.forall_mem_cons.mpr ⟨hcons hf.isInfix, fun piece hm => hcons (ho piece hm)⟩
      case neg =>
        refine ⟨c :: first, others, cut_cons_of_neg hp hc, ?_, fun piece hm => hcons (ho piece hm)⟩
        exact (List.prefix_cons_inj c).mpr hf
  obtain ⟨first, others, hc, hf, ho⟩ := key cs
  rw [hc] at h
  cases List.mem_cons.mp h
  case inl h => exact h ▸ hf.isInfix
  case inr h => exact ho piece h

theorem forall_mem_intercalate {α : Type} {q : α → Prop} {sep : List α} {parts : List (List α)}
    (hs : ∀ a ∈ sep, q a) (h : ∀ part ∈ parts, ∀ a ∈ part, q a) :
    ∀ a ∈ sep.intercalate parts, q a := by
  induction parts
  case nil                => simp
  case cons part parts hi =>
    have ⟨hp, hps⟩ := List.forall_mem_cons.mp h
    cases parts
    case nil => simpa using hp
    case cons next parts =>
      rw [List.intercalate_cons_cons]
      exact List.forall_mem_append.mpr ⟨List.forall_mem_append.mpr ⟨hp, hs⟩, hi hps⟩

theorem filter_intercalate {q : Char → Bool} {d : Char} (hd : ¬ q d) (ls : List (List Char)) :
    ([d].intercalate ls).filter q = ls.flatten.filter q := by
  induction ls
  case nil          => rfl
  case cons l ls hi =>
    cases ls
    case nil          => simp
    case cons next ls =>
      rw [List.intercalate_cons_cons, List.filter_append, List.filter_append, hi,
        List.filter_cons_of_neg hd, List.filter_nil, List.append_nil, ←List.filter_append]
      rfl

theorem intercalate_pair (c d : Char) (part : List Char) (parts : List (List Char)) :
    [c, d].intercalate (part :: parts) = [c].intercalate (part :: parts.map (d :: ·)) := by
  induction parts generalizing part
  case nil                => rfl
  case cons next parts hi =>
    rw [List.intercalate_cons_cons, hi, List.map_cons, List.intercalate_cons_cons,
      List.intercalate_cons_cons_left]
    simp

theorem words_append_cons (hd : isBlank d) (u v : List Char) :
    words (u ++ d :: v) = words u ++ words v := by
  rw [words, cut_append_cons hd, List.filter_append]
  rfl

theorem words_eq_singleton (hw : w ≠ []) (h : ∀ c ∈ w, ¬ isBlank c) : words w = [w] := by
  simp [words, cut_eq_singleton h, hw]

theorem collapse_cons (w : List Char) : collapse (' ' :: w) = collapse w := by
  rw [collapse, ←List.nil_append (' ' :: w), words_append_cons (by decide)]
  rfl

end SchemaGraph.Text
