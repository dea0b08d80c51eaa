import SchemaGraph.Proofs.Text.Neat

namespace SchemaGraph.Text

-- Every run of blanks becomes one space; behind a blank the run has begun already.
def squeezeAfter : (blank : Bool) → List Char → List Char
  | _,     []      => []
  | blank, c :: cs =>
    if isBlank c then (if blank then [] else [' ']) ++ squeezeAfter true cs
    else c :: squeezeAfter false cs

def squeeze (w : List Char) : List Char :=
  squeezeAfter false w

variable {p : Char → Bool} {b : Bool} {c d : Char} {u v w cs : List Char}

theorem squeezeAfter_cons_of_not_isBlank (hc : ¬ isBlank c) :
    squeezeAfter b (c :: cs) = c :: squeeze cs := by
  rw [squeezeAfter, if_neg hc, squeeze]

theorem squeeze_cons_of_not_isBlank (hc : ¬ isBlank c) : squeeze (c :: cs) = c :: squeeze cs :=
  squeezeAfter_cons_of_not_isBlank hc

theorem squeeze_cons_of_isBlank (hc : isBlank c) :
    squeeze (c :: cs) = ' ' :: squeezeAfter true cs := by
  rw [squeeze, squeezeAfter, if_pos hc]
  rfl

theorem squeezeAfter_eq (h : ∀ c ∈ w.head?, ¬ isBlank c) : squeezeAfter b w = squeeze w := by
  cases w
  case nil       => rfl
  case cons c cs =>
    rw [squeezeAfter_cons_of_not_isBlank (h c rfl), squeeze_cons_of_not_isBlank (h c rfl)]

theorem squeeze_eq_self (h : ∀ c ∈ w, ¬ isBlank c) : squeeze w = w := by
  induction w
  case nil          => rfl
  case cons c cs hi =>
    have ⟨hc, hcs⟩ := List.forall_mem_cons.mp h
    rw [squeeze_cons_of_not_isBlank hc, hi hcs]

theorem mem_of_mem_squeezeAfter (h : c ∈ squeezeAfter b w) : c ∈ w ∨ c = ' ' := by
  induction w generalizing b
  case nil          => cases h
  case cons d ds hi =>
    rw [squeezeAfter] at h
    split at h
    case isFalse =>
      cases List.mem_cons.mp h
      case inl h => exact .inl (h ▸ List.mem_cons_self)
      case inr h => exact (hi h).imp_left (List.mem_cons_of_mem d)
    case isTrue  =>
      cases List.mem_append.mp h
      case inl h => exact .inr (by split at h <;> simp_all)
      case inr h => exact (hi h).imp_left (List.mem_cons_of_mem d)

theorem eq_space_of_mem_squeezeAfter (h : c ∈ squeezeAfter b w) (hc : isBlank c) : c = ' ' := by
  induction w generalizing b
  case nil          => cases h
  case cons d ds hi =>
    rw [squeezeAfter] at h
    split at h
    case isFalse hd =>
      cases List.mem_cons.mp h
      case inl h => exact absurd hc (h ▸ hd)
      case inr h => exact hi h
    case isTrue     =>
      cases List.mem_append.mp h
      case inl h => split at h <;> simp_all
      case inr h => exact hi h

theorem isChain_squeezeAfter (b : Bool) (w : List Char) :
    (squeezeAfter b w).IsChain (fun c d => c ≠ ' ' ∨ d ≠ ' ') ∧
      (b → ∀ c ∈ (squeezeAfter b w).head?, c ≠ ' ') := by
  induction w generalizing b
  case nil          => exact ⟨.nil, by simp [squeezeAfter]⟩
  case cons c cs hi =>
    rw [squeezeAfter]
    split
    case isFalse hc =>
      have hs : c ≠ ' ' := fun he => hc (he ▸ by decide)
      exact ⟨List.isChain_cons.mpr ⟨fun _ _ => .inl hs, (hi false).left⟩, by
        simpa using fun _ => hs⟩
    case isTrue =>
      have ⟨hchain, hhead⟩ := hi true
      cases b
      case true  => exact ⟨hchain, fun _ => hhead rfl⟩
      case false =>
        exact ⟨List.isChain_cons.mpr ⟨fun d hd => .inr (hhead rfl d hd), hchain⟩, by simp⟩

theorem squeeze_ne_nil (h : w ≠ []) : squeeze w ≠ [] := by
  cases w
  case nil       => exact absurd rfl h
  case cons c cs =>
    by_cases hc : isBlank c
    case pos => simp [squeeze_cons_of_isBlank hc]
    case neg => simp [squeeze_cons_of_not_isBlank hc]

-- Whether a text ends with a blank; an empty one does if there is a blank before it.
def endsBlank (blank : Bool) (w : List Char) : Bool :=
  (w.getLast?.map isBlank).getD blank

theorem endsBlank_cons (b : Bool) (c : Char) (cs : List Char) :
    endsBlank b (c :: cs) = endsBlank (isBlank c) cs := by
  cases h : cs.getLast? <;> simp [endsBlank, List.getLast?_cons, h]

theorem squeezeAfter_append (b : Bool) (u v : List Char) :
    squeezeAfter b (u ++ v) = squeezeAfter b u ++ squeezeAfter (endsBlank b u) v := by
  induction u generalizing b
  case nil          => rfl
  case cons c cs hi =>
    rw [List.cons_append, squeezeAfter, squeezeAfter, endsBlank_cons]
    split
    case isTrue hc  => rw [hi, hc, List.append_assoc]
    case isFalse hc => rw [hi, eq_false_of_ne_true hc, List.cons_append]

theorem squeeze_append (h : ∀ d ∈ v.head?, ¬ isBlank d) :
    squeeze (u ++ v) = squeeze u ++ squeeze v := by
  rw [squeeze, squeezeAfter_append, squeezeAfter_eq h]
  rfl

theorem squeeze_append_of_getLast? (h : ∀ c ∈ u.getLast?, ¬ isBlank c) :
    squeeze (u ++ v) = squeeze u ++ squeeze v := by
  have he : endsBlank false u = false := by
    cases hu : u.getLast?
    case none   => simp [endsBlank, hu]
    case some c => simpa [endsBlank, hu] using h c hu
  rw [squeeze, squeezeAfter_append, he]
  rfl

theorem squeeze_around (hu : ∀ c ∈ u.getLast?, ¬ isBlank c) (hw : ∀ c ∈ w.head?, ¬ isBlank c) :
    squeeze (u ++ (v ++ w)) = squeeze u ++ (squeeze v ++ squeeze w) := by
  rw [squeeze_append_of_getLast? hu, squeeze_append hw]

theorem squeeze_append_cons (hc : ¬ isBlank c) (u v : List Char) :
    squeeze (u ++ c :: v) = squeeze u ++ c :: squeeze v := by
  rw [squeeze_append (by simpa using hc), squeeze_cons_of_not_isBlank hc]

theorem squeeze_reverse (w : List Char) : squeeze w.reverse = (squeeze w).reverse := by
  induction w
  case nil          => rfl
  case cons c cs hi =>
    have he : endsBlank false cs.reverse = cs.head?.any isBlank := by
      cases cs <;> simp [endsBlank]
    rw [squeeze, List.reverse_cons, squeezeAfter_append, he, ←squeeze, hi]
    by_cases hc : isBlank c
    case neg =>
      rw [squeezeAfter_cons_of_not_isBlank hc, squeeze_cons_of_not_isBlank hc, List.reverse_cons]
      rfl
    case pos =>
      rw [squeeze_cons_of_isBlank hc]
      cases cs
      case nil       => simp [squeezeAfter, hc, squeeze]
      case cons d ds =>
        by_cases hd : isBlank d
        case pos => simp [squeezeAfter, hc, hd, squeeze]
        case neg => simp [squeezeAfter, hc, hd, squeeze]

-- Squeezing and trimming go together, be it blanks or other characters that are trimmed.

theorem dropWhile_squeeze (h : ∀ c, p c → ¬ isBlank c) (w : List Char) :
    (squeeze w).dropWhile p = squeeze (w.dropWhile p) := by
  induction w
  case nil          => rfl
  case cons c cs hi =>
    by_cases hp : p c
    case pos =>
      rw [squeeze_cons_of_not_isBlank (h c hp), List.dropWhile_cons_of_pos hp,
        List.dropWhile_cons_of_pos hp, hi]
    case neg =>
      rw [List.dropWhile_cons_of_neg hp]
      refine dropWhile_eq_self fun d hd => ?_
      by_cases hc : isBlank c
      case pos =>
        have hs : ¬ p ' ' := fun hs => h ' ' hs (by decide)
        rw [squeeze_cons_of_isBlank hc] at hd
        simpa [←Option.some.inj hd] using hs
      case neg =>
        rw [squeeze_cons_of_not_isBlank hc] at hd
        simpa [←Option.some.inj hd] using hp

theorem dropWhile_isBlank_squeezeAfter (b : Bool) (w : List Char) :
    (squeezeAfter b w).dropWhile isBlank = squeeze (w.dropWhile isBlank) := by
  induction w generalizing b
  case nil          => rfl
  case cons c cs hi =>
    by_cases hc : isBlank c
    case pos =>
      have hs : ∀ d ∈ if b then [] else [' '], isBlank d := by
        cases b
        case false => exact List.forall_mem_singleton.mpr (by decide)
        case true  => exact List.forall_mem_nil _
      rw [squeezeAfter, if_pos hc, List.dropWhile_append_of_pos hs, hi,
        List.dropWhile_cons_of_pos hc]
    case neg =>
      rw [squeezeAfter_cons_of_not_isBlank hc, List.dropWhile_cons_of_neg hc,
        List.dropWhile_cons_of_neg hc, squeeze_cons_of_not_isBlank hc]

theorem trim_squeeze_of (h : ∀ w, (squeeze w).dropWhile p = squeeze (w.dropWhile p))
    (w : List Char) :
    trim p (squeeze w) = squeeze (trim p w) := by
  rw [trim, trim, h, ←squeeze_reverse, h, squeeze_reverse]

theorem trim_squeeze (h : ∀ c, p c → ¬ isBlank c) (w : List Char) :
    trim p (squeeze w) = squeeze (trim p w) :=
  trim_squeeze_of (dropWhile_squeeze h) w

theorem strip_squeeze (w : List Char) : strip (squeeze w) = squeeze (strip w) :=
  trim_squeeze_of (dropWhile_isBlank_squeezeAfter false) w

-- Collapsing is squeezing in a text that begins behind a blank and does not end with one.

theorem words_cons_of_isBlank (hc : isBlank c) (cs : List Char) : words (c :: cs) = words cs :=
  words_append_cons hc [] cs

theorem exists_words_eq_cons (hc : ¬ isBlank c) (cs : List Char) :
    ∃ piece others, cut isBlank cs = piece :: others ∧
      words (c :: cs) = (c :: piece) :: others.filter (!·.isEmpty) := by
  obtain ⟨piece, others, h⟩ := List.exists_cons_of_ne_nil (cut_ne_nil isBlank cs)
  exact ⟨piece, others, h, by simp [words, cut_cons_of_neg hc h]⟩

theorem words_ne_nil (hw : w ≠ []) (h : ∀ c ∈ w.getLast?, ¬ isBlank c) : words w ≠ [] := by
  induction w
  case nil          => exact absurd rfl hw
  case cons c cs hi =>
    by_cases hc : isBlank c
    case neg =>
      have ⟨_, _, _, he⟩ := exists_words_eq_cons hc cs
      simp [he]
    case pos =>
      have hcs : cs ≠ [] := fun hn => h c (by simp [hn]) hc
      rw [words_cons_of_isBlank hc]
      exact hi hcs (by rwa [List.getLast?_cons_of_ne_nil hcs] at h)

theorem collapse_cons_cons (hc : ¬ isBlank c) (hd : ¬ isBlank d) (cs : List Char) :
    collapse (c :: d :: cs) = c :: collapse (d :: cs) := by
  have ⟨piece, others, hcut, hw⟩ := exists_words_eq_cons hd cs
  have hw' : words (c :: d :: cs) = (c :: d :: piece) :: others.filter (!·.isEmpty) := by
    simp [words, cut_cons_of_neg hc (cut_cons_of_neg hd hcut)]
  rw [collapse, collapse, hw, hw']
  cases others.filter (!·.isEmpty) <;> simp

theorem squeezeAfter_true_eq_collapse (h : ∀ c ∈ w.getLast?, ¬ isBlank c) :
    squeezeAfter true w = collapse w := by
  induction w
  case nil          => rfl
  case cons c cs hi =>
    by_cases hn : cs = []
    case pos =>
      have hc : ¬ isBlank c := h c (by simp [hn])
      rw [hn, squeezeAfter_cons_of_not_isBlank hc, collapse,
        words_eq_singleton (by simp) (by simpa using hc)]
      rfl
    case neg =>
      rw [List.getLast?_cons_of_ne_nil hn] at h
      have hi := hi h
      by_cases hc : isBlank c
      case pos =>
        rw [squeezeAfter, if_pos hc, if_pos rfl, List.nil_append, hi, collapse, collapse,
          words_cons_of_isBlank hc]
      case neg =>
        obtain ⟨d, ds, rfl⟩ := List.exists_cons_of_ne_nil hn
        rw [squeezeAfter_cons_of_not_isBlank hc]
        by_cases hd : isBlank d
        case neg => rw [collapse_cons_cons hc hd, ←hi, squeezeAfter_eq (by simpa using hd)]
        case pos =>
          have hds : ds ≠ [] := fun hn => h d (by simp [hn]) hd
          have hws := words_ne_nil hds (by rwa [List.getLast?_cons_of_ne_nil hds] at h)
          have hone : words [c] = [[c]] := words_eq_singleton (by simp) (by simpa using hc)
          rw [squeezeAfter, if_pos hd, if_pos rfl, List.nil_append] at hi
          rw [squeeze_cons_of_isBlank hd, hi, collapse, collapse, words_cons_of_isBlank hd,
            show c :: d :: ds = [c] ++ d :: ds from rfl, words_append_cons hd, hone,
            intercalate_append (by simp) hws]
          rfl

theorem collapse_eq_squeeze (hf : ∀ c ∈ w.head?, ¬ isBlank c) (hl : ∀ c ∈ w.getLast?, ¬ isBlank c) :
    collapse w = squeeze w := by
  rw [←squeezeAfter_true_eq_collapse hl, squeezeAfter_eq hf]

-- What is collapsed can as well be stripped first.

theorem words_append_of_isBlank (hv : ∀ c ∈ v, isBlank c) : words (u ++ v) = words u := by
  induction v generalizing u
  case nil          => rw [List.append_nil]
  case cons c cs hi =>
    have ⟨hc, hcs⟩ := List.forall_mem_cons.mp hv
    have hn : words cs = words [] := @hi [] hcs
    rw [words_append_cons hc, hn]
    exact List.append_nil _

theorem words_dropWhile (w : List Char) : words (w.dropWhile isBlank) = words w := by
  induction w
  case nil          => rfl
  case cons c cs hi =>
    by_cases hc : isBlank c
    case pos => rw [List.dropWhile_cons_of_pos hc, hi, words_cons_of_isBlank hc]
    case neg => rw [List.dropWhile_cons_of_neg hc]

theorem collapse_eq_squeeze_strip (w : List Char) : collapse w = squeeze (strip w) := by
  rw [strip, ←collapse_eq_squeeze (head?_trim isBlank w) (getLast?_trim isBlank w), collapse,
    collapse]
  obtain ⟨v, hv, hb⟩ := exists_eq_trimEnd_append isBlank (w.dropWhile isBlank)
  have hw : words (w.dropWhile isBlank) = words (trim isBlank w) :=
    (congrArg words hv).trans (words_append_of_isBlank hb)
  rw [←hw, words_dropWhile]

theorem eq_space_of_mem_collapse (h : c ∈ collapse w) (hc : isBlank c) : c = ' ' :=
  eq_space_of_mem_squeezeAfter (collapse_eq_squeeze_strip w ▸ h) hc

theorem not_isInfix_collapse (w : List Char) : ¬ [' ', ' '] <:+: collapse w := by
  rw [collapse_eq_squeeze_strip, ←isChain_iff_not_isInfix]
  exact (isChain_squeezeAfter false _).left

theorem strip_append {x : List Char} (hx : x ≠ []) (hf : ∀ c ∈ x.head?, ¬ isBlank c)
    (hl : ∀ c ∈ x.getLast?, ¬ isBlank c) :
    strip (u ++ (x ++ v)) = u.dropWhile isBlank ++ (x ++ stripEnd v) := by
  have hhead : ∀ c ∈ (x ++ v).head?, ¬ isBlank c := by rwa [List.head?_append_of_ne_nil _ hx]
  have hlast : ∀ c ∈ (u.dropWhile isBlank ++ x).getLast?, ¬ isBlank c := by
    rwa [List.getLast?_append_of_ne_nil _ hx]
  rw [strip, trim_eq_trimEnd, dropWhile_append_of_head? hhead, ←List.append_assoc,
    trimEnd_append_left hlast, List.append_assoc]
  rfl

theorem collapse_append {x : List Char} (hu : ∀ c ∈ u, isBlank c) (hx : x ≠ [])
    (hf : ∀ c ∈ x.head?, ¬ isBlank c) (hl : ∀ c ∈ x.getLast?, ¬ isBlank c) :
    collapse (u ++ (x ++ v)) = squeeze x ++ squeeze (stripEnd v) := by
  rw [collapse_eq_squeeze_strip, strip_append hx hf hl, List.dropWhile_eq_nil_iff.mpr hu,
    List.nil_append, squeeze_append_of_getLast? hl]

-- What a text begins with is left in it, but for blanks.

theorem head?_squeeze (h : c ∈ (squeeze w).head?) : c ∈ w.head? ∨ c = ' ' := by
  cases w
  case nil       => cases h
  case cons d ds =>
    by_cases hd : isBlank d
    case pos => exact .inr (by simpa [squeeze_cons_of_isBlank hd, eq_comm] using h)
    case neg => exact .inl (by simpa [squeeze_cons_of_not_isBlank hd] using h)

theorem head?_squeeze_eq (h : ∀ c ∈ w.head?, ¬ isBlank c) : (squeeze w).head? = w.head? := by
  cases w
  case nil  => rfl
  case cons => rw [squeeze_cons_of_not_isBlank (h _ rfl), List.head?_cons, List.head?_cons]

theorem head?_trimEnd (h : c ∈ (trimEnd p w).head?) : c ∈ w.head? := by
  obtain ⟨v, hv, _⟩ := exists_eq_trimEnd_append p w
  rw [hv, List.head?_append, Option.mem_def.mp h, Option.some_or]
  rfl

theorem head?_dropWhile_trimEnd (h : c ∈ ((trimEnd p w).dropWhile p).head?) :
    c ∈ (w.dropWhile p).head? := by
  obtain ⟨v, hv, _⟩ := exists_eq_trimEnd_append p w
  have hn : (trimEnd p w).dropWhile p ≠ [] := fun hn => by simp [hn] at h
  rw [hv, List.dropWhile_append, if_neg (by simpa using hn), List.head?_append, Option.mem_def.mp h,
    Option.some_or]
  rfl

theorem head?_dropWhile_squeeze (h : c ∈ ((squeeze (stripEnd v)).dropWhile isBlank).head?) :
    c ∈ (v.dropWhile isBlank).head? := by
  have hd : ∀ d ∈ ((stripEnd v).dropWhile isBlank).head?, ¬ isBlank d := fun d hd => by
    have := List.head?_dropWhile_not isBlank (stripEnd v)
    simp_all
  rw [squeeze, dropWhile_isBlank_squeezeAfter, head?_squeeze_eq hd] at h
  exact head?_dropWhile_trimEnd h

end SchemaGraph.Text
