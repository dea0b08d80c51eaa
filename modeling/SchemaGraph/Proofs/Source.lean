import SchemaGraph.Proofs.Text.Squeeze
import SchemaGraph.Source

namespace SchemaGraph.Source

open Text

variable {c : Char} {u v w l cs line rest : List Char} {ls ms : List (List Char)}

theorem lines_cons_newline (cs : List Char) : lines ('\n' :: cs) = [] :: lines cs :=
  rfl

theorem lines_cons (hn : c ≠ '\n') (hr : c ≠ '\r') (h : lines cs = l :: ls) :
    lines (c :: cs) = (c :: l) :: ls := by
  rw [lines] at h ⊢
  rw [List.foldr_cons]
  simp only [if_neg hn, if_neg hr, h]

theorem lines_append_newline (h : ∀ c ∈ l, c ≠ '\n' ∧ c ≠ '\r') :
    lines (l ++ '\n' :: rest) = l :: lines rest := by
  induction l
  case nil          => exact lines_cons_newline rest
  case cons c l hi =>
    have ⟨hc, hl⟩ := List.forall_mem_cons.mp h
    exact lines_cons hc.left hc.right (hi hl)

theorem dropComment_cons (c : Char) (cs : List Char) :
    dropComment (c :: cs) = if c = '-' ∧ cs.head? = some '-' then [] else c :: dropComment cs := by
  cases cs <;> rfl

theorem dropComment_append (hu : Undashed u)
    (h : ∀ c ∈ u.getLast?, ∀ d ∈ v.head?, c ≠ '-' ∨ d ≠ '-') :
    dropComment (u ++ v) = u ++ dropComment v := by
  induction u
  case nil          => rfl
  case cons c u hi =>
    have hc : ¬ (c = '-' ∧ (u ++ v).head? = some '-') := by
      rintro ⟨hc, hd⟩
      cases u
      case nil =>
        have := h c (by simp) '-' hd
        simp [hc] at this
      case cons d u =>
        have := (List.isChain_cons.mp hu).left d rfl
        simp at hd
        simp [hc, hd] at this
    have hi := hi (List.isChain_cons.mp hu).right fun c hc =>
      h c (by rw [List.getLast?_cons, hc]; rfl)
    rw [List.cons_append, dropComment_cons, if_neg hc, hi, List.cons_append]

theorem dropComment_eq (h : Undashed line) : dropComment line = line := by
  have hd := @dropComment_append _ [] h (by simp)
  rw [List.append_nil] at hd
  exact hd.trans (List.append_nil line)

theorem lines_flatMap (h : ∀ l ∈ ls, Neat l) :
    lines (ls.flatMap (· ++ ['\n'])) = ls ++ [[]] := by
  induction ls
  case nil           => rfl
  case cons l ls hi =>
    have ⟨hl, hls⟩ := List.forall_mem_cons.mp h
    have hn : ∀ c ∈ l, c ≠ '\n' ∧ c ≠ '\r' := fun c hc =>
      ⟨fun he => absurd (hl.eq_space c hc (he ▸ by decide)) (he ▸ by decide),
        fun he => absurd (hl.eq_space c hc (he ▸ by decide)) (he ▸ by decide)⟩
    rw [List.flatMap_cons, List.append_assoc, List.singleton_append, lines_append_newline hn,
      hi hls, List.cons_append]

theorem not_isBlank_of_isFirm (h : isFirm c) : ¬ isBlank c := by
  simp [isFirm] at h
  simp [h.left]

theorem code_eq (h : Neat l) : stripEnd (dropComment l) = l := by
  rw [dropComment_eq h.undashed]
  exact trimEnd_eq_self fun c hc => not_isBlank_of_isFirm (h.last c hc)

theorem strip_intercalate (h : ∀ l ∈ ls, Neat l) :
    strip (['\n'].intercalate ls) = ['\n'].intercalate ls := by
  have ends : (∀ c ∈ (['\n'].intercalate ls).head?, isFirm c) ∧
      ∀ c ∈ (['\n'].intercalate ls).getLast?, isFirm c := by
    induction ls
    case nil           => simp
    case cons l ls hi =>
      have ⟨hl, hls⟩ := List.forall_mem_cons.mp h
      cases ls
      case nil => exact List.intercalate_singleton ▸ ⟨hl.head, hl.last⟩
      case cons l' ls =>
        have ⟨_, hlast⟩ := hi hls
        have hne := intercalate_cons_ne_nil ['\n'] ls (hls l' List.mem_cons_self).ne
        rw [List.intercalate_cons_cons, List.append_assoc, List.head?_append_of_ne_nil _ hl.ne,
          List.getLast?_append_of_ne_nil _ (by simp), List.getLast?_append_of_ne_nil _ hne]
        exact ⟨hl.head, hlast⟩
  exact trim_eq_self (fun c hc => not_isBlank_of_isFirm (ends.left c hc))
    fun c hc => not_isBlank_of_isFirm (ends.right c hc)

theorem normalize_flatMap (h : ∀ l ∈ ls, Neat l) :
    normalize (ls.flatMap (· ++ ['\n'])) = ['\n'].intercalate ls := by
  have hc : ls.map (fun l => stripEnd (dropComment l)) = ls :=
    (List.map_congr_left fun l hl => code_eq (h l hl)).trans (List.map_id _)
  have hf : ls.filter (!·.isEmpty) = ls :=
    List.filter_eq_self.mpr fun l hl => by simp [(h l hl).ne]
  have hl : (ls ++ [[]]).map (fun l => stripEnd (dropComment l)) = ls ++ [[]] := by
    rw [List.map_append, hc]
    rfl
  simp only [normalize, lines_flatMap h, hl, List.filter_append, hf]
  simpa using strip_intercalate h

-- What is read of the lines before a place and of those behind it.

def code (line : List Char) : List Char :=
  stripEnd (dropComment line)

def codes (ls : List (List Char)) : List (List Char) :=
  (ls.map code).filter (!·.isEmpty)

def codeBefore (text : List Char) : List Char :=
  (['\n'].intercalate (codes (lines text).dropLast ++ (lines text).getLast?.toList)).dropWhile
    isBlank

def codeAfter (text : List Char) : List Char :=
  stripEnd (['\n'].intercalate ((lines text).head?.toList.map code ++ codes (lines text).tail))

theorem normalize_eq (text : List Char) :
    normalize text = strip (['\n'].intercalate (codes (lines text))) :=
  rfl

theorem codes_append (ls ms : List (List Char)) : codes (ls ++ ms) = codes ls ++ codes ms := by
  rw [codes, List.map_append, List.filter_append]
  rfl

theorem lines_cons_return (cs : List Char) :
    lines ('\r' :: cs) = if cs.head? = some '\n' then lines cs else [] :: lines cs := by
  cases cs <;> rfl

theorem lines_ne_nil (cs : List Char) : lines cs ≠ [] := by
  induction cs
  case nil          => exact List.cons_ne_nil _ _
  case cons c cs hi =>
    by_cases hn : c = '\n'
    case pos => simp [hn, lines_cons_newline]
    by_cases hr : c = '\r'
    case pos =>
      rw [hr, lines_cons_return]
      split
      case isTrue  => exact hi
      case isFalse => exact List.cons_ne_nil _ _
    case neg =>
      have ⟨l, ls, h⟩ := List.exists_cons_of_ne_nil hi
      rw [lines_cons hn hr h]
      exact List.cons_ne_nil _ _

theorem exists_lines_eq_append (cs : List Char) : ∃ ls l, lines cs = ls ++ [l] :=
  ⟨_, _, (List.dropLast_append_getLast (lines_ne_nil cs)).symm⟩

theorem lines_append (hn : w ≠ []) (hw : ∀ c ∈ w, c ≠ '\n' ∧ c ≠ '\r') (hu : lines u = ls ++ [l])
    (hv : lines v = line :: ms) : lines (u ++ (w ++ v)) = ls ++ (l ++ (w ++ line)) :: ms := by
  induction u generalizing ls l
  case nil =>
    obtain ⟨rfl, rfl⟩ : [] = ls ∧ [] = l := List.append_singleton_inj.mp hu
    clear hn hu
    induction w
    case nil          => exact hv
    case cons c w hi =>
      have ⟨hc, hw⟩ := List.forall_mem_cons.mp hw
      exact lines_cons hc.left hc.right (hi hw)
  case cons c u hi =>
    obtain ⟨ls', l', h⟩ := exists_lines_eq_append u
    have hi := hi h
    rw [List.cons_append]
    by_cases hc : c = '\n'
    case pos =>
      rw [hc, lines_cons_newline, h] at hu
      obtain ⟨rfl, rfl⟩ : [] :: ls' = ls ∧ l' = l := List.append_singleton_inj.mp hu
      rw [hc, lines_cons_newline, hi, List.cons_append]
    by_cases hr : c = '\r'
    case pos =>
      have hhead : (u ++ (w ++ v)).head? = some '\n' ↔ u.head? = some '\n' := by
        cases u
        case cons => rfl
        case nil  =>
          obtain ⟨d, w, rfl⟩ := List.exists_cons_of_ne_nil hn
          simpa using (hw d List.mem_cons_self).left
      rw [hr, lines_cons_return, h] at hu
      rw [hr, lines_cons_return, hi]
      simp only [hhead]
      split at hu
      case isTrue hd =>
        obtain ⟨rfl, rfl⟩ := List.append_singleton_inj.mp hu
        rw [if_pos hd]
      case isFalse hd =>
        obtain ⟨rfl, rfl⟩ : [] :: ls' = ls ∧ l' = l := List.append_singleton_inj.mp hu
        rw [if_neg hd, List.cons_append]
    case neg =>
      cases ls'
      case nil =>
        rw [lines_cons hc hr h] at hu
        obtain ⟨rfl, rfl⟩ : [] = ls ∧ c :: l' = l := List.append_singleton_inj.mp hu
        exact lines_cons hc hr hi
      case cons m ls' =>
        rw [lines_cons hc hr h] at hu
        obtain ⟨rfl, rfl⟩ : (c :: m) :: ls' = ls ∧ l' = l := List.append_singleton_inj.mp hu
        exact lines_cons hc hr hi

def Unbroken (w : List Char) : Prop :=
  ∀ c ∈ w, c ≠ '\n' ∧ c ≠ '\r'

instance (w : List Char) : Decidable (Unbroken w) :=
  List.decidableBAll _ w

-- A text that can stand in a line without being cut by a comment or by a line end.
structure Seamless (w : List Char) : Prop where
  ne       : w ≠ []
  unbroken : Unbroken w
  undashed : Undashed w
  head     : ∀ c ∈ w.head?, isFirm c
  last     : ∀ c ∈ w.getLast?, isFirm c

theorem code_append (hl : Undashed l) (hw : Seamless w) (line : List Char) :
    code (l ++ (w ++ line)) = l ++ (w ++ code line) := by
  have dash {c} (h : isFirm c) : c ≠ '-' := by
    simp [isFirm] at h
    exact h.right
  have hu : Undashed (l ++ w) :=
    List.isChain_append.mpr ⟨hl, hw.undashed, fun _ _ d hd => .inr (dash (hw.head d hd))⟩
  have hlast : ∀ c ∈ (l ++ w).getLast?, isFirm c := by
    rw [List.getLast?_append_of_ne_nil _ hw.ne]
    exact hw.last
  rw [←List.append_assoc, code, dropComment_append hu fun c hc _ _ => .inl (dash (hlast c hc)),
    stripEnd, trimEnd_append_left fun c hc => not_isBlank_of_isFirm (hlast c hc), List.append_assoc]
  rfl

theorem normalize_append (hw : Seamless w) (hu : ∀ l ∈ (lines u).getLast?, Undashed l) :
    normalize (u ++ (w ++ v)) = codeBefore u ++ (w ++ codeAfter v) := by
  obtain ⟨ls, l, hls⟩ := exists_lines_eq_append u
  obtain ⟨line, ms, hms⟩ := List.exists_cons_of_ne_nil (lines_ne_nil v)
  have hl : Undashed l := hu l (by rw [hls, List.getLast?_concat]; rfl)
  have hcodes : codes (ls ++ (l ++ (w ++ line)) :: ms) =
      codes ls ++ (l ++ (w ++ code line)) :: codes ms := by
    rw [codes_append]
    congr 1
    rw [codes, List.map_cons, code_append hl hw, List.filter_cons_of_pos (by simp [hw.ne])]
    rfl
  rw [normalize_eq, lines_append hw.ne hw.unbroken hls hms, hcodes, intercalate_append_cons,
    strip_append hw.ne (fun c hc => not_isBlank_of_isFirm (hw.head c hc))
      fun c hc => not_isBlank_of_isFirm (hw.last c hc),
    codeBefore, codeAfter, hls, hms, List.dropLast_concat, List.getLast?_concat]
  rfl

end SchemaGraph.Source
