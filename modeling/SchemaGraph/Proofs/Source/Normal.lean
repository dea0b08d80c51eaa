import SchemaGraph.Proofs.Source.Page

-- The normal form of a source, and what of the source is left in it.
namespace SchemaGraph.Source

open Text

variable {c : Char} {l u w line text : List Char} {ls us : List (List Char)}

-- The lines of a text, each but the last with what ends it behind it. A carriage return before a
-- line feed is no end of its own.
inductive HasLines : List Char → List (List Char) → Prop
  | last {l : List Char} (hl : Unbroken l) : HasLines l [l]
  | ended {l rest : List Char} {ls : List (List Char)} (hl : Unbroken l) (lineEnd : LineEnd)
    (hr : lineEnd = .carriageReturn → rest.head? ≠ some '\n') (h : HasLines rest ls) :
    HasLines (l ++ (lineEnd.chars ++ rest)) (l :: ls)

inductive HasCode : List Char → List Char → Prop
  | whole {line : List Char} (h : ¬ ['-', '-'] <:+: line) : HasCode line line
  | beforeComment {u : List Char} (h : ¬ ['-', '-'] <:+: u ++ ['-']) (comment : List Char) :
    HasCode (u ++ '-' :: '-' :: comment) u

def HasCodes (text : List Char) (codes : List (List Char)) : Prop :=
  ∃ ls, HasLines text ls ∧ List.Forall₂ HasCode ls codes

-- A text without carriage returns and comments, whose lines all hold something and have no blanks
-- at their ends, and which neither begins nor ends with a blank.
structure Normal (text : List Char) : Prop where
  no_return  : '\r' ∉ text
  no_comment : ¬ ['-', '-'] <:+: text
  lines      : text = [] ∨ ∀ line ∈ cut (· == '\n') text,
    (∃ c ∈ line, ¬ isBlank c) ∧ ∀ c ∈ line.getLast?, ¬ isBlank c
  head       : ∀ c ∈ text.head?, ¬ isBlank c
  last       : ∀ c ∈ text.getLast?, ¬ isBlank c

-- The lines and the code of a text are settled by these descriptions.

theorem lines_of_hasLines (h : HasLines text ls) : lines text = ls := by
  induction h
  case last hl                     => exact lines_eq_singleton hl
  case ended l rest ls hl lineEnd hr _ hi =>
    have hend : lines (lineEnd.chars ++ rest) = [] :: ls := by
      cases lineEnd
      case lineFeed       => exact hi ▸ lines_cons_newline rest
      case both           => exact hi ▸ lines_cons_newline rest
      case carriageReturn => exact hi ▸ (lines_cons_return rest).trans (if_neg (hr rfl))
    rw [lines_append_left hl hend, List.append_nil]

theorem HasLines.cons (hn : c ≠ '\n') (hr : c ≠ '\r') (h : HasLines text (l :: ls)) :
    HasLines (c :: text) ((c :: l) :: ls) := by
  cases h
  case last hl                => exact .last (List.forall_mem_cons.mpr ⟨⟨hn, hr⟩, hl⟩)
  case ended lineEnd hr' hl h =>
    exact .ended (List.forall_mem_cons.mpr ⟨⟨hn, hr⟩, hl⟩) lineEnd hr' h

theorem hasLines_lines (text : List Char) : HasLines text (lines text) := by
  have hempty : Unbroken [] := by simp [Unbroken]
  cases text
  case nil       => exact .last hempty
  case cons c cs =>
    by_cases hn : c = '\n'
    case pos => exact hn ▸ .ended hempty .lineFeed (by simp) (hasLines_lines cs)
    by_cases hr : c = '\r'
    case neg =>
      obtain ⟨l, ls, h⟩ := List.exists_cons_of_ne_nil (lines_ne_nil cs)
      rw [lines_cons hn hr h]
      exact .cons hn hr (h ▸ hasLines_lines cs)
    case pos =>
      rw [hr, lines_cons_return]
      split
      case isFalse hh => exact .ended hempty .carriageReturn (fun _ => hh) (hasLines_lines cs)
      case isTrue hh  =>
        obtain ⟨rest, rfl⟩ := List.head?_eq_some_iff.mp hh
        exact .ended hempty .both (by simp) (hasLines_lines rest)
termination_by text.length

theorem hasCode_dropComment (line : List Char) : HasCode line (dropComment line) := by
  induction line
  case nil          => exact .whole (undashed_iff.mp .nil)
  case cons c line hi =>
    rw [dropComment_cons]
    split
    case isTrue hc =>
      obtain ⟨comment, rfl⟩ := List.head?_eq_some_iff.mp hc.right
      exact hc.left ▸ .beforeComment (u := []) (undashed_iff.mp (.singleton _)) comment
    case isFalse hc =>
      have hcons {w : List Char} (hh : w.head? = line.head?) (h : ¬ ['-', '-'] <:+: w) :
          ¬ ['-', '-'] <:+: c :: w := by
        rw [←undashed_iff] at h ⊢
        refine List.isChain_cons.mpr ⟨fun d hd => ?_, h⟩
        by_contra hn
        obtain ⟨rfl, rfl⟩ : c = '-' ∧ d = '-' := by simpa using hn
        exact hc ⟨rfl, hh ▸ hd⟩
      generalize dropComment line = u at hi
      cases hi
      case whole h                 => exact .whole (hcons rfl h)
      case beforeComment comment h =>
        refine .beforeComment (u := c :: u) (hcons ?_ h) comment
        cases u <;> rfl

theorem dropComment_of_hasCode (h : HasCode line u) : dropComment line = u := by
  cases h
  case whole h                 => exact dropComment_eq (undashed_iff.mpr h)
  case beforeComment comment h =>
    have ⟨hu, _, hl⟩ := List.isChain_append.mp (undashed_iff.mpr h)
    have hd := @dropComment_append u ('-' :: '-' :: comment) hu fun c hc d hd =>
      .inl ((hl c hc '-' rfl).resolve_right (by simp))
    rw [hd, dropComment_cons, if_pos ⟨rfl, rfl⟩, List.append_nil]

theorem hasCodes_iff : HasCodes text us ↔ us = (lines text).map dropComment where
  mp := by
    intro ⟨ls, hl, hc⟩
    rw [lines_of_hasLines hl]
    clear hl
    induction hc
    case nil            => rfl
    case cons hc _ hi => rw [List.map_cons, dropComment_of_hasCode hc, hi]
  mpr := by
    rintro rfl
    refine ⟨lines text, hasLines_lines text, List.forall₂_map_right_iff.mpr ?_⟩
    exact List.forall₂_same.mpr fun line _ => hasCode_dropComment line

structure Settled (l : List Char) : Prop where
  ne       : l ≠ []
  unbroken : Unbroken l
  undashed : Undashed l
  last     : ∀ c ∈ l.getLast?, ¬ isBlank c

namespace Settled

theorem code_eq (h : Settled l) : code l = l := by
  rw [code, dropComment_eq h.undashed]
  exact trimEnd_eq_self h.last

theorem exists_not_isBlank (h : Settled l) : ∃ c ∈ l, ¬ isBlank c :=
  ⟨l.getLast h.ne, List.getLast_mem h.ne, h.last _ (List.getLast?_eq_some_getLast h.ne)⟩

theorem dropWhile (h : Settled l) : Settled (l.dropWhile isBlank) where
  ne := by
    obtain ⟨c, hc, hb⟩ := h.exists_not_isBlank
    exact fun hd => hb (List.dropWhile_eq_nil_iff.mp hd c hc)
  unbroken c hc := h.unbroken c ((List.dropWhile_suffix _).subset hc)
  undashed := h.undashed.suffix (List.dropWhile_suffix _)
  last c hc := by
    have hn : l.dropWhile isBlank ≠ [] := List.ne_nil_of_mem (List.mem_of_mem_getLast? hc)
    have hl := List.getLast?_append_of_ne_nil (l.takeWhile isBlank) hn
    rw [List.takeWhile_append_dropWhile] at hl
    exact h.last c (hl ▸ hc)

end Settled

namespace HasCode

theorem isPrefix (h : HasCode line u) : u <+: line := by
  cases h
  case whole         => exact List.prefix_rfl
  case beforeComment => exact List.prefix_append _ _

theorem undashed (h : HasCode line u) : Undashed u := by
  cases h
  case whole h           => exact undashed_iff.mpr h
  case beforeComment _ h => exact (List.isChain_append.mp (undashed_iff.mpr h)).left

end HasCode

theorem settled_of_mem_codes (h : l ∈ codes (lines text)) : Settled l := by
  have ⟨hm, hn⟩ := List.mem_filter.mp h
  obtain ⟨line, hline, rfl⟩ := List.mem_map.mp hm
  have hd := hasCode_dropComment line
  have hcode : code line <+: dropComment line := List.rdropWhile_prefix isBlank _
  exact {
    ne       := by simpa using hn
    unbroken := fun c hc => unbroken_of_mem_lines text line hline c
      ((hcode.trans hd.isPrefix).subset hc)
    undashed := hd.undashed.prefix hcode
    last     := getLast?_trimEnd isBlank _ }

theorem undashed_intercalate (h : ∀ l ∈ ls, Undashed l) : Undashed (['\n'].intercalate ls) := by
  induction ls
  case nil          => exact .nil
  case cons l ls hi =>
    have ⟨hl, hls⟩ := List.forall_mem_cons.mp h
    cases ls
    case nil          => rwa [List.intercalate_singleton]
    case cons next ls =>
      rw [List.intercalate_cons_cons, List.append_assoc]
      refine List.isChain_append.mpr ⟨hl, ?_, fun _ _ d hd => .inr ?_⟩
      case refine_1 => exact List.isChain_cons.mpr ⟨fun _ _ => .inl (by decide), hi hls⟩
      case refine_2 => exact Option.some.inj hd ▸ (by decide)

structure SettledLines (ls : List (List Char)) : Prop where
  settled : ∀ l ∈ ls, Settled l
  head    : ∀ l ∈ ls.head?, ∀ c ∈ l.head?, ¬ isBlank c

namespace SettledLines

theorem codes_eq (h : SettledLines ls) : codes ls = ls := by
  have hmap : ls.map code = ls :=
    (List.map_congr_left fun l hl => (h.settled l hl).code_eq).trans (List.map_id ls)
  rw [codes, hmap]
  exact List.filter_eq_self.mpr fun l hl => by simpa using (h.settled l hl).ne

theorem head?_intercalate (h : SettledLines ls) :
    ∀ c ∈ (['\n'].intercalate ls).head?, ¬ isBlank c := by
  cases ls
  case nil       => simp
  case cons l ls =>
    have hl : l ≠ [] := (h.settled l List.mem_cons_self).ne
    have hi := intercalate_append_head ['\n'] l [] ls
    rw [List.append_nil] at hi
    rw [hi, List.head?_append_of_ne_nil _ hl]
    exact h.head l rfl

end SettledLines

theorem getLast?_intercalate (h : ∀ l ∈ ls, Settled l) :
    ∀ c ∈ (['\n'].intercalate ls).getLast?, ¬ isBlank c := by
  induction ls
  case nil          => simp
  case cons l ls hi =>
    have ⟨hl, hls⟩ := List.forall_mem_cons.mp h
    cases ls
    case nil          => simpa using hl.last
    case cons next ls =>
      have hn := intercalate_cons_ne_nil ['\n'] ls (hls next List.mem_cons_self).ne
      rw [List.intercalate_cons_cons, List.getLast?_append_of_ne_nil _ hn]
      exact hi hls

theorem strip_intercalate_cons (h : ∀ m ∈ l :: ls, Settled m) :
    strip (['\n'].intercalate (l :: ls)) = ['\n'].intercalate (l.dropWhile isBlank :: ls) ∧
      SettledLines (l.dropWhile isBlank :: ls) := by
  have ⟨hl, hls⟩ := List.forall_mem_cons.mp h
  have hs : SettledLines (l.dropWhile isBlank :: ls) := by
    refine ⟨List.forall_mem_cons.mpr ⟨hl.dropWhile, hls⟩, fun m hm c hc hb => ?_⟩
    obtain rfl : l.dropWhile isBlank = m := Option.some.inj hm
    have := List.head?_dropWhile_not isBlank l
    simp_all
  have hsplit : ['\n'].intercalate (l :: ls) =
      l.takeWhile isBlank ++ (['\n'].intercalate (l.dropWhile isBlank :: ls) ++ []) := by
    rw [List.append_nil, ←intercalate_append_head, List.takeWhile_append_dropWhile]
  refine ⟨?_, hs⟩
  rw [hsplit, strip]
  exact trim_append (fun _ => List.mem_takeWhile_imp) (by simp) hs.head?_intercalate
    (getLast?_intercalate hs.settled)

theorem exists_normalize_eq (text : List Char) :
    ∃ ls, SettledLines ls ∧ normalize text = ['\n'].intercalate ls := by
  have h : ∀ l ∈ codes (lines text), Settled l := fun _ => settled_of_mem_codes
  rw [normalize_eq]
  cases hc : codes (lines text)
  case nil       => exact ⟨[], ⟨by simp, by simp⟩, rfl⟩
  case cons l ls =>
    have ⟨he, hs⟩ := strip_intercalate_cons (hc ▸ h)
    exact ⟨_, hs, he⟩

namespace SettledLines

theorem normalize_intercalate (h : SettledLines ls) :
    normalize (['\n'].intercalate ls) = ['\n'].intercalate ls := by
  cases ls
  case nil       => rfl
  case cons l ls =>
    rw [normalize_eq,
      lines_intercalate (List.cons_ne_nil l ls) fun m hm => (h.settled m hm).unbroken, h.codes_eq]
    exact trim_eq_self h.head?_intercalate (getLast?_intercalate h.settled)

theorem normal_intercalate (h : SettledLines ls) : Normal (['\n'].intercalate ls) where
  no_return hm := by
    have hr : ∀ c ∈ ['\n'].intercalate ls, c ≠ '\r' :=
      forall_mem_intercalate (by decide) fun l hl c hc => ((h.settled l hl).unbroken c hc).right
    exact hr '\r' hm rfl
  no_comment := undashed_iff.mp (undashed_intercalate fun l hl => (h.settled l hl).undashed)
  lines := by
    cases ls
    case nil       => exact .inl rfl
    case cons l ls =>
      have hcut : cut (· == '\n') (['\n'].intercalate (l :: ls)) = l :: ls :=
        cut_intercalate (List.cons_ne_nil l ls) rfl fun m hm c hc => by
          simpa using ((h.settled m hm).unbroken c hc).left
      rw [hcut]
      exact .inr fun m hm => ⟨(h.settled m hm).exists_not_isBlank, (h.settled m hm).last⟩
  head := h.head?_intercalate
  last := getLast?_intercalate h.settled

end SettledLines

-- Of the code nothing but blanks is lost.

theorem filter_code (line : List Char) :
    (code line).filter (!isBlank ·) = (dropComment line).filter (!isBlank ·) :=
  filter_trimEnd (by simp) _

theorem filter_flatten_codes (ls : List (List Char)) :
    (codes ls).flatten.filter (!isBlank ·) = (ls.map dropComment).flatten.filter (!isBlank ·) := by
  induction ls
  case nil          => rfl
  case cons l ls hi =>
    have hl : (codes [l]).flatten.filter (!isBlank ·) = (dropComment l).filter (!isBlank ·) := by
      rw [←filter_code, codes, List.map_singleton]
      cases code l <;> simp
    rw [codes_cons, List.flatten_append, List.filter_append, hl, hi, List.map_cons,
      List.flatten_cons, List.filter_append]

theorem filter_normalize (text : List Char) : (normalize text).filter (!isBlank ·) =
    ((lines text).map dropComment).flatten.filter (!isBlank ·) := by
  rw [normalize_eq, strip, filter_trim (by simp), filter_intercalate (by decide),
    filter_flatten_codes]

-- Every text is brought into a normal form, which stays as it is. Of the characters that are not
-- blank, those that stand before the comments are left in it, in order, and no others.
theorem normal_normalize (text : List Char) :
    Normal (normalize text) ∧ normalize (normalize text) = normalize text ∧
      ∃ us, (∀ us', HasCodes text us' ↔ us' = us) ∧
        (normalize text).filter (!isBlank ·) = us.flatten.filter (!isBlank ·) := by
  obtain ⟨ls, hs, he⟩ := exists_normalize_eq text
  refine ⟨?normal, ?again, _, fun _ => hasCodes_iff, filter_normalize text⟩
  case normal => exact he ▸ hs.normal_intercalate
  case again  => rw [he, hs.normalize_intercalate]

end SchemaGraph.Source
