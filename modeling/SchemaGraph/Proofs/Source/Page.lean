import SchemaGraph.Proofs.LineEnds
import SchemaGraph.Schema.Parse

-- That it does not matter how the lines of a source are laid out: what ends them, what blanks and
-- comments stand behind them, and what rows without code stand between them.
namespace SchemaGraph.Source

open Text

variable {l u v w b rest : List Char} {ls : List (List Char)}

structure Line where
  chars : List Char
  unbroken : Unbroken chars

structure Padding extends Line where
  blank : ∀ c ∈ chars, isBlank c

inductive LineEnd
  | lineFeed
  | carriageReturn
  | both

def LineEnd.chars : LineEnd → List Char
  | lineFeed       => ['\n']
  | carriageReturn => ['\r']
  | both           => ['\r', '\n']

def Line.comment (line : Line) : List Char :=
  '-' :: '-' :: line.chars

-- A row holds a line of the source, perhaps with blanks and after one more space a comment behind
-- it, or it holds nothing but blanks and a comment.
inductive Row
  | code (line : Line) (padding : Padding) (comment? : Option Line)
  | idle (padding : Padding) (comment? : Option Line)

namespace Row

def text : Row → List Char
  | code line padding none           => line.chars ++ padding.chars
  | code line padding (some comment) => line.chars ++ (padding.chars ++ [' ']) ++ comment.comment
  | idle padding none                => padding.chars
  | idle padding (some comment)      => padding.chars ++ comment.comment

def line? : Row → Option (List Char)
  | code line _ _ => some line.chars
  | idle _ _      => none

end Row

structure Page where
  rows : List (Row × LineEnd)
  last? : Option Row

namespace Page

def text (page : Page) : List Char :=
  page.rows.flatMap (fun (row, lineEnd) => row.text ++ lineEnd.chars) ++
    page.last?.toList.flatMap (·.text)

def source (page : Page) : List (List Char) :=
  (page.rows.map Prod.fst ++ page.last?.toList).filterMap (·.line?)

end Page

-- Behind a line nothing counts but code.

theorem dropComment_append_of_dashed (h : ¬ Undashed u) (v : List Char) :
    dropComment (u ++ v) = dropComment u := by
  induction u
  case nil          => exact absurd .nil h
  case cons c u hi =>
    rw [List.cons_append, dropComment_cons, dropComment_cons]
    by_cases hc : c = '-' ∧ u.head? = some '-'
    case pos =>
      rw [if_pos hc, if_pos ⟨hc.left, by rw [List.head?_append, hc.right, Option.some_or]⟩]
    case neg =>
      have hu : ¬ Undashed u := by
        refine fun hu => h (List.isChain_cons.mpr ⟨fun d hd => ?_, hu⟩)
        by_contra hn
        obtain ⟨rfl, rfl⟩ : c = '-' ∧ d = '-' := by simpa using hn
        exact hc ⟨rfl, hd⟩
      have hne : u ≠ [] := fun he => hu (he ▸ .nil)
      rw [List.head?_append_of_ne_nil _ hne, if_neg hc, if_neg hc, hi hu]

theorem dropComment_append_comment (h : '-' ∉ u.getLast?) (comment : Line) :
    dropComment (u ++ comment.comment) = dropComment u := by
  by_cases hu : Undashed u
  case neg => exact dropComment_append_of_dashed hu _
  case pos =>
    have hd := @dropComment_append u comment.comment hu fun c hc _ _ => .inl fun he => h (he ▸ hc)
    rw [hd, dropComment_eq hu, Line.comment, dropComment_cons, if_pos ⟨rfl, rfl⟩, List.append_nil]

theorem ne_dash_of_isBlank {c : Char} (h : isBlank c) : c ≠ '-' :=
  fun he => absurd (he ▸ h) (by decide)

theorem code_append_of_isBlank (hb : ∀ c ∈ b, isBlank c) (l : List Char) :
    code (l ++ b) = code l := by
  by_cases hl : Undashed l
  case neg => rw [code, code, dropComment_append_of_dashed hl]
  case pos =>
    have hn {c} (hc : c ∈ b) : c ≠ '-' := ne_dash_of_isBlank (hb c hc)
    have hu : Undashed b := .of_not_mem fun hm => hn hm rfl
    have hd := @dropComment_append l b hl fun _ _ d hd => .inr (hn (List.mem_of_mem_head? hd))
    rw [code, code, hd, dropComment_eq hu, dropComment_eq hl]
    exact trimEnd_append_of_forall hb

theorem code_append_comment (hb : ∀ c ∈ b, isBlank c) (hl : '-' ∉ (l ++ b).getLast?)
    (comment : Line) :
    code (l ++ b ++ comment.comment) = code l := by
  rw [code, dropComment_append_comment hl, ←code, code_append_of_isBlank hb]

theorem codes_eq_of_code_eq (h : code u = code v) : codes [u] = codes [v] := by
  rw [codes, codes, List.map_singleton, List.map_singleton, h]

theorem codes_cons (l : List Char) (ls : List (List Char)) :
    codes (l :: ls) = codes [l] ++ codes ls :=
  codes_append [l] ls

theorem codes_nil_cons (ls : List (List Char)) : codes ([] :: ls) = codes ls :=
  rfl

theorem Row.codes_text (row : Row) : codes [row.text] = codes row.line?.toList := by
  have space {c} (padding : Padding) (hc : c ∈ padding.chars ++ [' ']) : isBlank c := by
    cases List.mem_append.mp hc
    case inl hc => exact padding.blank c hc
    case inr hc => exact List.mem_singleton.mp hc ▸ by decide
  have dash (padding : Padding) : '-' ∉ padding.chars.getLast? := fun hm =>
    ne_dash_of_isBlank (padding.blank _ (List.mem_of_mem_getLast? hm)) rfl
  cases row
  case code line padding comment? =>
    apply codes_eq_of_code_eq
    cases comment?
    case none         => exact code_append_of_isBlank padding.blank _
    case some comment =>
      refine code_append_comment (fun _ => space padding) ?_ comment
      simp [←List.append_assoc]
  case idle padding comment? =>
    have hempty : codes [padding.chars] = [] :=
      codes_eq_of_code_eq (code_append_of_isBlank padding.blank [])
    cases comment?
    case none         => exact hempty
    case some comment =>
      exact codes_eq_of_code_eq (@code_append_comment [] _ padding.blank (dash padding) comment)

theorem Row.unbroken_text (row : Row) : Unbroken row.text := by
  have append {u v} (hu : Unbroken u) (hv : Unbroken v) : Unbroken (u ++ v) :=
    List.forall_mem_append.mpr ⟨hu, hv⟩
  have comment (line : Line) : Unbroken line.comment :=
    append (u := ['-', '-']) (by decide) line.unbroken
  rcases row with ⟨line, padding, _ | _⟩ | ⟨padding, _ | _⟩
  · exact append line.unbroken padding.unbroken
  · exact append (append line.unbroken (append padding.unbroken (by decide))) (comment _)
  · exact padding.unbroken
  · exact append padding.unbroken (comment _)

-- Rows stay apart whatever ends them.

theorem lines_append_left (hl : Unbroken l) (hv : lines v = u :: ls) :
    lines (l ++ v) = (l ++ u) :: ls := by
  by_cases hn : l = []
  case pos => rw [hn, List.nil_append, List.nil_append, hv]
  case neg => exact lines_append (u := []) hn hl (show lines [] = [] ++ [[]] from rfl) hv

-- A carriage return and the line feed of the next row are one end, so that an empty row is lost.
theorem codes_append_lineEnd (hl : Unbroken l) (lineEnd : LineEnd) (rest : List Char) :
    codes (lines (l ++ lineEnd.chars ++ rest)) = codes [l] ++ codes (lines rest) := by
  have key {v ls} (hv : lines v = [] :: ls) : codes (lines (l ++ v)) = codes [l] ++ codes ls := by
    rw [lines_append_left hl hv, List.append_nil, codes_cons]
  rw [List.append_assoc]
  cases lineEnd
  case lineFeed => exact key (lines_cons_newline rest)
  case both     => exact key (lines_cons_newline rest)
  case carriageReturn =>
    by_cases hh : rest.head? = some '\n'
    case neg => exact key ((lines_cons_return rest).trans (if_neg hh))
    case pos =>
      obtain ⟨rest, rfl⟩ := List.head?_eq_some_iff.mp hh
      rw [lines_cons_newline, codes_nil_cons]
      exact key (lines_cons_newline rest)

theorem Page.codes_text (page : Page) : codes (lines page.text) = codes page.source := by
  obtain ⟨rows, last?⟩ := page
  induction rows
  case nil =>
    cases last?
    case none     => rfl
    case some row =>
      have ht : text ⟨[], some row⟩ = row.text := List.flatMap_singleton ..
      rw [ht, lines_eq_singleton row.unbroken_text, row.codes_text]
      cases row <;> rfl
  case cons entry rows hi =>
    obtain ⟨row, lineEnd⟩ := entry
    have ht : text ⟨(row, lineEnd) :: rows, last?⟩ =
        row.text ++ lineEnd.chars ++ text ⟨rows, last?⟩ := by
      rw [text, List.flatMap_cons, List.append_assoc]
      rfl
    have hs : source ⟨(row, lineEnd) :: rows, last?⟩ =
        row.line?.toList ++ source ⟨rows, last?⟩ := by
      cases row <;> rfl
    rw [ht, hs, codes_append_lineEnd row.unbroken_text, hi, row.codes_text, codes_append]

theorem Page.unbroken_source (page : Page) : ∀ l ∈ page.source, Unbroken l := by
  intro l hl
  obtain ⟨row, _, hr⟩ := List.mem_filterMap.mp hl
  cases row
  case idle           => cases hr
  case code line _ _ _ =>
    cases hr
    exact line.unbroken

theorem codes_lines_intercalate (h : ∀ l ∈ ls, Unbroken l) :
    codes (lines (['\n'].intercalate ls)) = codes ls := by
  cases ls
  case nil  => rfl
  case cons => rw [lines_intercalate (List.cons_ne_nil _ _) h]

theorem Page.normalize_text (page : Page) :
    normalize page.text = normalize (['\n'].intercalate page.source) ∧
      Schema.parse page.text = Schema.parse (['\n'].intercalate page.source) := by
  have h : normalize page.text = normalize (['\n'].intercalate page.source) := by
    rw [normalize_eq, normalize_eq, page.codes_text, codes_lines_intercalate page.unbroken_source]
  exact ⟨h, by rw [Schema.parse, Schema.parse, h]⟩

end SchemaGraph.Source
