import SchemaGraph.Proofs.Clause.Opening
import SchemaGraph.Proofs.Schema.Clauses

-- Indexes and constraints are no columns.
namespace SchemaGraph

open Text

namespace Clause

variable {rest : List Char}

-- What stands behind a word does not go on with it.

theorem not_isWord_parenthesis : ∀ c ∈ ('(' :: rest).head?, ¬ isWord c :=
  fun _ hc => Option.some.inj hc ▸ by decide +kernel

theorem not_isWord_list (list : Listing) : ∀ c ∈ (list.text ++ rest).head?, ¬ isWord c := by
  rw [Listing.text, List.append_assoc]
  exact not_isWord_blanks list.blanks fun _ => not_isWord_parenthesis

theorem not_isWord_gap (g : Gap) : ∀ c ∈ (g.chars ++ rest).head?, ¬ isWord c :=
  not_isWord_blanks g.toBlanks fun hn => absurd hn g.ne

theorem not_isWord_nameText (name? : Option Naming) (hr : ∀ c ∈ rest.head?, ¬ isWord c) :
    ∀ c ∈ (nameText name? ++ rest).head?, ¬ isWord c := by
  cases name?
  case none      => exact hr
  case some name => exact name.not_isWord

theorem not_isWord_tail (rule : Rule) : ∀ c ∈ (rule.tail ++ rest).head?, ¬ isWord c := by
  cases rule
  case unique word index? name? list =>
    rw [Rule.tail, List.append_assoc, List.append_assoc]
    cases index?
    case none       => exact not_isWord_nameText name? (not_isWord_list list)
    case some index =>
      rw [indexText, Option.elim_some, List.append_assoc]
      exact not_isWord_gap index.1
  case check word blanks expression  =>
    rw [Rule.tail, List.append_assoc]
    exact not_isWord_blanks blanks fun _ => not_isWord_parenthesis
  case exclude word next hn others   =>
    intro c hc
    rw [←Option.some.inj hc]
    rcases hn with hn | rfl
    · simp [not_isWord_of_isBlank hn]
    · decide +kernel

theorem not_isArgument_inner (list : Listing) :
    ∀ c ∈ ((list.inner ++ rest).dropWhile isBlank).head?, ¬ isArgument c := by
  obtain ⟨blanks, entries⟩ := list
  cases entries
  case nil                => exact fun c hc => Option.some.inj hc ▸ by decide
  case cons entry entries =>
    obtain ⟨tail, htail⟩ : ∃ tail, Listing.inner ⟨blanks, entry :: entries⟩ =
        entry.text ++ tail := by
      rw [Listing.inner, List.map_cons]
      cases entries.map (·.text)
      case nil  => exact ⟨_, by rw [List.intercalate_singleton]⟩
      case cons =>
        exact ⟨_, by rw [List.intercalate_cons_cons, List.append_assoc, List.append_assoc]⟩
    rw [htail, Entry.text, List.append_assoc, List.append_assoc, List.append_assoc,
      List.dropWhile_append_of_pos entry.before.blank,
      dropWhile_eq_self (head_text_append entry.token),
      List.head?_append_of_ne_nil _ entry.token.text_ne]
    intro c hc
    simpa [isArgument] using entry.head c hc

namespace Keyless

-- These are read as columns: an index that says how it is kept and not that it is unique, and an
-- index over text that has a name and neither of the words for an index.
def IsMisread : Keyless → Prop
  | index none _ name? (some _) _  => ∀ name ∈ name?, name.blanks.chars ≠ []
  | textIndex _ none (some name) _ => name.blanks.chars ≠ []
  | _                              => False

variable (before behind : Blanks) (clause : Keyless)

theorem isUnrecognized_plainIndex (word : IndexWord) (name? : Option Naming) (using? : Option Using)
    (list : Listing) (h : ¬ (index none word name? using? list).IsMisread) :
    IsUnrecognized
      (before.chars ++ ((index none word name? using? list).text ++ behind.chars)) := by
  simp only [text, Option.elim_none, List.nil_append, List.append_assoc]
  by_cases hq : ∀ name ∈ name?, name.blanks.chars ≠ []
  case neg =>
    push Not at hq
    obtain ⟨name, rfl, hn⟩ := hq
    exact isUnrecognized_quoted before word (by decide) name hn _
  case pos =>
    cases using?
    case some => exact absurd hq h
    case none =>
      have hinner := @not_isArgument_inner behind.chars list
      have hu := isUnrecognized_index before word name? hq list.blanks hinner
      simpa [usingText, Listing.text] using hu

theorem isUnrecognized (h : ¬ clause.IsMisread) :
    IsUnrecognized (before.chars ++ (clause.text ++ behind.chars)) := by
  cases clause
  case index unique? word name? using? list =>
    cases unique?
    case none        => exact isUnrecognized_plainIndex before behind word name? using? list h
    case some unique =>
      simp only [text, Option.elim_some, List.append_assoc]
      exact isUnrecognized_rule before ⟨"UNIQUE", by decide, unique.1⟩ (not_isWord_gap unique.2)
  case textIndex word index? name? list     =>
    simp only [text, List.append_assoc]
    cases index?
    case some index =>
      exact isUnrecognized_textIndex before word index.1 index.2
        (not_isWord_nameText name? (not_isWord_list list))
    case none       =>
      cases name?
      case some name => exact isUnrecognized_quoted before word (by decide) name (not_not.mp h) _
      case none      =>
        simp only [Listing.text, List.append_assoc]
        exact isUnrecognized_list before word (by decide) list.blanks _
  case constraint name? rule                =>
    cases name?
    case none            =>
      simp only [text, Option.elim_none, List.nil_append, List.append_assoc]
      exact isUnrecognized_rule before rule.word (not_isWord_tail rule)
    case some constraint =>
      simp only [text, Option.elim_some, List.append_assoc]
      exact isUnrecognized_constraint before constraint rule.word _

end Keyless

end Clause

theorem Table.ofClauses_unrecognized (table : String) (l r : List Clause) (cs : String)
    (fault : Clause.Fault) :
    ofClauses table (l ++ .unrecognized cs fault :: r) = ofClauses table (l ++ r) := by
  simp [ofClauses, Clause.primaryKeys, Clause.foreignKeys, Clause.column?]

def Clause.SaysNothing (part : List Char) : Prop :=
  part.all Text.isBlank ∨ ∃ cs fault, classify part = .unrecognized cs fault

theorem Clause.SaysNothing.ofClauses_eq {part : List Char} (h : SaysNothing part) (table : String)
    (l r : List (List Char)) :
    Table.ofClauses table (ofParts (l ++ part :: r)) = .ofClauses table (ofParts (l ++ r)) := by
  cases hb : part.all Text.isBlank
  case true  =>
    rw [ofParts, List.filter_append, List.filter_cons_of_neg (by simp [hb]), ofParts,
      List.filter_append]
  case false =>
    obtain ⟨cs, fault, hc⟩ := h.resolve_left (by simp [hb])
    rw [ofParts_middle hb, hc, Table.ofClauses_unrecognized, ofParts_append]

-- The clause is dropped, and so the table of any body with it is the one of the other clauses.
structure Clause.IsDropped (raw : List Char) : Prop where
  unrecognized : IsUnrecognized raw
  ofBody : ∀ table body l r, Scan.split (· == ',') body = l ++ raw :: r →
    Table.ofBody table body = .ofClauses table (ofParts (l ++ r))

theorem Clause.isDropped_of_isUnrecognized {raw : List Char} (h : IsUnrecognized raw) :
    IsDropped raw where
  unrecognized := h
  ofBody table body l r hs := by
    have ⟨fault, hc⟩ := h
    have hn : SaysNothing raw := .inr ⟨_, fault, hc⟩
    rw [←hn.ofClauses_eq table l r, Table.ofBody, ofBody, hs, ofParts]

namespace Clause.Keyless

theorem isDropped (before behind : Blanks) (clause : Keyless) (h : ¬ clause.IsMisread) :
    IsDropped (before.chars ++ (clause.text ++ behind.chars)) :=
  isDropped_of_isUnrecognized (clause.isUnrecognized before behind h)

-- Some parts of clauses.

def keyWord : IndexWord :=
  ⟨"KEY", by decide, "KEY".toList, by decide⟩

def nameIdx : Naming where
  blanks := Gap.space.toBlanks
  token  := ⟨"idx".toList, by decide, none, by decide⟩
  spaced := fun h => absurd h Gap.space.ne

def listA : Listing where
  blanks  := Gap.space.toBlanks
  entries := [⟨.empty, ⟨"a".toList, by decide, none, by decide⟩, .empty,
    fun c hc => Option.some.inj hc ▸ by decide⟩]

def usingHash : Using where
  blanks := Gap.space.toBlanks
  word   := ⟨"USING".toList, by decide⟩
  gap    := Gap.space
  method := ⟨"HASH", by decide, "hash".toList, by decide⟩

theorem isDropped_key : IsDropped "\n\tKEY idx (a) ".toList :=
  isDropped ⟨"\n\t".toList, by decide⟩ Gap.space.toBlanks (index none keyWord nameIdx none listA) id

theorem isDropped_misread :
    (∃ clause : Keyless, clause.text = "KEY idx USING hash (a)".toList ∧
      classify clause.text = .column "KEY" "idx" false none) ∧
    (∃ clause : Keyless, clause.text = "KEY USING hash (a)".toList ∧
      classify clause.text = .column "KEY" "USING" false none) ∧
    ∃ clause : Keyless, clause.text = "FULLTEXT idx (a)".toList ∧
      classify clause.text = .column "FULLTEXT" "idx" false none :=
  ⟨⟨index none keyWord nameIdx usingHash listA, by decide, by decide +kernel⟩,
    ⟨index none keyWord none usingHash listA, by decide, by decide +kernel⟩,
    textIndex ⟨"FULLTEXT", by decide, "FULLTEXT".toList, by decide⟩ none nameIdx listA,
    by decide, by decide +kernel⟩

end Clause.Keyless
end SchemaGraph
