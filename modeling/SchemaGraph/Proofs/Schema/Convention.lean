import SchemaGraph.Proofs.Identifier.Token
import SchemaGraph.Proofs.Pattern.Kept
import SchemaGraph.Schema.Convention

-- What a column means by its name.
namespace SchemaGraph.Convention

open Pattern

variable {keys : List String} {column stem candidate target : String}

def HasStem (column stem : String) : Prop :=
  stem ≠ "" ∧ ∃ suffix, Spells "_id" suffix ∧ column.toList = stem.toList ++ suffix

-- A line feed may stand at the end of a name, but not in a stem.
structure Stemmed (column stem suffix ending : List Char) : Prop where
  column_eq : column = stem ++ suffix ++ ending
  ne        : stem ≠ []
  unbroken  : ∀ c ∈ stem, c ≠ '\n'
  spells    : Spells "_id" suffix
  ending    : ending = [] ∨ ending = ['\n']

theorem keyword_id_matches_iff {before : Option Char} {w rest : List Char} :
    (keyword "_id" : Pattern Unit).Matches before w rest ↔ Spells "_id" w :=
  letters_matches_iff _ (by decide)

theorem ne_of_mem_suffix {suffix : List Char} (h : Spells "_id" suffix) : '\n' ∉ suffix := by
  intro hm
  have hf : Text.folded '\n' ∈ "_id".toList.map Char.toLower := h ▸ List.mem_map_of_mem hm
  exact absurd hf (by decide)

namespace Stemmed

variable {name s s' w w' e e' : List Char}

theorem unique (h : Stemmed name s w e) (h' : Stemmed name s' w' e') : s = s' := by
  have hlength : w.length = w'.length := h.spells.length_eq.trans h'.spells.length_eq.symm
  have hne {w} (hw : Spells "_id" w) : w ≠ [] := fun hn => by simp [hn, Spells] at hw
  have he : s ++ w ++ e = s' ++ w' ++ e' := h.column_eq.symm.trans h'.column_eq
  -- Only the name with a line feed behind it ends with one.
  have last {s w : List Char} (hw : Spells "_id" w) : (s ++ w).getLast? ≠ some '\n' := by
    rw [List.getLast?_append_of_ne_nil _ (hne hw)]
    exact fun hl => ne_of_mem_suffix hw (List.mem_of_getLast? hl)
  have hsuffix : s ++ w = s' ++ w' := by
    rcases h.ending with rfl | rfl <;> rcases h'.ending with rfl | rfl
    · simpa using he
    · exact absurd (by simpa using congrArg List.getLast? he) (last (s := s) h.spells)
    · exact absurd (by simpa using (congrArg List.getLast? he).symm) (last (s := s') h'.spells)
    · exact List.append_cancel_right he
  exact List.append_inj_left' hsuffix hlength

end Stemmed

theorem exists_stemmed (h : stem? column = some stem) :
    ∃ suffix ending, Stemmed column.toList stem.toList suffix ending := by
  obtain ⟨t, ht, rfl⟩ := Option.map_eq_some_iff.mp h
  obtain ⟨m, hm, hend⟩ := mem_ways_append.mp (mem_ways_of_match? ht)
  obtain ⟨g, hg, hm⟩ := mem_ways_append.mp hm
  obtain ⟨w, hw, hmany, hgroup⟩ := exists_of_mem_ways_group hg
  obtain ⟨suffix, hsuffix, hid⟩ := (keyword "_id").exact.sound hm
  obtain ⟨_, hnone, rfl, hedge⟩ := textEnd.exact.sound hend
  have ⟨hne, hall⟩ := Identifier.many_matches_iff.mp hmany
  have hstem : t.group () = w := by
    rw [group_eq_of_not_mem_labels hend (by decide), group_eq_of_not_mem_labels hm (by decide),
      hgroup]
  have hending : t.rest = [] ∨ t.rest = ['\n'] := by
    simpa [Cursor.atTextEnd] using hedge
  have hcolumn : column.toList = w ++ (suffix ++ t.rest) := by
    have hm : m.rest = t.rest := hnone.rest_eq
    rw [←hm, ←hsuffix.rest_eq]
    exact hw.rest_eq
  rw [hstem, String.toList_ofList]
  exact ⟨suffix, t.rest, by rw [hcolumn, List.append_assoc], hne, by simpa using hall,
    keyword_id_matches_iff.mp hid, hending⟩

theorem stem?_eq_some {suffix ending : List Char}
    (h : Stemmed column.toList stem.toList suffix ending) : stem? column = some stem := by
  have hmatch : columnPattern.Matches none (stem.toList ++ suffix) ending :=
    ⟨stem.toList ++ suffix, [], (List.append_nil _).symm,
      ⟨_, _, rfl, Identifier.many_matches_iff.mpr ⟨h.ne, by simpa using h.unbroken⟩,
        keyword_id_matches_iff.mpr h.spells⟩,
      rfl, by simpa [Cursor.atTextEnd] using h.ending⟩
  have hsome := isSome_matchText? hmatch
  rw [←h.column_eq] at hsome
  cases hs : stem? column
  case none        => simp [Option.map_eq_none_iff.mp hs] at hsome
  case some stem' =>
    obtain ⟨_, _, h'⟩ := exists_stemmed hs
    rw [String.toList_injective (h'.unique h)]

theorem stem?_eq_some_iff :
    stem? column = some stem ↔ ∃ suffix ending, Stemmed column.toList stem.toList suffix ending :=
  ⟨exists_stemmed, fun ⟨_, _, h⟩ => stem?_eq_some h⟩

theorem stem?_eq_some_iff_of_unbroken (hc : '\n' ∉ column.toList) :
    stem? column = some stem ↔ HasStem column stem := by
  rw [stem?_eq_some_iff]
  constructor
  case mp =>
    intro ⟨suffix, ending, h⟩
    have hending : ending = [] := h.ending.resolve_right fun he =>
      hc (h.column_eq ▸ he ▸ List.mem_append_right _ List.mem_cons_self)
    refine ⟨fun hn => h.ne (hn ▸ rfl), suffix, h.spells, ?_⟩
    rw [h.column_eq, hending, List.append_nil]
  case mpr =>
    intro ⟨hne, suffix, hspells, he⟩
    refine ⟨suffix, [], by rw [he, List.append_nil], by simpa using hne, fun c hm hn => hc ?_,
      hspells, .inl rfl⟩
    exact he ▸ hn ▸ List.mem_append_left _ hm

-- The stem and its plurals. Only a stem with a small `y` at its end has one in `ies`.

def regularForms (stem : String) : List String :=
  [stem, stem ++ "s", stem ++ "es"]

def iesForm (stem : String) : String :=
  String.ofList stem.toList.dropLast ++ "ies"

def forms (stem : String) : List String :=
  regularForms stem ++ if stem.toList.getLast? = some 'y' then [iesForm stem] else []

theorem candidates_eq (stem : String) : candidates stem = forms stem := by
  have hl : stem.toList.getLast? = stem.toList.reverse.head? := List.head?_reverse.symm
  have hd : stem.toList.dropLast = stem.toList.reverse.tail.reverse := by
    rw [List.tail_reverse, List.reverse_reverse]
  rw [candidates, forms, iesForm, hl, hd]
  split
  case h_1 cs h => rw [h]; rfl
  case h_2 h    =>
    rw [if_neg, List.append_nil, regularForms]
    intro hy
    obtain ⟨cs, hcs⟩ := List.head?_eq_some_iff.mp hy
    exact h cs hcs

-- The table that is a candidate, or else the last one that is so but for the case of letters.
structure Closest (keys : List String) (candidate target : String) : Prop where
  mem      : target ∈ keys
  lower_eq : Text.lower target = Text.lower candidate
  exact    : candidate ∈ keys → target = candidate
  last     : candidate ∉ keys → ∃ before behind, keys = before ++ target :: behind ∧
    ∀ key ∈ behind, Text.lower key ≠ Text.lower candidate

def NoneLike (keys : List String) (candidate : String) : Prop :=
  ∀ key ∈ keys, Text.lower key ≠ Text.lower candidate

theorem any_namesOf (keys : List String) (candidate : String) :
    (namesOf keys).any (·.2 == candidate) ↔ candidate ∈ keys := by
  simp [namesOf]

theorem lookup_namesOf_eq_some_iff :
    (namesOf keys).reverse.lookup (Text.lower candidate) = some target ↔
      Text.lower target = Text.lower candidate ∧
        ∃ before behind, keys = before ++ target :: behind ∧
          ∀ key ∈ behind, Text.lower key ≠ Text.lower candidate := by
  rw [namesOf, ←List.map_reverse, List.lookup_eq_some_iff]
  constructor
  case mp =>
    intro ⟨l, r, he, hl⟩
    obtain ⟨behind, rest, hk, rfl, hr⟩ := List.map_eq_append_iff.mp he
    obtain ⟨key, before, rfl, hkey, rfl⟩ := List.map_eq_cons_iff.mp hr
    obtain ⟨hlower, rfl⟩ := Prod.mk.inj hkey
    refine ⟨hlower, before.reverse, behind.reverse, ?_, fun k hm he => ?_⟩
    · rw [←List.reverse_reverse keys, hk]
      simp
    · have := hl (Text.lower k, k) (List.mem_map_of_mem (List.mem_reverse.mp hm))
      simp [he] at this
  case mpr =>
    intro ⟨hlower, before, behind, hk, hb⟩
    refine ⟨behind.reverse.map fun key => (Text.lower key, key),
      before.reverse.map fun key => (Text.lower key, key), ?_, fun e hm => ?_⟩
    · simp [hk, hlower]
    · obtain ⟨key, hkey, rfl⟩ := List.mem_map.mp hm
      simpa using (hb key (List.mem_reverse.mp hkey)).symm

theorem lookup_namesOf_eq_none_iff : (namesOf keys).reverse.lookup (Text.lower candidate) = none ↔
    NoneLike keys candidate := by
  rw [List.lookup_eq_none_iff, NoneLike]
  simp only [namesOf, List.mem_reverse, List.forall_mem_map, bne_iff_ne, ne_comm]

theorem tableFor?_eq_some_iff :
    tableFor? (namesOf keys) candidate = some target ↔ Closest keys candidate target := by
  have ha := any_namesOf keys candidate
  rw [tableFor?]
  split
  case isTrue h =>
    have hm := ha.mp h
    constructor
    case mp  => exact fun he => Option.some.inj he ▸ ⟨hm, rfl, fun _ => rfl, absurd hm⟩
    case mpr => exact fun hc => congrArg some (hc.exact hm).symm
  case isFalse h =>
    have hm : candidate ∉ keys := fun hm => h (ha.mpr hm)
    rw [lookup_namesOf_eq_some_iff]
    constructor
    case mp  =>
      intro ⟨hlower, hlast⟩
      obtain ⟨before, behind, hk, _⟩ := id hlast
      exact ⟨hk ▸ List.mem_append_right _ List.mem_cons_self, hlower, fun hc => absurd hc hm,
        fun _ => hlast⟩
    case mpr => exact fun hc => ⟨hc.lower_eq, hc.last hm⟩

theorem tableFor?_eq_none_iff :
    tableFor? (namesOf keys) candidate = none ↔ NoneLike keys candidate := by
  have ha := any_namesOf keys candidate
  rw [tableFor?]
  split
  case isFalse  => exact lookup_namesOf_eq_none_iff
  case isTrue h =>
    refine iff_of_false (fun hn => by cases hn) fun hn => ?_
    exact hn candidate (ha.mp h) rfl

-- The table that a stem means: the closest one to the first form of the stem that any table is
-- like.
def Means (keys : List String) (stem target : String) : Prop :=
  ∃ earlier form later, forms stem = earlier ++ form :: later ∧
    (∀ candidate ∈ earlier, NoneLike keys candidate) ∧ Closest keys form target

theorem target?_eq_some_iff :
    target? (namesOf keys) stem = some target ↔ Means keys stem target := by
  rw [target?, candidates_eq, List.findSome?_eq_some_iff]
  simp only [tableFor?_eq_some_iff, tableFor?_eq_none_iff]
  constructor
  case mp  => exact fun ⟨earlier, form, later, hf, hc, hn⟩ => ⟨earlier, form, later, hf, hn, hc⟩
  case mpr => exact fun ⟨earlier, form, later, hf, hn, hc⟩ => ⟨earlier, form, later, hf, hc, hn⟩

theorem link?_eq_some_iff {names : Names} {table : Table} {col : Column} {link : Link} :
    link? names table col = some link ↔ ¬ col.isForeignKey ∧
      ∃ stem target, stem? col.name = some stem ∧
      target? names stem = some target ∧ target ≠ table.name ∧
        link = ⟨table.name, col.name, target, targetColumn⟩ := by
  rw [link?]
  by_cases hf : col.isForeignKey
  case pos => simp [hf]
  case neg =>
    rw [if_neg hf]
    cases hs : stem? col.name
    case none      => simp
    case some stem =>
      cases ht : target? names stem
      case none        => simp [ht]
      case some target => simp [ht, hf, eq_comm]

end SchemaGraph.Convention
