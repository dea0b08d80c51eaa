import SchemaGraph.Proofs.Pattern.Kept
import SchemaGraph.Proofs.Statement.Declared
import SchemaGraph.Proofs.Statement.Search
import SchemaGraph.Proofs.Statement.Unambiguous

-- That headers are recognized as their grammar has it, in whatever order a matcher tries its ways.
namespace SchemaGraph.Statement

open Pattern

def Header.named (h : Header) (name : Identifier.Spelled) : List Char :=
  h.words ++ name.text ++ h.blanks.chars ++ ['(']

-- At the edge of a word a header begins. Its name begins at `first`, and its parenthesis stands at
-- `opening`.
structure DerivedAt (text : List Char) (start first opening : Nat) (name : Identifier.Spelled) :
    Prop where
  edge    : (Cursor.ofPos text start).atWordEdge
  derives : ∃ h : Header, ∃ rest, text.drop start = h.named name ++ rest ∧
    first = start + h.words.length ∧ opening + 1 = start + (h.named name).length

def Derives (text : List Char) (start : Nat) : Prop :=
  ∃ first opening name, DerivedAt text start first opening name

structure Finds (s : Progress Unit) (first opening : Nat) (name : List Char) : Prop where
  kept    : ∃ start stop, s.groups = [((), start, stop)] ∧ start.pos = first ∧
    stop.pos = first + name.length
  name_eq : s.group () = name
  pos_eq  : s.pos = opening + 1

variable {before : Option Char} {w rest text : List Char} {word : String} {s t : Progress Unit}
variable {start first opening pos : Nat} {name : Identifier.Spelled} {visit : Visit}

-- What the parts of the pattern match is written in a header.

theorem exists_spelling (hk : isKeyword word)
    (h : (keyword word : Pattern Unit).Matches before w rest) :
    ∃ spelling : Spelling word, spelling.chars = w :=
  ⟨⟨w, (keyword_matches_iff hk).mp h⟩, rfl⟩

theorem exists_gap (h : (gap : Pattern Unit).Matches before w rest) : ∃ g : Gap, g.chars = w :=
  have ⟨hn, hb⟩ := Identifier.many_matches_iff.mp h
  ⟨⟨⟨w, hb⟩, hn⟩, rfl⟩

theorem exists_orReplace (h : orReplacePart.Matches before w rest) :
    ∃ part?, ∀ h : Header, h.orReplace? = part? → h.orReplace = w := by
  rcases h with ⟨_, _, rfl, ⟨_, _, rfl, ⟨_, _, rfl, ho, hg⟩, hr⟩, hg'⟩ | hn
  case inl =>
    obtain ⟨o, rfl⟩ := exists_spelling (by decide) ho
    obtain ⟨g, rfl⟩ := exists_gap hg
    obtain ⟨replace, rfl⟩ := exists_spelling (by decide) hr
    obtain ⟨g', rfl⟩ := exists_gap hg'
    exact ⟨some (o, g, replace, g'), fun h hpart => by rw [Header.orReplace, hpart]⟩
  case inr => exact ⟨none, fun h hpart => by rw [Header.orReplace, hpart]; exact Eq.symm hn⟩

theorem exists_scope (h : scopePart.Matches before w rest) :
    ∃ part?, ∀ h : Header, h.scope? = part? → h.scope = w := by
  rcases h with ⟨_, _, rfl, hs | hs, hg⟩ | hn
  case inl.inl =>
    obtain ⟨global, rfl⟩ := exists_spelling (by decide) hs
    obtain ⟨g, rfl⟩ := exists_gap hg
    exact ⟨some (.inl global, g), fun h hpart => by rw [Header.scope, hpart]⟩
  case inl.inr =>
    obtain ⟨loc, rfl⟩ := exists_spelling (by decide) hs
    obtain ⟨g, rfl⟩ := exists_gap hg
    exact ⟨some (.inr loc, g), fun h hpart => by rw [Header.scope, hpart]⟩
  case inr => exact ⟨none, fun h hpart => by rw [Header.scope, hpart]; exact Eq.symm hn⟩

theorem exists_temporary (h : temporaryPart.Matches before w rest) :
    ∃ part?, ∀ h : Header, h.temporary? = part? → h.temporary = w := by
  rcases h with ⟨_, _, rfl, ⟨_, _, rfl, ht, ho | hn⟩, hg⟩ | hn
  case inl.inl =>
    obtain ⟨temp, rfl⟩ := exists_spelling (by decide) ht
    obtain ⟨orary, rfl⟩ := exists_spelling (by decide) ho
    obtain ⟨g, rfl⟩ := exists_gap hg
    exact ⟨some (temp, some orary, g), fun h hpart => by rw [Header.temporary, hpart]⟩
  case inl.inr =>
    obtain ⟨temp, rfl⟩ := exists_spelling (by decide) ht
    obtain ⟨g, rfl⟩ := exists_gap hg
    obtain rfl := hn
    exact ⟨some (temp, none, g), fun h hpart => by rw [Header.temporary, hpart]⟩
  case inr => exact ⟨none, fun h hpart => by rw [Header.temporary, hpart]; exact Eq.symm hn⟩

theorem exists_ifNotExists (h : ifNotExistsPart.Matches before w rest) :
    ∃ part?, ∀ h : Header, h.ifNotExists? = part? → h.ifNotExists = w := by
  rcases h with
    ⟨_, _, rfl, ⟨_, _, rfl, ⟨_, _, rfl, ⟨_, _, rfl, ⟨_, _, rfl, hi, hg⟩, hn⟩, hg'⟩, he⟩, hg''⟩ | hn
  case inl =>
    obtain ⟨i, rfl⟩ := exists_spelling (by decide) hi
    obtain ⟨g, rfl⟩ := exists_gap hg
    obtain ⟨n, rfl⟩ := exists_spelling (by decide) hn
    obtain ⟨g', rfl⟩ := exists_gap hg'
    obtain ⟨e, rfl⟩ := exists_spelling (by decide) he
    obtain ⟨g'', rfl⟩ := exists_gap hg''
    exact ⟨some (i, g, n, g', e, g''), fun h hpart => by rw [Header.ifNotExists, hpart]⟩
  case inr => exact ⟨none, fun h hpart => by rw [Header.ifNotExists, hpart]; exact Eq.symm hn⟩

theorem exists_words (h : wordsPart.Matches before w rest) (blanks : Blanks) :
    Cursor.atWordEdge ⟨before, w ++ rest, 0⟩ ∧ ∃ h : Header, h.words = w ∧ h.blanks = blanks := by
  obtain ⟨_, _, rfl, ⟨_, _, rfl, ⟨_, _, rfl, ⟨_, _, rfl, ⟨_, _, rfl, ⟨_, _, rfl, ⟨_, _, rfl,
    ⟨_, _, rfl, ⟨rfl, hedge⟩, hcreate⟩, hgap⟩, hreplace⟩, hscope⟩, htemporary⟩, htable⟩, hgap'⟩,
      hnot⟩ := h
  obtain ⟨create, rfl⟩ := exists_spelling (by decide) hcreate
  obtain ⟨createGap, rfl⟩ := exists_gap hgap
  obtain ⟨orReplace?, horReplace⟩ := exists_orReplace hreplace
  obtain ⟨scope?, hscope'⟩ := exists_scope hscope
  obtain ⟨temporary?, htemporary'⟩ := exists_temporary htemporary
  obtain ⟨table, rfl⟩ := exists_spelling (by decide) htable
  obtain ⟨tableGap, rfl⟩ := exists_gap hgap'
  obtain ⟨ifNotExists?, hifNotExists⟩ := exists_ifNotExists hnot
  let h : Header := {
    create, createGap, orReplace?, scope?, temporary?, table, tableGap, ifNotExists?, blanks
    name := plainHeader.name }
  refine ⟨by simpa using hedge, h, ?_, rfl⟩
  rw [Header.words, horReplace h rfl, hscope' h rfl, htemporary' h rfl, hifNotExists h rfl]

theorem header_of_mem_ways (h : t ∈ header.ways s) :
    s.atWordEdge ∧ ∃ h : Header, ∃ name, s.Reaches t.toCursor (h.named name) ∧
      ∃ start stop, t.groups = ((), start, stop) :: s.groups ∧ s.Reaches start h.words ∧
        start.Reaches stop name.text := by
  obtain ⟨r, ⟨q, ⟨m, hwords, hname⟩, hblanks⟩, hparen⟩ := by
    simpa only [header_eq, mem_ways_append] using h
  obtain ⟨v, hv, rfl⟩ := List.mem_map.mp hname
  have hgroups : t.groups = ((), m.toCursor, v.toCursor) :: s.groups := by
    rw [groups_eq_of_labels_eq_nil hparen rfl, groups_eq_of_labels_eq_nil hblanks rfl,
      ←groups_eq_of_labels_eq_nil hwords rfl, ←groups_eq_of_labels_eq_nil hv rfl]
    rfl
  obtain ⟨w, hw, hwords⟩ := wordsPart.exact.sound hwords
  obtain ⟨_, hn, hname⟩ := Identifier.qualified.exact.sound hv
  obtain ⟨b, hb, hblanks⟩ := blanks.exact.sound hblanks
  obtain ⟨_, hp, c, rfl, hc⟩ := (only '(').exact.sound hparen
  obtain rfl := eq_of_beq hc
  obtain ⟨name, rfl⟩ := Identifier.Spelled.matches_iff.mp hname
  obtain ⟨hedge, header, rfl, hblanks⟩ := exists_words hwords ⟨b, hblanks⟩
  refine ⟨?_, header, name, ?_, m.toCursor, v.toCursor, hgroups, hw, hn⟩
  · rwa [←hw.rest_eq] at hedge
  · rw [Header.named, hblanks]
    exact ((hw.trans hn).trans hb).trans hp

theorem Finds.of_groups {m v : Cursor} (hg : s.groups = [((), m, v)]) (hw : m.Reaches v w)
    (hp : s.pos = opening + 1) : Finds s m.pos opening w where
  kept    := ⟨m, v, hg, rfl, hw.pos_eq⟩
  name_eq := by rw [Progress.group, hg, List.lookup_cons_self]; exact hw.textTo_eq
  pos_eq  := hp

theorem finds_of_mem_ways (h : s ∈ header.ways (.ofCursor (.ofPos text start))) :
    ∃ first opening name, DerivedAt text start first opening name ∧
      Finds s first opening name.text := by
  obtain ⟨hedge, header, name, hreaches, m, v, hgroups, hwords, hname⟩ := header_of_mem_ways h
  have hpos : s.pos = start + (header.named name).length := hreaches.pos_eq
  have hone : (header.named name).length ≠ 0 := by simp [Header.named]
  exact ⟨m.pos, s.pos - 1, name, ⟨hedge, header, s.rest, hreaches.rest_eq, hwords.pos_eq, by omega⟩,
    .of_groups hgroups hname (by omega)⟩

theorem not_isWord_of_edge (hedge : Cursor.atWordEdge ⟨before, rest, pos⟩)
    (h : BeginsWith ["CREATE"] rest) :
    before.any Text.isWord = false := by
  obtain ⟨c, cs, rfl, hc⟩ := h.head_isLetter (by decide)
  simpa [Cursor.atWordEdge, Text.isWord_of_isLetter hc] using hedge

theorem Header.beginsWith_named (h : Header) (name : Identifier.Spelled) (rest : List Char) :
    BeginsWith ["CREATE"] (h.named name ++ rest) := by
  simp only [named, words, List.append_assoc, List.nil_append]
  exact h.create.beginsWith (List.mem_singleton.mpr rfl) _

-- Where the name ends is settled by the blanks after it, and so is where it begins.
theorem Header.words_length_eq {h h' : Header} {name name' : Identifier.Spelled}
    (hn : name.text = name'.text) (he : h.named name = h'.named name') :
    h.words.length = h'.words.length := by
  have trim (h : Header) :
      Text.trimEnd Text.isBlank (h.words ++ name.text ++ h.blanks.chars) =
        h.words ++ name.text := by
    refine Text.trimEnd_append h.blanks.blank ?_
    rw [List.getLast?_append_of_ne_nil _ name.text_ne]
    exact fun c hc => by simp [name.last_text c hc]
  rw [named, named, ←hn] at he
  have he := List.append_cancel_right he
  have hwords : h.words ++ name.text = h'.words ++ name.text := by rw [←trim h, he, trim h']
  simpa using congrArg List.length hwords

theorem DerivedAt.exists_way (h : DerivedAt text start first opening name) :
    ∃ s ∈ header.ways (.ofCursor (.ofPos text start)), Finds s first opening name.text := by
  obtain ⟨hedge, h, rest, ht, rfl, ho⟩ := h
  have hb := not_isWord_of_edge hedge (ht ▸ h.beginsWith_named name rest)
  obtain ⟨s, hs, hreaches, htexts⟩ :=
    h.takes_named name hb rest (.ofCursor (.ofPos text start)) rfl ht
  have hs := List.mem_of_mem_head? hs
  obtain ⟨-, h', name', hreaches', m, v, hgroups, hwords, hname⟩ := header_of_mem_ways hs
  -- The way keeps the name of this derivation, whichever header it comes past.
  have hn : name'.text = name.text := by
    simpa [Progress.texts, hgroups, Progress.ofCursor, hname.textTo_eq] using htexts
  have he : h'.named name' = h.named name := by rw [←hreaches'.textTo_eq, hreaches.textTo_eq]; rfl
  have hm : m.pos = start + h.words.length := Header.words_length_eq hn he ▸ hwords.pos_eq
  have hpos : s.pos = start + (h.named name).length := hreaches.pos_eq
  exact ⟨s, hs, hm ▸ .of_groups hgroups (hn ▸ hname) (by omega)⟩

theorem length_ways_header (cur : Cursor) : (header.ways (.ofCursor cur)).length ≤ 1 :=
  unambiguous_header.length_le _

theorem Finds.unique {first' opening' : Nat} {name name' : List Char}
    (h : Finds s first opening name) (h' : Finds s first' opening' name') :
    first' = first ∧ opening' = opening ∧ name' = name := by
  obtain ⟨m, v, hg, rfl, -⟩ := h.kept
  obtain ⟨m', v', hg', rfl, -⟩ := h'.kept
  cases hg.symm.trans hg'
  have := h.pos_eq
  have := h'.pos_eq
  exact ⟨rfl, by omega, h'.name_eq.symm.trans h.name_eq⟩

theorem header_way_unique {cur : Cursor} (hs : s ∈ header.ways (.ofCursor cur))
    (ht : t ∈ header.ways (.ofCursor cur)) : s = t := by
  match hw : header.ways (.ofCursor cur), length_ways_header cur with
  | [], _  => simp [hw] at hs
  | [_], _ =>
    rw [hw] at hs ht
    rw [List.mem_singleton.mp hs, List.mem_singleton.mp ht]

theorem match?_of_mem_ways {cur : Cursor} (h : s ∈ header.ways (.ofCursor cur)) :
    header.match? cur = some s := by
  obtain ⟨t, ts, hw⟩ := List.exists_cons_of_ne_nil (List.ne_nil_of_mem h)
  have ht : header.match? cur = some t := by rw [match?_eq_head?, hw, List.head?_cons]
  rw [ht, header_way_unique h (mem_ways_of_match? ht)]

def firstFrom (text : List Char) (pos : Nat) : Option Visit :=
  (visitsFrom text 0 (Cursor.ofPos text pos).before pos (text.drop pos)).head?

structure Visit.IsFirst (visit : Visit) (text : List Char) (pos : Nat) : Prop where
  le_start   : pos ≤ visit.start
  derived    : ∃ first name, DerivedAt text visit.start first visit.opening name ∧
    visit.name = String.ofList name.name
  no_earlier : ∀ q, pos ≤ q → q < visit.start → ¬ Derives text q
  closing_eq : visit.closing? = (Scan.matchParens text).lookup visit.opening

theorem HeaderAt.derived {name : String} (h : HeaderAt text start opening name) :
    ∃ first spelled, DerivedAt text start first opening spelled ∧
      name = String.ofList spelled.name := by
  obtain ⟨s, hs, hp, rfl⟩ := h
  obtain ⟨first, o, spelled, hd, hf⟩ := finds_of_mem_ways (mem_ways_of_match? hs)
  obtain rfl : opening = o := by have := hf.pos_eq; omega
  exact ⟨first, spelled, hd, by rw [hf.name_eq, spelled.unquoteQualified_text]⟩

theorem Derives.headerAt (h : Derives text start) :
    ∃ opening name, HeaderAt text start opening name := by
  obtain ⟨first, opening, name, hd⟩ := h
  obtain ⟨s, hs, hf⟩ := hd.exists_way
  exact ⟨opening, _, s, match?_of_mem_ways hs, hf.pos_eq, rfl⟩

theorem search_from (text : List Char) (pos : Nat) :
    Search text pos (visitsFrom text 0 (Cursor.ofPos text pos).before pos (text.drop pos)) := by
  by_cases hp : pos ≤ text.length
  case pos =>
    have hs := search_visitsFrom (text.take pos) (text.drop pos) 0
    rwa [List.take_append_drop, List.length_take_of_le hp, behind_none] at hs
  case neg =>
    rw [List.drop_eq_nil_of_le (Nat.le_of_not_le hp)]
    refine .done fun q o name hq hh => ?_
    have := hh.lt_length
    omega

theorem isFirst_of_firstFrom (h : firstFrom text pos = some visit) : visit.IsFirst text pos := by
  have hs := search_from text pos
  rw [firstFrom] at h
  match hv : visitsFrom text 0 (Cursor.ofPos text pos).before pos (text.drop pos), hs with
  | _, .done _       => simp [hv] at h
  | _, .visit hl _ _ =>
    obtain rfl : _ = visit := by simpa [hv] using h
    obtain ⟨first, name, hd, hn⟩ := hl.header.derived
    exact {
      le_start   := hl.le_start
      derived    := ⟨first, name, hd, hn⟩
      no_earlier := fun q hq hlt hd => have ⟨_, _, hh⟩ := hd.headerAt; hl.no_earlier q _ _ hq hlt hh
      closing_eq := hl.closing_eq }

theorem not_derives_of_firstFrom (h : firstFrom text pos = none) {q : Nat} (hq : pos ≤ q) :
    ¬ Derives text q := by
  have hs := search_from text pos
  rw [firstFrom, List.head?_eq_none_iff] at h
  rw [h] at hs
  intro hd
  obtain ⟨o, name, hh⟩ := hd.headerAt
  match hs with
  | .done hn => exact hn q o name hq hh

-- A matcher that has some way to match a header wherever there is one.
structure Recognizes (recognize : Cursor → Option (Progress Unit)) : Prop where
  mem_ways : ∀ cur s, recognize cur = some s → s ∈ header.ways (.ofCursor cur)
  no_way   : ∀ cur, recognize cur = none → header.ways (.ofCursor cur) = []

def extractBy (recognize : Cursor → Option (Progress Unit)) (text : List Char) : List Statement :=
  let read (cur : Cursor) := (recognize cur).map fun found =>
    let visit := visitOf text cur.pos found
    (visit, visit.stop - visit.start)
  (Cursor.readAll read text).filterMap (·.statement? text)

theorem extractBy_match? (text : List Char) : extractBy header.match? text = extract text := by
  simp [extractBy, extract, visits, visit?, visitOf, Option.map_map, Function.comp_def]

theorem Recognizes.eq_match? {recognize : Cursor → Option (Progress Unit)}
    (h : Recognizes recognize) :
    recognize = header.match? := by
  funext cur
  cases hr : recognize cur
  case none   => rw [match?_eq_head?, h.no_way cur hr, List.head?_nil]
  case some s => exact (match?_of_mem_ways (h.mem_ways cur s hr)).symm

-- A header can be matched in one way at most, which is there if and only if the text derives a
-- header. Whatever derivation this is, the way finds its name and its parenthesis. A search meets
-- the leftmost header, and nothing depends on the order in which a matcher tries its ways.
structure Recognition (text : List Char) : Prop where
  one_way     : ∀ cur, (header.ways (.ofCursor cur)).length ≤ 1
  found       : ∀ cur s, s ∈ header.ways (.ofCursor cur) ↔ header.match? cur = some s
  matches_iff : ∀ start, (∃ s, s ∈ header.ways (.ofCursor (.ofPos text start))) ↔ Derives text start
  finds       : ∀ start s, s ∈ header.ways (.ofCursor (.ofPos text start)) →
    ∀ first opening name, DerivedAt text start first opening name → Finds s first opening name.text
  unique      : ∀ start first opening name first' opening' name',
    DerivedAt text start first opening name → DerivedAt text start first' opening' name' →
      first' = first ∧ opening' = opening ∧ name'.text = name.text
  leftmost    : ∀ pos visit, firstFrom text pos = some visit → visit.IsFirst text pos
  none_left   : ∀ pos, firstFrom text pos = none → ∀ q, pos ≤ q → ¬ Derives text q
  any_order   : ∀ recognize, Recognizes recognize → extractBy recognize text = extract text

theorem recognition_header (text : List Char) : Recognition text where
  one_way := length_ways_header
  found _ _ := ⟨match?_of_mem_ways, mem_ways_of_match?⟩
  matches_iff start := {
    mp := fun ⟨s, hs⟩ =>
      have ⟨first, opening, name, hd, _⟩ := finds_of_mem_ways hs
      ⟨first, opening, name, hd⟩
    mpr := fun ⟨_, _, _, hd⟩ => have ⟨s, hs, _⟩ := hd.exists_way; ⟨s, hs⟩ }
  finds start s hs first opening name hd :=
    have ⟨t, ht, hf⟩ := hd.exists_way
    header_way_unique ht hs ▸ hf
  unique start first opening name first' opening' name' hd hd' :=
    have ⟨s, hs, hf⟩ := hd.exists_way
    have ⟨t, ht, hf'⟩ := hd'.exists_way
    hf.unique (header_way_unique ht hs ▸ hf')
  leftmost _ _ h := isFirst_of_firstFrom h
  none_left _ h _ hq := not_derives_of_firstFrom h hq
  any_order recognize h := by rw [h.eq_match?, extractBy_match?]

end SchemaGraph.Statement
