import SchemaGraph.Proofs.Statement.Segments

namespace SchemaGraph.Statement

open Scan Pattern

variable {before : Option Char} {u v rest whole seen : List Char} {pairs : List (Nat × Nat)}
variable {pos : Nat}
variable {segments : List (Segment × Blanks)}

theorem name_ne (dotted : Identifier.Dotted) : String.ofList dotted.name ≠ "" := by
  intro he
  have hn := String.ofList_eq_empty_iff.mp he
  have hf := dotted.first.name.ne
  rw [Identifier.Dotted.name, Identifier.Dotted.parts, List.map_cons] at hn
  cases hj : dotted.joints <;> simp [hj, hf] at hn

namespace Header

theorem visit?_named (h : Header) (name : Identifier.Spelled) (hb : before.any Text.isWord = false)
    (rest : List Char) (pos : Nat) (pairs : List (Nat × Nat)) :
    visit? pairs ⟨before, h.words ++ name.text ++ h.blanks.chars ++ ['('] ++ rest, pos⟩ = some {
      name := String.ofList name.name
      start := pos
      opening := pos + (h.words ++ name.text ++ h.blanks.chars).length
      closing? := pairs.lookup (pos + (h.words ++ name.text ++ h.blanks.chars).length) } := by
  have ⟨t, ht, hk, hc⟩ := (h.takes_named name hb rest).match? pos
  have hp : t.pos - 1 = pos + (h.words ++ name.text ++ h.blanks.chars).length := by simp [hc]; omega
  have hg : t.group () = name.text := by simp [Progress.group_eq, hk]
  rw [visit?, ht, Option.map_some, hp, hg, name.unquoteQualified_text]

theorem visit?_text (h : Header) (hb : before.any Text.isWord = false) (rest : List Char)
    (pos : Nat) (pairs : List (Nat × Nat)) :
    visit? pairs ⟨before, h.text ++ rest, pos⟩ = some {
      name := String.ofList h.name.name
      start := pos
      opening := pos + h.lead.length
      closing? := pairs.lookup (pos + h.lead.length) } := by
  have hv := h.visit?_named h.name.spelled hb rest pos pairs
  rwa [h.name.text_spelled, h.name.name_spelled] at hv

end Header

theorem opening_lt_stop {text : List Char} {visit : Visit}
    (h : visit.closing? = (matchParens text).lookup visit.opening) :
    visit.opening < visit.stop := by
  rw [Visit.stop]
  cases hc : visit.closing?
  case none         => simp
  case some closing =>
    have ⟨u, body, v, _, ho, hcl⟩ := mem_matchParens_iff_enclosed.mp
      (mem_matchParens_iff.mpr (lookup_matchParens_eq_some_iff.mp (h.symm.trans hc)))
    simp [ho, hcl]
    omega

def readVisit (pairs : List (Nat × Nat)) (cur : Cursor) : Option (Visit × Nat) :=
  (visit? pairs cur).map fun v => (v, v.stop - v.start)

def foundFrom (whole : List Char) (before : Option Char) (pos : Nat) (cs : List Char) :
    List Statement :=
  (Cursor.readAll.go (readVisit (matchParens whole)) 0 before pos cs).filterMap (·.statement? whole)

theorem readVisit_eq_none (h : header.Fails before rest) :
    readVisit pairs ⟨before, rest, pos⟩ = none := by
  rw [readVisit, visit?, h.match?_eq_none]
  rfl

theorem header_fails_of_silent (hs : ¬ Mentions "CREATE" u) (trailer : Blanks) {x y : List Char}
    (hxy : u ++ ';' :: trailer.chars = x ++ y) (hy : y ≠ []) : header.Fails before (y ++ rest) := by
  obtain ⟨d, ds, hd⟩ := List.exists_cons_of_ne_nil hy
  cases List.append_eq_append_iff.mp hxy
  case inl h =>
    have ⟨w, _, ht⟩ := h
    have hm : d ∈ ';' :: trailer.chars := by simp [ht, hd]
    apply header_fails
    apply fails_of_refuses
    rw [hd, List.cons_append, List.head?_cons]
    cases List.mem_cons.mp hm
    case inl hm => exact hm ▸ by decide
    case inr hm => exact refuses_keyword_of_isBlank (by decide) (by decide) (trailer.blank d hm)
  case inr h =>
    have ⟨w, hu, hy⟩ := h
    refine header_fails_of_not_prefix fun hp => hs ?_
    rw [hy, List.append_assoc, List.map_append] at hp
    have ⟨v, hv⟩ := prefix_of_prefix_append_cons hp (by decide)
    exact ⟨x.map Char.toLower, v, by rw [List.append_assoc, hv, hu, List.map_append]⟩

theorem foundFrom_silent (hs : ¬ Mentions "CREATE" u) (trailer : Blanks) (rest : List Char) :
    foundFrom whole before pos (u ++ ';' :: trailer.chars ++ rest) =
      foundFrom whole (behind before (u ++ ';' :: trailer.chars))
        (pos + (u ++ ';' :: trailer.chars).length) rest := by
  rw [foundFrom, Cursor.readAll_go_none, foundFrom]
  intro x y hxy hy
  exact readVisit_eq_none (header_fails_of_silent hs trailer hxy hy)

theorem not_mentions_nil {word : String} (h : word ≠ "") : ¬ Mentions word [] := by
  intro hm
  have := List.infix_nil.mp hm
  simp at this
  exact h this

theorem foundFrom_statement (h : Header) {body v : List Char}
    (hb : before.any Text.isWord = false) (he : Enclosed whole (seen ++ h.lead) body v)
    (rest : List Char) :
    foundFrom whole before seen.length (h.text ++ body ++ [')'] ++ rest) =
      ⟨String.ofList h.name.name, body⟩ ::
        foundFrom whole (behind before (h.text ++ body ++ [')']))
          (seen.length + (h.text ++ body ++ [')']).length) rest := by
  have hl : (seen ++ h.lead).length = seen.length + h.lead.length := List.length_append
  have hc : (matchParens whole).lookup (seen.length + h.lead.length) =
      some ((seen ++ h.lead).length + 1 + body.length) :=
    hl ▸ lookup_matchParens_eq_some_iff.mpr he.matched
  have hr : readVisit (matchParens whole) ⟨before, h.text ++ body ++ [')'] ++ rest, seen.length⟩ =
      some (⟨String.ofList h.name.name, seen.length, seen.length + h.lead.length,
        some ((seen ++ h.lead).length + 1 + body.length)⟩, (h.text ++ body ++ [')']).length) := by
    have hv := h.visit?_text hb (body ++ [')'] ++ rest) seen.length (matchParens whole)
    rw [←List.append_assoc, ←List.append_assoc, hc] at hv
    rw [readVisit, hv, Option.map_some, Visit.stop]
    simp [Header.text]
    omega
  have hs : Visit.statement? whole ⟨String.ofList h.name.name, seen.length,
      seen.length + h.lead.length, some ((seen ++ h.lead).length + 1 + body.length)⟩ =
        some ⟨String.ofList h.name.name, body⟩ := by
    have hslice := he.slice_eq
    rw [slice, hl] at hslice
    simp only [Visit.statement?, String.isEmpty_iff, name_ne, if_false, hl, hslice]
  rw [foundFrom, Cursor.readAll_go_some hr (by simp), List.filterMap_cons, hs, foundFrom]

theorem foundFrom_unterminated (h : Header) (hb : before.any Text.isWord = false)
    (hw : whole = (seen ++ h.lead) ++ '(' :: v) (hn : NeverBelow (shown .outside v))
    (rest : List Char) :
    foundFrom whole before seen.length (h.text ++ rest) =
      foundFrom whole (behind before h.text) (seen.length + h.text.length) rest := by
  have hc : (matchParens whole).lookup (seen.length + h.lead.length) = none :=
    List.length_append ▸ lookup_matchParens_eq_none hw hn
  have hr : readVisit (matchParens whole) ⟨before, h.text ++ rest, seen.length⟩ =
      some (⟨String.ofList h.name.name, seen.length, seen.length + h.lead.length, none⟩,
        h.text.length) := by
    rw [readVisit, h.visit?_text hb rest seen.length (matchParens whole), hc, Option.map_some,
      Visit.stop]
    simp [Header.text]
    omega
  rw [foundFrom, Cursor.readAll_go_some hr (by simp [Header.text]), List.filterMap_cons, foundFrom]
  rfl

theorem behind_trailer (before : Option Char) (trailer : Blanks) :
    (behind before (';' :: trailer.chars)).any Text.isWord = false := by
  have key {w} (hw : ∀ c ∈ w, Text.isBlank c) {before : Option Char}
      (hb : before.any Text.isWord = false) : (behind before w).any Text.isWord = false := by
    induction w generalizing before
    case nil          => exact hb
    case cons c w hi =>
      have ⟨hc, hw⟩ := List.forall_mem_cons.mp hw
      exact hi hw (Text.not_isWord_of_isBlank hc)
  exact key trailer.blank (by decide +kernel)

-- What has been read ends outside every literal and is no part of a word.
theorem foundFrom_compose (hw : whole = seen ++ compose segments)
    (hm : Mode.outside.after seen = .outside) (hb : (behind none seen).any Text.isWord = false) :
    foundFrom whole (behind none seen) seen.length (compose segments) =
      segments.filterMap (·.1.statement?) := by
  induction segments generalizing seen
  case nil => rfl
  case cons x segments hi =>
    obtain ⟨segment, trailer⟩ := x
    have hs := segment.settles
    obtain ⟨ht, hn⟩ := trailer_settles trailer (Mode.after_outside_valid _) hs.isOutside
    obtain ⟨_, hrest⟩ := compose_settles segments
    have hi := @hi (seen ++ segment.text ++ ';' :: trailer.chars)
      (by rw [hw, compose_cons]; simp) (by rw [Mode.after_append, Mode.after_append, hm, ht])
      (by rw [behind_append]; exact behind_trailer ..)
    rw [behind_append, behind_append, List.length_append, List.length_append] at hi
    rw [compose_cons] at hw ⊢
    have hsilent (before pos) :=
      @foundFrom_silent before [] whole pos (not_mentions_nil (by decide))
      trailer (compose segments)
    simp only [List.nil_append] at hsilent
    cases segment
    case statement header body ho hb' =>
      have hbody : Mode.exposes (Mode.outside.after body) ')' :=
        Mode.exposes_of_isOutside (Mode.after_outside_valid _) ho (by decide)
      have he : Enclosed whole (seen ++ header.lead) body
          (';' :: trailer.chars ++ compose segments) := {
        text_eq := by rw [hw, Segment.text, Header.text]; simp
        exposes_open := by rw [Mode.after_append, hm]; exact header.exposes_paren
        exposes_close := hbody
        balanced := hb' }
      rw [Segment.text] at hi ⊢
      rw [foundFrom_statement header hb he, hsilent, hi]
      rfl
    case unterminated header text hp hu =>
      obtain ⟨ha, hn'⟩ := plain_settles hp
      obtain ⟨ht', hn⟩ := @trailer_settles trailer .outside trivial rfl
      have hopen :
          NeverBelow (shown .outside (text ++ (';' :: trailer.chars ++ compose segments))) := by
        rw [shown_append, shown_append, ha, ht']
        exact hn'.append (hn.append hrest)
      have hw' : whole = (seen ++ header.lead) ++ '(' ::
          (text ++ (';' :: trailer.chars ++ compose segments)) := by
        rw [hw, Segment.text, Header.text]
        simp
      have hfound := @foundFrom_silent (behind (behind none seen) header.text) text whole
        (seen.length + header.text.length) hu trailer (compose segments)
      rw [Segment.text] at hi ⊢
      rw [List.append_assoc, foundFrom_unterminated header hb hw' hopen, ←List.append_assoc, hfound]
      have hnone : (Segment.unterminated header text hp hu).statement? = none := rfl
      simpa [Nat.add_assoc, hnone] using hi
    case other text hu ho hb' =>
      rw [Segment.text] at hi ⊢
      have hfound := @foundFrom_silent (behind none seen) text whole seen.length hu trailer
        (compose segments)
      rw [List.append_assoc, behind_append, List.length_append, ←Nat.add_assoc] at hfound
      rw [hfound, hi]
      rfl

theorem extract_compose (segments : List (Segment × Blanks)) :
    extract (compose segments) = segments.filterMap (·.1.statement?) :=
  foundFrom_compose (List.nil_append _).symm rfl rfl

theorem extract_segments (segments : List Segment) :
    extract (segments.flatMap fun segment => segment.text ++ [';', '\n']) =
      segments.filterMap (·.statement?) := by
  have h := extract_compose (segments.map fun segment => (segment, .lineEnd))
  rwa [compose, List.flatMap_map, List.filterMap_map] at h

end SchemaGraph.Statement
