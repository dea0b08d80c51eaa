import SchemaGraph.Proofs.Pattern.Spared
import SchemaGraph.Proofs.Statement.Extract

namespace SchemaGraph.Statement

open Scan Pattern

def visitsFrom (whole : List Char) (skip : Nat) (before : Option Char) (pos : Nat)
    (cs : List Char) :
    List Visit :=
  Cursor.readAll.go (readVisit (matchParens whole)) skip before pos cs

def visitOf (whole : List Char) (pos : Nat) (s : Progress Unit) : Visit where
  name := String.ofList (Identifier.unquoteQualified (s.group ()))
  start := pos
  opening := s.pos - 1
  closing? := (matchParens whole).lookup (s.pos - 1)

variable {whole whole' u v w body body' rest cs : List Char} {skip pos pos' o c n : Nat}
variable {before : Option Char} {s t : Progress Unit} {visit : Visit} {ch : Char}

theorem isNear_header : header.isNear := by
  decide

theorem visitsFrom_none (h : header.match? ⟨before, ch :: cs, pos⟩ = none) :
    visitsFrom whole 0 before pos (ch :: cs) = visitsFrom whole 0 (some ch) (pos + 1) cs := by
  rw [visitsFrom, Cursor.readAll.go, readVisit, visit?, h]
  rfl

theorem visitsFrom_some (h : header.match? ⟨before, ch :: cs, pos⟩ = some s) :
    visitsFrom whole 0 before pos (ch :: cs) = visitOf whole pos s ::
      visitsFrom whole ((visitOf whole pos s).stop - pos - 1) (some ch) (pos + 1) cs := by
  rw [visitsFrom, Cursor.readAll.go, readVisit, visit?, h]
  rfl

theorem lt_of_match? (h : header.match? ⟨before, cs, pos⟩ = some s) : pos < s.pos := by
  rw [match?_eq_head?] at h
  obtain ⟨w, hw, x, y, hx, _, _, hy, _⟩ := header.exact.sound (List.mem_of_mem_head? h)
  have hp := hw.pos_eq
  simp [hx, hy] at hp
  have hp : s.pos = pos + (x.length + 1) := hp
  omega

theorem opening_lt_stop_visitOf (whole : List Char) (pos : Nat) (s : Progress Unit) :
    s.pos - 1 < (visitOf whole pos s).stop :=
  @opening_lt_stop whole (visitOf whole pos s) rfl

theorem le_opening (h : visit ∈ visitsFrom whole skip before pos cs) :
    pos + skip ≤ visit.opening := by
  induction cs generalizing skip before pos
  case nil           => cases h
  case cons ch cs hi =>
    cases skip
    case succ skip =>
      have := @hi skip (pos + 1) (some ch) h
      omega
    case zero =>
      cases hm : header.match? ⟨before, ch :: cs, pos⟩
      case none   =>
        have := hi (visitsFrom_none hm ▸ h)
        omega
      case some s =>
        rw [visitsFrom_some hm] at h
        have := lt_of_match? hm
        cases List.mem_cons.mp h
        case inl h =>
          rw [h]
          show pos + 0 ≤ s.pos - 1
          omega
        case inr h =>
          have := hi h
          omega

theorem le_opening_of_match? (h : header.match? ⟨before, cs, pos⟩ = some s)
    (hv : visit ∈ visitsFrom whole 0 before pos cs) : s.pos - 1 ≤ visit.opening := by
  cases cs
  case nil           => cases hv
  case cons ch cs =>
    rw [visitsFrom_some h] at hv
    cases List.mem_cons.mp hv
    case inl hv => exact hv ▸ Nat.le_refl _
    case inr hv =>
      have := le_opening hv
      have := opening_lt_stop_visitOf whole pos s
      omega

def Meets (whole : List Char) (skip : Nat) (before : Option Char) (pos : Nat) (cs : List Char)
    (o : Nat) :
    Prop :=
  ∃ visit ∈ visitsFrom whole skip before pos cs, visit.opening = o

namespace Meets

theorem le (h : Meets whole skip before pos cs o) : pos + skip ≤ o := by
  obtain ⟨visit, hm, ho⟩ := h
  exact ho ▸ le_opening hm

-- A header that reaches behind the body's opening would hide it from the search.
theorem isUpTo {r : List Char} (h : Meets whole 0 before pos (u ++ r) o) (ho : o < pos + u.length)
    (hs : header.match? ⟨before, u ++ r, pos⟩ = some s) : isUpTo r s.toCursor := by
  obtain ⟨visit, hm, hv⟩ := h
  have := le_opening_of_match? hs hm
  have := lt_of_match? hs
  exact (isUpTo_match? rfl hs).mpr (by show s.pos ≤ pos + u.length; omega)

-- A body that another header opens comes after the whole of this one.
theorem after (h : Meets whole 0 before pos (ch :: cs) o)
    (hs : header.match? ⟨before, ch :: cs, pos⟩ = some s) (ho : s.pos - 1 ≠ o) :
    Meets whole ((visitOf whole pos s).stop - pos - 1) (some ch) (pos + 1) cs o ∧
      (visitOf whole pos s).stop ≤ o := by
  obtain ⟨visit, hm, hl⟩ := h
  rw [visitsFrom_some hs] at hm
  cases List.mem_cons.mp hm
  case inl hm =>
    rw [hm] at hl
    exact absurd hl ho
  case inr hm =>
    have := le_opening hm
    have := lt_of_match? hs
    have := opening_lt_stop_visitOf whole pos s
    exact ⟨⟨visit, hm, hl⟩, by omega⟩

theorem of_none (h : Meets whole 0 before pos (ch :: cs) o)
    (hs : header.match? ⟨before, ch :: cs, pos⟩ = none) :
    Meets whole 0 (some ch) (pos + 1) cs o := by
  rwa [Meets, visitsFrom_none hs] at h

end Meets

-- What a visit finds.

theorem lookup_eq_some_iff : (matchParens whole).lookup o = some c ↔
    ∃ u body v, Enclosed whole u body v ∧ o = u.length ∧ c = u.length + 1 + body.length :=
  lookup_matchParens_eq_some_iff.trans (mem_matchParens_iff.symm.trans mem_matchParens_iff_enclosed)

theorem lookup_of_enclosed (h : Enclosed whole u body v) :
    (matchParens whole).lookup u.length = some (u.length + 1 + body.length) :=
  lookup_eq_some_iff.mpr ⟨u, body, v, h, rfl, rfl⟩

def statementOf? (name : String) (body : List Char) : Option Statement :=
  if name.isEmpty then none else some ⟨name, body⟩

theorem statement?_of_enclosed (h : Enclosed whole u body v) (ho : visit.opening = u.length)
    (hc : visit.closing? = (matchParens whole).lookup visit.opening) :
    visit.statement? whole = statementOf? visit.name body ∧
      visit.stop = u.length + 1 + body.length + 1 := by
  have hs := h.slice_eq
  rw [slice] at hs
  rw [ho, lookup_of_enclosed h] at hc
  refine ⟨?_, by rw [Visit.stop, hc]; rfl⟩
  rw [Visit.statement?, hc, ho, statementOf?]
  simp only [hs]

structure SameFind (whole whole' : List Char) (visit visit' : Visit) : Prop where
  statement?_eq : visit.statement? whole = visit'.statement? whole'
  stop_eq       : visit.stop + visit'.opening = visit'.stop + visit.opening

namespace SameFind

variable {visit' : Visit} {u' v' : List Char}

theorem of_enclosed (hn : visit.name = visit'.name)
    (hc : visit.closing? = (matchParens whole).lookup visit.opening)
    (hc' : visit'.closing? = (matchParens whole').lookup visit'.opening)
    (h : Enclosed whole u body v) (ho : visit.opening = u.length)
    (h' : Enclosed whole' u' body v') (ho' : visit'.opening = u'.length) :
    SameFind whole whole' visit visit' := by
  have ⟨hs, hstop⟩ := statement?_of_enclosed h ho hc
  have ⟨hs', hstop'⟩ := statement?_of_enclosed h' ho' hc'
  exact ⟨by rw [hs, hs', hn], by omega⟩

theorem of_none (h : visit.closing? = none) (h' : visit'.closing? = none) :
    SameFind whole whole' visit visit' := by
  refine ⟨by rw [Visit.statement?, Visit.statement?, h, h'], ?_⟩
  rw [Visit.stop, Visit.stop, h, h', Option.getD_none, Option.getD_none]
  omega

theorem name_visitOf (h : s.texts = t.texts) :
    (visitOf whole pos s).name = (visitOf whole' pos' t).name := by
  show String.ofList _ = String.ofList _
  rw [Progress.group_eq, Progress.group_eq, h]

theorem moved (hm : Mode.outside.after u = Mode.outside.after u') (ht : s.texts = t.texts)
    (ho : s.pos - 1 = u.length + n) (ho' : t.pos - 1 = u'.length + n) :
    SameFind (u ++ w) (u' ++ w) (visitOf (u ++ w) pos s) (visitOf (u' ++ w) pos' t) := by
  have hn := @name_visitOf (u ++ w) (u' ++ w) pos pos' _ _ ht
  have swap {u u' : List Char} {o c : Nat} (hm : Mode.outside.after u = Mode.outside.after u')
      (ho : o = u.length + n) (h : (matchParens (u ++ w)).lookup o = some c) :
      ∃ x body v, Enclosed (u ++ w) x body v ∧ o = x.length ∧
        ∃ y, Enclosed (u' ++ w) y body v ∧ y.length = u'.length + n := by
    obtain ⟨x, body, v, he, hx, _⟩ := lookup_eq_some_iff.mp h
    obtain ⟨x', hx', he'⟩ := he.swap_left (by omega) hm
    refine ⟨x, body, v, he, hx, _, he', ?_⟩
    have := congrArg List.length hx'
    simp at this ⊢
    omega
  cases hc : (matchParens (u ++ w)).lookup (s.pos - 1)
  case some c =>
    obtain ⟨x, body, v, he, hx, y, he', hy⟩ := swap hm ho hc
    exact of_enclosed hn rfl rfl he hx he' (ho'.trans hy.symm)
  case none =>
    refine of_none hc ?_
    by_contra hc'
    obtain ⟨c', hc'⟩ := Option.ne_none_iff_exists'.mp hc'
    obtain ⟨x, body, v, _, _, y, he', hy⟩ := swap hm.symm ho' hc'
    rw [ho.trans hy.symm, lookup_of_enclosed he'] at hc
    cases hc

theorem behind {r r' : List Char} (ht : s.texts = t.texts) (hp : s.pos = t.pos)
    (hs : (visitOf (w ++ r) pos s).stop ≤ w.length)
    (hs' : (visitOf (w ++ r') pos' t).stop ≤ w.length) :
    SameFind (w ++ r) (w ++ r') (visitOf (w ++ r) pos s) (visitOf (w ++ r') pos' t) := by
  have swap {r} (r') {s : Progress Unit} {pos c : Nat}
      (hs : (visitOf (w ++ r) pos s).stop ≤ w.length)
      (h : (matchParens (w ++ r)).lookup (s.pos - 1) = some c) :
      ∃ x body v v', Enclosed (w ++ r) x body v ∧ Enclosed (w ++ r') x body v' ∧
        s.pos - 1 = x.length := by
    obtain ⟨x, body, v, he, hx, _⟩ := lookup_eq_some_iff.mp h
    have := (@statement?_of_enclosed _ _ _ _ (visitOf (w ++ r) pos s) he hx rfl).right
    obtain ⟨v', he'⟩ := he.swap_right (by omega) r'
    exact ⟨x, body, v, v', he, he', hx⟩
  cases hc : (matchParens (w ++ r)).lookup (s.pos - 1)
  case some c =>
    obtain ⟨x, body, v, v', he, he', hx⟩ := swap r' hs hc
    exact of_enclosed (name_visitOf ht) rfl rfl he hx he' (show t.pos - 1 = x.length from hp ▸ hx)
  case none =>
    refine of_none hc ?_
    by_contra hc'
    obtain ⟨c', hc'⟩ := Option.ne_none_iff_exists'.mp hc'
    obtain ⟨x, body, v, v', _, he', hx⟩ := swap r hs' hc'
    rw [hp, hx, lookup_of_enclosed he'] at hc
    cases hc

end SameFind

-- The statements that such a search finds. It is `foundFrom` when nothing is left out.
def foundAfter (whole : List Char) (skip : Nat) (before : Option Char) (pos : Nat)
    (cs : List Char) :
    List Statement :=
  (visitsFrom whole skip before pos cs).filterMap (·.statement? whole)

theorem foundAfter_none (h : header.match? ⟨before, ch :: cs, pos⟩ = none) :
    foundAfter whole 0 before pos (ch :: cs) = foundAfter whole 0 (some ch) (pos + 1) cs := by
  rw [foundAfter, visitsFrom_none h, foundAfter]

theorem foundAfter_some (h : header.match? ⟨before, ch :: cs, pos⟩ = some s) :
    foundAfter whole 0 before pos (ch :: cs) = ((visitOf whole pos s).statement? whole).toList ++
      foundAfter whole ((visitOf whole pos s).stop - pos - 1) (some ch) (pos + 1) cs := by
  rw [foundAfter, visitsFrom_some h, List.filterMap_cons, foundAfter]
  cases (visitOf whole pos s).statement? whole <;> rfl

theorem foundAfter_moved (hm : Mode.outside.after u = Mode.outside.after u') {seen : List Char}
    (hw : w = seen ++ cs) :
    foundAfter (u ++ w) skip before (u.length + seen.length) cs =
      foundAfter (u' ++ w) skip before (u'.length + seen.length) cs := by
  induction cs generalizing seen skip before
  case nil           => rfl
  case cons ch cs hi =>
    have hi {skip} := @hi skip (some ch) (seen ++ [ch]) (by simp [hw])
    rw [List.length_append, List.length_singleton, ←Nat.add_assoc, ←Nat.add_assoc] at hi
    cases skip
    case succ skip => exact hi
    case zero      =>
      have hm' := match?_moved isNear_header before (u.length + seen.length)
        (u'.length + seen.length)
        (ch :: cs)
      cases hs : header.match? ⟨before, ch :: cs, u.length + seen.length⟩ <;>
        cases ht : header.match? ⟨before, ch :: cs, u'.length + seen.length⟩ <;> rw [hs, ht] at hm'
      case none.none => rw [foundAfter_none hs, foundAfter_none ht, hi]
      case some.some s t =>
        cases hm'
        case some hst =>
          have hp := hst.pos_eq
          have hl := lt_of_match? hs
          have hl' := lt_of_match? ht
          have hfind : SameFind (u ++ w) (u' ++ w) (visitOf (u ++ w) (u.length + seen.length) s)
              (visitOf (u' ++ w) (u'.length + seen.length) t) :=
            .moved (n := s.pos - 1 - u.length) hm hst.texts_eq (by omega) (by omega)
          have hskip :
              (visitOf (u ++ w) (u.length + seen.length) s).stop - (u.length + seen.length) - 1 =
              (visitOf (u' ++ w) (u'.length + seen.length) t).stop -
                (u'.length + seen.length) - 1 := by
            have hstop : _ + (t.pos - 1) = _ + (s.pos - 1) := hfind.stop_eq
            omega
          rw [foundAfter_some hs, foundAfter_some ht, hfind.statement?_eq, hskip, hi]
      all_goals cases hm'

theorem foundAfter_enclosed {seen lead : List Char} (h : Enclosed whole lead body rest)
    (hw : whole = seen ++ ch :: cs) (hl : seen.length ≤ lead.length)
    (hs : header.match? ⟨before, ch :: cs, seen.length⟩ = some s) (ho : s.pos - 1 = lead.length) :
    foundAfter whole 0 before seen.length (ch :: cs) =
      (statementOf? (String.ofList (Identifier.unquoteQualified (s.group ()))) body).toList ++
        foundFrom whole (some ')') (lead.length + 1 + body.length + 1) rest := by
  have ⟨hf, hstop⟩ := @statement?_of_enclosed _ _ _ _ (visitOf whole seen.length s) h ho rfl
  obtain ⟨x, hx⟩ : seen <+: lead :=
    List.prefix_of_prefix_length_le ⟨_, hw.symm⟩ ⟨_, h.text_eq.symm⟩ hl
  obtain ⟨y, hy⟩ : ∃ y, cs = y ++ [')'] ++ rest ∧
      seen.length + 1 + y.length = lead.length + 1 + body.length := by
    have ht : seen ++ ch :: cs = seen ++ (x ++ '(' :: (body ++ ')' :: rest)) := by
      rw [←hw, h.text_eq, ←hx, List.append_assoc]
    have ht := List.append_cancel_left ht
    obtain _ | ⟨c, x⟩ := x
    case nil  => exact ⟨body, by simpa using (List.cons.inj ht).right, by simp [←hx]⟩
    case cons =>
      exact ⟨x ++ '(' :: body, by simpa using (List.cons.inj ht).right, by simp [←hx]; omega⟩
  have hskip : (visitOf whole seen.length s).stop - seen.length - 1 = (y ++ [')']).length := by
    rw [hstop, List.length_append, List.length_singleton]
    omega
  have hpos : seen.length + 1 + (y ++ [')']).length = lead.length + 1 + body.length + 1 := by
    rw [List.length_append, List.length_singleton]
    omega
  have hrest := @Cursor.readAll_go_skip _ (some ch) rest (seen.length + 1)
    (readVisit (matchParens whole))
    (y ++ [')'])
  rw [foundAfter_some hs, hf, hskip, hy.left, foundAfter, visitsFrom, hrest, hpos, behind_append]
  rfl

section

variable {r r' lead seen : List Char}

-- A search that meets the header of a body in one text and in the other finds the same before it,
-- though the texts differ in the body.
theorem foundAfter_swap (hr : Alike r r') (h : Enclosed (w ++ r) lead body rest)
    (h' : Enclosed (w ++ r') lead body' rest) (hl : lead.length < w.length) (hw : w = seen ++ u)
    (hv : Meets (w ++ r) skip before seen.length (u ++ r) lead.length)
    (hv' : Meets (w ++ r') skip before seen.length (u ++ r') lead.length) :
    ∃ found name,
      foundAfter (w ++ r) skip before seen.length (u ++ r) =
        found ++ (statementOf? name body).toList ++
        foundFrom (w ++ r) (some ')') (lead.length + 1 + body.length + 1) rest ∧
      foundAfter (w ++ r') skip before seen.length (u ++ r') =
        found ++ (statementOf? name body').toList ++
        foundFrom (w ++ r') (some ')') (lead.length + 1 + body'.length + 1) rest := by
  have hwl : w.length = seen.length + u.length := by rw [hw, List.length_append]
  induction u generalizing seen skip before
  case nil =>
    have := hv.le
    simp at hwl
    omega
  case cons ch u hi =>
    have hi {skip} := @hi skip (some ch) (seen ++ [ch]) (by simp [hw])
    rw [List.length_append, List.length_singleton] at hi
    have hi {skip} hv hv' := @hi skip hv hv' (by simp at hwl; omega)
    cases skip
    case succ skip => exact hi hv hv'
    case zero      =>
      have hm : Option.Rel (Twin r r' 0 0) (header.match? ⟨before, ch :: (u ++ r), seen.length⟩)
          (header.match? ⟨before, ch :: (u ++ r'), seen.length⟩) :=
        TwinPlaces.match? hr isNear_header ⟨rfl, ⟨ch :: u, rfl, rfl⟩, rfl⟩
          (fun _ => hv.isUpTo (hwl ▸ hl)) fun _ => hv'.isUpTo (hwl ▸ hl)
      show ∃ found name, foundAfter (w ++ r) 0 before seen.length (ch :: (u ++ r)) = _ ∧
        foundAfter (w ++ r') 0 before seen.length (ch :: (u ++ r')) = _
      cases hs : header.match? ⟨before, ch :: (u ++ r), seen.length⟩ <;>
        cases ht : header.match? ⟨before, ch :: (u ++ r'), seen.length⟩ <;> rw [hs, ht] at hm
      case none.none =>
        rw [foundAfter_none hs, foundAfter_none ht]
        exact hi (hv.of_none hs) (hv'.of_none ht)
      case some.some s t =>
        cases hm
        case some hst =>
          have hp : s.pos = t.pos := hst.pos_eq
          have hl := lt_of_match? hs
          by_cases ho : s.pos - 1 = lead.length
          case pos =>
            have hn : s.group () = t.group () := by
              rw [Progress.group_eq, Progress.group_eq, hst.texts_eq]
            refine ⟨[], String.ofList (Identifier.unquoteQualified (s.group ())), ?_, ?_⟩
            · exact foundAfter_enclosed h (by simp [hw]) (by omega) hs ho
            · rw [hn]
              exact foundAfter_enclosed h' (by simp [hw]) (by omega) ht (hp ▸ ho)
          -- The body that this header opens ends before the other one begins.
          case neg =>
            have ⟨hv, hstop⟩ := hv.after hs ho
            have ⟨hv', hstop'⟩ := hv'.after ht (hp ▸ ho)
            have hf : SameFind (w ++ r) (w ++ r') (visitOf (w ++ r) seen.length s)
                (visitOf (w ++ r') seen.length t) :=
              .behind hst.texts_eq hp (by omega) (by omega)
            have hstop_eq : (visitOf (w ++ r) seen.length s).stop =
                (visitOf (w ++ r') seen.length t).stop := by
              have hstop_eq : _ + (t.pos - 1) = _ + (s.pos - 1) := hf.stop_eq
              omega
            have ⟨found, name, hfound, hfound'⟩ := hi hv (hstop_eq ▸ hv')
            refine ⟨((visitOf (w ++ r) seen.length s).statement? (w ++ r)).toList ++ found,
              name, ?_, ?_⟩
            · rw [foundAfter_some hs, hfound, List.append_assoc, List.append_assoc,
                List.append_assoc]
            · rw [foundAfter_some ht, hf.statement?_eq, ←hstop_eq, hfound', List.append_assoc,
                List.append_assoc, List.append_assoc]
      all_goals cases hm

theorem foundFrom_behind (h : Enclosed (w ++ r) lead body rest)
    (h' : Enclosed (w ++ r') lead body' rest) :
    foundFrom (w ++ r) (some ')') (lead.length + 1 + body.length + 1) rest =
      foundFrom (w ++ r') (some ')') (lead.length + 1 + body'.length + 1) rest := by
  have text_eq {whole body} (h : Enclosed whole lead body rest) :
      whole = (lead ++ '(' :: (body ++ [')'])) ++ rest ∧
        (lead ++ '(' :: (body ++ [')'])).length = lead.length + 1 + body.length + 1 :=
    ⟨by simp [h.text_eq], by simp; omega⟩
  have outside {whole body} (h : Enclosed whole lead body rest) :
      Mode.outside.after (lead ++ '(' :: (body ++ [')'])) = .outside := by
    rw [Mode.after_append, Mode.after_cons, Mode.next_of_exposes h.exposes_open, Mode.after_append]
    exact Mode.next_of_exposes h.exposes_close
  have ⟨ht, hl⟩ := text_eq h
  have ⟨ht', hl'⟩ := text_eq h'
  have hm := (outside h).trans (outside h').symm
  have hf := @foundAfter_moved _ _ _ 0 (some ')') _ hm _ (List.nil_append rest).symm
  rw [List.length_nil, Nat.add_zero, Nat.add_zero] at hf
  rw [ht, ht', ←hl, ←hl']
  exact hf

theorem extract_swap (hr : Alike r r') (h : Enclosed (w ++ r) lead body rest)
    (h' : Enclosed (w ++ r') lead body' rest) (hl : lead.length < w.length)
    (hv : ∃ visit ∈ visits (w ++ r), visit.opening = lead.length)
    (hv' : ∃ visit ∈ visits (w ++ r'), visit.opening = lead.length) :
    ∃ earlier name later,
      extract (w ++ r) = earlier ++ (statementOf? name body).toList ++ later ∧
      extract (w ++ r') = earlier ++ (statementOf? name body').toList ++ later := by
  have ⟨earlier, name, hf, hf'⟩ := foundAfter_swap hr h h' hl (List.nil_append w).symm hv hv'
  exact ⟨earlier, name, _, hf, foundFrom_behind h h' ▸ hf'⟩

end

end SchemaGraph.Statement
