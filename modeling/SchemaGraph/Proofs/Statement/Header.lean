import SchemaGraph.Proofs.Identifier.Written
import SchemaGraph.Statement

namespace SchemaGraph

variable {γ : Type} {before : Option Char} {rest : List Char}

namespace Statement

open Pattern

structure Header where
  create       : Spelling "CREATE"
  createGap    : Gap
  orReplace?   : Option (Spelling "OR" × Gap × Spelling "REPLACE" × Gap)
  scope?       : Option ((Spelling "GLOBAL" ⊕ Spelling "LOCAL") × Gap)
  temporary?   : Option (Spelling "TEMP" × Option (Spelling "ORARY") × Gap)
  table        : Spelling "TABLE"
  tableGap     : Gap
  ifNotExists? : Option (Spelling "IF" × Gap × Spelling "NOT" × Gap × Spelling "EXISTS" × Gap)
  name         : Identifier.Dotted
  blanks       : Blanks

namespace Header

def orReplace (h : Header) : List Char :=
  match h.orReplace? with
  | none                    => []
  | some (o, g, replace, g') => o.chars ++ g.chars ++ replace.chars ++ g'.chars

def scope (h : Header) : List Char :=
  match h.scope? with
  | none                  => []
  | some (.inl global, g) => global.chars ++ g.chars
  | some (.inr loc, g)    => loc.chars ++ g.chars

def temporary (h : Header) : List Char :=
  match h.temporary? with
  | none                      => []
  | some (temp, none, g)      => temp.chars ++ [] ++ g.chars
  | some (temp, some orary, g) => temp.chars ++ orary.chars ++ g.chars

def ifNotExists (h : Header) : List Char :=
  match h.ifNotExists? with
  | none                        => []
  | some (i, g, n, g', e, g'')  => i.chars ++ g.chars ++ n.chars ++ g'.chars ++ e.chars ++ g''.chars

def words (h : Header) : List Char :=
  [] ++ h.create.chars ++ h.createGap.chars ++ h.orReplace ++ h.scope ++ h.temporary ++
    h.table.chars
    ++ h.tableGap.chars ++ h.ifNotExists

def lead (h : Header) : List Char :=
  [] ++ h.create.chars ++ h.createGap.chars ++ h.orReplace ++ h.scope ++ h.temporary ++
    h.table.chars
    ++ h.tableGap.chars ++ h.ifNotExists ++ h.name.text ++ h.blanks.chars

def text (h : Header) : List Char :=
  h.lead ++ ['(']

-- After each optional part of a header the keyword `TABLE` or an optional part before it follows.

theorem orReplace_takes (h : Header) (hr : BeginsWith ["GLOBAL", "LOCAL", "TEMP", "TABLE"] rest) :
    (opt (keyword "OR" ++ gap ++ keyword "REPLACE" ++ gap) : Pattern γ).Takes before h.orReplace
      rest [] := by
  unfold orReplace
  split
  case h_1 => exact .opt_none (hr.keyword_fails (by decide) (by decide)).seq_left.seq_left.seq_left
  case h_2 o g replace g' _ =>
    have hreplace := replace.beginsWith (List.mem_singleton.mpr rfl) (g'.chars ++ rest)
    exact .opt <| .seq (.seq (.seq (o.takes (by decide)) (.gap g (hreplace.not_blank (by decide))))
      (replace.takes (by decide))) (.gap g' (hr.not_blank (by decide)))

theorem scope_takes (h : Header) (hr : BeginsWith ["TEMP", "TABLE"] rest) :
    (opt ((keyword "GLOBAL" <|> keyword "LOCAL") ++ gap) : Pattern γ).Takes before h.scope
      rest [] := by
  unfold scope
  split
  case h_1 =>
    exact .opt_none <| .seq_left <| .alt (hr.keyword_fails (by decide) (by decide))
      (hr.keyword_fails (by decide) (by decide))
  case h_2 global g _ =>
    exact .opt <| .seq (.left (global.takes (by decide))) (.gap g (hr.not_blank (by decide)))
  case h_3 loc g _ =>
    have hloc := loc.beginsWith (List.mem_singleton.mpr rfl) (g.chars ++ rest)
    exact .opt <| .seq (.right (hloc.keyword_fails (by decide) (by decide)) (loc.takes (by decide)))
      (.gap g (hr.not_blank (by decide)))

theorem temporary_takes (h : Header) (hr : BeginsWith ["TABLE"] rest) :
    (opt (keyword "TEMP" ++ opt (keyword "ORARY") ++ gap) : Pattern γ).Takes before h.temporary
      rest [] := by
  have hb := hr.not_blank (by decide)
  unfold temporary
  split
  case h_1 => exact .opt_none (hr.keyword_fails (by decide) (by decide)).seq_left.seq_left
  case h_2 temp g _ =>
    have hf (before) : (keyword "ORARY" : Pattern γ).Fails before (g.chars ++ rest) := by
      apply fails_of_refuses
      obtain ⟨c, cs, hc⟩ := List.exists_cons_of_ne_nil g.ne
      rw [hc]
      exact refuses_keyword_of_isBlank (by decide) (by decide) (g.blank c (by simp [hc]))
    exact .opt <| .seq (.seq (temp.takes (by decide)) (.opt_none (hf _))) (.gap g hb)
  case h_3 temp orary g _ =>
    exact .opt <| .seq (.seq (temp.takes (by decide)) (.opt (orary.takes (by decide)))) (.gap g hb)

theorem head_dropWhile_links (links : List Identifier.Link)
    (hr : (rest.dropWhile Text.isBlank).head? = some '(') :
    ∃ c ∈ ['.', '('], ((links.flatMap (·.text) ++ rest).dropWhile Text.isBlank).head? = some c := by
  cases links
  case nil             => exact ⟨'(', by simp, hr⟩
  case cons link links =>
    refine ⟨'.', by simp, ?_⟩
    rw [List.flatMap_cons, Identifier.Link.text]
    simp only [List.append_assoc]
    rw [List.dropWhile_append_of_pos link.blanksBeforeDot.blank]
    rfl

theorem style?_eq_none {name : Identifier.Spelled} {c : Char} {cs : List Char}
    (ht : name.text ++ rest = c :: cs) (hc : Text.isLetter c) : name.first.style? = none := by
  cases hs : name.first.style?
  case none       => rfl
  case some style =>
    have hc' : style.first = c := by
      simpa [Identifier.Spelled.text, Identifier.Token.text, hs, Identifier.Style.quote] using
        congrArg List.head? ht
    rw [←hc'] at hc
    cases style <;> exact absurd hc (by decide)

theorem dropWhile_isBare {name : Identifier.Spelled} (hs : name.first.style? = none)
    (hb : ∀ c ∈ rest.head?, ¬ Identifier.isBare c) :
    (name.text ++ rest).dropWhile Identifier.isBare = name.links.flatMap (·.text) ++ rest := by
  have hbare : ∀ c ∈ name.first.text, Identifier.isBare c := by
    have hf := name.first.fit
    rw [hs] at hf
    rw [Identifier.Token.text, hs]
    exact hf
  rw [Identifier.Spelled.text, List.append_assoc, List.dropWhile_append_of_pos hbare]
  exact Text.dropWhile_eq_self (Identifier.not_bare_links _ hb)

-- Even a name that is spelled like `IF` is followed by a dot or a parenthesis, not by `NOT`.
theorem ifNotExists_fails (name : Identifier.Spelled)
    (hr : (rest.dropWhile Text.isBlank).head? = some '(')
    (hb : ∀ c ∈ rest.head?, ¬ Identifier.isBare c) :
    (keyword "IF" ++ gap ++ keyword "NOT" : Pattern γ).Fails before (name.text ++ rest) := by
  intro w r ht ⟨_, n, hw, ⟨i, g, hv, hi, hg⟩, hn⟩
  subst hw hv
  have hi := (keyword_matches_iff (by decide)).mp hi
  have hn := (keyword_matches_iff (by decide)).mp hn
  have ⟨hg, hblank⟩ := Identifier.many_matches_iff.mp hg
  have ht : name.text ++ rest = i ++ (g ++ (n ++ r)) := by simpa using ht
  have ⟨c, cs, hc, hletter⟩ := BeginsWith.head_isLetter
    ⟨"IF", List.mem_singleton.mpr rfl, i, g ++ (n ++ r), hi, rfl⟩ (by decide)
  have ⟨d, ds, hd, hletter'⟩ := BeginsWith.head_isLetter
    ⟨"NOT", List.mem_singleton.mpr rfl, n, r, hn, rfl⟩ (by decide)
  have hi' : (i ++ (g ++ (n ++ r))).dropWhile Identifier.isBare = g ++ (n ++ r) := by
    rw [List.dropWhile_append_of_pos fun c hc =>
      Identifier.isBare_of_isLetter (hi.isLetter (by decide) c hc)]
    apply Text.dropWhile_eq_self
    rw [List.head?_append_of_ne_nil _ hg]
    exact fun c hc => Identifier.not_isBare_of_isBlank (hblank c (List.mem_of_mem_head? hc))
  have heq : name.links.flatMap (·.text) ++ rest = g ++ (n ++ r) := by
    rw [←dropWhile_isBare (style?_eq_none (ht.trans hc) hletter) hb, ht, hi']
  have ⟨e, he, hh⟩ := head_dropWhile_links name.links hr
  rw [heq, List.dropWhile_append_of_pos hblank, hd,
    List.dropWhile_cons_of_neg (by simp [Text.not_isBlank_of_isLetter hletter'])] at hh
  have hde : d = e := by simpa using hh
  have hn : ∀ e ∈ ['.', '('], Text.isLetter e = false := by decide
  simp [hde, hn e he] at hletter'

theorem not_blank_name (name : Identifier.Spelled) :
    ∀ c ∈ (name.text ++ rest).head?, ¬ Text.isBlank c := by
  rw [Identifier.Spelled.text, List.append_assoc, List.head?_append_of_ne_nil _ name.first.text_ne]
  exact fun c hc => by simp [(name.first.head_text c hc).left]

theorem ifNotExists_takes (h : Header) (name : Identifier.Spelled)
    (hr : (rest.dropWhile Text.isBlank).head? = some '(')
    (hb : ∀ c ∈ rest.head?, ¬ Identifier.isBare c) :
    (opt (keyword "IF" ++ gap ++ keyword "NOT" ++ gap ++ keyword "EXISTS" ++ gap) : Pattern γ).Takes
      before h.ifNotExists (name.text ++ rest) [] := by
  unfold ifNotExists
  split
  case h_1 => exact .opt_none (ifNotExists_fails name hr hb).seq_left.seq_left.seq_left
  case h_2 i g n g' e g'' _ =>
    have hn := n.beginsWith (List.mem_singleton.mpr rfl)
      (g'.chars ++ (e.chars ++ (g''.chars ++ (name.text ++ rest))))
    have he := e.beginsWith (List.mem_singleton.mpr rfl) (g''.chars ++ (name.text ++ rest))
    exact .opt <| .seq (.seq (.seq (.seq (.seq (i.takes (by decide))
      (.gap g (hn.not_blank (by decide)))) (n.takes (by decide)))
      (.gap g' (he.not_blank (by decide)))) (e.takes (by decide))) (.gap g'' (not_blank_name name))

theorem temporary_beginsWith (h : Header) (hr : BeginsWith ["TABLE"] rest) :
    BeginsWith ["TEMP", "TABLE"] (h.temporary ++ rest) := by
  unfold temporary
  split
  case h_1 => exact hr.mono (by simp)
  case h_2 temp g _ =>
    rw [List.append_assoc, List.append_assoc]
    exact temp.beginsWith (by simp) _
  case h_3 temp orary g _ =>
    rw [List.append_assoc, List.append_assoc]
    exact temp.beginsWith (by simp) _

theorem scope_beginsWith (h : Header) (hr : BeginsWith ["TEMP", "TABLE"] rest) :
    BeginsWith ["GLOBAL", "LOCAL", "TEMP", "TABLE"] (h.scope ++ rest) := by
  unfold scope
  split
  case h_1 => exact hr.mono (by simp)
  case h_2 global g _ =>
    rw [List.append_assoc]
    exact global.beginsWith (by simp) _
  case h_3 loc g _ =>
    rw [List.append_assoc]
    exact loc.beginsWith (by simp) _

theorem orReplace_beginsWith (h : Header)
    (hr : BeginsWith ["GLOBAL", "LOCAL", "TEMP", "TABLE"] rest) :
    BeginsWith ["OR", "GLOBAL", "LOCAL", "TEMP", "TABLE"] (h.orReplace ++ rest) := by
  unfold orReplace
  split
  case h_1 => exact hr.mono (by simp)
  case h_2 o g replace g' _ =>
    simp only [List.append_assoc]
    exact o.beginsWith (by simp) _

theorem not_blank_ifNotExists (h : Header) (name : Identifier.Spelled) :
    ∀ c ∈ (h.ifNotExists ++ (name.text ++ rest)).head?, ¬ Text.isBlank c := by
  unfold ifNotExists
  split
  case h_1 => exact not_blank_name name
  case h_2 i g n g' e g'' _ =>
    simp only [List.append_assoc]
    exact (i.beginsWith (List.mem_singleton.mpr rfl) _).not_blank (by decide)

theorem takes_named (h : Header) (name : Identifier.Spelled) (hb : before.any Text.isWord = false)
    (rest : List Char) :
    header.Takes before (h.words ++ name.text ++ h.blanks.chars ++ ['(']) rest
      [((), name.text)] := by
  have hparen : ∀ c ∈ (['('] ++ rest).head?, ¬ Text.isBlank c := by
    intro c hc
    simp at hc
    exact hc ▸ by decide
  have hdrop : ((h.blanks.chars ++ (['('] ++ rest)).dropWhile Text.isBlank).head? = some '(' := by
    rw [List.dropWhile_append_of_pos h.blanks.blank, Text.dropWhile_eq_self hparen]
    rfl
  have hbare : ∀ c ∈ (h.blanks.chars ++ (['('] ++ rest)).head?, ¬ Identifier.isBare c := by
    intro c hc
    cases hh : h.blanks.chars <;> simp [hh] at hc
    case nil  => exact hc ▸ by decide
    case cons => exact Identifier.not_isBare_of_isBlank (h.blanks.blank c (by simp [hh, hc]))
  have hends : Identifier.Ends (h.blanks.chars ++ (['('] ++ rest)) :=
    ⟨hbare, by rw [hdrop]; decide⟩
  have htable := h.table.beginsWith (List.mem_singleton.mpr rfl) (h.tableGap.chars ++
    (h.ifNotExists ++ (name.text ++ (h.blanks.chars ++ (['('] ++ rest)))))
  have htemporary := h.temporary_beginsWith htable
  have hscope := h.scope_beginsWith htemporary
  have hreplace := h.orReplace_beginsWith hscope
  have hword : Cursor.atWordEdge ⟨before, h.create.chars ++ (h.createGap.chars ++ (h.orReplace ++
      (h.scope ++ (h.temporary ++ (h.table.chars ++ (h.tableGap.chars ++ (h.ifNotExists ++
      (name.text ++ (h.blanks.chars ++ (['('] ++ rest)))))))))), 0⟩ := by
    have ⟨c, cs, hc, hl⟩ := (h.create.beginsWith (List.mem_singleton.mpr rfl) (h.createGap.chars ++
      (h.orReplace ++ (h.scope ++ (h.temporary ++ (h.table.chars ++ (h.tableGap.chars ++
      (h.ifNotExists ++ (name.text ++ (h.blanks.chars ++ (['('] ++ rest))))))))))).head_isLetter
      (by decide)
    simp only [Cursor.atWordEdge, hc, hb, List.head?_cons, Option.any_some,
      Text.isWord_of_isLetter hl]
    rfl
  exact .seq (.seq (.seq (.seq (.seq (.seq (.seq (.seq (.seq (.seq (.seq (.wordEdge hword)
    (h.create.takes (by decide))) (.gap h.createGap (hreplace.not_blank (by decide))))
    (h.orReplace_takes hscope)) (h.scope_takes htemporary)) (h.temporary_takes htable))
    (h.table.takes (by decide))) (.gap h.tableGap (h.not_blank_ifNotExists name)))
    (h.ifNotExists_takes name hdrop hbare)) (.group (name.takes_text hends) ()))
    (.run h.blanks.blank hparen)) (.only '(')

end Header
end Statement
end SchemaGraph
