import SchemaGraph.Proofs.Identifier.Written

namespace SchemaGraph.Identifier

open Pattern

variable {before : Option Char} {c : Char} {w rest : List Char}

-- Reading parts out of a text.

theorem part?_eq_some (h : (part : Pattern Empty).Takes before w rest []) (pos : Nat) :
    part? ⟨before, w ++ rest, pos⟩ = some (w, w.length) := by
  have ⟨t, ht, _, hc⟩ := h.match? pos
  have hr : Cursor.Reaches ⟨before, w ++ rest, pos⟩ t.toCursor w := by
    rw [hc]
    exact ⟨rfl, rfl, rfl⟩
  rw [part?, ht, Option.map_some, hr.textTo_eq, hr.pos_eq, Nat.add_sub_cancel_left]

theorem part?_eq_none (hb : ¬ isBare c)
    (hq : c ∉ ['\x60', '"', '\'', '[']) (pos : Nat) : part? ⟨before, c :: rest, pos⟩ = none := by
  have hf : (part : Pattern Empty).Fails before (c :: rest) := by
    simp at hq
    have other {first last : Char} (hf : c ≠ first) :
        (quotedPart first last : Pattern Empty).Fails before (c :: rest) :=
      fails_of_refuses (Style.quotedPart_refuses hf)
    exact .alt (other hq.1) <| .alt (other hq.2.1) <| .alt (other hq.2.2.1) <|
      .alt (other hq.2.2.2) <| .seq_left (.char (by simpa using hb))
  rw [part?, hf.match?_eq_none, Option.map_none]

theorem part?_eq_none_of_isBlank (h : Text.isBlank c) (pos : Nat) :
    part? ⟨before, c :: rest, pos⟩ = none := by
  refine part?_eq_none (not_isBare_of_isBlank h) (fun hq => ?_) pos
  have hn : ∀ c ∈ ['\x60', '"', '\'', '['], Text.isBlank c = false := by decide
  simp [hn c hq] at h

theorem readAll_go_part (token : Token) (hr : ∀ c ∈ rest.head?, ¬ isBare c) (pos : Nat) :
    Cursor.readAll.go part? 0 before pos (token.text ++ rest) =
      token.text :: Cursor.readAll.go part? 0 (behind before token.text)
        (pos + token.text.length) rest :=
  Cursor.readAll_go_some (part?_eq_some (token.takes_part hr) pos) token.text_ne

theorem readAll_go_dot (link : Link) (pos : Nat) :
    Cursor.readAll.go part? 0 before pos
        (link.blanksBeforeDot.chars ++ ['.'] ++ link.blanksAfterDot.chars ++ rest) =
      Cursor.readAll.go part? 0
        (behind before (link.blanksBeforeDot.chars ++ ['.'] ++ link.blanksAfterDot.chars))
        (pos + (link.blanksBeforeDot.chars ++ ['.'] ++ link.blanksAfterDot.chars).length) rest := by
  refine Cursor.readAll_go_none fun u v hw hv => ?_
  obtain ⟨c, cs, hc⟩ := List.exists_cons_of_ne_nil hv
  have hm : c ∈ link.blanksBeforeDot.chars ++ ['.'] ++ link.blanksAfterDot.chars := by
    simp [hw, hc]
  rw [hc, List.cons_append]
  simp at hm
  rcases hm with hm | hm | hm
  · exact part?_eq_none_of_isBlank (link.blanksBeforeDot.blank c hm) _
  · exact part?_eq_none (hm ▸ by decide) (hm ▸ by decide) _
  · exact part?_eq_none_of_isBlank (link.blanksAfterDot.blank c hm) _

theorem readAll_go_links (links : List Link) (before : Option Char) (pos : Nat) :
    Cursor.readAll.go part? 0 before pos (links.flatMap (·.text)) = links.map (·.token.text) := by
  induction links generalizing before pos
  case nil                => rfl
  case cons link links hi =>
    have hr := @not_bare_links [] links (by simp)
    rw [List.append_nil] at hr
    rw [List.flatMap_cons, Link.text, List.append_assoc, readAll_go_dot, readAll_go_part _ hr, hi,
      List.map_cons]

theorem Spelled.parts_text (name : Spelled) :
    Identifier.parts name.text = name.tokens.map (·.text) := by
  have hr := @not_bare_links [] name.links (by simp)
  rw [List.append_nil] at hr
  rw [Identifier.parts, Cursor.readAll, text, readAll_go_part _ hr, readAll_go_links, tokens,
    List.map_cons, List.map_map]
  rfl

-- Unquoting takes off what does not belong to a name, also from among blanks.

theorem Style.closing?_first (style : Style) : closing? style.first = some style.last := by
  cases style <;> decide

theorem closing?_of_isBare (h : isBare c) : closing? c = none := by
  simp [isBare] at h
  simp [closing?, quoteChars, h]

def inner (token : List Char) : List Char :=
  match token with
  | []      => token
  | c :: cs => if 1 ≤ cs.length ∧ closing? c = cs.getLast? then cs.dropLast else token

theorem unquote_eq (token : List Char) :
    unquote token = Text.strip (Text.trim (quoteChars.contains ·) (inner (Text.strip token))) :=
  rfl

theorem inner_cons_of_isBare (h : isBare c) (cs : List Char) : inner (c :: cs) = c :: cs := by
  rw [inner, if_neg]
  rintro ⟨hl, he⟩
  rw [closing?_of_isBare h, eq_comm, List.getLast?_eq_none_iff] at he
  simp [he] at hl

theorem exists_unquote_cons (h : isBare c) (cs : List Char) :
    ∃ ds, unquote (c :: cs) = c :: ds := by
  have hb : ¬ Text.isBlank c := by simp [not_isBlank_of_isBare h]
  have hq : ¬ quoteChars.contains c := by
    simp [isBare] at h
    simp [quoteChars, h]
  rw [unquote_eq, Text.strip, Text.strip, Text.trim_cons_of_neg hb, inner_cons_of_isBare h,
    Text.trim_cons_of_neg hq, Text.trim_cons_of_neg hb]
  exact ⟨_, rfl⟩

theorem inner_isInfix (token : List Char) : inner token <:+: token := by
  cases token
  case nil       => exact List.nil_infix
  case cons c cs =>
    rw [inner]
    split
    case isTrue  => exact ((List.dropLast_prefix cs).isInfix.trans (List.suffix_cons c cs).isInfix)
    case isFalse => exact List.infix_refl _

theorem unquote_isInfix (token : List Char) : unquote token <:+: token := by
  rw [unquote_eq]
  exact (Text.trim_isInfix _ _).trans <| (Text.trim_isInfix _ _).trans <|
    (inner_isInfix _).trans (Text.trim_isInfix _ _)

namespace Token

def name (token : Token) : List Char :=
  Text.strip (Text.trim (quoteChars.contains ·) token.chars)

theorem inner_text (token : Token) : inner token.text = token.chars := by
  obtain ⟨chars, hn, style?, hf⟩ := token
  cases style?
  case none       =>
    obtain ⟨c, cs, rfl⟩ := List.exists_cons_of_ne_nil hn
    exact inner_cons_of_isBare (hf c List.mem_cons_self) cs
  case some style => simp [text, Style.quote, inner, style.closing?_first]

theorem unquote_text (token : Token) {u v : List Char} (hu : ∀ c ∈ u, Text.isBlank c)
    (hv : ∀ c ∈ v, Text.isBlank c) : unquote (u ++ (token.text ++ v)) = token.name := by
  have hs : Text.strip (u ++ (token.text ++ v)) = token.text :=
    Text.trim_append hu hv (fun c hc => by simp [(token.head_text c hc).left])
      fun c hc => by simp [token.last_text c hc]
  rw [unquote_eq, hs, inner_text, name]

theorem unquote_text_self (token : Token) : unquote token.text = token.name := by
  have h := @unquote_text token [] [] (by simp) (by simp)
  rwa [List.nil_append, List.append_nil] at h

end Token

def Spelled.name (name : Spelled) : List Char :=
  ['.'].intercalate (name.tokens.map (·.name))

theorem Spelled.unquoteQualified_text (spelled : Spelled) :
    unquoteQualified spelled.text = spelled.name := by
  rw [unquoteQualified, parts_text, List.map_map, name]
  exact congrArg _ (List.map_congr_left fun token _ => token.unquote_text_self)

-- A plain name has nothing to take off.

theorem name_token (part : Part) : part.token.name = part.name.chars := by
  have hb {c} (hc : c ∈ part.name.chars) : ¬ Text.isBlank c := by
    simp [not_isBlank_of_isPlain (part.name.plain c hc)]
  have hq {c} (hc : c ∈ part.name.chars) : ¬ quoteChars.contains c := by
    have := part.name.plain c hc
    simp [isPlain] at this
    simp [quoteChars, this]
  have htrim : Text.trim (quoteChars.contains ·) part.name.chars = part.name.chars :=
    Text.trim_eq_self (fun c hc => hq (List.mem_of_mem_head? hc))
      fun c hc => hq (List.mem_of_mem_getLast? hc)
  have hstrip : Text.strip part.name.chars = part.name.chars :=
    Text.trim_eq_self (fun c hc => hb (List.mem_of_mem_head? hc))
      fun c hc => hb (List.mem_of_mem_getLast? hc)
  exact (congrArg Text.strip htrim).trans hstrip

namespace Part

theorem unquote_text (p : Part) {u v : List Char} (hu : ∀ c ∈ u, Text.isBlank c)
    (hv : ∀ c ∈ v, Text.isBlank c) : unquote (u ++ (p.text ++ v)) = p.name.chars :=
  (p.token.unquote_text hu hv).trans (name_token p)

theorem unquote_text_self (p : Part) : unquote p.text = p.name.chars :=
  p.token.unquote_text_self.trans (name_token p)

end Part

-- The name of a dotted name as it is written is the one that is meant.

theorem Dotted.name_spelled (dotted : Dotted) : dotted.spelled.name = dotted.name := by
  rw [Spelled.name, tokens_spelled, List.map_map, name]
  exact congrArg _ (List.map_congr_left fun part _ => name_token part)

end SchemaGraph.Identifier
