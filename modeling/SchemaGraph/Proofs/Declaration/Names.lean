import SchemaGraph.Proofs.Declaration.Basic
import SchemaGraph.Proofs.Identifier.Unquote

namespace SchemaGraph.Declaration

open Pattern

variable {γ : Type} {before : Option Char} {c : Char} {rest : List Char}

namespace Quoted

def part (q : Quoted) : Identifier.Part where
  name := q.name
  style? := some q.style

theorem part_text (q : Quoted) : q.part.text = q.text :=
  rfl

theorem takes_part (q : Quoted) : (Identifier.part : Pattern γ).Takes before q.text rest [] :=
  q.style.takes_part q.name.ne fun c hc => q.style.ne_last_of_isPlain (q.name.plain c hc)

theorem unquote_text (q : Quoted) : Identifier.unquote q.text = q.name.chars :=
  q.part.unquote_text_self

theorem mem_text {q : Quoted} (hc : c ∈ q.text) :
    c ∈ ['\x60', '"', '\'', '[', ']'] ∨ Identifier.isPlain c := by
  simp only [text, Identifier.Style.quote, List.mem_append, List.mem_cons] at hc
  rcases hc with (hc | hc) | hc | hc
  · subst hc
    exact .inl (by cases q.style <;> decide)
  · exact .inr (q.name.plain c hc)
  · subst hc
    exact .inl (by cases q.style <;> decide)
  · simp at hc

theorem not_mem_text (q : Quoted) (hq : c ∉ ['\x60', '"', '\'', '[', ']'])
    (hp : Identifier.isPlain c = false) : c ∉ q.text := by
  intro hc
  cases mem_text hc
  case inl h => exact hq h
  case inr h => simp [hp] at h

theorem not_isBlank_of_mem_text {q : Quoted} (hc : c ∈ q.text) : Text.isBlank c = false := by
  cases mem_text hc
  case inl h => exact (by decide : ∀ c ∈ ['\x60', '"', '\'', '[', ']'], Text.isBlank c = false) c h
  case inr h => exact Identifier.not_isBlank_of_isPlain h

theorem last_text (q : Quoted) : ∀ c ∈ q.text.getLast?, c ∈ ['\x60', '"', '\'', ']'] := by
  intro c hc
  rw [text, Identifier.Style.quote, List.getLast?_append_of_ne_nil _ (by simp)] at hc
  simp at hc
  subst hc
  cases q.style <;> decide

end Quoted

namespace Name

theorem text_cons (q q' : Quoted) (qs : List Quoted) :
    text ⟨q, q' :: qs⟩ = q.text ++ '.' :: text ⟨q', qs⟩ := by
  simp [text]

theorem text_ne (name : Name) : name.text ≠ [] := by
  simp [text, Quoted.text, Identifier.Style.quote]

theorem not_isBlank_of_mem_text {name : Name} (hc : c ∈ name.text) : Text.isBlank c = false := by
  simp only [text, List.mem_append, List.mem_flatMap, List.mem_cons] at hc
  rcases hc with hc | ⟨q, _, hc | hc⟩
  · exact Quoted.not_isBlank_of_mem_text hc
  · exact hc ▸ by decide
  · exact Quoted.not_isBlank_of_mem_text hc

theorem last_text (name : Name) : ∀ c ∈ name.text.getLast?, c ∈ ['\x60', '"', '\'', ']'] := by
  obtain ⟨first, others⟩ := name
  induction others generalizing first
  case nil          => simpa [text] using first.last_text
  case cons q qs hi =>
    rw [text_cons, List.getLast?_append_of_ne_nil _ (by simp),
      List.getLast?_cons_of_ne_nil (text_ne _)]
    exact hi q

def dotted (name : Name) : Identifier.Dotted where
  first := name.first.part
  joints := name.others.map fun q => ⟨.empty, .empty, q.part⟩

def spelled (name : Name) : Identifier.Spelled :=
  name.dotted.spelled

theorem dotted_text (name : Name) : name.dotted.text = name.text := by
  simp [Identifier.Dotted.text, dotted, text, Identifier.Joint.text, Quoted.part_text,
    List.flatMap_map, Blanks.empty]

theorem spelled_text (name : Name) : name.spelled.text = name.text :=
  name.dotted.text_spelled.trans name.dotted_text

theorem ofList_dotted_name (name : Name) : String.ofList name.dotted.name = name.string := by
  simp [Identifier.Dotted.name, Identifier.Dotted.parts, dotted, string, Quoted.part,
    Function.comp_def]

theorem string_spelled (name : Name) : String.ofList name.spelled.name = name.string := by
  rw [spelled, name.dotted.name_spelled, ofList_dotted_name]

end Name

theorem mem_innerText {qs : List Quoted} (hc : c ∈ innerText qs) :
    c ∈ [',', ' '] ∨ ∃ q ∈ qs, c ∈ q.text := by
  induction qs
  case nil          => simp [innerText] at hc
  case cons q qs hi =>
    cases qs
    case nil          => exact .inr ⟨q, List.mem_cons_self, by simpa [innerText] using hc⟩
    case cons q' qs =>
      rw [innerText, List.map_cons, List.map_cons, List.intercalate_cons_cons, List.append_assoc,
        List.mem_append, List.mem_append] at hc
      rcases hc with hc | hc | hc
      · exact .inr ⟨q, List.mem_cons_self, hc⟩
      · exact .inl hc
      · exact (hi hc).imp_right fun ⟨q, hq, hc⟩ => ⟨q, List.mem_cons_of_mem _ hq, hc⟩

theorem not_mem_innerText (qs : List Quoted)
    (hq : c ∉ [',', ' ', '\x60', '"', '\'', '[', ']']) (hp : Identifier.isPlain c = false) :
    c ∉ innerText qs := by
  intro hc
  simp at hq
  cases mem_innerText hc
  case inl h => simp [hq] at h
  case inr h =>
    have ⟨q, _, hc⟩ := h
    exact q.not_mem_text (by simp [hq]) hp hc

theorem takes_columnList_of (label : Clause.Part) {inner : List Char} (h : ')' ∉ inner) :
    (Clause.columnList label).Takes before ('(' :: inner ++ [')']) rest [(label, inner)] := by
  have hinner : ∀ c ∈ inner, (c != ')') = true := fun c hc => bne_iff_ne.mpr fun he => h (he ▸ hc)
  exact .seq (.seq (.only '(') (.group (.run hinner (by simp)) label)) (.only ')')

theorem takes_columnList (label : Clause.Part) (qs : List Quoted) :
    (Clause.columnList label).Takes before (listText qs) rest [(label, innerText qs)] :=
  takes_columnList_of label (not_mem_innerText qs (by decide) (by decide))

theorem splitList_innerText (qs : List Quoted) :
    (Identifier.splitList (innerText qs)).map String.ofList = qs.map (·.string) := by
  cases qs
  case nil       => rfl
  case cons q qs =>
    have hcut : Text.cut (· == ',') (innerText (q :: qs)) =
        q.text :: (qs.map (·.text)).map (' ' :: ·) := by
      rw [innerText, List.map_cons, Text.intercalate_pair]
      apply Text.cut_intercalate (by simp) (by decide)
      have hno (q : Quoted) : ∀ c ∈ q.text, c ≠ ',' := fun c hc he =>
        q.not_mem_text (by decide) (by decide) (he ▸ hc)
      simpa [or_imp, forall_and] using ⟨hno q, fun q _ => hno q⟩
    have hother (q : Quoted) : Identifier.unquote (' ' :: q.text) = q.name.chars := by
      have h := @Identifier.Part.unquote_text q.part [' '] [] (by decide) (by simp)
      rwa [List.append_nil] at h
    have hnames : (Text.cut (· == ',') (innerText (q :: qs))).map Identifier.unquote =
        (q :: qs).map (·.name.chars) := by
      simp [hcut, q.unquote_text, hother, Function.comp_def]
    have hne : ((q :: qs).map (·.name.chars)).filter (!·.isEmpty) = (q :: qs).map (·.name.chars) :=
      List.filter_eq_self.mpr fun w hw => by
        have ⟨q, _, hq⟩ := List.mem_map.mp hw
        simp [←hq, q.name.ne]
    rw [Identifier.splitList, hnames, hne, List.map_map]
    rfl

end SchemaGraph.Declaration
