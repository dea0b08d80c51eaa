import SchemaGraph.Proofs.Clause.Reading
import SchemaGraph.Proofs.Pattern.Spared
import SchemaGraph.Proofs.Scan.Literal
import SchemaGraph.Proofs.Text.Squeeze

namespace SchemaGraph.Clause

open Declaration Pattern Scan Text

variable {front back raw text x y u v w w' : List Char} {found found' : Found} {cur : Cursor}
variable {name declaredType : String} {isPrimaryKey : Bool} {reference? : Option ForeignKey}

-- A literal is collapsed in its place.

theorem squeeze_inQuotes (x : List Char) : squeeze (inQuotes x) = inQuotes (squeeze x) := by
  rw [inQuotes, squeeze_cons_of_not_isBlank (by decide), squeeze_append_cons (by decide)]
  rfl

theorem collapse_inQuotes (front x back : List Char) : collapse (front ++ (inQuotes x ++ back)) =
    squeeze (front.dropWhile isBlank) ++ (inQuotes (squeeze x) ++ squeeze (stripEnd back)) := by
  have hb : ¬ isBlank '\'' := by decide
  have hhead : ∀ c ∈ (inQuotes x).head?, ¬ isBlank c := fun c hc => Option.some.inj hc ▸ hb
  have hlast : ∀ c ∈ (inQuotes x).getLast?, ¬ isBlank c := fun c hc =>
    Option.some.inj ((getLast?_inQuotes x).symm.trans hc) ▸ hb
  rw [collapse_eq_squeeze_strip, strip_append (inQuotes_ne x) hhead hlast,
    squeeze_append (by rwa [List.head?_append_of_ne_nil _ (inQuotes_ne x)]),
    squeeze_append_of_getLast? hlast, squeeze_inQuotes]

-- All literals look the same from both sides.

theorem alike_inQuotes (x y back : List Char) :
    Alike (inQuotes x ++ back) (inQuotes y ++ back) where
  head?_eq := rfl
  newline_iff := by simp [inQuotes]

theorem behind_inQuotes (before : Option Char) (x : List Char) :
    behind before (inQuotes x) = some '\'' := by
  rw [inQuotes, behind_cons, behind_append]
  rfl

def nameAndType : Pattern Part :=
  group .name Identifier.part ++ gap
    ++ group .declaredType (many fun c => !isBlank c && c != '(' && c != ',')
    ++ opt (blanks ++ only '(' ++ run (· != ')') ++ only ')')

theorem isNear_nameAndType : nameAndType.isNear := by
  decide

def tailToEnd : Pattern Part :=
  group .tail (run fun _ => true) ++ textEnd

theorem takes_tailToEnd (before : Option Char) (w : List Char) :
    tailToEnd.Takes before w [] [(.tail, w)] := by
  have hrun : (run fun _ => true : Pattern Part).Takes before w [] [] := .run (by simp) (by simp)
  have h := Takes.seq (hrun.group .tail) Takes.textEnd
  rwa [List.append_nil] at h

theorem exists_of_match?_column (h : columnPattern.match? cur = some found) :
    ∃ s, nameAndType.match? cur = some s ∧ found.texts = (.tail, s.rest) :: s.texts := by
  have hways (s : Found) : columnPattern.ways s = (nameAndType.ways s).flatMap tailToEnd.ways :=
    List.flatMap_assoc
  rw [match?_eq_head?, hways] at h
  rw [match?_eq_head?]
  cases hs : nameAndType.ways (.ofCursor cur)
  case nil       => simp [hs] at h
  case cons s ss =>
    obtain ⟨t, ht, _, hk⟩ := takes_tailToEnd s.before s.rest s rfl (List.append_nil _).symm
    rw [hs, List.flatMap_cons, List.head?_append, ht, Option.some_or] at h
    exact ⟨s, rfl, Option.some.inj h ▸ hk⟩

-- Searches that find the same texts tell the same keys.

theorem isSome_eq_of_texts_eq {o o' : Option Found} (h : o.map (·.texts) = o'.map (·.texts)) :
    o.isSome = o'.isSome := by
  rw [←Option.isSome_map, h, Option.isSome_map]

theorem referenceIn_eq_of_texts_eq
    (h : (inlineReferencePattern.find? u).map (·.texts) =
      (inlineReferencePattern.find? v).map (·.texts))
    (name : String) : referenceIn name u = referenceIn name v := by
  rw [referenceIn, referenceIn]
  cases hu : inlineReferencePattern.find? u <;> cases hv : inlineReferencePattern.find? v <;>
    simp [hu, hv] at h
  case none.none      => rfl
  case some.some s t =>
    have hgroup (label) : s.group label = t.group label := by
      rw [Progress.group_eq, Progress.group_eq, h]
    simp only [Option.map_some, Found.refTable, Found.names, hgroup]

def tail? (raw : List Char) : Option (List Char) :=
  (columnPattern.matchText? (collapse raw)).map (·.group .tail)

-- A column clause with a literal in its tail, where no search for keys finds any part of the
-- literal.
structure InTail (front back content : List Char) : Prop where
  isColumn : ∃ name declaredType isPrimaryKey reference?,
    classify (front ++ (inQuotes content ++ back)) =
      column name declaredType isPrimaryKey reference?
  spared : ∃ w, tail? (front ++ (inQuotes content ++ back)) =
      some (w ++ (inQuotes (squeeze content) ++ squeeze (stripEnd back))) ∧
    inlinePrimaryKeyPattern.Spares none 0 w (inQuotes (squeeze content)) (squeeze (stripEnd back)) ∧
    inlineReferencePattern.Spares none 0 w (inQuotes (squeeze content)) (squeeze (stripEnd back))

theorem group_tail_eq (hf : columnPattern.matchText? (collapse raw) = some found)
    (h : tail? raw = some w) :
    found.group .tail = w := by
  rw [tail?, hf] at h
  exact Option.some.inj h

namespace InTail

theorem nameAndType_eq {r r' : List Char} (hr : Alike r r')
    (hf : columnPattern.matchText? (u ++ r) = some found) (ht : found.group .tail = w ++ r)
    (hf' : columnPattern.matchText? (u ++ r') = some found') (ht' : found'.group .tail = w' ++ r') :
    w = w' ∧ found.group .name = found'.group .name ∧
      found.group .declaredType = found'.group .declaredType := by
  obtain ⟨s, hs, hk⟩ := exists_of_match?_column hf
  obtain ⟨s', hs', hk'⟩ := exists_of_match?_column hf'
  have hrest : s.rest = w ++ r := by rwa [Progress.group_eq, hk] at ht
  have hrest' : s'.rest = w' ++ r' := by rwa [Progress.group_eq, hk'] at ht'
  have hm : Option.Rel (Twin r r' 0 0) (nameAndType.match? (.ofText (u ++ r)))
      (nameAndType.match? (.ofText (u ++ r'))) := by
    refine TwinPlaces.match? hr isNear_nameAndType ⟨rfl, ⟨u, rfl, rfl⟩, rfl⟩ ?_ ?_
    · rw [hs]
      exact fun t ht => Option.some.inj ht ▸ by simp [isUpTo, hrest]
    · rw [hs']
      exact fun t ht => Option.some.inj ht ▸ by simp [isUpTo, hrest']
  rw [hs, hs'] at hm
  cases hm
  case some hst =>
    obtain ⟨v, hv, hv'⟩ := hst.rest_eq
    refine ⟨?_, ?_, ?_⟩
    · rw [List.append_cancel_right (hrest.symm.trans hv),
        List.append_cancel_right (hrest'.symm.trans hv')]
    · rw [Progress.group_eq, Progress.group_eq, hk, hk', hst.texts_eq]
      rfl
    · rw [Progress.group_eq, Progress.group_eq, hk, hk', hst.texts_eq]
      rfl

theorem find?_eq {a : Pattern Part} (ha : a.isNear) (h : a.Spares none 0 u (inQuotes x) v)
    (h' : a.Spares none 0 u (inQuotes y) v) :
    (a.find? (u ++ (inQuotes x ++ v))).map (·.texts) =
      (a.find? (u ++ (inQuotes y ++ v))).map (·.texts) :=
  find?_texts_eq ha (alike_inQuotes x y v) (inQuotes_ne x) (inQuotes_ne y)
    (fun before => (behind_inQuotes before x).trans (behind_inQuotes before y).symm) h h'

theorem classify_eq (hx : InTail front back x) (hy : InTail front back y) :
    classify (front ++ (inQuotes x ++ back)) = classify (front ++ (inQuotes y ++ back)) := by
  obtain ⟨⟨name, declaredType, isPrimaryKey, reference?, hc⟩, w, ht, hp, hr⟩ := hx
  obtain ⟨⟨name', declaredType', isPrimaryKey', reference?', hc'⟩, w', ht', hp', hr'⟩ := hy
  obtain ⟨found, hf, hn, hd, hk, href⟩ := exists_of_classify_eq_column hc
  obtain ⟨found', hf', hn', hd', hk', href'⟩ := exists_of_classify_eq_column hc'
  have ht := group_tail_eq hf ht
  have ht' := group_tail_eq hf' ht'
  rw [collapse_inQuotes] at hf hf'
  obtain ⟨rfl, hname, htype⟩ := nameAndType_eq (alike_inQuotes ..) hf ht hf' ht'
  have hname : name = name' := by rw [hn, hn', hname]
  have htype : declaredType = declaredType' := by rw [hd, hd', htype]
  have hkey : isPrimaryKey = isPrimaryKey' := by
    rw [hk, hk', ht, ht', isSome_eq_of_texts_eq (find?_eq (by decide) hp hp')]
  have hreference : reference? = reference?' := by
    rw [href, href', ht, ht', hname, referenceIn_eq_of_texts_eq (find?_eq (by decide) hr hr')]
  rw [hc, hc', hname, htype, hkey, hreference]

end InTail

end SchemaGraph.Clause
