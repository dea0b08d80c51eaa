import SchemaGraph.Json.Printer
import SchemaGraph.Json.Reader

-- Reading the texts of JSON as they are written.
namespace SchemaGraph

namespace Text

theorem hexValue?_hexDigit {n : Nat} (h : n < 16) : hexValue? (hexDigit n) = some n := by
  revert n
  decide

theorem isHigh_iff {n : Nat} : isHigh n ↔ 0xD800 ≤ n ∧ n < 0xDC00 := by
  simp [isHigh]

theorem isLow_iff {n : Nat} : isLow n ↔ 0xDC00 ≤ n ∧ n < 0xE000 := by
  simp [isLow]

theorem toNat_lt (c : Char) : c.toNat < 0x110000 :=
  c.valid.elim (Nat.lt_trans · (by decide)) And.right

namespace CodePoint

theorem ofNat_toNat (c : Char) : ofNat c.toNat = char c := by
  have h : c.toNat < 0xD800 ∨ 0xDFFF < c.toNat ∧ c.toNat < 0x110000 := c.valid
  have hn : ¬ (isHigh c.toNat || isLow c.toNat) := by
    rw [Bool.or_eq_true, isHigh_iff, isLow_iff]
    omega
  rw [ofNat, if_neg hn, Char.ofNat_toNat]

theorem ofNat_eq_half {n : Nat} (h : isHigh n ∨ isLow n) : ofNat n = half n := by
  rw [ofNat, if_pos (Bool.or_eq_true .. ▸ h)]

theorem map_standIn_map_char (cs : List Char) : (cs.map char).map standIn = cs := by
  have hs : standIn ∘ char = id := rfl
  rw [List.map_map, hs, List.map_id]

theorem joinHalves_char (c : Char) (ps : List CodePoint) :
    joinHalves (char c :: ps) = char c :: joinHalves ps := by
  rw [joinHalves, List.foldr_cons, ←joinHalves]
  cases joinHalves ps <;> rfl

theorem joinHalves_map_char (cs : List Char) : joinHalves (cs.map char) = cs.map char := by
  induction cs
  case nil          => rfl
  case cons c cs hi => rw [List.map_cons, joinHalves_char, hi]

-- A low half begins no pair, so nothing that follows the two halves changes what they make.
theorem joinHalves_pair {high low : Nat} (hh : isHigh high) (hl : isLow low) (ps : List CodePoint) :
    joinHalves (half high :: half low :: ps)
      = char (Char.ofNat (0x10000 + (high - 0xD800) * 0x400 + (low - 0xDC00))) ::
        joinHalves ps := by
  have hn : ¬ isHigh low := by
    rw [isLow_iff] at hl
    rw [isHigh_iff]
    omega
  have hlow : joinHalves (half low :: ps) = half low :: joinHalves ps := by
    rw [joinHalves, List.foldr_cons, ←joinHalves]
    cases joinHalves ps
    case nil       => rfl
    case cons q qs => cases q <;> simp [joined?, hn]
  rw [joinHalves, List.foldr_cons, ←joinHalves, hlow]
  simp [joined?, hh, hl]

end CodePoint
end Text

namespace Json

open Text (CodePoint)

variable {done : List CodePoint} {rest : List Char}

namespace Reader

theorem hex4?_hex {n : Nat} (h : n < 0x10000) :
    ∃ a b c d, Text.hex 4 n = [a, b, c, d] ∧ hex4? a b c d = some n := by
  refine ⟨_, _, _, _, rfl, ?_⟩
  simp only [hex4?, Text.hexValue?_hexDigit (Nat.mod_lt _ (by decide : 0 < 16)), bind, Option.bind,
    pure, Option.some.injEq]
  omega

theorem codePoints_unicodeEscape {n : Nat} (h : n < 0x10000) :
    codePoints done (unicodeEscape n ++ rest) = codePoints (.ofNat n :: done) rest := by
  have ⟨a, b, c, d, hh, hn⟩ := hex4?_hex h
  simp [unicodeEscape, hh, codePoints, hn]

-- What follows a `u` is read as digits, and a `u` is the short form of nothing.
theorem codePoints_short {c d : Char} (h : shortEscape? c = some d) :
    codePoints done ('\\' :: c :: rest) = codePoints (.char d :: done) rest := by
  have hu : c ≠ 'u' := fun hc => nomatch hc ▸ h
  rw [codePoints]
  · rw [h]
  · intro _ _ _ _ _ hc
    exact absurd hc hu

theorem toNat_lt_of_shortEscape? {c d : Char} (h : shortEscape? c = some d) :
    d.toNat < 0x10000 := by
  unfold shortEscape? at h
  split at h <;> cases h <;> decide

theorem codePoints_char {c : Char} (hq : c ≠ '"') (hb : c ≠ '\\') (h : ' ' ≤ c) :
    codePoints done (c :: rest) = codePoints (.char c :: done) rest := by
  rw [codePoints]
  · rw [if_neg (Char.not_lt.mpr h)]
  all_goals simp_all

end Reader

section
variable {n : Nat}

theorem isHigh_surrogates (h : 0x10000 ≤ n) (h' : n < 0x110000) : Text.isHigh (surrogates n).1 := by
  rw [Text.isHigh_iff]
  simp only [surrogates]
  omega

theorem isLow_surrogates (n : Nat) : Text.isLow (surrogates n).2 := by
  rw [Text.isLow_iff]
  simp only [surrogates]
  omega

theorem surrogates_joined (h : 0x10000 ≤ n) :
    0x10000 + ((surrogates n).1 - 0xD800) * 0x400 + ((surrogates n).2 - 0xDC00) = n := by
  simp only [surrogates]
  omega

end

namespace Style

variable (style : Style)

def readAs (c : Char) : List CodePoint :=
  if style.keeps c ∨ c.toNat < 0x10000 then [.char c]
  else [.half (surrogates c.toNat).1, .half (surrogates c.toNat).2]

theorem le_of_keeps {c : Char} (h : style.keeps c) : ' ' ≤ c := by
  simp only [keeps, Bool.and_eq_true, decide_eq_true_eq] at h
  exact h.left

inductive Escapes (c : Char) : List Char → Prop
  | short {d : Char} (h : Reader.shortEscape? d = some c) : Escapes c ['\\', d]
  | kept (hq : c ≠ '"') (hb : c ≠ '\\') (h : style.keeps c) : Escapes c [c]
  | unit (hk : ¬ style.keeps c) (h : c.toNat < 0x10000) : Escapes c (unicodeEscape c.toNat)
  | pair (hk : ¬ style.keeps c) (h : 0x10000 ≤ c.toNat) :
    Escapes c (unicodeEscape (surrogates c.toNat).1 ++ unicodeEscape (surrogates c.toNat).2)

theorem escapes (c : Char) : style.Escapes c (style.escapeChar c) := by
  rw [escapeChar]
  by_cases hq : c = '"'
  case pos =>
    rw [if_pos hq]
    exact .short (hq.symm ▸ rfl)
  by_cases hb : c = '\\'
  case pos =>
    rw [if_neg hq, if_pos hb]
    exact .short (hb.symm ▸ rfl)
  rw [if_neg hq, if_neg hb]
  split
  case isTrue h => exact .short (h ▸ rfl)
  split
  case isTrue h => exact .short (h ▸ rfl)
  split
  case isTrue h => exact .short (h ▸ rfl)
  split
  case isTrue h => exact .short (h ▸ rfl)
  split
  case isTrue h => exact .short (h ▸ rfl)
  split
  case isTrue h => exact .kept hq hb h
  case isFalse hk =>
    split
    case isTrue h  => exact .unit hk h
    case isFalse h => exact .pair hk (Nat.le_of_not_lt h)

variable {style} {c : Char} {cs : List Char}

theorem Escapes.codePoints (h : style.Escapes c cs) :
    Reader.codePoints done (cs ++ rest)
      = Reader.codePoints ((style.readAs c).reverse ++ done) rest := by
  cases h
  case short d h =>
    have hc : c.toNat < 0x10000 := Reader.toNat_lt_of_shortEscape? h
    rw [readAs, if_pos (.inr hc)]
    exact Reader.codePoints_short h
  case kept hq hb h =>
    rw [readAs, if_pos (.inl h)]
    exact Reader.codePoints_char hq hb (le_of_keeps style h)
  case unit hk h =>
    rw [readAs, if_pos (.inr h), Reader.codePoints_unicodeEscape h, CodePoint.ofNat_toNat]
    rfl
  case pair hk h =>
    have hn : ¬ (style.keeps c ∨ c.toNat < 0x10000) := not_or.mpr ⟨hk, Nat.not_lt.mpr h⟩
    have hh := isHigh_surrogates h (Text.toNat_lt c)
    have hl := isLow_surrogates c.toNat
    rw [readAs, if_neg hn, List.append_assoc,
      Reader.codePoints_unicodeEscape (by rw [Text.isHigh_iff] at hh; omega),
      CodePoint.ofNat_eq_half (.inl hh),
      Reader.codePoints_unicodeEscape (by rw [Text.isLow_iff] at hl; omega),
      CodePoint.ofNat_eq_half (.inr hl)]
    rfl

theorem codePoints_flatMap (s : List Char) :
    Reader.codePoints done (s.flatMap style.escapeChar ++ '"' :: rest)
      = .ok (done.reverse ++ s.flatMap style.readAs, rest) := by
  induction s generalizing done
  case nil         => simp [Reader.codePoints]
  case cons c s hi =>
    rw [List.flatMap_cons, List.append_assoc, (style.escapes c).codePoints, hi]
    simp

theorem joinHalves_readAs (s : List Char) :
    CodePoint.joinHalves (s.flatMap style.readAs) = s.map .char := by
  induction s
  case nil         => rfl
  case cons c s hi =>
    rw [List.flatMap_cons, readAs]
    split
    case isTrue  => rw [List.singleton_append, CodePoint.joinHalves_char, hi, List.map_cons]
    case isFalse h =>
      have hn := Nat.le_of_not_lt (not_or.mp h).right
      rw [List.cons_append, List.singleton_append,
        CodePoint.joinHalves_pair (isHigh_surrogates hn (Text.toNat_lt c)) (isLow_surrogates _),
        surrogates_joined hn, Char.ofNat_toNat, hi, List.map_cons]

theorem text_flatMap (s : List Char) :
    Reader.text (s.flatMap style.escapeChar ++ '"' :: rest) = .ok (s.map .char, rest) := by
  rw [Reader.text, codePoints_flatMap, ←joinHalves_readAs]
  rfl

end Style

theorem ofCodePoints_map_char (s : String) : ofCodePoints (s.toList.map .char) = str s := by
  have hh : ¬ (s.toList.map CodePoint.char).any CodePoint.isHalf := by
    simp [CodePoint.isHalf]
  rw [ofCodePoints, if_neg hh, CodePoint.joinHalves_map_char, CodePoint.map_standIn_map_char,
    String.ofList_toList]

variable {style : Style}

theorem toList_quote (s : String) :
    (style.quote s).toList = '"' :: (s.toList.flatMap style.escapeChar ++ ['"']) := by
  simp [Style.quote]

theorem skipSpace_of_not_isSpace {c : Char} (h : Reader.isSpace c = false) (cs : List Char) :
    Reader.skipSpace (c :: cs) = c :: cs := by
  simp [Reader.skipSpace, h]

theorem skipSpace_quote (s : String) :
    Reader.skipSpace ((style.quote s).toList ++ rest) = (style.quote s).toList ++ rest := by
  rw [toList_quote, List.cons_append, skipSpace_of_not_isSpace rfl]

theorem value_quote (limits : Limits) (fuel level : Nat) (s : String) :
    Reader.value limits (fuel + 1) level ((style.quote s).toList ++ rest) = .ok (str s, rest) := by
  rw [toList_quote, List.cons_append, List.append_assoc, List.singleton_append, Reader.value,
    Style.text_flatMap]
  simp only [Except.map, ofCodePoints_map_char]

theorem fields_eq {limits : Limits} {fuel level : Nat} {cs : List Char} {v : Json}
    (hs : Reader.skipSpace cs = cs) (hv : Reader.value limits fuel level cs = .ok (v, rest))
    (done : List (String × Json)) (name : String) (spaced : Bool) :
    Reader.fields limits (fuel + 1) level done
        ((style.quote name).toList ++ ':' :: (if spaced then ' ' :: cs else cs))
      = match Reader.skipSpace rest with
        | ',' :: cs    =>
          Reader.fields limits fuel level ((name, v) :: done) (Reader.skipSpace cs)
        | '\x7d' :: cs => .ok (Reader.objectOf ((name, v) :: done), cs)
        | _            => .error .malformed := by
  have hn : String.ofList ((name.toList.map CodePoint.char).map CodePoint.standIn) = name := by
    rw [CodePoint.map_standIn_map_char, String.ofList_toList]
  have hc (cs : List Char) : Reader.skipSpace (':' :: cs) = ':' :: cs :=
    skipSpace_of_not_isSpace rfl cs
  have hsp : Reader.skipSpace (if spaced then ' ' :: cs else cs) = cs := by
    cases spaced
    case false => exact hs
    case true  => exact hs
  rw [toList_quote name, List.cons_append, List.append_assoc, List.singleton_append, Reader.fields,
    Style.text_flatMap]
  simp only [bind, Except.bind, hc, hsp, hv, hn]
  rfl

theorem value_field {limits : Limits} {level : Nat} (h : level < limits.nesting) (fuel : Nat)
    (name s : String) :
    Reader.value limits (fuel + 3) level
        ('\x7b' :: ((style.quote name).toList ++ ':' :: ((style.quote s).toList ++ '\x7d' :: rest)))
      = .ok (obj [(name, str s)], rest) := by
  have hv := @value_quote ('\x7d' :: rest) style limits fuel (level + 1) s
  have hf := @fields_eq _ style _ _ _ _ _ (skipSpace_quote s) hv [] name false
  rw [toList_quote name, List.cons_append] at hf ⊢
  rw [Reader.value, if_neg (Nat.not_le.mpr h), skipSpace_of_not_isSpace rfl]
  exact hf

end Json
end SchemaGraph
