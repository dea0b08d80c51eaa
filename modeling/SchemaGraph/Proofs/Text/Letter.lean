import SchemaGraph.Text.Basic
import SchemaGraph.Text.Digit
import SchemaGraph.Text.Letter
import SchemaGraph.Text.Word

namespace SchemaGraph.Text

variable {c d letter : Char}

-- Goes through the text, not through all characters there are.
instance decidableForallMem {p : Char → Prop} [DecidablePred p] (w : List Char) :
    Decidable (∀ c ∈ w, p c) :=
  List.decidableBAll p w

theorem Ranges.contains_iff {ranges : Ranges} :
    ranges.contains c ↔ ∃ r ∈ ranges, r.1 ≤ c.toNat ∧ c.toNat ≤ r.2 := by
  simp [contains]

def Ranges.areApart (rs rs' : Ranges) : Bool :=
  rs.all fun r => rs'.all fun r' => r.2 < r'.1 || r'.2 < r.1

theorem Ranges.not_contains_of_areApart {rs rs' : Ranges} (ha : rs.areApart rs')
    (h : rs.contains c) : rs'.contains c = false := by
  rw [←Bool.not_eq_true, contains_iff]
  intro ⟨r', hr', hc'⟩
  have ⟨r, hr, hc⟩ := contains_iff.mp h
  have := List.all_eq_true.mp (List.all_eq_true.mp ha r hr) r' hr'
  simp at this
  omega

def Ranges.areWithin (rs rs' : Ranges) : Bool :=
  rs.all fun r => rs'.any fun r' => r'.1 ≤ r.1 && r.2 ≤ r'.2

theorem Ranges.contains_of_areWithin {rs rs' : Ranges} (hw : rs.areWithin rs')
    (h : rs.contains c) : rs'.contains c := by
  have ⟨r, hr, hc⟩ := contains_iff.mp h
  have ⟨r', hr', hc'⟩ := List.any_eq_true.mp (List.all_eq_true.mp hw r hr)
  simp at hc'
  exact contains_iff.mpr ⟨r', hr', by omega⟩

theorem toNat_toLower (c : Char) :
    c.toLower.toNat = if 65 ≤ c.toNat ∧ c.toNat ≤ 90 then c.toNat + 32 else c.toNat := by
  unfold Char.toLower
  simp only [Char.toNat, ge_iff_le, UInt32.le_iff_toNat_le]
  split
  case isTrue h =>
    have h : 65 ≤ c.val.toNat ∧ c.val.toNat ≤ 90 := h
    rw [if_pos h, UInt32.toNat_add]
    exact Nat.mod_eq_of_lt (show c.val.toNat + 32 < 4294967296 by omega)
  case isFalse h =>
    have h : ¬ (65 ≤ c.val.toNat ∧ c.val.toNat ≤ 90) := h
    rw [if_neg h]

def folded (c : Char) : Char :=
  if c = '\u212A' then 'k'
  else if c = '\u017F' then 's'
  else if c = '\u0130' ∨ c = '\u0131' then 'i'
  else c.toLower

theorem sameLetter_eq (h : letter.toLower.toNat < 128) (c : Char) :
    sameLetter letter c = (folded c == letter.toLower) := by
  have far {d : Char} (hd : 128 ≤ d.toNat) : (d.toLower == letter.toLower) = false := by
    have := toNat_toLower d
    refine beq_eq_false_iff_ne.mpr fun he => ?_
    rw [he] at this
    split at this <;> omega
  unfold sameLetter folded
  by_cases hk : c = '\u212A'
  case pos => rw [hk, far (by decide)]; split <;> grind
  by_cases hs : c = '\u017F'
  case pos => rw [hs, far (by decide)]; split <;> grind
  by_cases hi : c = '\u0130' ∨ c = '\u0131'
  case pos =>
    have hf : (c.toLower == letter.toLower) = false :=
      far (by rcases hi with hi | hi <;> rw [hi] <;> decide)
    rw [hf]
    split <;> grind
  case neg => split <;> simp_all

-- The characters that are a letter of ASCII but for their case.
def letterRanges : Ranges :=
  [(0x41, 0x5A), (0x61, 0x7A), (0x130, 0x131), (0x17F, 0x17F), (0x212A, 0x212A)]

def isLetter (c : Char) : Bool :=
  letterRanges.contains c

theorem isLetter_of_folded (h : isLetter (folded c)) : isLetter c := by
  unfold folded at h
  split at h
  case isTrue hk => exact hk ▸ by decide
  split at h
  case isTrue hs => exact hs ▸ by decide
  split at h
  case isTrue hi => cases hi <;> simp_all <;> decide
  case isFalse =>
    have := toNat_toLower c
    simp [isLetter, letterRanges, Ranges.contains] at h ⊢
    split at this <;> omega

theorem not_isBlank_of_isLetter (h : isLetter c) : isBlank c = false :=
  Ranges.not_contains_of_areApart (by decide) h

theorem not_isWord_of_isBlank (h : isBlank c) : isWord c = false :=
  Ranges.not_contains_of_areApart (by decide +kernel) h

theorem isWord_of_isLetter (h : isLetter c) : isWord c :=
  Ranges.contains_of_areWithin (by decide +kernel) h

def digitRanges : Ranges :=
  zeros.map fun first => (first, first + 9)

theorem isDigit_eq (c : Char) : isDigit c = digitRanges.contains c := by
  rw [isDigit, digitValue?, Option.isSome_map, List.isSome_find?, Ranges.contains, digitRanges,
    List.any_map]
  rfl

theorem not_isDigit_of_isBlank (h : isBlank c) : isDigit c = false :=
  isDigit_eq c ▸ Ranges.not_contains_of_areApart (by decide +kernel) h

theorem ne_of_isLetter (h : isLetter c) (hd : isLetter d = false) : c ≠ d := by
  intro he
  simp [←he, h] at hd

theorem toUpper_of_not_small {c : Char} (h : ¬ (97 ≤ c.val ∧ c.val ≤ 122)) : c.toUpper = c :=
  dif_neg h

theorem upperChar_toUpper {c : Char} (h : upperForms.lookup c = none) :
    upperChar c.toUpper = [c.toUpper] := by
  by_cases hl : 97 ≤ c.val ∧ c.val ≤ 122
  case neg => rw [toUpper_of_not_small hl, upperChar, h, toUpper_of_not_small hl]
  case pos =>
    have key : ∀ n < 123, 97 ≤ n → upperChar (Char.ofNat n).toUpper = [(Char.ofNat n).toUpper] := by
      decide +kernel
    have h : 97 ≤ c.toNat ∧ c.toNat ≤ 122 := by simpa [UInt32.le_iff_toNat_le] using hl
    simpa [Char.ofNat_toNat] using key c.toNat (by omega) h.left

theorem flatMap_upperChar (c : Char) : (upperChar c).flatMap upperChar = upperChar c := by
  have hforms : ∀ p ∈ upperForms, p.2.toList.flatMap upperChar = p.2.toList := by decide +kernel
  rw [upperChar]
  split
  case h_1 form h =>
    obtain ⟨l, r, he, -⟩ := List.lookup_eq_some_iff.mp h
    exact hforms (c, form) (he ▸ List.mem_append_right l List.mem_cons_self)
  case h_2 h      => rw [List.flatMap_singleton, upperChar_toUpper h]

@[simp]
theorem upperAscii_upperAscii (s : String) : upperAscii (upperAscii s) = upperAscii s := by
  simp only [upperAscii, String.toList_ofList, List.flatMap_assoc, flatMap_upperChar]

end SchemaGraph.Text
