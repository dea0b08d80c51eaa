import SchemaGraph.Proofs.Pattern.Refuses
import SchemaGraph.Proofs.Text.Letter

namespace SchemaGraph

def Spells (word : String) (w : List Char) : Prop :=
  w.map Text.folded = word.toList.map Char.toLower

instance (word : String) (w : List Char) : Decidable (Spells word w) :=
  inferInstanceAs (Decidable (_ = _))

def isKeyword (word : String) : Bool :=
  word.toList.all fun l => 97 ≤ l.toLower.toNat && l.toLower.toNat ≤ 122

variable {γ : Type} {word : String} {before : Option Char} {w rest text : List Char} {c l : Char}
variable {a b : Pattern γ}

theorem isKeyword_iff :
    isKeyword word ↔ ∀ l ∈ word.toList, 97 ≤ l.toLower.toNat ∧ l.toLower.toNat ≤ 122 := by
  simp [isKeyword]

theorem Text.isLetter_of_folded_eq (hl : 97 ≤ l.toLower.toNat ∧ l.toLower.toNat ≤ 122)
    (h : folded c = l.toLower) : isLetter c := by
  refine isLetter_of_folded (Ranges.contains_iff.mpr ⟨(0x61, 0x7A), by simp [letterRanges], ?_⟩)
  rwa [h]

namespace Spells

theorem isLetter (hk : isKeyword word) (h : Spells word w) : ∀ c ∈ w, Text.isLetter c := by
  intro c hc
  have hm : Text.folded c ∈ word.toList.map Char.toLower := h ▸ List.mem_map_of_mem hc
  have ⟨l, hl, he⟩ := List.mem_map.mp hm
  exact Text.isLetter_of_folded_eq (isKeyword_iff.mp hk l hl) he.symm

theorem length_eq (h : Spells word w) : w.length = word.toList.length := by
  simpa using congrArg List.length h

end Spells

namespace Pattern

theorem letters_matches_iff (ls : List Char) (h : ∀ l ∈ ls, l.toLower.toNat < 128) :
    Matches (ls.foldr (fun l rest => char (Text.sameLetter l) ++ rest) (empty : Pattern γ))
      before w rest ↔ w.map Text.folded = ls.map Char.toLower := by
  induction ls generalizing before w
  case nil => exact List.map_eq_nil_iff.symm
  case cons l ls hi =>
    have ⟨hl, hls⟩ := List.forall_mem_cons.mp h
    rw [List.foldr_cons, List.map_cons, List.map_eq_cons_iff]
    constructor
    case mp =>
      intro ⟨u, v, hw, ⟨c, hu, hc⟩, hv⟩
      rw [Text.sameLetter_eq hl] at hc
      exact ⟨c, v, by rw [hw, hu, List.singleton_append], eq_of_beq hc, (hi hls).mp hv⟩
    case mpr =>
      intro ⟨c, v, hw, hc, hv⟩
      refine ⟨[c], v, hw, ⟨c, rfl, ?_⟩, (hi hls).mpr hv⟩
      rw [Text.sameLetter_eq hl, hc, beq_self_eq_true]

theorem ascii_of_isKeyword (hk : isKeyword word) : ∀ l ∈ word.toList, l.toLower.toNat < 128 :=
  fun l hl => Nat.lt_of_le_of_lt (isKeyword_iff.mp hk l hl).right (by decide)

theorem keyword_matches_iff (hk : isKeyword word) :
    (keyword word : Pattern γ).Matches before w rest ↔ Spells word w :=
  letters_matches_iff _ (ascii_of_isKeyword hk)

theorem Takes.letters (ls : List Char) (h : ∀ l ∈ ls, l.toLower.toNat < 128)
    (hw : w.map Text.folded = ls.map Char.toLower) :
    Takes (ls.foldr (fun l rest => .char (Text.sameLetter l) ++ rest) (.empty : Pattern γ))
      before w rest [] := by
  induction ls generalizing before w
  case nil =>
    have hw := List.map_eq_nil_iff.mp hw
    subst hw
    exact .empty
  case cons l ls hi =>
    have ⟨hl, hls⟩ := List.forall_mem_cons.mp h
    have ⟨c, v, hw, hc, hv⟩ := List.map_eq_cons_iff.mp (hw.trans List.map_cons)
    subst hw
    refine .seq (u := [c]) (.char ?_) (hi hls hv)
    rw [Text.sameLetter_eq hl, hc, beq_self_eq_true]

theorem Takes.keyword (hk : isKeyword word) (hw : Spells word w) :
    (Pattern.keyword word : Pattern γ).Takes before w rest [] :=
  .letters _ (ascii_of_isKeyword hk) hw

theorem not_sameLetter_of_isBlank (hl : 97 ≤ l.toLower.toNat ∧ l.toLower.toNat ≤ 122)
    (hc : Text.isBlank c) : Text.sameLetter l c = false := by
  by_contra h
  rw [Bool.not_eq_false, Text.sameLetter_eq (by omega), beq_iff_eq] at h
  have := Text.not_isBlank_of_isLetter (Text.isLetter_of_folded_eq hl h)
  simp [hc] at this

theorem refuses_keyword_of_isBlank (hk : isKeyword word) (hw : word ≠ "") (hc : Text.isBlank c) :
    (keyword word : Pattern γ).refuses (some c) := by
  have hk := isKeyword_iff.mp hk
  have hn : word.toList ≠ [] := by simpa using hw
  unfold keyword
  cases hl : word.toList
  case nil       => exact absurd hl hn
  case cons l ls =>
    have hl := hk l (by simp [hl])
    show (refuses (.seq (.char (Text.sameLetter l)) _) (some c)) = true
    simp [refuses, not_sameLetter_of_isBlank hl hc]

theorem refuses_seq_left {next : Option Char} (h : a.refuses next) : (a ++ b).refuses next := by
  show (a.refuses next || _) = true
  rw [h, Bool.true_or]

theorem refuses_alt {next : Option Char} (ha : a.refuses next) (hb : b.refuses next) :
    (a <|> b).refuses next := by
  show (a.refuses next && b.refuses next) = true
  rw [ha, hb, Bool.and_self]

theorem refuses_many {p : Char → Bool} (h : p c = false) : (many p : Pattern γ).refuses (some c) :=
  refuses_seq_left <| by simp [refuses, h]

end Pattern
end SchemaGraph
