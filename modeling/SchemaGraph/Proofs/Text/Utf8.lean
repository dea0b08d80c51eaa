import SchemaGraph.Text.Utf8

-- Reading what has been written in UTF-8.
namespace SchemaGraph.Text.Utf8

theorem toList_loop (bytes : ByteArray) (i : Nat) (done : List UInt8) :
    ByteArray.toList.loop bytes i done = done.reverse ++ bytes.data.toList.drop i := by
  induction i, done using ByteArray.toList.loop.induct bytes
  case case1 i done hi ih =>
    have hl : i < bytes.data.toList.length := hi
    have hg : bytes.get! i = bytes.data.toList[i] := getElem!_pos bytes.data i hi
    rw [ByteArray.toList.loop, if_pos hi, ih, List.drop_eq_getElem_cons hl, hg]
    simp
  case case2 i done hi =>
    have hl : bytes.data.toList.length ≤ i := Nat.le_of_not_lt hi
    rw [ByteArray.toList.loop, if_neg hi, List.drop_eq_nil_of_le hl, List.append_nil]

theorem toList_toUTF8 (s : String) : s.toUTF8.toList = s.toList.flatMap String.utf8EncodeChar := by
  rw [String.toUTF8_eq_toByteArray, ←String.utf8Encode_toList, ByteArray.toList, toList_loop]
  exact List.toList_data_toByteArray

namespace Decoder

variable {d : Decoder} {p : Pending} {b : UInt8} {bs : List UInt8} {c : Char}

theorem begin_eq_emit (d : Decoder) (h : b.toNat ≤ 0x7F) :
    d.begin b = d.emit (Char.ofNat b.toNat) := by
  rw [begin, if_pos (UInt8.le_iff_toNat_le.mpr h)]

section
variable (d : Decoder) (b : UInt8)

theorem begin_two (h : 0xC2 ≤ b.toNat) (h' : b.toNat ≤ 0xDF) :
    d.begin b = d.await 1 0x80 0xBF (b.toNat % 0x20) b := by
  have h₁ : ¬ b.toNat ≤ 127 := by omega
  simp [begin, UInt8.le_iff_toNat_le, h₁, h, h']

theorem begin_three (h : 0xE0 ≤ b.toNat) (h' : b.toNat ≤ 0xEF) :
    d.begin b = d.await 2 (if b = 0xE0 then 0xA0 else 0x80) (if b = 0xED then 0x9F else 0xBF)
      (b.toNat % 0x10) b := by
  have h₁ : ¬ b.toNat ≤ 127 := by omega
  have h₂ : ¬ b.toNat ≤ 223 := by omega
  simp [begin, UInt8.le_iff_toNat_le, h₁, h₂, h, h']

theorem begin_four (h : 0xF0 ≤ b.toNat) (h' : b.toNat ≤ 0xF4) :
    d.begin b = d.await 3 (if b = 0xF0 then 0x90 else 0x80) (if b = 0xF4 then 0x8F else 0xBF)
      (b.toNat % 0x08) b := by
  have h₁ : ¬ b.toNat ≤ 127 := by omega
  have h₂ : ¬ b.toNat ≤ 223 := by omega
  have h₃ : ¬ b.toNat ≤ 239 := by omega
  simp [begin, UInt8.le_iff_toNat_le, h₁, h₂, h₃, h, h']

end

def IsTail (b : UInt8) : Prop :=
  0x80 ≤ b ∧ b ≤ 0xBF

-- The bits of the bytes after the first one, behind those that have been read.
def bitsOf (bits : Nat) (tail : List UInt8) : Nat :=
  tail.foldl (fun n b => n * 0x40 + b.toNat % 0x40) bits

-- A sequence that has begun ends as a character when as many bytes follow as are needed. The first
-- of them may be in a smaller range.
theorem foldl_step_tail (hp : d.pending = some p) (hn : p.needed = bs.length + 1) (hl : p.low ≤ b)
    (hh : b ≤ p.high) (ht : ∀ b ∈ bs, IsTail b) :
    (b :: bs).foldl step d =
      { d.emit (Char.ofNat (bitsOf p.bits (b :: bs))) with
        offset := d.offset + (b :: bs).length } := by
  induction bs generalizing d p b
  case nil =>
    have hn : p.needed ≤ 1 := Nat.le_of_eq hn
    simp [step, read, hp, hl, hh, hn, emit, bitsOf]
  case cons b' bs hi =>
    have hn' : ¬ p.needed ≤ 1 := by rw [hn, List.length_cons]; omega
    have ⟨hb, ht⟩ := List.forall_mem_cons.mp ht
    let p' : Pending := ⟨p.needed - 1, 0x80, 0xBF, p.bits * 0x40 + b.toNat % 0x40, p.first,
      p.taken + 1⟩
    have hs : d.step b = { d with pending := some p', offset := d.offset + 1 } := by
      simp [step, read, hp, hl, hh, hn', p']
    have hn : p'.needed = bs.length + 1 := by
      show p.needed - 1 = _
      rw [hn, List.length_cons, Nat.add_sub_cancel]
    rw [List.foldl_cons, hs, hi (p := p') rfl hn hb.left hb.right ht]
    simp [emit, bitsOf, p', Nat.add_comm 1, Nat.add_assoc]

theorem foldl_step_await {needed bits : Nat} {low high first : UInt8}
    (hf : d.begin first = d.await needed low high bits first) (hd : d.pending = none)
    (hn : needed = bs.length + 1) (hl : low ≤ b) (hh : b ≤ high) (ht : ∀ b ∈ bs, IsTail b)
    (hc : bitsOf bits (b :: bs) = c.toNat) : (first :: b :: bs).foldl step d =
      { d.emit c with offset := d.offset + (first :: b :: bs).length } := by
  let p : Pending := { needed, low, high, bits, first, taken := 1 }
  have hs : d.step first = { d with pending := some p, offset := d.offset + 1 } := by
    simp [step, read, hd, hf, await, p]
  rw [List.foldl_cons, hs, foldl_step_tail (p := p) rfl hn hl hh ht, hc, Char.ofNat_toNat]
  simp [emit, Nat.add_comm 1, Nat.add_assoc]

def tail (n : Nat) : UInt8 :=
  UInt8.ofNat (n % 64 + 128)

theorem toNat_tail (n : Nat) : (tail n).toNat = n % 64 + 128 := by
  rw [tail, UInt8.toNat_ofNat']
  omega

section
variable {q : Prop} [Decidable q] {n : Nat} {low high : UInt8}

theorem low_le_tail (h : q → low.toNat ≤ n % 64 + 128) : (if q then low else 0x80) ≤ tail n := by
  rw [UInt8.le_iff_toNat_le, toNat_tail]
  split
  case isTrue hq => exact h hq
  case isFalse   => exact Nat.le_add_left 128 _

theorem tail_le_high (h : q → n % 64 + 128 ≤ high.toNat) : tail n ≤ if q then high else 0xBF := by
  rw [UInt8.le_iff_toNat_le, toNat_tail]
  split
  case isTrue hq => exact h hq
  case isFalse   =>
    show n % 64 + 128 ≤ 191
    omega

end

theorem isTail_tail (n : Nat) : IsTail (tail n) :=
  ⟨@low_le_tail False _ n 0 False.elim, @tail_le_high False _ n 0 False.elim⟩

section
variable {n : Nat} (hd : d.pending = none) (hc : c.toNat = n)
include hd hc

theorem foldl_step_two (h : 0x7F < n) (h' : n ≤ 0x7FF) :
    [UInt8.ofNat (n / 64 % 32 + 192), tail n].foldl step d =
      { d.emit c with offset := d.offset + 2 } := by
  have hf : (UInt8.ofNat (n / 64 % 32 + 192)).toNat = n / 64 % 32 + 192 := by
    rw [UInt8.toNat_ofNat']
    omega
  have hb := begin_two d (UInt8.ofNat (n / 64 % 32 + 192)) (by omega) (by omega)
  refine foldl_step_await hb hd rfl (isTail_tail n).left (isTail_tail n).right (by simp) ?_
  simp only [bitsOf, List.foldl_cons, List.foldl_nil, hf, toNat_tail, hc]
  omega

-- The smaller ranges keep out what is written in too many bytes and halves of surrogate pairs.
theorem foldl_step_three (h : 0x7FF < n) (h' : n ≤ 0xFFFF) (hv : n < 0xD800 ∨ 0xDFFF < n) :
    [UInt8.ofNat (n / 4096 % 16 + 224), tail (n / 64), tail n].foldl step d =
      { d.emit c with offset := d.offset + 3 } := by
  have hf : (UInt8.ofNat (n / 4096 % 16 + 224)).toNat = n / 4096 % 16 + 224 := by
    rw [UInt8.toNat_ofNat']
    omega
  have hb := begin_three d (UInt8.ofNat (n / 4096 % 16 + 224)) (by omega) (by omega)
  refine foldl_step_await hb hd rfl (low_le_tail fun he => ?low)
    (tail_le_high fun he => ?high) ?tail ?bits
  case low =>
    have he : n / 4096 % 16 + 224 = 0xE0 := hf ▸ congrArg UInt8.toNat he
    show 0xA0 ≤ _
    omega
  case high =>
    have he : n / 4096 % 16 + 224 = 0xED := hf ▸ congrArg UInt8.toNat he
    show _ ≤ 0x9F
    omega
  case tail => simpa using isTail_tail n
  case bits =>
    simp only [bitsOf, List.foldl_cons, List.foldl_nil, hf, toNat_tail, hc]
    omega

theorem foldl_step_four (h : 0xFFFF < n) (h' : n < 0x110000) :
    [UInt8.ofNat (n / 262144 % 8 + 240), tail (n / 4096), tail (n / 64), tail n].foldl step d =
      { d.emit c with offset := d.offset + 4 } := by
  have hf : (UInt8.ofNat (n / 262144 % 8 + 240)).toNat = n / 262144 % 8 + 240 := by
    rw [UInt8.toNat_ofNat']
    omega
  have hb := begin_four d (UInt8.ofNat (n / 262144 % 8 + 240)) (by omega) (by omega)
  refine foldl_step_await hb hd rfl (low_le_tail fun he => ?low)
    (tail_le_high fun he => ?high) ?tail ?bits
  case low =>
    have he : n / 262144 % 8 + 240 = 0xF0 := hf ▸ congrArg UInt8.toNat he
    show 0x90 ≤ _
    omega
  case high =>
    have he : n / 262144 % 8 + 240 = 0xF4 := hf ▸ congrArg UInt8.toNat he
    show _ ≤ 0x8F
    omega
  case tail => simpa using ⟨isTail_tail (n / 64), isTail_tail n⟩
  case bits =>
    simp only [bitsOf, List.foldl_cons, List.foldl_nil, hf, toNat_tail, hc]
    omega

end

theorem foldl_step_utf8EncodeChar (hd : d.pending = none) (c : Char) :
    (String.utf8EncodeChar c).foldl step d =
      { d.emit c with offset := d.offset + (String.utf8EncodeChar c).length } := by
  have hv : c.toNat < 0xD800 ∨ 0xDFFF < c.toNat ∧ c.toNat < 0x110000 := c.valid
  have hc : c.val.toNat = c.toNat := rfl
  rw [String.utf8EncodeChar, hc]
  by_cases h₁ : c.toNat ≤ 127
  case pos =>
    have hb : (UInt8.ofNat c.toNat).toNat = c.toNat := by
      rw [UInt8.toNat_ofNat']
      omega
    have hs : d.begin (UInt8.ofNat c.toNat) = d.emit c := by
      rw [begin_eq_emit d (Nat.le_trans (Nat.le_of_eq hb) h₁), hb, Char.ofNat_toNat]
    simp [h₁, step, read, hd, hs, emit]
  by_cases h₂ : c.toNat ≤ 2047
  case pos =>
    simp only [if_neg h₁, if_pos h₂]
    exact foldl_step_two hd rfl (by omega) h₂
  by_cases h₃ : c.toNat ≤ 65535
  case pos =>
    simp only [if_neg h₁, if_neg h₂, if_pos h₃]
    exact foldl_step_three hd rfl (by omega) h₃ (by omega)
  case neg =>
    simp only [if_neg h₁, if_neg h₂, if_neg h₃]
    exact foldl_step_four hd rfl (by omega) (by omega)

theorem foldl_step_flatMap (hd : d.pending = none) (cs : List Char) :
    ∃ offset, (cs.flatMap String.utf8EncodeChar).foldl step d =
      { d with offset, decoded := cs.reverse ++ d.decoded } := by
  induction cs generalizing d
  case nil => exact ⟨d.offset, rfl⟩
  case cons c cs hi =>
    have ⟨offset, h⟩ :=
      @hi { d.emit c with offset := d.offset + (String.utf8EncodeChar c).length } rfl
    refine ⟨offset, ?_⟩
    rw [List.flatMap_cons, List.foldl_append, foldl_step_utf8EncodeChar hd, h]
    simp [emit, hd]

end Decoder

theorem decodeLossy_toUTF8 (s : String) : decodeLossy s.toUTF8.toList = s.toList := by
  have ⟨offset, h⟩ := @Decoder.foldl_step_flatMap ⟨0, none, none, []⟩ rfl s.toList
  rw [decodeLossy, Decoder.run, toList_toUTF8, h]
  simp [Decoder.finish]

end SchemaGraph.Text.Utf8
