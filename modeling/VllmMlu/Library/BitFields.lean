import Mathlib.Data.Nat.Bitwise
import Mathlib.Tactic.NormNum

/-! Fields of fixed width in a word, and how narrow signed arithmetic reads them. -/
namespace VllmMlu.Library.BitFields

/-- The field of a word at a place, counted from the low end. -/
def field (bits place : Nat) (word : BitVec 32) : Nat := word.toNat / 2 ^ (bits * place) % 2 ^ bits

theorem field_lt (bits place : Nat) (word : BitVec 32) : field bits place word < 2 ^ bits :=
  Nat.mod_lt _ (Nat.two_pow_pos _)

/-- An arithmetic shift and a narrowing leave the field in the low bits. -/
theorem toNat_narrow_mod {bits place width : Nat} (hfits : bits * (place + 1) ≤ 32)
    (hwidth : bits ≤ width) (word : BitVec 32) :
    ((word.sshiftRight (bits * place)).setWidth width).toNat % 2 ^ bits =
      field bits place word := by
  rw [BitVec.toNat_setWidth, Nat.mod_mod_of_dvd _ (Nat.pow_dvd_pow 2 hwidth), field]
  apply Nat.eq_of_testBit_eq
  intro i
  rw [Nat.testBit_mod_two_pow, Nat.testBit_mod_two_pow, Nat.testBit_div_two_pow]
  by_cases hi : i < bits
  · have hin : bits * place + i < 32 := by
      rw [Nat.mul_succ] at hfits
      omega
    rw [BitVec.testBit_toNat, BitVec.getLsbD_sshiftRight, BitVec.testBit_toNat, Nat.add_comm i]
    simp [hi, hin]
    omega
  · simp [hi]

/-- A mask of ones keeps the low bits. -/
theorem toNat_and_mask {bits width : Nat} (hwidth : bits < width) (value : BitVec width) :
    (value &&& BitVec.ofNat width (2 ^ bits - 1)).toNat = value.toNat % 2 ^ bits := by
  have hlt : 2 ^ bits - 1 < 2 ^ width :=
    (Nat.sub_le _ _).trans_lt (Nat.pow_lt_pow_right (by decide) hwidth)
  rw [BitVec.toNat_and, BitVec.toNat_ofNat, Nat.mod_eq_of_lt hlt, Nat.and_two_pow_sub_one_eq_mod]

/-- Sums are right in the low bits whatever stands above. -/
theorem toNat_add_mod {bits width : Nat} (hwidth : bits ≤ width) (left right : BitVec width) :
    (left + right).toNat % 2 ^ bits =
      (left.toNat % 2 ^ bits + right.toNat % 2 ^ bits) % 2 ^ bits := by
  rw [BitVec.toNat_add, Nat.mod_mod_of_dvd _ (Nat.pow_dvd_pow 2 hwidth), Nat.add_mod]

/-- Half of the range, taken off or put on, is the same in the low bits. -/
theorem toNat_sub_half_mod {bits width : Nat} (hbits : 0 < bits) (hwidth : bits ≤ width)
    (value : BitVec width) :
    (value - BitVec.ofNat width (2 ^ (bits - 1))).toNat % 2 ^ bits =
      (value.toNat % 2 ^ bits + 2 ^ (bits - 1)) % 2 ^ bits := by
  have hhalf : 2 ^ bits = 2 * 2 ^ (bits - 1) := by
    rw [← Nat.pow_succ']
    congr 1
    omega
  have hlt : 2 ^ (bits - 1) < 2 ^ width := Nat.pow_lt_pow_right (by decide) (by omega)
  obtain ⟨high, hhigh⟩ := Nat.pow_dvd_pow 2 hwidth
  rw [BitVec.toNat_sub, BitVec.toNat_ofNat, Nat.mod_eq_of_lt hlt,
    Nat.mod_mod_of_dvd _ (Nat.pow_dvd_pow 2 hwidth), Nat.mod_add_mod]
  have hpos : 0 < high := by
    apply Nat.pos_of_ne_zero
    rintro rfl
    simp at hhigh
  obtain ⟨rest, rfl⟩ := Nat.exists_eq_add_of_lt hpos
  have hvalue : 2 ^ width - 2 ^ (bits - 1) + value.toNat =
      value.toNat + 2 ^ (bits - 1) + 2 ^ bits * rest := by
    rw [hhigh, Nat.zero_add, Nat.mul_succ]
    omega
  rw [hvalue, Nat.add_mul_mod_self_left]

/-- Values below half of the range are not negative. -/
theorem toInt_of_lt {width : Nat} {value : BitVec width} (h : 2 * value.toNat < 2 ^ width) :
    value.toInt = value.toNat := by
  rw [BitVec.toInt_eq_toNat_cond, if_pos h]

/-- The difference of two fields fits into a narrow integer with one more bit. -/
theorem toInt_sub_of_lt {bits width : Nat} (hwidth : bits < width) {left right : BitVec width}
    (hleft : left.toNat < 2 ^ bits) (hright : right.toNat < 2 ^ bits) :
    (left - right).toInt = (left.toNat : Int) - right.toNat := by
  have hhalf : 2 * 2 ^ bits ≤ 2 ^ width := by
    rw [← Nat.pow_succ']
    exact Nat.pow_le_pow_right (by decide) hwidth
  rw [BitVec.toInt_sub, toInt_of_lt (by omega), toInt_of_lt (by omega)]
  apply Int.bmod_eq_of_le <;> omega

/-- A value shifted by half of the range, read as a signed number. -/
theorem toInt_of_toNat_eq_add_half {bits : Nat} (hbits : 0 < bits) {value : BitVec bits} {n : Nat}
    (hlt : n < 2 ^ bits) (h : value.toNat = (n + 2 ^ (bits - 1)) % 2 ^ bits) :
    value.toInt = (n : Int) - 2 ^ (bits - 1) := by
  have hhalf : 2 ^ bits = 2 * 2 ^ (bits - 1) := by
    rw [← Nat.pow_succ']
    congr 1
    omega
  have hcast : ((2 ^ (bits - 1) : Nat) : Int) = 2 ^ (bits - 1) := by norm_cast
  rw [BitVec.toInt_eq_toNat_cond, h, ← hcast, hhalf]
  generalize 2 ^ (bits - 1) = half at *
  rcases Nat.lt_or_ge n half with hlow | hhigh
  · rw [Nat.mod_eq_of_lt (by omega), if_neg (by omega)]
    omega
  · rw [Nat.mod_eq_sub_mod (by omega), Nat.mod_eq_of_lt (by omega), if_pos (by omega)]
    omega

section Nibbles

/-- `combine_low_bits`: the low four bits of two bytes. -/
def combineLowBits (high low : BitVec 8) : BitVec 8 :=
  ((high &&& 0x0F#8) <<< 4) ||| (low &&& 0x0F#8)

theorem toNat_combineLowBits (high low : BitVec 8) :
    (combineLowBits high low).toNat = high.toNat % 16 * 16 + low.toNat % 16 := by
  have hmask : ∀ value : BitVec 8, (value &&& 0x0F#8).toNat = value.toNat % 16 := fun value =>
    @toNat_and_mask 4 8 (by decide) value
  rw [combineLowBits, BitVec.toNat_or, BitVec.toNat_shiftLeft, hmask, hmask, Nat.shiftLeft_eq,
    Nat.mod_eq_of_lt (by omega), Nat.mul_comm]
  exact (Nat.two_pow_add_eq_or_of_lt (i := 4) (Nat.mod_lt _ (by decide)) _).symm

/-- The nibble of a byte, as a signed number. -/
def nibble (byte : BitVec 8) (high : Bool) : BitVec 4 := byte.extractLsb' (if high then 4 else 0) 4

@[simp] theorem toNat_nibble_combine (high low : BitVec 8) (odd : Bool) :
    (nibble (combineLowBits high low) odd).toNat =
      if odd then high.toNat % 16 else low.toNat % 16 := by
  rw [nibble, BitVec.extractLsb'_toNat, toNat_combineLowBits]
  cases odd
  · simp only [Nat.shiftRight_eq_div_pow]
    norm_num
  · simp only [Nat.shiftRight_eq_div_pow]
    norm_num
    omega

end Nibbles

end VllmMlu.Library.BitFields
