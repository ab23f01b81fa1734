import VllmMlu.Library.BitFields
import VllmMlu.Library.Grid

/-! Weights of four or eight bits in 32-bit words, unpacked into narrow integers and packed again
into bytes. -/
namespace VllmMlu.Quantization
open VllmMlu.Library VllmMlu.Library.BitFields

/-- `torch.int16 if bits == 8 else torch.int8`. -/
def dtypeWidth (bits : Nat) : Nat := if bits = 8 then 16 else 8

/-- `(word >> bits * place).to(dtype)`. -/
def unpackField (bits place : Nat) (word : BitVec 32) : BitVec (dtypeWidth bits) :=
  (word.sshiftRight (bits * place)).setWidth _

/-- `& ((2 ** bits) - 1)`. -/
def maskField (bits : Nat) (value : BitVec (dtypeWidth bits)) : BitVec (dtypeWidth bits) :=
  value &&& BitVec.ofNat _ (2 ^ bits - 1)

/-- `value - 2 ** (bits - 1)`. -/
def subHalf (bits : Nat) (value : BitVec (dtypeWidth bits)) : BitVec (dtypeWidth bits) :=
  value - BitVec.ofNat _ (2 ^ (bits - 1))

/-- The weight after the processing: a tensor of the activations' type, or packed bytes. -/
inductive PackedQweight (R : Type) where
  | float (weight : Grid R)
  | int8 (weight : Grid (BitVec 8))

/-- The parameters of a layer after the processing. -/
structure ProcessedLayer (R : Type) where
  qweight : PackedQweight R
  qzeros : Option (Grid R)
  scales : Option (Grid R)

/-- Two signed nibbles a byte, or bytes as they are. -/
def packInt8? (bits : Nat) (iweight : Grid (BitVec 8)) : Option (Grid (BitVec 8)) :=
  if bits = 4 then (iweight.everySecond 1).zipWith? combineLowBits (iweight.everySecond 0)
  else some iweight

/-- What the kernel reads at an output and an input. -/
def decode (bits : Nat) (weight : Grid (BitVec 8)) (out input : Nat) : Option Int :=
  if bits = 4 then
    if out < weight.rows ∧ input / 2 < weight.cols then
      some (nibble (weight.entry out (input / 2)) (input % 2 = 1)).toInt
    else none
  else if out < weight.rows ∧ input < weight.cols then some (weight.entry out input).toInt
  else none

section Fields

variable {bits : Nat} (hbits : bits = 4 ∨ bits = 8)
include hbits

theorem bits_lt_dtypeWidth : bits < dtypeWidth bits := by
  rcases hbits with rfl | rfl <;> decide

theorem field_fits {place : Nat} (hplace : place < 32 / bits) : bits * (place + 1) ≤ 32 := by
  rcases hbits with rfl | rfl <;> omega

theorem unpackField_mod {place : Nat} (hplace : place < 32 / bits) (word : BitVec 32) :
    (unpackField bits place word).toNat % 2 ^ bits = field bits place word :=
  toNat_narrow_mod (field_fits hbits hplace) (bits_lt_dtypeWidth hbits).le word

theorem toNat_maskField (value : BitVec (dtypeWidth bits)) :
    (maskField bits value).toNat = value.toNat % 2 ^ bits :=
  toNat_and_mask (bits_lt_dtypeWidth hbits) value

theorem maskField_lt (value : BitVec (dtypeWidth bits)) :
    (maskField bits value).toNat < 2 ^ bits := by
  rw [toNat_maskField hbits]
  exact Nat.mod_lt _ (Nat.two_pow_pos _)

theorem subHalf_mod (value : BitVec (dtypeWidth bits)) :
    (subHalf bits value).toNat % 2 ^ bits =
      (value.toNat % 2 ^ bits + 2 ^ (bits - 1)) % 2 ^ bits := by
  apply toNat_sub_half_mod _ (bits_lt_dtypeWidth hbits).le
  rcases hbits with rfl | rfl <;> decide

theorem succ_mod (value : BitVec (dtypeWidth bits)) :
    (value + 1).toNat % 2 ^ bits = (value.toNat % 2 ^ bits + 1) % 2 ^ bits := by
  have hone : (1 : BitVec (dtypeWidth bits)).toNat % 2 ^ bits = 1 := by
    rcases hbits with rfl | rfl <;> decide
  rw [toNat_add_mod (bits_lt_dtypeWidth hbits).le, hone]

/-- A byte keeps the field of the narrow integer. -/
theorem setWidth_mod (value : BitVec (dtypeWidth bits)) :
    (value.setWidth 8).toNat % 2 ^ bits = value.toNat % 2 ^ bits := by
  rw [BitVec.toNat_setWidth]
  apply Nat.mod_mod_of_dvd
  rcases hbits with rfl | rfl <;> decide

end Fields

section Packing

/-- A nibble of a packed byte, where the byte has the number in the right half. -/
theorem decode_combineLowBits {packed : Grid (BitVec 8)} {out input n : Nat}
    {high low value : BitVec 8} (hout : out < packed.rows) (hbyte : input / 2 < packed.cols)
    (hentry : packed.entry out (input / 2) = combineLowBits high low)
    (hhalf : value = if input % 2 = 1 then high else low) (hlt : n < 16)
    (hvalue : value.toNat % 16 = (n + 8) % 16) :
    decode 4 packed out input = some ((n : Int) - 8) := by
  rw [decode, if_pos rfl, if_pos ⟨hout, hbyte⟩, hentry]
  apply congrArg some
  apply @toInt_of_toNat_eq_add_half 4 (by decide) _ _ hlt
  rw [toNat_nibble_combine]
  subst hhalf
  by_cases hodd : input % 2 = 1
  · simpa [hodd] using hvalue
  · simpa [hodd] using hvalue

/-- The packed bytes decode to the numbers that the bytes hold in their low bits. -/
theorem decode_packInt8 {bits : Nat} (hbits : bits = 4 ∨ bits = 8) (iweight : Grid (BitVec 8))
    (heven : bits = 4 → iweight.cols % 2 = 0) :
    ∃ packed, packInt8? bits iweight = some packed ∧
      ∀ out < iweight.rows, ∀ input < iweight.cols, ∀ n < 2 ^ bits,
        (iweight.entry out input).toNat % 2 ^ bits = (n + 2 ^ (bits - 1)) % 2 ^ bits →
        decode bits packed out input = some ((n : Int) - 2 ^ (bits - 1)) := by
  rcases hbits with rfl | rfl
  · have hhigh := @Grid.everySecond_cols _ iweight 1 (by decide) (heven rfl)
    have hlow := @Grid.everySecond_cols _ iweight 0 (by decide) (heven rfl)
    refine ⟨_, Grid.zipWith?_eq _ rfl (hhigh.trans hlow.symm), ?_⟩
    intro out hout input hinput n hlt hvalue
    have hbyte : input / 2 < (iweight.everySecond 1).cols := by
      have := heven rfl
      omega
    refine @decode_combineLowBits ⟨_, _, _⟩ out input n _ _ _ hout hbyte rfl ?_ hlt hvalue
    split
    · rw [Grid.everySecond_entry]
      congr 1
      omega
    · rw [Grid.everySecond_entry]
      congr 1
      omega
  · refine ⟨iweight, rfl, ?_⟩
    intro out hout input hinput n hlt hvalue
    rw [decode, if_neg (by decide), if_pos ⟨hout, hinput⟩]
    apply congrArg some
    apply toInt_of_toNat_eq_add_half (by decide) hlt
    rw [← hvalue, Nat.mod_eq_of_lt (iweight.entry out input).isLt]

/-- With three columns the only high half is stretched over both low halves. -/
theorem decode_packInt8_three {iweight : Grid (BitVec 8)} (hcols : iweight.cols = 3) :
    ∃ packed, packInt8? 4 iweight = some packed ∧
      ∀ out < iweight.rows, ∀ input < 3, ∀ n < 16,
        (iweight.entry out input).toNat % 16 = (n + 8) % 16 →
        decode 4 packed out input = some ((n : Int) - 8) := by
  have hhigh : (iweight.everySecond 1).cols = 1 := by simp [Grid.everySecond, hcols]
  have hlow : (iweight.everySecond 0).cols = 2 := by simp [Grid.everySecond, hcols]
  refine ⟨⟨iweight.rows, 2, fun out byte => combineLowBits (iweight.entry out 1)
    (iweight.entry out (2 * byte))⟩, ?_, ?_⟩
  · simp [packInt8?, Grid.zipWith?, Grid.broadcastDim?, Grid.stretch, hhigh, hlow]
  · intro out hout input hinput n hlt hvalue
    have hbyte : input / 2 < 2 := by omega
    refine @decode_combineLowBits ⟨_, _, _⟩ out input n _ _ _ hout hbyte rfl ?_ hlt hvalue
    split
    · congr 1
      omega
    · congr 1
      omega

/-- Any other odd number of columns does not fit into pairs. -/
theorem packInt8_odd {iweight : Grid (BitVec 8)} (hodd : iweight.cols % 2 = 1)
    (hthree : iweight.cols ≠ 3) :
    packInt8? 4 iweight = none ∨ ∃ packed, packInt8? 4 iweight = some packed ∧ packed.cols = 0 := by
  have hhigh : (iweight.everySecond 1).cols = (iweight.cols - 1 + 1) / 2 := rfl
  have hlow : (iweight.everySecond 0).cols = (iweight.cols - 0 + 1) / 2 := rfl
  by_cases hone : iweight.cols = 1
  · right
    simp [packInt8?, Grid.zipWith?, Grid.broadcastDim?, hhigh, hlow, hone]
  · left
    rw [packInt8?, if_pos rfl, Grid.zipWith?]
    have hnone : Grid.broadcastDim? (iweight.everySecond 1).cols
        (iweight.everySecond 0).cols = none := by
      rw [Grid.broadcastDim?, hhigh, hlow, if_neg (by omega), if_neg (by omega),
        if_neg (by omega)]
    simp [hnone]

end Packing

end VllmMlu.Quantization
