import Mathlib.Algebra.Ring.Int.Defs
import VllmMlu.Quantization.IntFields

/-! Repacking of GPTQ weights when they have been loaded. -/
namespace VllmMlu.Quantization
open VllmMlu.Library VllmMlu.Library.BitFields

/-- The parts of the configuration that the repacking reads; the constructor raises for other
numbers of bits. -/
structure GPTQMluConfig where
  weightBits : Nat
  groupSize : Int
  descAct : Bool
  isSym : Bool
  weightBits_ok : weightBits = 4 ∨ weightBits = 8

namespace GPTQMluConfig

def packFactor (cfg : GPTQMluConfig) : Nat := 32 / cfg.weightBits

def supportScaleZeros (_ : GPTQMluConfig) : Bool := false

def useNative (cfg : GPTQMluConfig) : Bool :=
  cfg.descAct || (!cfg.isSym && !cfg.supportScaleZeros)

/-- The shapes of a layer's parameters. -/
structure Shapes where
  inputSizePerPartition : Nat
  outputSizePerPartition : Nat
  scaleAndZeroSize : Nat
  deriving DecidableEq

/-- `none` where `create_weights` raises. -/
def createWeights (cfg : GPTQMluConfig) (inputSizePerPartition : Nat)
    (outputPartitionSizes : List Nat) (inputSize : Nat) : Option Shapes :=
  if cfg.groupSize = 0 ∨ Int.fmod inputSizePerPartition cfg.groupSize ≠ 0 then none
  else
    let outputSizePerPartition := outputPartitionSizes.sum
    if outputSizePerPartition % cfg.packFactor ≠ 0 then none
    else
      let groupSize : Int := if cfg.groupSize ≠ -1 then cfg.groupSize else inputSize
      let scaleAndZeroSize : Int :=
        if inputSize ≠ inputSizePerPartition ∧ cfg.groupSize ≠ -1 ∧ !cfg.descAct then
          Int.fdiv inputSizePerPartition groupSize
        else Int.fdiv inputSize groupSize
      if groupSize = 0 ∨ scaleAndZeroSize < 0 then none
      else
        some
          { inputSizePerPartition, outputSizePerPartition
            scaleAndZeroSize := scaleAndZeroSize.toNat }

end GPTQMluConfig

/-- A loaded layer: any contents for the parameters that `create_weights` registers. -/
structure GPTQLayer (cfg : GPTQMluConfig) (R : Type) where
  inputSizePerPartition : Nat
  outputPartitionSizes : List Nat
  inputSize : Nat
  shapes : GPTQMluConfig.Shapes
  created : cfg.createWeights inputSizePerPartition outputPartitionSizes inputSize = some shapes
  /-- The inputs fill the words. -/
  packed : inputSizePerPartition % cfg.packFactor = 0
  qweightData : Nat → Nat → BitVec 32
  qzerosData : Nat → Nat → BitVec 32
  scalesData : Nat → Nat → R
  gIdx : Nat → Int

namespace GPTQLayer

variable {cfg : GPTQMluConfig} {R : Type}

def qweight (layer : GPTQLayer cfg R) : Grid (BitVec 32) where
  rows := layer.shapes.inputSizePerPartition / cfg.packFactor
  cols := layer.shapes.outputSizePerPartition
  entry := layer.qweightData

def qzeros (layer : GPTQLayer cfg R) : Grid (BitVec 32) where
  rows := layer.shapes.scaleAndZeroSize
  cols := layer.shapes.outputSizePerPartition / cfg.packFactor
  entry := layer.qzerosData

def scales (layer : GPTQLayer cfg R) : Grid R where
  rows := layer.shapes.scaleAndZeroSize
  cols := layer.shapes.outputSizePerPartition
  entry := layer.scalesData

end GPTQLayer

namespace GPTQMluConfig

variable {R : Type}

def unpackGptqQweightInt32IntoInt8 (cfg : GPTQMluConfig) (qweight : Grid (BitVec 32)) :
    Grid (BitVec (dtypeWidth cfg.weightBits)) :=
  qweight.splitRows (32 / cfg.weightBits) fun place word =>
    maskField cfg.weightBits (unpackField cfg.weightBits place word)

def unpackGptqQzerosInt32IntoInt8 (cfg : GPTQMluConfig) (qzeros : Grid (BitVec 32)) :
    Grid (BitVec (dtypeWidth cfg.weightBits)) :=
  qzeros.splitCols (32 / cfg.weightBits) fun place word =>
    maskField cfg.weightBits (unpackField cfg.weightBits place word + 1)

/-- The row of its group for every input. -/
def selectGroups {α : Type} (cfg : GPTQMluConfig) (layer : GPTQLayer cfg R) (grid : Grid α) :
    Option (Grid α) :=
  if cfg.descAct then grid.indexSelect? layer.inputSizePerPartition layer.gIdx
  else grid.repeatInterleave? cfg.groupSize

variable [CommRing R]

def extractAutogptq (cfg : GPTQMluConfig) (layer : GPTQLayer cfg R) :
    Option (PackedQweight R × Option (Grid R)) := do
  let iweight := cfg.unpackGptqQweightInt32IntoInt8 layer.qweight
  let izeros := cfg.unpackGptqQzerosInt32IntoInt8 layer.qzeros
  if cfg.useNative then
    let scales ← cfg.selectGroups layer layer.scales
    let izeros ← cfg.selectGroups layer izeros
    let difference ← iweight.zipWith? (fun weight zero => weight - zero) izeros
    let fweight ← difference.zipWith? (fun value scale => ((value.toInt : Int) : R) * scale) scales
    some (.float fweight.transpose, none)
  else if !cfg.isSym && cfg.supportScaleZeros then do
    let scaleZeros ← izeros.zipWith? (fun zero scale => ((zero.toInt : Int) : R) * -1 * scale)
      layer.scales
    let packed ← packInt8? cfg.weightBits (iweight.map (BitVec.setWidth 8)).transpose
    some (.int8 packed, some scaleZeros.transpose)
  else do
    let iweight := iweight.map fun weight => maskField cfg.weightBits (subHalf cfg.weightBits weight)
    let packed ← packInt8? cfg.weightBits (iweight.map (BitVec.setWidth 8)).transpose
    some (.int8 packed, none)

def processWeightsAfterLoading (cfg : GPTQMluConfig) (layer : GPTQLayer cfg R) :
    Option (ProcessedLayer R) := do
  let (packedQweight, scaleZeros) ← cfg.extractAutogptq layer
  if cfg.useNative then some { qweight := packedQweight, qzeros := none, scales := none }
  else
    some
      { qweight := packedQweight, qzeros := scaleZeros, scales := some layer.scales.transpose }

end GPTQMluConfig

namespace GPTQLayer

variable {cfg : GPTQMluConfig} {R : Type} (layer : GPTQLayer cfg R)

def outputSize : Nat := layer.outputPartitionSizes.sum

/-- The stored field of an input and an output. -/
def weightField (input out : Nat) : Nat :=
  field cfg.weightBits (input % cfg.packFactor) (layer.qweightData (input / cfg.packFactor) out)

/-- The stored zero of a group and an output. -/
def zeroField (group out : Nat) : Nat :=
  field cfg.weightBits (out % cfg.packFactor) (layer.qzerosData group (out / cfg.packFactor))

/-- The group of an input. -/
def group (input : Nat) : Nat :=
  if cfg.descAct then (layer.gIdx input).toNat else (Int.fdiv input cfg.groupSize).toNat

/-- The parameters hold the weights that the words stand for. -/
def Preserved [CommRing R] (processed : ProcessedLayer R) : Prop :=
  if cfg.useNative then
    ∃ fweight, processed.qweight = .float fweight ∧ fweight.rows = layer.outputSize ∧
      fweight.cols = layer.inputSizePerPartition ∧
      ∀ out < layer.outputSize, ∀ input < layer.inputSizePerPartition,
        fweight.entry out input =
          (((layer.weightField input out : Int) -
            ((layer.zeroField (layer.group input) out + 1) % 2 ^ cfg.weightBits : Nat) : Int) : R) *
              layer.scalesData (layer.group input) out
  else
    ∃ packed, processed.qweight = .int8 packed ∧
      ∀ out < layer.outputSize, ∀ input < layer.inputSizePerPartition,
        decode cfg.weightBits packed out input =
          some ((layer.weightField input out : Int) - 2 ^ (cfg.weightBits - 1))

/-- The groups that the native path looks up are there. -/
def GroupsExist : Prop :=
  if cfg.descAct then
    ∀ input < layer.inputSizePerPartition,
      0 ≤ layer.gIdx input ∧ layer.gIdx input < layer.shapes.scaleAndZeroSize
  else 0 < cfg.groupSize

section Shapes

theorem packFactor_pos : 0 < cfg.packFactor := by
  rcases cfg.weightBits_ok with h | h <;> simp [GPTQMluConfig.packFactor, h]

/-- What the registered shapes amount to. -/
theorem shapes_eq : layer.shapes.inputSizePerPartition = layer.inputSizePerPartition ∧
    layer.shapes.outputSizePerPartition = layer.outputSize ∧
    layer.outputSize % cfg.packFactor = 0 ∧
    (cfg.descAct = false → 0 < cfg.groupSize →
      layer.shapes.scaleAndZeroSize * cfg.groupSize.toNat = layer.inputSizePerPartition) := by
  have hcreated := layer.created
  unfold GPTQMluConfig.createWeights at hcreated
  rw [Option.ite_none_left_eq_some] at hcreated
  obtain ⟨hdivides, hcreated⟩ := hcreated
  dsimp only at hcreated
  rw [Option.ite_none_left_eq_some, Option.ite_none_left_eq_some] at hcreated
  obtain ⟨hout, -, hcreated⟩ := hcreated
  rw [not_or, not_not] at hdivides
  rw [← Option.some.inj hcreated]
  refine ⟨rfl, rfl, not_not.mp hout, ?_⟩
  intro hact hpos
  obtain ⟨count, hcount⟩ := Int.eq_ofNat_of_zero_le hpos.le
  have hne : cfg.groupSize ≠ -1 := by omega
  have hsize : (if layer.inputSize ≠ layer.inputSizePerPartition ∧ cfg.groupSize ≠ -1 ∧
      (!cfg.descAct) = true then
        Int.fdiv layer.inputSizePerPartition cfg.groupSize
      else Int.fdiv layer.inputSize cfg.groupSize) =
        Int.fdiv layer.inputSizePerPartition cfg.groupSize := by
    by_cases hsame : layer.inputSize = layer.inputSizePerPartition
    · rw [if_neg (by simp [hsame]), hsame]
    · rw [if_pos ⟨hsame, hne, by simp [hact]⟩]
  have hmod : layer.inputSizePerPartition % count = 0 := by
    have hfmod := hdivides.2
    rw [hcount, Int.fmod_eq_emod_of_nonneg _ (by omega)] at hfmod
    exact_mod_cast hfmod
  simp only [if_pos hne]
  rw [hsize, hcount, Int.fdiv_eq_ediv_of_nonneg _ (by omega), ← Int.natCast_ediv,
    Int.toNat_natCast, Int.toNat_natCast]
  exact Nat.div_mul_cancel (Nat.dvd_of_mod_eq_zero hmod)

theorem groupSize_ne_zero (layer : GPTQLayer cfg R) : cfg.groupSize ≠ 0 := by
  have hcreated := layer.created
  unfold GPTQMluConfig.createWeights at hcreated
  rw [Option.ite_none_left_eq_some] at hcreated
  exact fun hzero => hcreated.1 (.inl hzero)

/-- The unpacked words have one row for each input. -/
theorem unpacked_rows : layer.shapes.inputSizePerPartition / cfg.packFactor * (32 / cfg.weightBits) =
    layer.inputSizePerPartition := by
  rw [layer.shapes_eq.1]
  exact Nat.div_mul_cancel (Nat.dvd_of_mod_eq_zero layer.packed)

/-- The unpacked zeros have one column for each output. -/
theorem unpacked_cols : layer.shapes.outputSizePerPartition / cfg.packFactor *
    (32 / cfg.weightBits) = layer.outputSize := by
  rw [layer.shapes_eq.2.1]
  exact Nat.div_mul_cancel (Nat.dvd_of_mod_eq_zero layer.shapes_eq.2.2.1)

end Shapes

section Unpacking

theorem toNat_unpacked_weight (input out : Nat) :
    ((cfg.unpackGptqQweightInt32IntoInt8 layer.qweight).entry input out).toNat =
      layer.weightField input out := by
  rw [GPTQMluConfig.unpackGptqQweightInt32IntoInt8, Grid.splitRows_entry,
    toNat_maskField cfg.weightBits_ok,
    unpackField_mod cfg.weightBits_ok (Nat.mod_lt _ packFactor_pos)]
  rfl

theorem toNat_unpacked_zero (group out : Nat) :
    ((cfg.unpackGptqQzerosInt32IntoInt8 layer.qzeros).entry group out).toNat =
      (layer.zeroField group out + 1) % 2 ^ cfg.weightBits := by
  rw [GPTQMluConfig.unpackGptqQzerosInt32IntoInt8, Grid.splitCols_entry,
    toNat_maskField cfg.weightBits_ok, succ_mod cfg.weightBits_ok,
    unpackField_mod cfg.weightBits_ok (Nat.mod_lt _ packFactor_pos)]
  rfl

theorem weightField_lt (input out : Nat) : layer.weightField input out < 2 ^ cfg.weightBits :=
  field_lt _ _ _

end Unpacking

section Groups

variable {α : Type}

/-- The rows of the inputs' groups. -/
theorem selectGroups_eq (grid : Grid α) (hrows : grid.rows = layer.shapes.scaleAndZeroSize)
    (hexist : layer.GroupsExist) :
    cfg.selectGroups layer grid =
      some ⟨layer.inputSizePerPartition, grid.cols, fun input out =>
        grid.entry (layer.group input) out⟩ := by
  rw [GroupsExist] at hexist
  rw [GPTQMluConfig.selectGroups]
  split
  · rename_i hact
    rw [if_pos hact] at hexist
    rw [Grid.indexSelect?, if_pos (by rw [hrows]; exact hexist)]
    simp only [group, hact, if_true]
  · rename_i hact
    rw [if_neg hact] at hexist
    rw [Grid.repeatInterleave?_eq hexist.le, hrows,
      layer.shapes_eq.2.2.2 (Bool.not_eq_true _ ▸ hact) hexist]
    obtain ⟨count, hcount⟩ := Int.eq_ofNat_of_zero_le hexist.le
    simp only [group, hact, hcount, Int.fdiv_eq_ediv_of_nonneg _ (Int.natCast_nonneg count),
      ← Int.natCast_ediv, Int.toNat_natCast, Bool.false_eq_true, if_false]

theorem selectGroups_none (grid : Grid α) (hrows : grid.rows = layer.shapes.scaleAndZeroSize)
    (hmissing : ¬layer.GroupsExist) :
    cfg.selectGroups layer grid = none := by
  rw [GroupsExist] at hmissing
  rw [GPTQMluConfig.selectGroups]
  split
  · rename_i hact
    rw [if_pos hact] at hmissing
    exact if_neg (by rwa [hrows])
  · rename_i hact
    rw [if_neg hact] at hmissing
    have hne := layer.groupSize_ne_zero
    exact Grid.repeatInterleave?_neg (by omega) grid

end Groups

section Processing

variable [CommRing R]

/-- Where the groups exist the native path multiplies the integers out. -/
theorem extractAutogptq_native (hnative : cfg.useNative = true) (hexist : layer.GroupsExist) :
    cfg.extractAutogptq layer = some (.float ⟨layer.outputSize, layer.inputSizePerPartition,
      fun out input =>
        ((((cfg.unpackGptqQweightInt32IntoInt8 layer.qweight).entry input out -
          (cfg.unpackGptqQzerosInt32IntoInt8 layer.qzeros).entry (layer.group input) out).toInt :
            Int) : R) * layer.scalesData (layer.group input) out⟩, none) := by
  have hscales := layer.selectGroups_eq layer.scales rfl hexist
  have hzeros := layer.selectGroups_eq (cfg.unpackGptqQzerosInt32IntoInt8 layer.qzeros) rfl hexist
  have hrows : (cfg.unpackGptqQweightInt32IntoInt8 layer.qweight).rows =
      layer.inputSizePerPartition := layer.unpacked_rows
  have hcols : (cfg.unpackGptqQweightInt32IntoInt8 layer.qweight).cols = layer.outputSize :=
    layer.shapes_eq.2.1
  have hzeroCols : (cfg.unpackGptqQzerosInt32IntoInt8 layer.qzeros).cols = layer.outputSize :=
    layer.unpacked_cols
  unfold GPTQMluConfig.extractAutogptq
  dsimp only
  rw [if_pos hnative, hscales, hzeros]
  simp only [Option.bind_eq_bind, Option.bind_some]
  rw [Grid.zipWith?_eq, Option.bind_some, Grid.zipWith?_eq, Option.bind_some, Grid.transpose]
  · dsimp only
    rw [hrows, hcols]
    rfl
  · exact hrows
  · exact hcols.trans layer.shapes_eq.2.1.symm
  · exact hrows
  · exact hcols.trans hzeroCols.symm

theorem extractAutogptq_none (hnative : cfg.useNative = true) (hmissing : ¬layer.GroupsExist) :
    cfg.extractAutogptq layer = none := by
  have hscales := layer.selectGroups_none layer.scales rfl hmissing
  unfold GPTQMluConfig.extractAutogptq
  dsimp only
  rw [if_pos hnative, hscales]
  rfl

/-- Without the native path the integers lose half of the range and are packed. -/
theorem extractAutogptq_packed (hpacked : cfg.useNative = false) :
    ∃ packed, cfg.extractAutogptq layer = some (.int8 packed, none) ∧
      ∀ out < layer.outputSize, ∀ input < layer.inputSizePerPartition,
        decode cfg.weightBits packed out input =
          some ((layer.weightField input out : Int) - 2 ^ (cfg.weightBits - 1)) := by
  have hrows : (cfg.unpackGptqQweightInt32IntoInt8 layer.qweight).rows =
      layer.inputSizePerPartition := layer.unpacked_rows
  have hcols : (cfg.unpackGptqQweightInt32IntoInt8 layer.qweight).cols = layer.outputSize :=
    layer.shapes_eq.2.1
  have heven : layer.inputSizePerPartition % 2 = 0 := by
    have hpacked := layer.packed
    rcases cfg.weightBits_ok with hbits | hbits
    · rw [GPTQMluConfig.packFactor, hbits] at hpacked
      omega
    · rw [GPTQMluConfig.packFactor, hbits] at hpacked
      omega
  obtain ⟨packed, hpack, hdecode⟩ := decode_packInt8 cfg.weightBits_ok
    (((cfg.unpackGptqQweightInt32IntoInt8 layer.qweight).map fun weight =>
      maskField cfg.weightBits (subHalf cfg.weightBits weight)).map (BitVec.setWidth 8)).transpose
    fun _ => by simpa [hrows] using heven
  refine ⟨packed, ?_, ?_⟩
  · unfold GPTQMluConfig.extractAutogptq
    dsimp only
    rw [if_neg (by simp [hpacked]), if_neg (by simp [GPTQMluConfig.supportScaleZeros]), hpack]
    rfl
  · intro out hout input hinput
    apply hdecode out (by simpa [hcols] using hout) input (by simpa [hrows] using hinput) _
      (layer.weightField_lt input out)
    rw [Grid.transpose_entry, Grid.map_entry, Grid.map_entry, setWidth_mod cfg.weightBits_ok,
      toNat_maskField cfg.weightBits_ok, Nat.mod_mod, subHalf_mod cfg.weightBits_ok,
      layer.toNat_unpacked_weight, Nat.mod_eq_of_lt (layer.weightField_lt input out)]

/-- The repacking preserves every weight, except that the native path raises where an input's group
is not there; in particular for the group size -1, which stands for one group of all inputs. -/
theorem gptq_preserved_iff :
    (∃ processed, cfg.processWeightsAfterLoading layer = some processed ∧
      layer.Preserved processed) ↔ (cfg.useNative = true → layer.GroupsExist) := by
  unfold GPTQMluConfig.processWeightsAfterLoading
  cases hnative : cfg.useNative with
  | false =>
      obtain ⟨packed, hextract, hdecode⟩ := layer.extractAutogptq_packed hnative
      rw [hextract]
      simp only [Bool.false_eq_true, false_imp_iff, iff_true]
      refine ⟨_, rfl, ?_⟩
      rw [Preserved, if_neg (by simp [hnative])]
      exact ⟨packed, rfl, hdecode⟩
  | true =>
      simp only [true_imp_iff]
      constructor
      · rintro ⟨processed, hprocess, -⟩
        by_contra hmissing
        rw [layer.extractAutogptq_none hnative hmissing] at hprocess
        cases hprocess
      · intro hexist
        rw [layer.extractAutogptq_native hnative hexist]
        refine ⟨_, rfl, ?_⟩
        rw [Preserved, if_pos hnative]
        refine ⟨_, rfl, rfl, rfl, ?_⟩
        intro out _ input _
        have hweight := layer.toNat_unpacked_weight input out
        have hzero := layer.toNat_unpacked_zero (layer.group input) out
        dsimp only
        rw [toInt_sub_of_lt (bits_lt_dtypeWidth cfg.weightBits_ok)
          (by rw [hweight]; exact layer.weightField_lt input out)
          (by rw [hzero]; exact Nat.mod_lt _ (Nat.two_pow_pos _)), hweight, hzero]

end Processing

end GPTQLayer

namespace Samples

theorem four_bits : 4 = 4 ∨ 4 = 8 := .inl rfl

/-- Asymmetric four-bit weights with one group of all inputs. -/
def wholeInput : GPTQMluConfig where
  weightBits := 4
  groupSize := -1
  descAct := false
  isSym := false
  weightBits_ok := four_bits

/-- One word of eight inputs for each of eight outputs. -/
def wholeInputLayer : GPTQLayer wholeInput Int where
  inputSizePerPartition := 8
  outputPartitionSizes := [8]
  inputSize := 8
  shapes := { inputSizePerPartition := 8, outputSizePerPartition := 8, scaleAndZeroSize := 1 }
  created := by decide
  packed := by decide
  qweightData := fun _ _ => 0x76543210#32
  qzerosData := fun _ _ => 0x77777777#32
  scalesData := fun _ _ => 1
  gIdx := fun _ => 0

end Samples

/-- The layer is made, but its weights are lost in an exception. -/
theorem whole_input_raises :
    Samples.wholeInput.useNative = true ∧
    Samples.wholeInput.processWeightsAfterLoading Samples.wholeInputLayer = none := by
  decide

end VllmMlu.Quantization
