import Mathlib.Algebra.Ring.Int.Defs
import VllmMlu.Quantization.IntFields

/-! Repacking of AWQ weights when they have been loaded. -/
namespace VllmMlu.Quantization
open VllmMlu.Library VllmMlu.Library.BitFields

/-- The parts of the configuration that the repacking reads; the constructor raises for other
numbers of bits and for versions other than `gemm`. -/
structure AWQMluConfig where
  weightBits : Nat
  groupSize : Int
  zeroPoint : Bool
  weightBits_ok : weightBits = 4 ∨ weightBits = 8

namespace AWQMluConfig

def packFactor (cfg : AWQMluConfig) : Nat := 32 / cfg.weightBits

def supportScaleZeros (_ : AWQMluConfig) : Bool := false

/-- The output column at each position of a word. -/
def orderMap (cfg : AWQMluConfig) : List Nat :=
  if cfg.weightBits = 4 then [0, 2, 4, 6, 1, 3, 5, 7] else [0, 2, 1, 3]

def reverseOrderMap (cfg : AWQMluConfig) : List Nat :=
  if cfg.weightBits = 4 then [0, 4, 1, 5, 2, 6, 3, 7] else [0, 2, 1, 3]

/-- The shapes of a layer's parameters. -/
structure Shapes where
  inputSizePerPartition : Nat
  outputSizePerPartition : Nat
  numGroups : Nat
  deriving DecidableEq

/-- `none` where `create_weights` raises. -/
def createWeights (cfg : AWQMluConfig) (inputSizePerPartition : Nat)
    (outputPartitionSizes : List Nat) : Option Shapes :=
  if cfg.groupSize = 0 ∨ Int.fmod inputSizePerPartition cfg.groupSize ≠ 0 then none
  else
    let outputSizePerPartition := outputPartitionSizes.sum
    if outputSizePerPartition % cfg.packFactor ≠ 0 then none
    else
      let numGroups := Int.fdiv inputSizePerPartition cfg.groupSize
      if numGroups < 0 then none
      else some { inputSizePerPartition, outputSizePerPartition, numGroups := numGroups.toNat }

end AWQMluConfig

/-- A loaded layer: any contents for the parameters that `create_weights` registers. -/
structure AWQLayer (cfg : AWQMluConfig) (R : Type) where
  inputSizePerPartition : Nat
  outputPartitionSizes : List Nat
  shapes : AWQMluConfig.Shapes
  created : cfg.createWeights inputSizePerPartition outputPartitionSizes = some shapes
  inputs_pos : 0 < inputSizePerPartition
  outputs_pos : 0 < outputPartitionSizes.sum
  qweightData : Nat → Nat → BitVec 32
  qzerosData : Nat → Nat → BitVec 32
  scalesData : Nat → Nat → R

namespace AWQLayer

variable {cfg : AWQMluConfig} {R : Type}

def qweight (layer : AWQLayer cfg R) : Grid (BitVec 32) where
  rows := layer.shapes.inputSizePerPartition
  cols := layer.shapes.outputSizePerPartition / cfg.packFactor
  entry := layer.qweightData

def qzeros (layer : AWQLayer cfg R) : Grid (BitVec 32) where
  rows := layer.shapes.numGroups
  cols := layer.shapes.outputSizePerPartition / cfg.packFactor
  entry := layer.qzerosData

def scales (layer : AWQLayer cfg R) : Grid R where
  rows := layer.shapes.numGroups
  cols := layer.shapes.outputSizePerPartition
  entry := layer.scalesData

end AWQLayer

namespace AWQMluConfig

/-- Fields of consecutive columns, with whatever stands above them in the word. -/
def unpackColumns (cfg : AWQMluConfig) (words : Grid (BitVec 32)) :
    Grid (BitVec (dtypeWidth cfg.weightBits)) :=
  words.splitCols (32 / cfg.weightBits) (unpackField cfg.weightBits)

/-- `bitwise_and(values - 2 ** (bits - 1), (2 ** bits) - 1)`. -/
def toSigned (cfg : AWQMluConfig) (values : Grid (BitVec (dtypeWidth cfg.weightBits))) :
    Grid (BitVec (dtypeWidth cfg.weightBits)) :=
  values.map fun value => maskField cfg.weightBits (subHalf cfg.weightBits value)

def unpackAwqInt32IntoInt8 (cfg : AWQMluConfig) (qweight qzeros : Grid (BitVec 32)) :
    Grid (BitVec (dtypeWidth cfg.weightBits)) × Grid (BitVec (dtypeWidth cfg.weightBits)) :=
  let iweights := cfg.unpackColumns qweight
  let iweights :=
    if !cfg.zeroPoint || cfg.supportScaleZeros then cfg.toSigned iweights else iweights
  let izeros := cfg.unpackColumns qzeros
  let izeros := if !cfg.zeroPoint then cfg.toSigned izeros else izeros
  (iweights, izeros)

/-- `arange(cols).view(-1, 32 // bits)[:, reverse_order_map[bits]].view(-1)`. -/
def reverseOrder (cfg : AWQMluConfig) (col : Nat) : Nat :=
  col / (32 / cfg.weightBits) * (32 / cfg.weightBits) +
    cfg.reverseOrderMap.getD (col % (32 / cfg.weightBits)) 0

def reverseAwqOrder (cfg : AWQMluConfig)
    (iweights izeros : Grid (BitVec (dtypeWidth cfg.weightBits))) :
    Option (Grid (BitVec (dtypeWidth cfg.weightBits)) ×
      Grid (BitVec (dtypeWidth cfg.weightBits))) := do
  let rweights ← iweights.selectCols? iweights.cols cfg.reverseOrder
  let rzeros ← izeros.selectCols? iweights.cols cfg.reverseOrder
  some (rweights, rzeros)

variable {R : Type} [CommRing R]

def extractAutoawq (cfg : AWQMluConfig) (layer : AWQLayer cfg R) :
    Option (PackedQweight R × Option (Grid R)) := do
  let (iweight, izeros) := cfg.unpackAwqInt32IntoInt8 layer.qweight layer.qzeros
  let (iweight, izeros) ← cfg.reverseAwqOrder iweight izeros
  let iweight := iweight.map (maskField cfg.weightBits)
  let izeros := izeros.map (maskField cfg.weightBits)
  if cfg.zeroPoint && !cfg.supportScaleZeros then
    let scales ← layer.scales.repeatInterleave? cfg.groupSize
    let izeros ← izeros.repeatInterleave? cfg.groupSize
    let difference ← iweight.zipWith? (fun weight zero => weight - zero) izeros
    let fweight ← difference.zipWith? (fun value scale => ((value.toInt : Int) : R) * scale) scales
    some (.float fweight.transpose, none)
  else
    let scaleZeros ←
      if cfg.zeroPoint && cfg.supportScaleZeros then
        (izeros.zipWith? (fun zero scale => ((zero.toInt : Int) : R) * -1 * scale)
          layer.scales).map fun scaleZeros => some scaleZeros.transpose
      else some none
    let packed ← packInt8? cfg.weightBits (iweight.map (BitVec.setWidth 8)).transpose
    some (.int8 packed, scaleZeros)

def processWeightsAfterLoading (cfg : AWQMluConfig) (layer : AWQLayer cfg R) :
    Option (ProcessedLayer R) := do
  let (packedQweight, scaleZeros) ← cfg.extractAutoawq layer
  if cfg.zeroPoint && !cfg.supportScaleZeros then
    some { qweight := packedQweight, qzeros := none, scales := none }
  else
    some
      { qweight := packedQweight, qzeros := scaleZeros, scales := some layer.scales.transpose }

end AWQMluConfig

/-- The group of an input. -/
def AWQMluConfig.group (cfg : AWQMluConfig) (input : Nat) : Nat :=
  (Int.fdiv input cfg.groupSize).toNat

/-- The value that a row of words stores for an output: the field at the position that the packing
gives to the output's column. -/
def AWQMluConfig.storedField (cfg : AWQMluConfig) (words : Nat → BitVec 32) (out : Nat) : Nat :=
  field cfg.weightBits (cfg.orderMap.idxOf (out % cfg.packFactor)) (words (out / cfg.packFactor))

namespace AWQLayer

variable {cfg : AWQMluConfig} {R : Type} (layer : AWQLayer cfg R)

def outputSize : Nat := layer.outputPartitionSizes.sum

/-- The parameters hold the weights that the words stand for. -/
def Preserved [CommRing R] (processed : ProcessedLayer R) : Prop :=
  if cfg.zeroPoint then
    ∃ fweight, processed.qweight = .float fweight ∧ fweight.rows = layer.outputSize ∧
      fweight.cols = layer.inputSizePerPartition ∧
      ∀ out < layer.outputSize, ∀ input < layer.inputSizePerPartition,
        cfg.group input < layer.shapes.numGroups ∧
        fweight.entry out input =
          (((cfg.storedField (layer.qweightData input) out : Int) -
            cfg.storedField (layer.qzerosData (cfg.group input)) out : Int) : R) *
              layer.scalesData (cfg.group input) out
  else
    ∃ packed, processed.qweight = .int8 packed ∧
      ∀ out < layer.outputSize, ∀ input < layer.inputSizePerPartition,
        decode cfg.weightBits packed out input =
          some ((cfg.storedField (layer.qweightData input) out : Int) - 2 ^ (cfg.weightBits - 1))

section Shapes

theorem packFactor_pos : 0 < cfg.packFactor := by
  rcases cfg.weightBits_ok with h | h <;> simp [AWQMluConfig.packFactor, h]

/-- What the registered shapes amount to; a negative group size would make negative sizes. -/
theorem shapes_eq : layer.shapes.inputSizePerPartition = layer.inputSizePerPartition ∧
    layer.shapes.outputSizePerPartition = layer.outputSize ∧
    layer.outputSize % cfg.packFactor = 0 ∧ 0 < cfg.groupSize ∧
    layer.shapes.numGroups * cfg.groupSize.toNat = layer.inputSizePerPartition := by
  have hcreated := layer.created
  unfold AWQMluConfig.createWeights at hcreated
  rw [Option.ite_none_left_eq_some] at hcreated
  obtain ⟨hdivides, hcreated⟩ := hcreated
  dsimp only at hcreated
  rw [Option.ite_none_left_eq_some, Option.ite_none_left_eq_some] at hcreated
  obtain ⟨hout, hgroups, hcreated⟩ := hcreated
  rw [not_or, not_not] at hdivides
  have hpos : 0 < cfg.groupSize := by
    have hinputs := layer.inputs_pos
    by_contra hneg
    apply hgroups
    rw [← Int.neg_fdiv_neg]
    exact Int.fdiv_neg_of_neg_of_pos (by omega) (by omega)
  rw [← Option.some.inj hcreated]
  refine ⟨rfl, rfl, not_not.mp hout, hpos, ?_⟩
  obtain ⟨count, hcount⟩ := Int.eq_ofNat_of_zero_le hpos.le
  have hmod : layer.inputSizePerPartition % count = 0 := by
    have hfmod := hdivides.2
    rw [hcount, Int.fmod_eq_emod_of_nonneg _ (by omega)] at hfmod
    exact_mod_cast hfmod
  dsimp only
  rw [hcount, Int.fdiv_eq_ediv_of_nonneg _ (by omega), ← Int.natCast_ediv, Int.toNat_natCast,
    Int.toNat_natCast]
  exact Nat.div_mul_cancel (Nat.dvd_of_mod_eq_zero hmod)

/-- The unpacked words have one column for each output. -/
theorem unpacked_cols : layer.shapes.outputSizePerPartition / cfg.packFactor *
    (32 / cfg.weightBits) = layer.outputSize := by
  rw [layer.shapes_eq.2.1]
  exact Nat.div_mul_cancel (Nat.dvd_of_mod_eq_zero layer.shapes_eq.2.2.1)

end Shapes

end AWQLayer

namespace AWQMluConfig

section Order

variable (cfg : AWQMluConfig)

/-- The reverse map finds every column's position in the map. -/
theorem reverseOrderMap_eq {column : Nat} (hcolumn : column < 32 / cfg.weightBits) :
    cfg.reverseOrderMap.getD column 0 = cfg.orderMap.idxOf column ∧
      cfg.orderMap.idxOf column < 32 / cfg.weightBits := by
  unfold orderMap reverseOrderMap
  rcases cfg.weightBits_ok with hbits | hbits
  · rw [hbits] at hcolumn ⊢
    revert column
    decide
  · rw [hbits] at hcolumn ⊢
    revert column
    decide

theorem column_lt (col : Nat) : col % (32 / cfg.weightBits) < 32 / cfg.weightBits :=
  Nat.mod_lt _ AWQLayer.packFactor_pos

theorem reverseOrder_eq (col : Nat) : cfg.reverseOrder col =
    32 / cfg.weightBits * (col / (32 / cfg.weightBits)) +
      cfg.orderMap.idxOf (col % (32 / cfg.weightBits)) := by
  rw [reverseOrder, (cfg.reverseOrderMap_eq (cfg.column_lt col)).1, Nat.mul_comm]

theorem reverseOrder_div (col : Nat) :
    cfg.reverseOrder col / (32 / cfg.weightBits) = col / (32 / cfg.weightBits) := by
  have hlt := (cfg.reverseOrderMap_eq (cfg.column_lt col)).2
  rw [reverseOrder_eq, Nat.mul_add_div (Nat.zero_lt_of_lt hlt), Nat.div_eq_of_lt hlt,
    Nat.add_zero]

theorem reverseOrder_mod (col : Nat) : cfg.reverseOrder col % (32 / cfg.weightBits) =
    cfg.orderMap.idxOf (col % (32 / cfg.weightBits)) := by
  have hlt := (cfg.reverseOrderMap_eq (cfg.column_lt col)).2
  rw [reverseOrder_eq, Nat.mul_add_mod, Nat.mod_eq_of_lt hlt]

theorem reverseOrder_lt {col cols : Nat} (hcol : col < cols)
    (hcols : cols % cfg.packFactor = 0) : cfg.reverseOrder col < cols := by
  have hpos : 0 < cfg.packFactor := AWQLayer.packFactor_pos
  have hdiv := cfg.reverseOrder_div col
  rw [← Nat.div_add_mod' cols cfg.packFactor, hcols, Nat.add_zero] at hcol ⊢
  rw [← Nat.div_lt_iff_lt_mul hpos] at hcol ⊢
  exact hdiv.trans_lt hcol

theorem reverseAwqOrder_eq {iweights izeros : Grid (BitVec (dtypeWidth cfg.weightBits))}
    (hzeros : izeros.cols = iweights.cols) (hcols : iweights.cols % cfg.packFactor = 0) :
    cfg.reverseAwqOrder iweights izeros =
      some (⟨iweights.rows, iweights.cols, fun i j => iweights.entry i (cfg.reverseOrder j)⟩,
        ⟨izeros.rows, iweights.cols, fun i j => izeros.entry i (cfg.reverseOrder j)⟩) := by
  have hlt : ∀ j < iweights.cols, cfg.reverseOrder j < iweights.cols := fun j hj =>
    cfg.reverseOrder_lt hj hcols
  rw [reverseAwqOrder, Grid.selectCols?, if_pos hlt, Grid.selectCols?,
    if_pos (by rw [hzeros]; exact hlt)]
  rfl

/-- The column that comes to an output has its stored field in the low bits. -/
theorem unpackColumns_mod (words : Grid (BitVec 32)) (i out : Nat) :
    ((cfg.unpackColumns words).entry i (cfg.reverseOrder out)).toNat % 2 ^ cfg.weightBits =
      cfg.storedField (words.entry i) out := by
  rw [unpackColumns, Grid.splitCols_entry, cfg.reverseOrder_div, cfg.reverseOrder_mod,
    unpackField_mod cfg.weightBits_ok (cfg.reverseOrderMap_eq (cfg.column_lt out)).2]
  rfl

theorem storedField_lt (words : Nat → BitVec 32) (out : Nat) :
    cfg.storedField words out < 2 ^ cfg.weightBits := field_lt _ _ _

end Order

end AWQMluConfig

namespace AWQLayer

variable {cfg : AWQMluConfig} {R : Type} (layer : AWQLayer cfg R)

/-- The integers before the packing. -/
def signedWeights : Grid (BitVec 8) where
  rows := layer.outputSize
  cols := layer.inputSizePerPartition
  entry out input := (maskField cfg.weightBits
    ((cfg.toSigned (cfg.unpackColumns layer.qweight)).entry input (cfg.reverseOrder out))).setWidth 8

/-- Their low bits are the stored fields, moved by half of the range. -/
theorem signedWeights_mod (input out : Nat) :
    (layer.signedWeights.entry out input).toNat % 2 ^ cfg.weightBits =
      (cfg.storedField (layer.qweightData input) out + 2 ^ (cfg.weightBits - 1)) %
        2 ^ cfg.weightBits := by
  rw [signedWeights, setWidth_mod cfg.weightBits_ok, toNat_maskField cfg.weightBits_ok,
    Nat.mod_mod, AWQMluConfig.toSigned, Grid.map_entry, toNat_maskField cfg.weightBits_ok,
    Nat.mod_mod, subHalf_mod cfg.weightBits_ok, cfg.unpackColumns_mod]
  rfl

/-- The words of a row that has one field for each output. -/
theorem unpackColumns_cols (words : Grid (BitVec 32))
    (hwords : words.cols = layer.shapes.outputSizePerPartition / cfg.packFactor) :
    (cfg.unpackColumns words).cols = layer.outputSize := by
  rw [AWQMluConfig.unpackColumns, Grid.splitCols_cols, hwords, layer.unpacked_cols]

theorem group_eq (layer : AWQLayer cfg R) (input : Nat) : cfg.group input = input / cfg.groupSize.toNat := by
  obtain ⟨count, hcount⟩ := Int.eq_ofNat_of_zero_le layer.shapes_eq.2.2.2.1.le
  rw [AWQMluConfig.group, hcount, Int.fdiv_eq_ediv_of_nonneg _ (by omega), ← Int.natCast_ediv,
    Int.toNat_natCast, Int.toNat_natCast]

/-- The packed bytes decode to the weights where the inputs come in pairs. -/
theorem packInt8_signedWeights (hpairs : cfg.weightBits = 8 ∨
    layer.inputSizePerPartition % 2 = 0 ∨ layer.inputSizePerPartition = 3) :
    ∃ packed, packInt8? cfg.weightBits layer.signedWeights = some packed ∧
      ∀ out < layer.outputSize, ∀ input < layer.inputSizePerPartition,
        decode cfg.weightBits packed out input =
          some ((cfg.storedField (layer.qweightData input) out : Int) -
            2 ^ (cfg.weightBits - 1)) := by
  by_cases hthree : cfg.weightBits = 4 ∧ layer.inputSizePerPartition = 3
  · obtain ⟨hbits, hthree⟩ := hthree
    obtain ⟨packed, hpack, hdecode⟩ := @decode_packInt8_three layer.signedWeights hthree
    rw [hbits]
    refine ⟨packed, hpack, ?_⟩
    intro out hout input hinput
    have hlt := cfg.storedField_lt (layer.qweightData input) out
    have hvalue := layer.signedWeights_mod input out
    rw [hbits] at hlt hvalue
    exact hdecode out hout input (hthree ▸ hinput) _ hlt hvalue
  · obtain ⟨packed, hpack, hdecode⟩ := decode_packInt8 cfg.weightBits_ok layer.signedWeights
      fun hbits => by
        change layer.inputSizePerPartition % 2 = 0
        omega
    refine ⟨packed, hpack, ?_⟩
    intro out hout input hinput
    exact hdecode out hout input hinput _ (cfg.storedField_lt _ _) (layer.signedWeights_mod input out)

variable [CommRing R]

theorem extractAutoawq_packed (hpoint : cfg.zeroPoint = false) :
    cfg.extractAutoawq layer =
      (packInt8? cfg.weightBits layer.signedWeights).map fun packed => (.int8 packed, none) := by
  have hcols := layer.unpackColumns_cols layer.qweight rfl
  have hzeroCols := layer.unpackColumns_cols layer.qzeros rfl
  have hreverse := @AWQMluConfig.reverseAwqOrder_eq cfg
    (cfg.toSigned (cfg.unpackColumns layer.qweight)) (cfg.toSigned (cfg.unpackColumns layer.qzeros))
    (hzeroCols.trans hcols.symm)
    ((congrArg (· % cfg.packFactor) hcols).trans layer.shapes_eq.2.2.1)
  have hsigned : layer.signedWeights = Grid.transpose
      (((Grid.mk (cfg.toSigned (cfg.unpackColumns layer.qweight)).rows
        (cfg.toSigned (cfg.unpackColumns layer.qweight)).cols fun i j =>
          (cfg.toSigned (cfg.unpackColumns layer.qweight)).entry i (cfg.reverseOrder j)).map
            (maskField cfg.weightBits)).map (BitVec.setWidth 8)) := by
    rw [signedWeights, ← hcols, ← layer.shapes_eq.1]
    rfl
  unfold AWQMluConfig.extractAutoawq AWQMluConfig.unpackAwqInt32IntoInt8
  simp only [hpoint, Bool.not_false, Bool.true_or, if_true, Bool.false_and, Bool.false_eq_true,
    if_false, Option.bind_eq_bind, Option.bind_some]
  rw [hreverse]
  simp only [Option.bind_some]
  rw [← hsigned]
  cases packInt8? cfg.weightBits layer.signedWeights <;> rfl

/-- With zero points the integers are multiplied out. -/
theorem extractAutoawq_float (hpoint : cfg.zeroPoint = true) :
    cfg.extractAutoawq layer = some (.float ⟨layer.outputSize, layer.inputSizePerPartition,
      fun out input =>
        (((maskField cfg.weightBits
            ((cfg.unpackColumns layer.qweight).entry input (cfg.reverseOrder out)) -
          maskField cfg.weightBits ((cfg.unpackColumns layer.qzeros).entry (cfg.group input)
            (cfg.reverseOrder out))).toInt : Int) : R) *
              layer.scalesData (cfg.group input) out⟩, none) := by
  have hcols := layer.unpackColumns_cols layer.qweight rfl
  have hzeroCols := layer.unpackColumns_cols layer.qzeros rfl
  have hreverse := @AWQMluConfig.reverseAwqOrder_eq cfg
    (cfg.unpackColumns layer.qweight) (cfg.unpackColumns layer.qzeros)
    (hzeroCols.trans hcols.symm)
    ((congrArg (· % cfg.packFactor) hcols).trans layer.shapes_eq.2.2.1)
  obtain ⟨hinputs, houtputs, -, hpos, hgroups⟩ := layer.shapes_eq
  unfold AWQMluConfig.extractAutoawq AWQMluConfig.unpackAwqInt32IntoInt8
  simp only [hpoint, AWQMluConfig.supportScaleZeros, Bool.not_true, Bool.or_false, Bool.not_false,
    Bool.and_true, Bool.false_eq_true, if_true, if_false, Option.bind_eq_bind, Option.bind_some]
  rw [hreverse]
  simp only [Option.bind_some]
  rw [Grid.repeatInterleave?_eq hpos.le, Grid.repeatInterleave?_eq hpos.le]
  simp only [Option.bind_some]
  rw [Grid.zipWith?_eq, Option.bind_some, Grid.zipWith?_eq, Option.bind_some, Grid.transpose]
  · simp only [layer.group_eq]
    rw [Grid.map_rows, Grid.map_cols]
    rw [hcols, ← hinputs]
    rfl
  · exact hinputs.trans hgroups.symm
  · exact hcols.trans houtputs.symm
  · exact hinputs.trans hgroups.symm
  · rfl

/-- The repacking preserves every weight, except that an odd number of inputs other than three does
not fit into pairs of nibbles. -/
theorem awq_preserved_iff :
    (∃ processed, cfg.processWeightsAfterLoading layer = some processed ∧
      layer.Preserved processed) ↔
    cfg.zeroPoint = true ∨ cfg.weightBits = 8 ∨ layer.inputSizePerPartition % 2 = 0 ∨
      layer.inputSizePerPartition = 3 := by
  unfold AWQMluConfig.processWeightsAfterLoading
  cases hpoint : cfg.zeroPoint with
  | true =>
      rw [layer.extractAutoawq_float hpoint]
      simp only [true_or, iff_true]
      refine ⟨_, rfl, ?_⟩
      rw [Preserved, if_pos hpoint]
      refine ⟨_, rfl, rfl, rfl, ?_⟩
      intro out _ input hinput
      constructor
      · rw [layer.group_eq]
        exact Nat.div_lt_of_lt_mul (by
          rw [Nat.mul_comm, layer.shapes_eq.2.2.2.2]
          exact hinput)
      · have hweight := cfg.unpackColumns_mod layer.qweight input out
        have hbase := cfg.unpackColumns_mod layer.qzeros (cfg.group input) out
        rw [← toNat_maskField cfg.weightBits_ok] at hweight hbase
        dsimp only
        rw [toInt_sub_of_lt (bits_lt_dtypeWidth cfg.weightBits_ok)
          (maskField_lt cfg.weightBits_ok _) (maskField_lt cfg.weightBits_ok _), hweight, hbase]
        rfl
  | false =>
      rw [layer.extractAutoawq_packed hpoint]
      simp only [Bool.false_eq_true, false_or]
      constructor
      · rintro ⟨processed, hprocess, hpreserved⟩
        by_contra hpairs
        rw [not_or, not_or] at hpairs
        obtain ⟨height, hodd, hthree⟩ := hpairs
        have hbits : cfg.weightBits = 4 := cfg.weightBits_ok.resolve_right height
        rcases @packInt8_odd layer.signedWeights (Nat.mod_two_ne_zero.mp hodd) hthree with
          hnone | ⟨packed, hpacked, hcols⟩
        · rw [hbits, hnone] at hprocess
          cases hprocess
        · rw [hbits, hpacked] at hprocess
          cases hprocess
          rw [Preserved, if_neg (by simp [hpoint])] at hpreserved
          obtain ⟨other, hother, hdecode⟩ := hpreserved
          cases hother
          have hread := hdecode 0 layer.outputs_pos 0 layer.inputs_pos
          rw [hbits, decode, if_pos rfl, if_neg (by omega)] at hread
          cases hread
      · intro hpairs
        obtain ⟨packed, hpack, hdecode⟩ := layer.packInt8_signedWeights hpairs
        rw [hpack]
        refine ⟨_, rfl, ?_⟩
        rw [Preserved, if_neg (by simp [hpoint])]
        exact ⟨packed, rfl, hdecode⟩

end AWQLayer

namespace Samples

/-- Four-bit weights without zero points in groups of five inputs. -/
def fiveInputs : AWQMluConfig where
  weightBits := 4
  groupSize := 5
  zeroPoint := false
  weightBits_ok := .inl rfl

def fiveInputsLayer : AWQLayer fiveInputs Int where
  inputSizePerPartition := 5
  outputPartitionSizes := [8]
  shapes := { inputSizePerPartition := 5, outputSizePerPartition := 8, numGroups := 1 }
  created := by decide
  inputs_pos := by decide
  outputs_pos := by decide
  qweightData := fun _ _ => 0x76543210#32
  qzerosData := fun _ _ => 0x77777777#32
  scalesData := fun _ _ => 1

end Samples

/-- Five inputs are two and a half pairs. -/
theorem five_inputs_raise :
    Samples.fiveInputs.processWeightsAfterLoading Samples.fiveInputsLayer = none := by
  decide

end VllmMlu.Quantization
