import VllmMlu.Library.Packed
import VllmMlu.Parallel.GraphInfo
import VllmMlu.Worker.GdnAttention

/-! `pad_attn_metadata`: the metadata of a decode batch, extended by padding requests up to the
token count of a captured graph. `none` is an exception. -/
namespace VllmMlu.Worker
open Library Library.Cuts Library.Packed

/-- A buffer of the runner, or a view of one. -/
structure CpuGpuBuffer where
  cpu : List Nat
  gpu : List Nat
deriving DecidableEq

namespace CpuGpuBuffer

/-- `buffer[:count]`. -/
def front (count : Nat) (buffer : CpuGpuBuffer) : CpuGpuBuffer :=
  ⟨buffer.cpu.take count, buffer.gpu.take count⟩

@[simp] theorem front_cpu (count : Nat) (buffer : CpuGpuBuffer) :
    (buffer.front count).cpu = buffer.cpu.take count := rfl

@[simp] theorem front_gpu (count : Nat) (buffer : CpuGpuBuffer) :
    (buffer.front count).gpu = buffer.gpu.take count := rfl

/-- A view that was written in place, back in its buffer. -/
def write (view buffer : CpuGpuBuffer) : CpuGpuBuffer :=
  ⟨view.cpu ++ buffer.cpu.drop view.cpu.length, view.gpu ++ buffer.gpu.drop view.gpu.length⟩

end CpuGpuBuffer

structure RunnerBuffers where
  queryStartLoc : CpuGpuBuffer
  seqLens : CpuGpuBuffer
  seqStartLoc : CpuGpuBuffer
deriving DecidableEq

structure BlockTable where
  rows : List (List Int)
  slotMapping : List Int
deriving DecidableEq

/-- `MLUCommonAttentionMetadata`, as far as it is padded. -/
structure CommonMetadata where
  numInputTokens : Nat
  numReqs : Nat
  maxQueryLen : Nat
  queryStartLoc : CpuGpuBuffer
  seqLens : CpuGpuBuffer
  seqStartLoc : CpuGpuBuffer
  blockTable : List (List Int)
  slotMapping : List Int
deriving DecidableEq

structure MLADecodeMetadata where
  queryStartLoc : List Nat
  seqLens : List Nat
  blockTable : List (List Int)
deriving DecidableEq

/-- The metadata of a layer, under the two kinds of attention. -/
inductive AttnMetadata where
  | mla (slotMapping : List Int) (queryStartLoc : List Nat) (hasPrefill : Bool)
      (decode : Option MLADecodeMetadata)
  | flash (slotMapping : List Int) (queryStartLoc seqLens seqStartLoc : List Nat)
      (blockTable : List (List Int))
deriving DecidableEq

/-- `torch.cumsum(values, dim=0, out=view[1:])`: a view of another size cannot be resized. -/
def cumsumInto (values view : List Nat) : Option (List Nat) :=
  if view.length = values.length + 1 then some (view.take 1 ++ (startLocs values).tail) else none

/-- `view[start:].fill_(value)`. -/
def fillFrom {α : Type} (start : Nat) (value : α) (view : List α) : List α :=
  view.take start ++ List.replicate (view.length - start) value

/-- The query starts and sequence lengths with the padding requests. -/
def padRequests (queryStartLoc seqLens : CpuGpuBuffer) (maxQueryLen numReqs : Nat)
    (padTokenNum padReqNum : Int) : Option (CpuGpuBuffer × CpuGpuBuffer) := do
  if 0 < padReqNum then
    let queryLens := diffs (queryStartLoc.cpu.take (numReqs + 1)) ++
      List.replicate padReqNum.toNat (padTokenNum / padReqNum).toNat
    let cpu ← cumsumInto queryLens queryStartLoc.cpu
    pure (⟨cpu, cpu⟩,
      ⟨fillFrom numReqs maxQueryLen seqLens.cpu, fillFrom numReqs maxQueryLen seqLens.gpu⟩)
  else pure (queryStartLoc, seqLens)

namespace AttnMetadata

/-- The assertion on the metadata of MLA layers. -/
def check : AttnMetadata → Option Unit
  | .mla _ _ hasPrefill decode => if hasPrefill = false ∧ decode.isSome then some () else none
  | .flash .. => some ()

def slotMapping : AttnMetadata → List Int
  | .mla slotMapping .. => slotMapping
  | .flash slotMapping .. => slotMapping

/-- The fields of a layer's metadata, set to the padded tensors. -/
def set (slotMapping : List Int) (queryStartLoc seqLens seqStartLoc : List Nat)
    (blockTable : List (List Int)) : AttnMetadata → AttnMetadata
  | .mla _ _ hasPrefill decode => .mla slotMapping queryStartLoc hasPrefill
      (decode.map fun _ => ⟨queryStartLoc, seqLens, blockTable⟩)
  | .flash .. => .flash slotMapping queryStartLoc seqLens seqStartLoc blockTable

/-- A layer's metadata holds the tensors of the common metadata. -/
def Shares (common : CommonMetadata) (attn : AttnMetadata) : Prop :=
  attn.set common.slotMapping common.queryStartLoc.gpu common.seqLens.gpu common.seqStartLoc.gpu
    common.blockTable = attn

end AttnMetadata

/-- What `pad_attn_metadata` may change. -/
structure PadState where
  runner : RunnerBuffers
  blockTable : BlockTable
  attn : AttnMetadata
  common : CommonMetadata
deriving DecidableEq

def padAttnMetadata (state : PadState)
    (numScheduledTokens numInputTokens numReqs numPaddedReqs : Nat) : Option PadState := do
  state.attn.check
  let padTokenNum : Int := numInputTokens - numScheduledTokens
  let padReqNum : Int := numPaddedReqs - numReqs
  if padTokenNum = 0 then pure state
  else
    let (queryStartLoc, seqLens) ← padRequests (state.runner.queryStartLoc.front (numPaddedReqs + 1))
      (state.runner.seqLens.front numPaddedReqs) state.common.maxQueryLen numReqs padTokenNum
      padReqNum
    let seqStartLoc := state.runner.seqStartLoc.front (numPaddedReqs + 1)
    let gpu ← cumsumInto seqLens.gpu seqStartLoc.gpu
    let cpu ← cumsumInto seqLens.cpu seqStartLoc.cpu
    let slotMappingOrgNum := state.attn.slotMapping.length
    let slotMapping := fillFrom slotMappingOrgNum padSlotId
      (state.blockTable.slotMapping.take (slotMappingOrgNum + padTokenNum).toNat)
    let blockTable := state.blockTable.rows.take numPaddedReqs
    pure {
      runner := {
        queryStartLoc := queryStartLoc.write state.runner.queryStartLoc
        seqLens := seqLens.write state.runner.seqLens
        seqStartLoc := CpuGpuBuffer.write ⟨cpu, gpu⟩ state.runner.seqStartLoc }
      blockTable := { state.blockTable with
        slotMapping := slotMapping ++ state.blockTable.slotMapping.drop slotMapping.length }
      attn := state.attn.set slotMapping queryStartLoc.gpu seqLens.gpu gpu blockTable
      common := { state.common with
        numInputTokens
        numReqs := numPaddedReqs
        queryStartLoc
        seqLens
        seqStartLoc := ⟨cpu, gpu⟩
        blockTable
        slotMapping } }

/-! ### Padded batches -/

/-- The query starts of a padded batch. -/
structure PaddedStarts (lens : List Nat) (numInputTokens numPaddedReqs : Nat)
    (starts : List Nat) : Prop where
  sorted : starts.Pairwise (· ≤ ·)
  front : startLocs lens <+: starts
  last : starts.getLast? = some numInputTokens
  length : starts.length = numPaddedReqs + 1

/-- The metadata describes the batch of the queries `lens` with its padding. -/
structure DescribesPadded (lens : List Nat) (numInputTokens numPaddedReqs : Nat)
    (common : CommonMetadata) : Prop where
  starts_cpu : PaddedStarts lens numInputTokens numPaddedReqs common.queryStartLoc.cpu
  starts_gpu : PaddedStarts lens numInputTokens numPaddedReqs common.queryStartLoc.gpu
  seqStarts_cpu : common.seqStartLoc.cpu = startLocs common.seqLens.cpu
  seqStarts_gpu : common.seqStartLoc.gpu = startLocs common.seqLens.gpu
  slots : ∀ i slot, lens.sum ≤ i → common.slotMapping[i]? = some slot → slot = padSlotId

/-- A buffer that starts with the running sums of a batch. -/
structure CpuGpuBuffer.StartsWith (buffer : CpuGpuBuffer) (front : List Nat) (size : Nat) :
    Prop where
  cpu : buffer.cpu.take front.length = front
  gpu : buffer.gpu.take front.length = front
  length_cpu : buffer.cpu.length = size
  length_gpu : buffer.gpu.length = size

/-- A decode batch as `_build_attention_metadata` leaves it: the metadata are views of the
runner's buffers. -/
structure DecodeBatch where
  numSpecTokens : Nat
  maxNumReqs : Nat
  lens : List Nat
  state : PadState
  lens_pos : ∀ len ∈ lens, 1 ≤ len
  lens_le : ∀ len ∈ lens, len ≤ numSpecTokens + 1
  fits : lens.length ≤ maxNumReqs
  starts : state.runner.queryStartLoc.StartsWith (startLocs lens) (maxNumReqs + 1)
  length_seqLens_cpu : state.runner.seqLens.cpu.length = maxNumReqs
  length_seqLens_gpu : state.runner.seqLens.gpu.length = maxNumReqs
  seqStarts_cpu : state.runner.seqStartLoc.cpu.take (lens.length + 1) =
    startLocs (state.runner.seqLens.cpu.take lens.length)
  seqStarts_gpu : state.runner.seqStartLoc.gpu.take (lens.length + 1) =
    startLocs (state.runner.seqLens.gpu.take lens.length)
  length_seqStarts_cpu : state.runner.seqStartLoc.cpu.length = maxNumReqs + 1
  length_seqStarts_gpu : state.runner.seqStartLoc.gpu.length = maxNumReqs + 1
  common_eq : state.common = { state.common with
    numReqs := lens.length
    queryStartLoc := state.runner.queryStartLoc.front (lens.length + 1)
    seqLens := state.runner.seqLens.front lens.length
    seqStartLoc := state.runner.seqStartLoc.front (lens.length + 1)
    blockTable := state.blockTable.rows.take lens.length
    slotMapping := state.blockTable.slotMapping.take lens.sum }
  slots_fit : lens.sum ≤ state.blockTable.slotMapping.length
  attn_checked : state.attn.check = some ()
  attn_shares : state.attn.Shares state.common

theorem cumsumInto_eq {values view : List Nat} (hlength : view.length = values.length + 1)
    (hfirst : view.take 1 = [0]) : cumsumInto values view = some (startLocs values) := by
  rw [cumsumInto, if_pos hlength, hfirst, List.singleton_append, cons_tail_startLocs]

theorem length_fillFrom {α : Type} {start : Nat} {value : α} {view : List α}
    (h : start ≤ view.length) : (fillFrom start value view).length = view.length := by
  rw [fillFrom, List.length_append, List.length_take, List.length_replicate, Nat.min_eq_left h]
  omega

theorem fillFrom_getElem? {α : Type} {start i : Nat} {value entry : α} {view : List α}
    (h : start ≤ i) (hentry : (fillFrom start value view)[i]? = some entry) : entry = value := by
  rw [fillFrom, List.getElem?_append_right (by rw [List.length_take]; omega),
    List.getElem?_replicate] at hentry
  split at hentry
  · exact (Option.some.inj hentry).symm
  · cases hentry

theorem AttnMetadata.shares_set (attn : AttnMetadata) (common : CommonMetadata) :
    (attn.set common.slotMapping common.queryStartLoc.gpu common.seqLens.gpu
      common.seqStartLoc.gpu common.blockTable).Shares common := by
  cases attn with
  | mla slotMapping queryStartLoc hasPrefill decode => cases decode <;> rfl
  | flash => rfl

namespace DecodeBatch

variable (batch : DecodeBatch)

def numReqs : Nat := batch.lens.length

def numScheduledTokens : Nat := batch.lens.sum

def pad (numInputTokens numPaddedReqs : Nat) : Option PadState :=
  padAttnMetadata batch.state batch.numScheduledTokens numInputTokens batch.numReqs numPaddedReqs

/-- The padded metadata describe the batch, in the common metadata and in those of the layers. -/
def PadsRight (numInputTokens numPaddedReqs : Nat) : Prop :=
  ∃ padded, batch.pad numInputTokens numPaddedReqs = some padded ∧
    DescribesPadded batch.lens numInputTokens numPaddedReqs padded.common ∧
    padded.attn.Shares padded.common

variable {batch}

theorem queryStartLoc_eq :
    batch.state.common.queryStartLoc = ⟨startLocs batch.lens, startLocs batch.lens⟩ := by
  have hcpu := batch.starts.cpu
  have hgpu := batch.starts.gpu
  rw [length_startLocs] at hcpu hgpu
  rw [batch.common_eq]
  simp only [CpuGpuBuffer.front, hcpu, hgpu]

theorem length_slotMapping : batch.state.attn.slotMapping.length = batch.numScheduledTokens := by
  have hshares := batch.attn_shares
  have hslots : batch.state.attn.slotMapping = batch.state.common.slotMapping := by
    cases hattn : batch.state.attn with
    | mla =>
        rw [hattn] at hshares
        exact (AttnMetadata.mla.inj hshares).1.symm
    | flash =>
        rw [hattn] at hshares
        exact (AttnMetadata.flash.inj hshares).1.symm
  rw [hslots, batch.common_eq, List.length_take, Nat.min_eq_left batch.slots_fit]
  rfl

/-- The first entry of the sequence starts is 0, whatever the batch. -/
theorem take_one_seqStarts {starts lens : List Nat} {num : Nat}
    (h : starts.take (num + 1) = startLocs lens) : starts.take 1 = [0] := by
  rw [← take_one_startLocs lens, ← h, List.take_take, Nat.min_eq_left (by omega)]

variable {numInputTokens numPaddedReqs : Nat}

/-- The padding requests of a batch. -/
def padRequests (batch : DecodeBatch) (numInputTokens numPaddedReqs : Nat) :
    Option (CpuGpuBuffer × CpuGpuBuffer) :=
  Worker.padRequests (batch.state.runner.queryStartLoc.front (numPaddedReqs + 1))
    (batch.state.runner.seqLens.front numPaddedReqs) batch.state.common.maxQueryLen batch.numReqs
    ((numInputTokens : Int) - batch.numScheduledTokens) ((numPaddedReqs : Int) - batch.numReqs)

/-- What is left once the query starts and the sequence lengths are padded. -/
theorem pad_of_padRequests {starts lens : CpuGpuBuffer}
    (hmore : batch.numScheduledTokens < numInputTokens) (hfits : numPaddedReqs ≤ batch.maxNumReqs)
    (hpad : batch.padRequests numInputTokens numPaddedReqs = some (starts, lens))
    (hcpu : lens.cpu.length = numPaddedReqs) (hgpu : lens.gpu.length = numPaddedReqs) :
    ∃ padded, batch.pad numInputTokens numPaddedReqs = some padded ∧
      padded.common.queryStartLoc = starts ∧ padded.common.seqLens = lens ∧
      padded.common.seqStartLoc = ⟨startLocs lens.cpu, startLocs lens.gpu⟩ ∧
      (∀ i slot, batch.numScheduledTokens ≤ i → padded.common.slotMapping[i]? = some slot →
        slot = padSlotId) ∧
      padded.attn.Shares padded.common := by
  have hpadTokens : ¬ (numInputTokens : Int) - batch.numScheduledTokens = 0 := by omega
  have hseqStarts : ∀ view values : List Nat, view.length = batch.maxNumReqs + 1 →
      view.take 1 = [0] → values.length = numPaddedReqs →
      cumsumInto values (view.take (numPaddedReqs + 1)) = some (startLocs values) := by
    intro view values hview hfirst hvalues
    apply cumsumInto_eq
    · rw [List.length_take]
      omega
    · rw [List.take_take, Nat.min_eq_left (by omega), hfirst]
  have hgpuStarts := hseqStarts _ _ batch.length_seqStarts_gpu
    (take_one_seqStarts batch.seqStarts_gpu) hgpu
  have hcpuStarts := hseqStarts _ _ batch.length_seqStarts_cpu
    (take_one_seqStarts batch.seqStarts_cpu) hcpu
  rw [padRequests] at hpad
  rw [pad, padAttnMetadata]
  simp only [batch.attn_checked, Option.bind_eq_bind, Option.bind_some, if_neg hpadTokens, hpad,
    CpuGpuBuffer.front_cpu, CpuGpuBuffer.front_gpu, hgpuStarts, hcpuStarts]
  refine ⟨_, rfl, rfl, rfl, rfl, ?_, AttnMetadata.shares_set _ _⟩
  intro i slot hi hslot
  rw [length_slotMapping] at hslot
  exact fillFrom_getElem? hi hslot

/-- The query lengths, out of a view that holds all requests. -/
theorem diffs_queryStarts (h : batch.numReqs ≤ numPaddedReqs) :
    diffs ((batch.state.runner.queryStartLoc.cpu.take (numPaddedReqs + 1)).take
      (batch.numReqs + 1)) = batch.lens := by
  have hcpu := batch.starts.cpu
  rw [length_startLocs] at hcpu
  rw [List.take_take, Nat.min_eq_left (by omega), numReqs, hcpu, diffs_startLocs]

/-- More requests than the batch has: the padding queries share the missing tokens. -/
theorem padRequests_of_lt (hlt : batch.numReqs < numPaddedReqs)
    (hmore : batch.numScheduledTokens ≤ numInputTokens) (hfits : numPaddedReqs ≤ batch.maxNumReqs) :
    ∃ lens, batch.padRequests numInputTokens numPaddedReqs = some
        (⟨startLocs (batch.lens ++ List.replicate (numPaddedReqs - batch.numReqs)
            ((numInputTokens - batch.numScheduledTokens) / (numPaddedReqs - batch.numReqs))),
          startLocs (batch.lens ++ List.replicate (numPaddedReqs - batch.numReqs)
            ((numInputTokens - batch.numScheduledTokens) / (numPaddedReqs - batch.numReqs)))⟩,
          lens) ∧
      lens.cpu.length = numPaddedReqs ∧ lens.gpu.length = numPaddedReqs := by
  have hreqs : ((numPaddedReqs : Int) - batch.numReqs) = (numPaddedReqs - batch.numReqs : Nat) := by
    omega
  have htokens : ((numInputTokens : Int) - batch.numScheduledTokens) =
      (numInputTokens - batch.numScheduledTokens : Nat) := by
    omega
  have hpos : (0 : Int) < (numPaddedReqs - batch.numReqs : Nat) := by omega
  have hlens := diffs_queryStarts hlt.le
  have hfirst : (batch.state.runner.queryStartLoc.cpu.take (numPaddedReqs + 1)).take 1 = [0] := by
    have hcpu := batch.starts.cpu
    rw [length_startLocs] at hcpu
    rw [List.take_take, Nat.min_eq_left (by omega)]
    exact take_one_seqStarts hcpu
  have hlength : (batch.state.runner.queryStartLoc.cpu.take (numPaddedReqs + 1)).length =
      (batch.lens ++ List.replicate (numPaddedReqs - batch.numReqs)
        ((numInputTokens - batch.numScheduledTokens) / (numPaddedReqs - batch.numReqs))).length
      + 1 := by
    have hreqsLength : batch.numReqs = batch.lens.length := rfl
    rw [List.length_take, batch.starts.length_cpu, List.length_append, List.length_replicate]
    omega
  refine ⟨⟨fillFrom batch.numReqs batch.state.common.maxQueryLen
      (batch.state.runner.seqLens.cpu.take numPaddedReqs),
    fillFrom batch.numReqs batch.state.common.maxQueryLen
      (batch.state.runner.seqLens.gpu.take numPaddedReqs)⟩, ?_, ?_, ?_⟩
  · rw [padRequests, Worker.padRequests, hreqs, htokens, if_pos hpos]
    simp only [CpuGpuBuffer.front_cpu, hlens, ← Int.natCast_ediv, Int.toNat_natCast,
      cumsumInto_eq hlength hfirst]
    rfl
  · have hbuffer := batch.length_seqLens_cpu
    rw [length_fillFrom] <;> rw [List.length_take] <;> omega
  · have hbuffer := batch.length_seqLens_gpu
    rw [length_fillFrom] <;> rw [List.length_take] <;> omega

/-- The buffer of the query starts is too short for more requests. -/
theorem pad_eq_none (hlt : batch.numReqs < numPaddedReqs) (hover : batch.maxNumReqs < numPaddedReqs)
    (hmore : batch.numScheduledTokens < numInputTokens) :
    batch.pad numInputTokens numPaddedReqs = none := by
  have hpadTokens : ¬ (numInputTokens : Int) - batch.numScheduledTokens = 0 := by omega
  have hpos : (0 : Int) < (numPaddedReqs : Int) - batch.numReqs := by omega
  have hreqs : ((numPaddedReqs : Int) - batch.numReqs).toNat = numPaddedReqs - batch.numReqs := by
    omega
  have hlens := diffs_queryStarts hlt.le
  have hnone : batch.padRequests numInputTokens numPaddedReqs = none := by
    have hlength : ∀ padLen : Nat,
        ¬ (batch.state.runner.queryStartLoc.cpu.take (numPaddedReqs + 1)).length =
          (batch.lens ++ List.replicate (numPaddedReqs - batch.numReqs) padLen).length + 1 := by
      intro padLen
      have hreqsLength : batch.numReqs = batch.lens.length := rfl
      rw [List.length_take, batch.starts.length_cpu, List.length_append, List.length_replicate]
      omega
    rw [padRequests, Worker.padRequests, if_pos hpos, hreqs]
    simp only [CpuGpuBuffer.front_cpu, hlens, cumsumInto, if_neg (hlength _)]
    rfl
  rw [padRequests] at hnone
  rw [pad, padAttnMetadata]
  simp only [batch.attn_checked, Option.bind_eq_bind, Option.bind_some, if_neg hpadTokens, hnone,
    Option.bind_none]

theorem padRequests_of_le (hle : numPaddedReqs ≤ batch.numReqs) :
    batch.padRequests numInputTokens numPaddedReqs = some
      (batch.state.runner.queryStartLoc.front (numPaddedReqs + 1),
        batch.state.runner.seqLens.front numPaddedReqs) := by
  rw [padRequests, Worker.padRequests, if_neg (by omega)]
  rfl

theorem pad_eq_self : batch.pad batch.numScheduledTokens numPaddedReqs = some batch.state := by
  rw [pad, padAttnMetadata]
  simp only [batch.attn_checked, Option.bind_eq_bind, Option.bind_some, Int.sub_self, if_true]
  rfl

theorem paddedStarts_append (padLens : List Nat) :
    PaddedStarts batch.lens (batch.numScheduledTokens + padLens.sum)
      (batch.numReqs + padLens.length) (startLocs (batch.lens ++ padLens)) := by
  refine ⟨pairwise_startLocs _, startLocs_isPrefix _ _, ?_, ?_⟩
  · rw [getLast?_startLocs, List.sum_append]
    rfl
  · rw [length_startLocs, List.length_append]
    rfl

theorem describesPadded_self :
    DescribesPadded batch.lens batch.numScheduledTokens batch.numReqs batch.state.common := by
  have hstarts : PaddedStarts batch.lens batch.numScheduledTokens batch.numReqs
      (startLocs batch.lens) := by
    have happend := @paddedStarts_append batch []
    rwa [List.append_nil] at happend
  refine ⟨?_, ?_, ?_, ?_, ?_⟩
  · rwa [queryStartLoc_eq]
  · rwa [queryStartLoc_eq]
  · rw [batch.common_eq]
    exact batch.seqStarts_cpu
  · rw [batch.common_eq]
    exact batch.seqStarts_gpu
  · intro i slot hi hslot
    rw [batch.common_eq] at hslot
    have hlt := (List.getElem?_eq_some_iff.mp hslot).1
    rw [List.length_take] at hlt
    omega

/-- A padding that adds requests ends at the padded token count exactly if the padding requests
share the missing tokens evenly. -/
theorem padsRight_of_lt (hlt : batch.numReqs < numPaddedReqs)
    (hmore : batch.numScheduledTokens < numInputTokens) (hfits : numPaddedReqs ≤ batch.maxNumReqs) :
    batch.PadsRight numInputTokens numPaddedReqs ↔
      numPaddedReqs - batch.numReqs ∣ numInputTokens - batch.numScheduledTokens := by
  obtain ⟨lens, hpad, hcpu, hgpu⟩ := padRequests_of_lt hlt hmore.le hfits
  obtain ⟨padded, hpadded, hstarts, hlens, hseqStarts, hslots, hshares⟩ :=
    pad_of_padRequests hmore hfits hpad hcpu hgpu
  constructor
  · intro ⟨other, hother, hdescribes, _⟩
    cases Option.some.inj (hpadded.symm.trans hother)
    have hlast := hdescribes.starts_cpu.last
    rw [hstarts, getLast?_startLocs, List.sum_append, List.sum_replicate, smul_eq_mul,
      Option.some.injEq] at hlast
    exact Dvd.intro _ (Nat.eq_sub_of_add_eq' hlast)
  · intro hdvd
    have happend := @paddedStarts_append batch (List.replicate (numPaddedReqs - batch.numReqs)
      ((numInputTokens - batch.numScheduledTokens) / (numPaddedReqs - batch.numReqs)))
    rw [List.sum_replicate, smul_eq_mul, Nat.mul_div_cancel' hdvd, List.length_replicate,
      Nat.add_sub_cancel' hmore.le, Nat.add_sub_cancel' hlt.le] at happend
    refine ⟨padded, hpadded, ⟨?_, ?_, ?_, ?_, hslots⟩, hshares⟩
    · rwa [hstarts]
    · rwa [hstarts]
    · rw [hseqStarts, hlens]
    · rw [hseqStarts, hlens]

/-- Without padding requests nothing takes the missing tokens. -/
theorem not_padsRight_of_le (hle : numPaddedReqs ≤ batch.numReqs)
    (hmore : batch.numScheduledTokens < numInputTokens) :
    ¬ batch.PadsRight numInputTokens numPaddedReqs := by
  intro ⟨other, hother, hdescribes, _⟩
  have hfits : numPaddedReqs ≤ batch.maxNumReqs := hle.trans batch.fits
  have hview : ∀ buffer : List Nat, buffer.length = batch.maxNumReqs →
      (buffer.take numPaddedReqs).length = numPaddedReqs := by
    intro buffer hbuffer
    rw [List.length_take]
    omega
  obtain ⟨padded, hpadded, hstarts, -⟩ := pad_of_padRequests hmore hfits (padRequests_of_le hle)
    (hview _ batch.length_seqLens_cpu) (hview _ batch.length_seqLens_gpu)
  cases Option.some.inj (hpadded.symm.trans hother)
  have hfront := hdescribes.starts_cpu.front
  have hlength := hdescribes.starts_cpu.length
  have hlast := hdescribes.starts_cpu.last
  have hreqs : numPaddedReqs = batch.lens.length := by
    have hshort := hfront.length_le
    rw [length_startLocs, hlength] at hshort
    exact Nat.le_antisymm hle (by omega)
  rw [← hfront.eq_of_length (by rw [length_startLocs, hlength, hreqs]), getLast?_startLocs,
    Option.some.injEq] at hlast
  exact Nat.ne_of_lt hmore hlast

/-- The padded metadata describe one batch exactly if nothing is padded, neither tokens nor
requests, or the buffers hold the padded requests and the padding requests share the missing
tokens evenly. -/
theorem pads_right_iff (batch : DecodeBatch) (numInputTokens numPaddedReqs : Nat)
    (h : batch.numScheduledTokens ≤ numInputTokens) :
    batch.PadsRight numInputTokens numPaddedReqs ↔
      (numInputTokens = batch.numScheduledTokens ∧ numPaddedReqs = batch.numReqs) ∨
      (batch.numScheduledTokens < numInputTokens ∧ batch.numReqs < numPaddedReqs ∧
        numPaddedReqs ≤ batch.maxNumReqs ∧
        numPaddedReqs - batch.numReqs ∣ numInputTokens - batch.numScheduledTokens) := by
  rcases h.eq_or_lt with rfl | hmore
  · constructor
    · intro ⟨padded, hpadded, hdescribes, _⟩
      cases Option.some.inj (pad_eq_self.symm.trans hpadded)
      have hlength := hdescribes.starts_cpu.length
      rw [queryStartLoc_eq, length_startLocs] at hlength
      exact .inl ⟨rfl, (Nat.succ.inj hlength).symm⟩
    · rintro (⟨-, rfl⟩ | ⟨hlt, -⟩)
      · exact ⟨batch.state, pad_eq_self, describesPadded_self, batch.attn_shares⟩
      · exact absurd hlt (Nat.lt_irrefl _)
  · constructor
    · intro hright
      by_cases hlt : batch.numReqs < numPaddedReqs
      · by_cases hfits : numPaddedReqs ≤ batch.maxNumReqs
        · exact .inr ⟨hmore, hlt, hfits, (padsRight_of_lt hlt hmore hfits).mp hright⟩
        · obtain ⟨padded, hpadded, -⟩ := hright
          rw [pad_eq_none hlt (Nat.not_le.mp hfits) hmore] at hpadded
          cases hpadded
      · exact absurd hright (not_padsRight_of_le (Nat.not_lt.mp hlt) hmore)
    · rintro (⟨heq, -⟩ | ⟨-, hlt, hfits, hdvd⟩)
      · exact absurd heq (Nat.ne_of_gt hmore)
      · exact (padsRight_of_lt hlt hmore hfits).mpr hdvd

end DecodeBatch

/-- Graphs of pairs: each request runs its token and one draft token. -/
def draftPairGraphs : Parallel.GraphConfig where
  tensorParallelSize := 1
  useCudaGraph := true
  numSpecTokens := 1
  maxNumSeqs := 4
  prefillDispatchUseRSAG := false
  maxCudagraphBatchSize := 8
  padForCudagraph := fun num => if num ≤ 2 then 2 else if num ≤ 4 then 4 else 8
  dispatcher := {
    captured := fun _ => false
    dispatch := fun _ _ => none
    captured_uniform := nofun
    dispatch_captured := nofun
    dispatch_none := fun _ _ _ => rfl
    dispatch_cascade := fun _ => rfl }

/-- Three decode requests without draft tokens, in buffers for four. -/
def threeWithoutDrafts : DecodeBatch where
  numSpecTokens := 1
  maxNumReqs := 4
  lens := [1, 1, 1]
  state := {
    runner := {
      queryStartLoc := ⟨[0, 1, 2, 3, 3], [0, 1, 2, 3, 3]⟩
      seqLens := ⟨[5, 6, 7, 0], [5, 6, 7, 0]⟩
      seqStartLoc := ⟨[0, 5, 11, 18, 18], [0, 5, 11, 18, 18]⟩ }
    blockTable := ⟨[[1], [2], [3], [0]], [9, 17, 25, -1, -1, -1, -1, -1]⟩
    attn := .flash [9, 17, 25] [0, 1, 2, 3] [5, 6, 7] [0, 5, 11, 18] [[1], [2], [3]]
    common := {
      numInputTokens := 0
      numReqs := 3
      maxQueryLen := 1
      queryStartLoc := ⟨[0, 1, 2, 3], [0, 1, 2, 3]⟩
      seqLens := ⟨[5, 6, 7], [5, 6, 7]⟩
      seqStartLoc := ⟨[0, 5, 11, 18], [0, 5, 11, 18]⟩
      blockTable := [[1], [2], [3]]
      slotMapping := [9, 17, 25] } }
  lens_pos := by decide
  lens_le := by decide
  fits := by decide
  starts := ⟨rfl, rfl, rfl, rfl⟩
  length_seqLens_cpu := rfl
  length_seqLens_gpu := rfl
  seqStarts_cpu := rfl
  seqStarts_gpu := rfl
  length_seqStarts_cpu := rfl
  length_seqStarts_gpu := rfl
  common_eq := rfl
  slots_fit := by decide
  attn_checked := rfl
  attn_shares := rfl

/-- The one padding request takes the five missing tokens. -/
theorem pads_right_iff_eight : threeWithoutDrafts.PadsRight 8 4 :=
  (DecodeBatch.pads_right_iff threeWithoutDrafts 8 4 (by decide)).mpr
    (.inr ⟨by decide, by decide, by decide, by decide⟩)

/-- The ranks agree on four tokens, which makes two requests of the three. -/
theorem padded_batch_loses_request :
    Parallel.getDpGraphInfo draftPairGraphs threeWithoutDrafts.numReqs
        threeWithoutDrafts.numScheduledTokens (.plain 0 3 [3] [false] {}) = some (4, 2, true) ∧
      ¬ threeWithoutDrafts.PadsRight 4 2 := by
  refine ⟨rfl, ?_⟩
  intro ⟨padded, hpadded, hdescribes, _⟩
  have hstarts : (threeWithoutDrafts.pad 4 2).map (·.common.queryStartLoc.cpu) =
      some [0, 1, 2] := rfl
  rw [hpadded, Option.map_some, Option.some.injEq] at hstarts
  have hlast := hdescribes.starts_cpu.last
  rw [hstarts] at hlast
  exact absurd hlast (by decide)

end VllmMlu.Worker
