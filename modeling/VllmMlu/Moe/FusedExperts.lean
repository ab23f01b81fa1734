import VllmMlu.Moe.ExpertTiles

/-! The two launches of a chunk: after them the third cache holds the outputs of all experts of
each token. -/
namespace VllmMlu.Moe
open VllmMlu.Library VllmMlu.Library.Kernel

variable {R : Type}

/-- The values of stacked weights. -/
structure ExpertWeights.Stacks (b : ExpertWeights R) (numExperts numRows numCols : Nat)
    (w : Nat → Nat → Nat → R) : Prop where
  size0 : b.size0 = numExperts
  size1 : b.size1 = numRows
  size2 : b.size2 = numCols
  get : ∀ e < numExperts, ∀ c < numRows, ∀ h < numCols,
    b.data[e * b.stride0 + c * b.stride1 + h]? = some (w e c h)

section Arguments

variable {a topkWeights : List R} {b : ExpertWeights R} {topkIds : List Nat}
  {aRows aCols size1 topK numLocal numExperts total : Nat} {aligned : AlignedTokens Int}
  {mulRoutedWeight : Bool} {config : MoeConfig} {expertMap : Option (List Int)}
  {x : Nat → Nat → R} {w : Nat → Nat → Nat → R} {weight : Nat → R}

theorem fusedMoeArgs_describes (ha : Holds a aRows aCols x) (hb : b.Stacks numLocal size1 aCols w)
    (hweights : ∀ r < aRows * topK, topkWeights[r]? = some (weight r)) (htopK : 0 < topK) :
    (fusedMoeArgs a aRows aCols b topkWeights aligned mulRoutedWeight topK config).Describes
      aRows numLocal x w weight where
  a := by
    rw [← hb.size2] at ha
    exact ha
  b e he c hc h hh := hb.get e he c (hb.size1 ▸ hc) h (hb.size2 ▸ hh)
  topkWeights := hweights
  numValidTokens := rfl
  topK := htopK
  strideAm := hb.size2.symm
  strideAk := rfl
  strideBk := rfl
  strideCm := rfl
  strideCn := rfl

/-- The shortened grid still reaches all sorted tokens. -/
theorem le_shortenedEm {numSlots blockSizeM : Nat} (hfits : total ≤ numSlots)
    (hsmall : total ≤ aRows * topK * blockSizeM) :
    total ≤ shortenedEm aRows topK blockSizeM numSlots := by
  rw [shortenedEm]
  split
  · exact Nat.le_min.mpr ⟨hfits, hsmall⟩
  · exact hfits

theorem fusedMoeArgs_sorts
    (haligned : SortedChunk topkIds numExperts config.blockSizeM expertMap aligned total)
    (hlength : topkIds.length = aRows * topK) :
    (fusedMoeArgs a aRows aCols b topkWeights aligned mulRoutedWeight topK config).Sorts topkIds
      numExperts expertMap total where
  aligned := haligned
  numValidTokens := hlength
  em := by
    apply le_shortenedEm haligned.fits
    rw [← hlength]
    exact haligned.small

end Arguments

/-- An operation on the view of a matrix in front of a buffer. -/
theorem onPrefix_returns {f : List R → Except KernelError (List R)} {buffer : List R}
    {numRows numCols size : Nat} {final : Nat → Nat → R} (hsize : size = numRows * numCols)
    (hle : size ≤ buffer.length)
    (hf : ∀ view, view.length = size → ∃ result, f view = .ok result ∧
      Holds result numRows numCols final) :
    ∃ next, FusedInputs.onPrefix size f buffer = .ok next ∧ next.length = buffer.length ∧
      Holds (next.take size) numRows numCols final := by
  obtain ⟨view, hview, hholds⟩ := hf (buffer.take size) (by rw [List.length_take]; omega)
  refine ⟨_, bind_eq_ok.mpr ⟨view, hview, rfl⟩, ?_, ?_⟩
  · rw [List.length_append, List.length_drop, hholds.length]
    omega
  · rwa [List.take_left' (hholds.length.trans hsize.symm)]

namespace FusedInputs

variable {inputs : FusedInputs R} {run : FusedRun R}
  {numLocal intermediate numExperts tokens total : Nat} {currHiddenStates currTopkWeights : List R}
  {topkIds : List Nat} {aligned : AlignedTokens Int} {x weight : Nat → Nat → R}
  {w1 w2 : Nat → Nat → Nat → R}

/-- What the launches of a chunk work on. -/
structure ChunkData (inputs : FusedInputs R) (run : FusedRun R)
    (numLocal intermediate numExperts tokens : Nat) (currHiddenStates currTopkWeights : List R)
    (topkIds : List Nat) (aligned : AlignedTokens Int) (total : Nat) (x weight : Nat → Nat → R)
    (w1 w2 : Nat → Nat → Nat → R) : Prop where
  hiddenStates : Holds currHiddenStates tokens inputs.hidden x
  topkWeights : Holds currTopkWeights tokens inputs.topK weight
  w1 : inputs.w1.Stacks numLocal (2 * intermediate) inputs.hidden w1
  w2 : inputs.w2.Stacks numLocal inputs.hidden intermediate w2
  aligned : SortedChunk topkIds numExperts run.config.blockSizeM inputs.expertMap aligned total
  length : topkIds.length = tokens * inputs.topK
  experts : LocalExperts inputs.expertMap numExperts numLocal
  topK : 0 < inputs.topK

/-- The weight of a choice. -/
def choiceWeight (inputs : FusedInputs R) (weight : Nat → Nat → R) (r : Nat) : R :=
  weight (r / inputs.topK) (r % inputs.topK)

theorem ChunkData.choiceWeights
    (hdata : inputs.ChunkData run numLocal intermediate numExperts tokens currHiddenStates
      currTopkWeights topkIds aligned total x weight w1 w2) :
    ∀ r < tokens * inputs.topK, currTopkWeights[r]? = some (inputs.choiceWeight weight r) := by
  intro r hr
  have hrow : r / inputs.topK < tokens := (Nat.div_lt_iff_lt_mul hdata.topK).mpr hr
  have hget := hdata.topkWeights.get _ hrow _ (Nat.mod_lt r hdata.topK)
  rwa [Nat.div_add_mod'] at hget

theorem ChunkData.firstDescribes
    (hdata : inputs.ChunkData run numLocal intermediate numExperts tokens currHiddenStates
      currTopkWeights topkIds aligned total x weight w1 w2) :
    (inputs.firstArgs run currHiddenStates currTopkWeights aligned tokens).Describes tokens numLocal
      x w1 (inputs.choiceWeight weight) :=
  fusedMoeArgs_describes hdata.hiddenStates hdata.w1 hdata.choiceWeights hdata.topK

theorem ChunkData.firstSorts
    (hdata : inputs.ChunkData run numLocal intermediate numExperts tokens currHiddenStates
      currTopkWeights topkIds aligned total x weight w1 w2) :
    (inputs.firstArgs run currHiddenStates currTopkWeights aligned tokens).Sorts topkIds numExperts
      inputs.expertMap total :=
  fusedMoeArgs_sorts hdata.aligned hdata.length

theorem ChunkData.secondDescribes
    (hdata : inputs.ChunkData run numLocal intermediate numExperts tokens currHiddenStates
      currTopkWeights topkIds aligned total x weight w1 w2) {cache2 : List R}
    {activated : Nat → Nat → R}
    (hcache2 : Holds cache2 (tokens * inputs.topK) intermediate activated) :
    (inputs.secondArgs run cache2 currTopkWeights aligned tokens).Describes (tokens * inputs.topK)
      numLocal activated w2 (inputs.choiceWeight weight) := by
  have hcols : inputs.w1.size1 / 2 = intermediate := by rw [hdata.w1.size1]; omega
  rw [← hcols] at hcache2
  refine fusedMoeArgs_describes hcache2 (hcols ▸ hdata.w2) ?_ Nat.one_pos
  rw [Nat.mul_one]
  exact hdata.choiceWeights

theorem ChunkData.secondSorts
    (hdata : inputs.ChunkData run numLocal intermediate numExperts tokens currHiddenStates
      currTopkWeights topkIds aligned total x weight w1 w2) (cache2 : List R) :
    (inputs.secondArgs run cache2 currTopkWeights aligned tokens).Sorts topkIds numExperts
      inputs.expertMap total :=
  fusedMoeArgs_sorts hdata.aligned (hdata.length.trans (Nat.mul_one _).symm)

end FusedInputs

section Experts

variable [CommSemiring R]

def matVec (size : Nat) (w : Nat → Nat → R) (v : Nat → R) (c : Nat) : R :=
  ∑ h ∈ Finset.range size, w c h * v h

/-- `W2 act(W1 x)` with the weight of the router. -/
def expertOutput (ops : FusedOps R) (onInput : Bool) (hidden intermediate : Nat)
    (w1 w2 : Nat → Nat → R) (x : Nat → R) (weight : R) (c : Nat) : R :=
  let act := fun up : Nat → R => ops.active ((List.range (2 * intermediate)).map up)
  if onInput then matVec intermediate w2 (act fun n => weight * matVec hidden w1 x n) c
  else weight * matVec intermediate w2 (act (matVec hidden w1 x)) c

/-- What a choice of the router adds to a token: nothing for an expert of another rank. -/
def choiceOutput (ops : FusedOps R) (onInput : Bool) (hidden intermediate : Nat)
    (w1 w2 : Nat → Nat → Nat → R) (expert : Int) (x : Nat → R) (weight : R) (c : Nat) : R :=
  if expert = -1 then 0
  else expertOutput ops onInput hidden intermediate (w1 expert.toNat) (w2 expert.toNat) x weight c

/-- A launch on the view of its output in front of a cache. -/
theorem FusedMoeArgs.launch_onPrefix {args : FusedMoeArgs R}
    {aRows numLocal numExperts total numRows : Nat}
    {x : Nat → Nat → R} {w : Nat → Nat → Nat → R} {weight : Nat → R} {topkIds : List Nat}
    {expertMap : Option (List Int)} (hargs : args.Describes aRows numLocal x w weight)
    (hsorts : args.Sorts topkIds numExperts expertMap total)
    (hlocal : LocalExperts expertMap numExperts numLocal) (ops : FusedOps R) (order : LaunchOrder)
    (hrows : args.numValidTokens = numRows) {cache13 : List R}
    (hle : numRows * args.n ≤ cache13.length) :
    ∃ next, FusedInputs.onPrefix (numRows * args.n) (invokeFusedMoeKernel ops order args) cache13 =
        .ok next ∧
      next.length = cache13.length ∧ Holds (next.take (numRows * args.n)) numRows args.n
        (args.experts topkIds expertMap x w weight) := by
  subst hrows
  exact onPrefix_returns rfl hle fun _ hlength =>
    invokeFusedMoeKernel_returns hargs hsorts hlocal ops order (Holds.of_length hlength 0)

namespace FusedInputs

variable {inputs : FusedInputs R} {run : FusedRun R}
  {numLocal intermediate numExperts tokens total : Nat} {currHiddenStates currTopkWeights : List R}
  {topkIds : List Nat} {aligned : AlignedTokens Int} {x weight : Nat → Nat → R}
  {w1 w2 : Nat → Nat → Nat → R}

theorem intermediateCache2_holds (hsize : inputs.w1.size1 = 2 * intermediate) (ops : FusedOps R)
    {rows : Nat} {cache13 : List R} {up : Nat → Nat → R}
    (hcache : Holds (cache13.take (rows * inputs.w1.size1)) rows inputs.w1.size1 up) :
    Holds (inputs.intermediateCache2 ops rows cache13) rows intermediate fun r i =>
      ops.active ((List.range (2 * intermediate)).map (up r)) i := by
  have hcols : inputs.w1.size1 / 2 = intermediate := by omega
  have hcache2 := Holds.ofRange rows (inputs.w1.size1 / 2) fun r i =>
    ops.active (Rows.chunk inputs.w1.size1 r cache13) i
  rw [hcols] at hcache2
  rw [intermediateCache2, hcols]
  refine hcache2.congr fun r hr i _ => ?_
  have hle := Nat.mul_le_mul_right inputs.w1.size1 hr
  rw [Nat.succ_mul] at hle
  have hchunk : Rows.chunk inputs.w1.size1 r cache13 =
      Rows.chunk inputs.w1.size1 r (cache13.take (rows * inputs.w1.size1)) := by
    rw [Rows.chunk, Rows.chunk, Rows.slice, Rows.slice, List.drop_take, List.take_take,
      Nat.min_eq_left (by omega)]
  rw [hchunk, hcache.chunk_eq hr, hsize]

/-- The row of a choice after the first launch. -/
theorem first_experts (hhidden : inputs.w1.size2 = inputs.hidden) {r : Nat}
    (hown : localExpert inputs.expertMap (topkIds.getD r 0) ≠ -1) :
    (inputs.firstArgs run currHiddenStates currTopkWeights aligned tokens).experts topkIds
        inputs.expertMap x w1 (inputs.choiceWeight weight) r =
      fun n => matVec inputs.hidden (w1 (localExpert inputs.expertMap (topkIds.getD r 0)).toNat)
        (x (r / inputs.topK)) n *
          if inputs.applyRouterWeightOnInput then inputs.choiceWeight weight r else 1 := by
  funext n
  rw [FusedMoeArgs.experts, FusedMoeArgs.product, if_neg hown, matVec]
  simp only [firstArgs, fusedMoeArgs, hhidden, mul_comm]

/-- The two products make the output of a choice. -/
theorem second_experts (hhidden : inputs.w1.size2 = inputs.hidden)
    (hintermediate : inputs.w2.size2 = intermediate) (ops : FusedOps R) (cache2 : List R)
    (r c : Nat) :
    (inputs.secondArgs run cache2 currTopkWeights aligned tokens).experts topkIds inputs.expertMap
        (fun r i => ops.active ((List.range (2 * intermediate)).map
          ((inputs.firstArgs run currHiddenStates currTopkWeights aligned tokens).experts topkIds
            inputs.expertMap x w1 (inputs.choiceWeight weight) r)) i)
        w2 (inputs.choiceWeight weight) r c =
      choiceOutput ops inputs.applyRouterWeightOnInput inputs.hidden intermediate w1 w2
        (localExpert inputs.expertMap (topkIds.getD r 0)) (x (r / inputs.topK))
        (inputs.choiceWeight weight r) c := by
  rw [FusedMoeArgs.experts, FusedMoeArgs.product, choiceOutput]
  split
  case isTrue hother => rfl
  case isFalse hown =>
    have hrow : r / (inputs.secondArgs run cache2 currTopkWeights aligned tokens).topK = r :=
      Nat.div_one r
    rw [hrow, first_experts hhidden hown, expertOutput]
    simp only [secondArgs, fusedMoeArgs, hintermediate]
    cases inputs.applyRouterWeightOnInput with
    | true =>
        simp only [Bool.not_true, Bool.false_eq_true, ↓reduceIte, mul_one]
        rw [matVec]
        simp only [mul_comm]
    | false =>
        simp only [Bool.not_false, Bool.false_eq_true, ↓reduceIte, mul_one]
        rw [mul_comm, matVec]
        simp only [mul_comm]

/-- After both launches, the third cache holds the outputs of all choices. -/
theorem runKernels_returns
    (hdata : inputs.ChunkData run numLocal intermediate numExperts tokens currHiddenStates
      currTopkWeights topkIds aligned total x weight w1 w2) (ops : FusedOps R) (orders : ChunkOrders)
    {cache13 : List R}
    (hfirst : tokens * inputs.topK * (2 * intermediate) ≤ cache13.length)
    (hsecond : tokens * inputs.topK * inputs.hidden ≤ cache13.length) :
    ∃ next, inputs.runKernels run ops orders currHiddenStates currTopkWeights aligned tokens tokens
        cache13 = .ok next ∧
      next.length = cache13.length ∧ ∀ t < tokens, ∀ k < inputs.topK, ∀ c < inputs.hidden,
        inputs.cache3At next t k c =
          choiceOutput ops inputs.applyRouterWeightOnInput inputs.hidden intermediate w1 w2
            (localExpert inputs.expertMap (topkIds.getD (t * inputs.topK + k) 0)) (x t)
            (weight t k) c := by
  have hn1 : inputs.w1.size1 = 2 * intermediate := hdata.w1.size1
  have hn2 : inputs.w2.size1 = inputs.hidden := hdata.w2.size1
  obtain ⟨middle, hmiddle, hlength, hup⟩ := FusedMoeArgs.launch_onPrefix hdata.firstDescribes
    hdata.firstSorts hdata.experts ops orders.first rfl (hn1 ▸ hfirst)
  have hcache2 := intermediateCache2_holds hn1 ops hup
  obtain ⟨next, hnext, hnextLength, hholds⟩ := FusedMoeArgs.launch_onPrefix
    (hdata.secondDescribes hcache2) (hdata.secondSorts _) hdata.experts ops orders.second
    (Nat.mul_one _) (hlength.symm ▸ hn2 ▸ hsecond)
  refine ⟨next, bind_eq_ok.mpr ⟨middle, hmiddle, hnext⟩, hnextLength.trans hlength,
    fun t ht k hk c hc => ?_⟩
  have hrow : t * inputs.topK + k < tokens * inputs.topK := Holds.row_lt ht hk
  have hcol : c < inputs.w2.size1 := hn2.symm ▸ hc
  have hget : (next.take (tokens * inputs.topK * inputs.w2.size1))[
      (t * inputs.topK + k) * inputs.w2.size1 + c]? = some _ := hholds.get _ hrow c hcol
  rw [List.getElem?_take_of_lt (Holds.row_lt hrow hcol), second_experts hdata.w1.size2
    hdata.w2.size2, choiceWeight, grid_div hk, grid_mod hk] at hget
  rw [cache3At, List.getD_eq_getElem?_getD, hget, Option.getD_some]

end FusedInputs

end Experts

end VllmMlu.Moe
