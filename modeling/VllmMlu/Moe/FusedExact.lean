import VllmMlu.Moe.FusedChunks

/-! When the layer equals its definition: for two and more choices of a token always, for a single
one only where there is nothing to write. -/
namespace VllmMlu.Moe
open VllmMlu.Library VllmMlu.Library.Kernel

variable {R : Type} [CommSemiring R]

namespace FusedInputs

/-- The output equals its definition, and the launches of every chunk have a sound grid. -/
structure ExactRun (inputs : FusedInputs R) (run : FusedRun R) (ops : FusedOps R)
    (intermediate : Nat) (w1 w2 : Nat → Nat → Nat → R) (x weight : Nat → Nat → R) : Prop where
  rows : ∃ out, inputs.fusedExpertsImpl run ops = .ok out ∧ Holds out inputs.numTokens inputs.hidden
    (inputs.tokenOutput ops intermediate w1 w2 x weight)
  grids : ∀ chunk, 0 < inputs.tokensInChunk run chunk → ∀ aligned,
    inputs.alignChunk run chunk = .ok aligned → ∀ currHiddenStates cache2 currTopkWeights,
      (inputs.firstArgs run currHiddenStates currTopkWeights aligned
          (inputs.tokensInChunk run chunk)).SoundGrid ∧
        (inputs.secondArgs run cache2 currTopkWeights aligned
          (inputs.tokensInChunk run chunk)).SoundGrid

variable {inputs : FusedInputs R} {run : FusedRun R} {ops : FusedOps R}
  {numLocal intermediate : Nat} {w1 w2 : Nat → Nat → Nat → R} {x weight : Nat → Nat → R}

omit [CommSemiring R] in
theorem soundGrids (hcase : inputs.WellFormed numLocal) (hexperts : inputs.w1.size0 = numLocal)
    {chunk : Nat} (h : 0 < inputs.tokensInChunk run chunk) {aligned : AlignedTokens Int}
    (halign : inputs.alignChunk run chunk = .ok aligned)
    (currHiddenStates cache2 currTopkWeights : List R) :
    (inputs.firstArgs run currHiddenStates currTopkWeights aligned
        (inputs.tokensInChunk run chunk)).SoundGrid ∧
      (inputs.secondArgs run cache2 currTopkWeights aligned
        (inputs.tokensInChunk run chunk)).SoundGrid := by
  obtain ⟨other, total, hother, hsorted⟩ := alignChunk_returns hcase hexperts run chunk
  rw [halign] at hother
  cases hother
  have hlength := length_currTopkIds hcase.length h
  exact ⟨(fusedMoeArgs_sorts hsorted hlength).soundGrid,
    (fusedMoeArgs_sorts hsorted (hlength.trans (Nat.mul_one _).symm)).soundGrid⟩

theorem runChunk_out (htopK : inputs.topK = 1) {chunk : Nat} {state next : FusedState R}
    (hok : inputs.runChunk run ops chunk state = .ok next) : next.out = state.out := by
  obtain ⟨aligned, -, hok⟩ := bind_eq_ok.mp hok
  split at hok
  case isTrue hempty => cases hok
  case isFalse hrows =>
    obtain ⟨cache13, -, hok⟩ := bind_eq_ok.mp hok
    rw [reduce_one htopK] at hok
    cases hok
    rfl

/-- With a single choice for each token, no chunk writes its rows. -/
theorem runChunks_out (htopK : inputs.topK = 1) {chunks : List Nat} {state result : FusedState R}
    (hok : inputs.runChunks run ops chunks state = .ok result) : result.out = state.out := by
  induction chunks generalizing state with
  | nil =>
      cases hok
      rfl
  | cons chunk rest ih =>
      rw [runChunks] at hok
      split at hok
      case isTrue hnone =>
        cases hok
        rfl
      case isFalse hsome =>
        obtain ⟨next, hnext, hok⟩ := bind_eq_ok.mp hok
        rw [ih hok, runChunk_out htopK hnext]

/-- The view of rows without entries raises in the first chunk. -/
theorem runChunks_viewError (hempty : inputs.w1.size1 = 0) (hsome : 0 < inputs.numTokens)
    (count : Nat) (state result : FusedState R) :
    inputs.runChunks run ops (List.range (count + 1)) state ≠ .ok result := by
  intro hok
  have htokens : inputs.tokensInChunk run 0 ≠ 0 := by
    have hpos := run.chunkSize_pos
    rw [tokensInChunk, Nat.zero_add, Nat.one_mul, Nat.zero_mul]
    omega
  rw [List.range_succ_eq_map, runChunks, if_neg htokens] at hok
  obtain ⟨next, hnext, -⟩ := bind_eq_ok.mp hok
  obtain ⟨aligned, -, hnext⟩ := bind_eq_ok.mp hnext
  rw [if_pos hempty] at hnext
  cases hnext

/-- Without tokens the loop ends at once. -/
theorem fusedExpertsImpl_none (hcase : inputs.WellFormed numLocal)
    (hcontains : inputs.Contains run numLocal intermediate w1 w2 x weight)
    (hnone : inputs.numTokens = 0) :
    ∃ out, inputs.fusedExpertsImpl run ops = .ok out ∧ Holds out inputs.numTokens inputs.hidden
      (inputs.tokenOutput ops intermediate w1 w2 x weight) := by
  have htokens : inputs.tokensInChunk run 0 = 0 := by
    rw [tokensInChunk, hnone, Nat.min_zero, Nat.zero_sub]
  refine ⟨if inputs.isInplace run then inputs.hiddenStates else run.outInit, ?_, ?_, ?_⟩
  · rw [fusedExpertsImpl_eq hcase hcontains, List.range_succ_eq_map, runChunks, if_pos htokens]
    rfl
  · split
    · exact hcontains.hiddenStates.length
    · exact hcontains.outInit
  · rw [hnone]
    exact fun t ht => absurd ht (Nat.not_lt_zero t)

end FusedInputs

/-! Tokens of ones, experts of zeros. -/

def zeroWeights (numExperts numRows numCols : Nat) : ExpertWeights R where
  size0 := numExperts
  size1 := numRows
  size2 := numCols
  stride0 := numRows * numCols
  stride1 := numCols
  data := List.replicate (numExperts * (numRows * numCols)) 0

theorem zeroWeights_stacks (numExperts numRows numCols : Nat) :
    (zeroWeights numExperts numRows numCols : ExpertWeights R).Stacks numExperts numRows numCols
      fun _ _ _ => 0 where
  size0 := rfl
  size1 := rfl
  size2 := rfl
  get e he c hc h hh := by
    simp only [zeroWeights, Nat.add_assoc]
    rw [List.getElem?_replicate, if_pos (Holds.row_lt he (Holds.row_lt hc hh))]

namespace FusedCase

def onesInputs (inputs : FusedCase) (numLocal intermediate : Nat) : FusedInputs R where
  toFusedCase := inputs
  hiddenStates := List.replicate (inputs.numTokens * inputs.hidden) 1
  w1 := zeroWeights numLocal (2 * intermediate) inputs.hidden
  w2 := zeroWeights numLocal inputs.hidden intermediate
  topkWeights := List.replicate (inputs.numTokens * inputs.topK) 0

def onesRun (inputs : FusedCase) (intermediate : Nat) : FusedRun R where
  chunkSize := 1
  chunkSize_pos := Nat.one_pos
  disableInplace := false
  config := ⟨1, 1, 1, 1, Nat.one_pos, Nat.one_pos, Nat.one_pos, Nat.one_pos⟩
  outInit := List.replicate (inputs.numTokens * inputs.hidden) 1
  cache13Init := List.replicate
    (min inputs.numTokens 1 * inputs.topK * max (2 * intermediate) inputs.hidden) 0
  orders _ :=
    { align := fun numExperts => ⟨.ascending numExperts, .ascending numExperts, .ascending numExperts⟩
      first := GridOrder.ascending
      second := GridOrder.ascending }

theorem ones_contains (inputs : FusedCase) (numLocal intermediate : Nat) :
    (inputs.onesInputs numLocal intermediate : FusedInputs R).Contains (inputs.onesRun intermediate)
      numLocal intermediate (fun _ _ _ => 0) (fun _ _ _ => 0) (fun _ _ => 1) fun _ _ => 0 where
  w1 := zeroWeights_stacks _ _ _
  w2 := zeroWeights_stacks _ _ _
  hiddenStates := Holds.replicate _ _ 1
  topkWeights := Holds.replicate _ _ 0
  outInit := List.length_replicate
  cache13Init := List.length_replicate

theorem tokenOutput_zero (inputs : FusedCase) (ops : FusedOps R) (intermediate : Nat)
    (w1 : Nat → Nat → Nat → R) (x weight : Nat → Nat → R) (t c : Nat) :
    inputs.tokenOutput ops intermediate w1 (fun _ _ _ => 0) x weight t c = 0 := by
  apply Finset.sum_eq_zero
  intro k _
  rw [choiceOutput]
  split
  · rfl
  · simp [expertOutput, matVec]

/-- For all contents of the tensors, all orders of the programs and all that is uninitialised. -/
theorem fusedExpertsImpl_exact_iff [Nontrivial R] (inputs : FusedCase) {numLocal : Nat}
    (hcase : inputs.WellFormed numLocal) (ops : FusedOps R) (intermediate : Nat) :
    (∀ (call : FusedInputs R) run w1 w2 x weight, call.toFusedCase = inputs →
        call.Contains run numLocal intermediate w1 w2 x weight →
        call.ExactRun run ops intermediate w1 w2 x weight) ↔
      inputs.numTokens = 0 ∨ 0 < intermediate ∧ (2 ≤ inputs.topK ∨ inputs.hidden = 0) := by
  constructor
  · intro hexact
    rcases Nat.eq_zero_or_pos inputs.numTokens with hnone | hsome
    · exact .inl hnone
    · have hcontains := @ones_contains R _ inputs numLocal intermediate
      obtain ⟨out, hok, hout⟩ := (hexact _ _ _ _ _ _ rfl hcontains).rows
      rw [FusedInputs.fusedExpertsImpl_eq hcase hcontains] at hok
      obtain ⟨result, hresult, hok⟩ := bind_eq_ok.mp hok
      cases hok
      refine .inr ⟨Nat.pos_of_ne_zero fun hempty => ?_, ?_⟩
      · apply FusedInputs.runChunks_viewError _ hsome _ _ _ hresult
        rw [hcontains.w1.size1, hempty]
      · by_contra hsum
        obtain ⟨htopK, hhidden⟩ := not_or.mp hsum
        have hone : inputs.topK = 1 := by
          have hpos := hcase.topK
          omega
        have hget := hout.get 0 hsome 0 (Nat.pos_of_ne_zero hhidden)
        rw [FusedInputs.runChunks_out hone hresult, tokenOutput_zero] at hget
        have hstart : (if (inputs.onesInputs numLocal intermediate : FusedInputs R).isInplace
              (inputs.onesRun intermediate) then
            List.replicate (inputs.numTokens * inputs.hidden) (1 : R)
          else List.replicate (inputs.numTokens * inputs.hidden) 1)[0]? = some 1 := by
          rw [ite_self, List.getElem?_replicate,
            if_pos (Nat.mul_pos hsome (Nat.pos_of_ne_zero hhidden))]
        rw [Nat.zero_mul] at hget
        exact one_ne_zero (Option.some.inj (hstart.symm.trans hget))
  · rintro hcond call run w1 w2 x weight rfl hcontains
    refine ⟨?_, fun chunk h aligned halign =>
      FusedInputs.soundGrids hcase hcontains.w1.size0 h halign⟩
    rcases hcond with hnone | ⟨hintermediate, hsum⟩
    · exact FusedInputs.fusedExpertsImpl_none hcase hcontains hnone
    · have hpos := hcase.topK
      apply FusedInputs.fusedExpertsImpl_returns hcase hcontains hintermediate
      omega

/-- Two choices of three experts, one of which lives on another rank. -/
def pairCase : FusedCase := ⟨2, 1, 2, [0, 1, 2, 0], true, true, 3, some [0, -1, 1]⟩

theorem pairCase_wellFormed : pairCase.WellFormed 2 where
  topK := by decide
  numExperts := by decide
  length := by decide
  ids := by decide
  map := by simp [MapsExperts, FusedCase.numExperts, pairCase]
  experts := by
    unfold LocalExperts
    decide

theorem fusedExpertsImpl_exact_pair : pairCase.WellFormed 2 ∧
    ∀ (call : FusedInputs Int) run w1 w2 x weight, call.toFusedCase = pairCase →
      call.Contains run 2 1 w1 w2 x weight →
      call.ExactRun run ⟨fun lanes => lanes.store fun _ _ => 0,
        fun row j => row.getD j 0 * row.getD (row.length / 2 + j) 0, fun _ _ => rfl⟩
        1 w1 w2 x weight :=
  ⟨pairCase_wellFormed,
    (fusedExpertsImpl_exact_iff pairCase pairCase_wellFormed _ 1).mpr
      (.inr ⟨by decide, .inl (by decide)⟩)⟩

end FusedCase

end VllmMlu.Moe
