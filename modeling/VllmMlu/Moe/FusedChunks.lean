import VllmMlu.Moe.FusedExperts

/-! The loop over the chunks: every chunk replaces its own rows of the output by the sums over
the choices of its tokens, which for a single choice the code leaves out. -/
namespace VllmMlu.Moe
open VllmMlu.Library VllmMlu.Library.Kernel

variable {R : Type}

/-- Sizes and routing as a layer hands them over: the choices are experts, and those of the rank
have weights. -/
structure FusedCase.WellFormed (inputs : FusedCase) (numLocal : Nat) : Prop where
  topK : 0 < inputs.topK
  numExperts : 0 < inputs.numExperts numLocal
  length : inputs.topkIds.length = inputs.numTokens * inputs.topK
  ids : ∀ id ∈ inputs.topkIds, id < inputs.numExperts numLocal
  map : MapsExperts inputs.expertMap (inputs.numExperts numLocal)
  experts : LocalExperts inputs.expertMap (inputs.numExperts numLocal) numLocal

/-- The output of a token: the sum over its choices. -/
def FusedCase.tokenOutput [CommSemiring R] (inputs : FusedCase) (ops : FusedOps R)
    (intermediate : Nat) (w1 w2 : Nat → Nat → Nat → R) (x weight : Nat → Nat → R) (t c : Nat) : R :=
  ∑ k ∈ Finset.range inputs.topK, choiceOutput ops inputs.applyRouterWeightOnInput inputs.hidden
    intermediate w1 w2 (localExpert inputs.expertMap (inputs.topkIds.getD (t * inputs.topK + k) 0))
    (x t) (weight t k) c

namespace FusedInputs

/-- The values of the tensors, and the sizes of those that start uninitialised. -/
structure Contains (inputs : FusedInputs R) (run : FusedRun R) (numLocal intermediate : Nat)
    (w1 w2 : Nat → Nat → Nat → R) (x weight : Nat → Nat → R) : Prop where
  w1 : inputs.w1.Stacks numLocal (2 * intermediate) inputs.hidden w1
  w2 : inputs.w2.Stacks numLocal inputs.hidden intermediate w2
  hiddenStates : Holds inputs.hiddenStates inputs.numTokens inputs.hidden x
  topkWeights : Holds inputs.topkWeights inputs.numTokens inputs.topK weight
  outInit : run.outInit.length = inputs.numTokens * inputs.hidden
  cache13Init : run.cache13Init.length =
    inputs.m run * inputs.topK * max (2 * intermediate) inputs.hidden

section Chunk

variable {inputs : FusedInputs R} {run : FusedRun R} {chunk : Nat}

/-- Where a chunk with tokens lies. -/
theorem tokensInChunk_bounds (h : 0 < inputs.tokensInChunk run chunk) :
    chunk * run.chunkSize + inputs.tokensInChunk run chunk ≤ inputs.numTokens ∧
      inputs.tokensInChunk run chunk ≤ inputs.m run ∧
      ∀ t < inputs.numTokens, t < (chunk + 1) * run.chunkSize ↔
        t < chunk * run.chunkSize + inputs.tokensInChunk run chunk := by
  rw [tokensInChunk] at h ⊢
  rw [m, Nat.add_one_mul] at *
  refine ⟨by omega, by omega, fun t ht => by omega⟩

theorem length_currTopkIds (hlength : inputs.topkIds.length = inputs.numTokens * inputs.topK)
    (h : 0 < inputs.tokensInChunk run chunk) :
    (inputs.currTopkIds run chunk).length = inputs.tokensInChunk run chunk * inputs.topK := by
  have hle := Nat.mul_le_mul_right inputs.topK (tokensInChunk_bounds h).1
  rw [Nat.add_mul] at hle
  rw [currTopkIds, Rows.length_slice, hlength]
  omega

theorem getD_currTopkIds {t k : Nat} (ht : t < inputs.tokensInChunk run chunk)
    (hk : k < inputs.topK) :
    (inputs.currTopkIds run chunk).getD (t * inputs.topK + k) 0 =
      inputs.topkIds.getD ((chunk * run.chunkSize + t) * inputs.topK + k) 0 := by
  rw [currTopkIds, List.getD_eq_getElem?_getD, List.getD_eq_getElem?_getD,
    Rows.getElem?_slice _ (Holds.row_lt ht hk), ← Nat.add_assoc, ← Nat.add_mul]

/-- The alignment of a chunk. -/
theorem alignChunk_returns {numLocal : Nat} (hcase : inputs.WellFormed numLocal)
    (hexperts : inputs.w1.size0 = numLocal) (run : FusedRun R) (chunk : Nat) :
    ∃ aligned total, inputs.alignChunk run chunk = .ok aligned ∧
      SortedChunk (inputs.currTopkIds run chunk) inputs.numExperts run.config.blockSizeM
        inputs.expertMap aligned total := by
  subst hexperts
  have hids : ∀ id ∈ inputs.currTopkIds run chunk, id < inputs.numExperts := by
    intro id hmem
    exact hcase.ids id (List.mem_of_mem_drop (List.mem_of_mem_take hmem))
  exact align_returns ((run.orders chunk).align inputs.numExperts) hcase.numExperts
    run.config.blockSizeM_pos hids hcase.map

/-- What the launches of a chunk work on. -/
theorem chunkData {numLocal intermediate total : Nat} {w1 w2 : Nat → Nat → Nat → R}
    {x weight : Nat → Nat → R} {currHiddenStates : List R} {aligned : AlignedTokens Int}
    (hcase : inputs.WellFormed numLocal)
    (hcontains : inputs.Contains run numLocal intermediate w1 w2 x weight)
    (h : 0 < inputs.tokensInChunk run chunk)
    (hhidden : Holds currHiddenStates (inputs.tokensInChunk run chunk) inputs.hidden fun t c =>
      x (chunk * run.chunkSize + t) c)
    (hsorted : SortedChunk (inputs.currTopkIds run chunk) inputs.numExperts run.config.blockSizeM
      inputs.expertMap aligned total) :
    inputs.ChunkData run numLocal intermediate inputs.numExperts (inputs.tokensInChunk run chunk)
      currHiddenStates
      (Rows.slice (chunk * run.chunkSize * inputs.topK)
        (inputs.tokensInChunk run chunk * inputs.topK) inputs.topkWeights)
      (inputs.currTopkIds run chunk) aligned total
      (fun t c => x (chunk * run.chunkSize + t) c)
      (fun t k => weight (chunk * run.chunkSize + t) k) w1 w2 where
  hiddenStates := hhidden
  topkWeights := hcontains.topkWeights.slice (tokensInChunk_bounds h).1
  w1 := hcontains.w1
  w2 := hcontains.w2
  aligned := hsorted
  length := length_currTopkIds hcase.length h
  experts := by
    rw [numExperts, hcontains.w1.size0]
    exact hcase.experts
  topK := hcase.topK

/-- The rows of the caches are those of the chunk: only the last chunk has fewer than the
first, and it cuts them. -/
theorem cacheTokens_eq (h : 0 < inputs.tokensInChunk run chunk) :
    (if inputs.tokensInChunk run chunk < run.chunkSize ∧ 0 < chunk
      then inputs.tokensInChunk run chunk else inputs.m run) = inputs.tokensInChunk run chunk := by
  split
  case isTrue hlast => rfl
  case isFalse hfull =>
    rw [tokensInChunk] at *
    rw [m]
    rcases Nat.eq_zero_or_pos chunk with rfl | hpos
    · simp
      omega
    · have hsize : run.chunkSize ≤ chunk * run.chunkSize := Nat.le_mul_of_pos_left _ hpos
      rw [Nat.add_one_mul] at *
      omega

end Chunk

section Reduce

variable [CommSemiring R] {inputs : FusedInputs R} {run : FusedRun R} {state : FusedState R}
  {start tokens : Nat} {entry : Nat → Nat → R}

/-- A single choice is not written. -/
theorem reduce_one (htopK : inputs.topK = 1) (run : FusedRun R) (start tokens : Nat)
    (state : FusedState R) : inputs.reduce run start tokens state = state := by
  rw [reduce, htopK]
  rfl

/-- The output after a chunk whose sums are written. -/
theorem reduce_out (hsum : 2 ≤ inputs.topK ∨ inputs.topK = 1 ∧ inputs.hidden = 0)
    (hhidden : inputs.w2.size1 = inputs.hidden)
    (hout : Holds state.out inputs.numTokens inputs.hidden entry)
    (hfits : start + tokens ≤ inputs.numTokens) :
    Holds (inputs.reduce run start tokens state).out inputs.numTokens inputs.hidden fun t c =>
      if start ≤ t ∧ t < start + tokens then
        ∑ k ∈ Finset.range inputs.topK, inputs.cache3At state.cache13 (t - start) k c
      else entry t c := by
  rcases hsum with htopK | ⟨hone, hnone⟩
  case inl =>
    have hrows := fun sum : Nat → Nat → R => Holds.ofRange tokens inputs.w2.size1 sum
    rw [hhidden] at hrows
    rw [reduce]
    split
    case isTrue htwo =>
      rw [htwo, hhidden]
      refine (hout.splice (hrows fun t c => inputs.cache3At state.cache13 t 0 c +
        inputs.cache3At state.cache13 t 1 c) hfits).congr fun t _ c _ => ?_
      rw [Finset.sum_range_succ, Finset.sum_range_one]
    case isFalse htwo =>
      rw [if_pos (by omega), hhidden]
      exact hout.splice (hrows fun t c =>
        ∑ k ∈ Finset.range inputs.topK, inputs.cache3At state.cache13 t k c) hfits
  case inr =>
    rw [reduce_one hone]
    refine hout.congr fun t _ c hc => ?_
    rw [hnone] at hc
    exact absurd hc (Nat.not_lt_zero c)

theorem reduce_eq : inputs.reduce run start tokens state = state ∨ ∃ rows,
    inputs.reduce run start tokens state = inputs.writeOut run (start * inputs.hidden) rows state := by
  rw [reduce]
  split
  · exact .inr ⟨_, rfl⟩
  · split
    · exact .inr ⟨_, rfl⟩
    · exact .inl rfl

@[simp] theorem reduce_cache13 :
    (inputs.reduce run start tokens state).cache13 = state.cache13 := by
  rcases @reduce_eq _ _ inputs run state start tokens with heq | ⟨rows, heq⟩
  · rw [heq]
  · rw [heq, writeOut]

@[simp] theorem reduce_cacheTokens :
    (inputs.reduce run start tokens state).cacheTokens = state.cacheTokens := by
  rcases @reduce_eq _ _ inputs run state start tokens with heq | ⟨rows, heq⟩
  · rw [heq]
  · rw [heq, writeOut]

/-- In place, the tokens are overwritten with the output. -/
theorem reduce_aliased (hinplace : inputs.isInplace run = true)
    (haliased : state.hiddenStates = state.out) :
    (inputs.reduce run start tokens state).hiddenStates =
      (inputs.reduce run start tokens state).out := by
  rcases @reduce_eq _ _ inputs run state start tokens with heq | ⟨rows, heq⟩
  · rw [heq, haliased]
  · rw [heq]
    exact if_pos hinplace

theorem reduce_apart (hinplace : ¬inputs.isInplace run = true) :
    (inputs.reduce run start tokens state).hiddenStates = state.hiddenStates := by
  rcases @reduce_eq _ _ inputs run state start tokens with heq | ⟨rows, heq⟩
  · rw [heq]
  · rw [heq]
    exact if_neg hinplace

end Reduce

section Loop

variable [CommSemiring R] {inputs : FusedInputs R} {run : FusedRun R} {ops : FusedOps R}
  {numLocal intermediate chunk : Nat} {w1 w2 : Nat → Nat → Nat → R} {x weight : Nat → Nat → R}
  {state : FusedState R}

/-- In front of a chunk: the chunks before it are done, and it has its tokens still. -/
structure AtChunk (inputs : FusedInputs R) (run : FusedRun R) (ops : FusedOps R) (intermediate : Nat)
    (w1 w2 : Nat → Nat → Nat → R) (x weight : Nat → Nat → R) (chunk : Nat) (state : FusedState R) :
    Prop where
  hiddenStates : ∃ entry, Holds state.hiddenStates inputs.numTokens inputs.hidden entry ∧
    ∀ t < inputs.numTokens, chunk * run.chunkSize ≤ t → ∀ c < inputs.hidden, entry t c = x t c
  out : ∃ entry, Holds state.out inputs.numTokens inputs.hidden entry ∧
    ∀ t < inputs.numTokens, t < chunk * run.chunkSize → ∀ c < inputs.hidden,
      entry t c = inputs.tokenOutput ops intermediate w1 w2 x weight t c
  aliased : inputs.isInplace run = true → state.hiddenStates = state.out
  cache13 : state.cache13.length = inputs.m run * inputs.topK * max (2 * intermediate) inputs.hidden
  cacheTokens : chunk * run.chunkSize < inputs.numTokens → state.cacheTokens = inputs.m run

/-- The sums that a chunk writes are the outputs of its tokens. -/
theorem sum_choices {cache13 : List R} {t c : Nat}
    (hchoices : ∀ t < inputs.tokensInChunk run chunk, ∀ k < inputs.topK, ∀ c < inputs.hidden,
      inputs.cache3At cache13 t k c =
        choiceOutput ops inputs.applyRouterWeightOnInput inputs.hidden intermediate w1 w2
          (localExpert inputs.expertMap
            ((inputs.currTopkIds run chunk).getD (t * inputs.topK + k) 0))
          (x (chunk * run.chunkSize + t)) (weight (chunk * run.chunkSize + t) k) c)
    (hfirst : chunk * run.chunkSize ≤ t)
    (hlast : t < chunk * run.chunkSize + inputs.tokensInChunk run chunk) (hc : c < inputs.hidden) :
    ∑ k ∈ Finset.range inputs.topK, inputs.cache3At cache13 (t - chunk * run.chunkSize) k c =
      inputs.tokenOutput ops intermediate w1 w2 x weight t c := by
  apply Finset.sum_congr rfl
  intro k hk
  have hlt := Finset.mem_range.mp hk
  have ht : t - chunk * run.chunkSize < inputs.tokensInChunk run chunk := by omega
  rw [hchoices _ ht k hlt c hc, getD_currTopkIds ht hlt, Nat.add_sub_of_le hfirst]

/-- The kernels leave the tokens and the output alone, and the chunk's own rows are summed. -/
theorem AtChunk.advance (hcontains : inputs.Contains run numLocal intermediate w1 w2 x weight)
    (hsum : 2 ≤ inputs.topK ∨ inputs.topK = 1 ∧ inputs.hidden = 0)
    (h : 0 < inputs.tokensInChunk run chunk) {middle : FusedState R}
    (hat : inputs.AtChunk run ops intermediate w1 w2 x weight chunk
      { middle with cacheTokens := inputs.m run })
    (hcut : middle.cacheTokens = inputs.tokensInChunk run chunk)
    (hchoices : ∀ t < inputs.tokensInChunk run chunk, ∀ k < inputs.topK, ∀ c < inputs.hidden,
      inputs.cache3At middle.cache13 t k c =
        choiceOutput ops inputs.applyRouterWeightOnInput inputs.hidden intermediate w1 w2
          (localExpert inputs.expertMap
            ((inputs.currTopkIds run chunk).getD (t * inputs.topK + k) 0))
          (x (chunk * run.chunkSize + t)) (weight (chunk * run.chunkSize + t) k) c) :
    inputs.AtChunk run ops intermediate w1 w2 x weight (chunk + 1)
      (inputs.reduce run (chunk * run.chunkSize) (inputs.tokensInChunk run chunk) middle) := by
  obtain ⟨hfits, hm, hstop⟩ := tokensInChunk_bounds h
  obtain ⟨entry, hhidden, hkept⟩ := hat.hiddenStates
  obtain ⟨outEntry, hout, hdone⟩ := hat.out
  have hstart : chunk * run.chunkSize ≤ (chunk + 1) * run.chunkSize :=
    Nat.mul_le_mul_right _ (Nat.le_succ chunk)
  have hreduced := fun entry => @reduce_out _ _ inputs run middle (chunk * run.chunkSize)
    (inputs.tokensInChunk run chunk) entry hsum hcontains.w2.size1
  constructor
  case hiddenStates =>
    by_cases hinplace : inputs.isInplace run = true
    · have haliased : middle.hiddenStates = middle.out := hat.aliased hinplace
      rw [haliased] at hhidden
      have hplaced := hreduced entry hhidden hfits
      rw [← reduce_aliased hinplace haliased] at hplaced
      refine ⟨_, hplaced, fun t ht hrest c hc => ?_⟩
      rw [if_neg fun hin => absurd ((hstop t ht).mpr hin.2) (Nat.not_lt.mpr hrest),
        hkept t ht (hstart.trans hrest) c hc]
    · refine ⟨entry, ?_, fun t ht hrest => hkept t ht (hstart.trans hrest)⟩
      rw [reduce_apart hinplace]
      exact hhidden
  case out =>
    refine ⟨_, hreduced outEntry hout hfits, fun t ht hbefore c hc => ?_⟩
    have hlast := (hstop t ht).mp hbefore
    by_cases hfirst : chunk * run.chunkSize ≤ t
    · rw [if_pos ⟨hfirst, hlast⟩]
      exact sum_choices hchoices hfirst hlast hc
    · rw [if_neg fun hin => hfirst hin.1, hdone t ht (Nat.lt_of_not_le hfirst) c hc]
  case aliased =>
    intro hinplace
    exact reduce_aliased hinplace (hat.aliased hinplace)
  case cache13 =>
    rw [reduce_cache13]
    exact hat.cache13
  case cacheTokens =>
    intro hmore
    have hpos := run.chunkSize_pos
    have hle : inputs.m run ≤ run.chunkSize := Nat.min_le_right _ _
    rw [Nat.add_one_mul] at hmore
    have hfull := (hstop (chunk * run.chunkSize + (run.chunkSize - 1)) (by omega)).mp (by
      rw [Nat.add_one_mul]
      omega)
    rw [reduce_cacheTokens, hcut]
    omega

theorem runChunk_returns (hcase : inputs.WellFormed numLocal)
    (hcontains : inputs.Contains run numLocal intermediate w1 w2 x weight)
    (hintermediate : 0 < intermediate)
    (hsum : 2 ≤ inputs.topK ∨ inputs.topK = 1 ∧ inputs.hidden = 0)
    (h : 0 < inputs.tokensInChunk run chunk)
    (hat : inputs.AtChunk run ops intermediate w1 w2 x weight chunk state) :
    ∃ next, inputs.runChunk run ops chunk state = .ok next ∧
      inputs.AtChunk run ops intermediate w1 w2 x weight (chunk + 1) next := by
  obtain ⟨hfits, hm, -⟩ := tokensInChunk_bounds h
  obtain ⟨entry, hhidden, hkept⟩ := hat.hiddenStates
  obtain ⟨aligned, total, halign, hsorted⟩ :=
    alignChunk_returns hcase hcontains.w1.size0 run chunk
  have hdata := chunkData hcase hcontains h ((hhidden.slice hfits).congr fun t ht c hc =>
    hkept _ (by omega) (Nat.le_add_right _ _) c hc) hsorted
  have hsize : ∀ width ≤ max (2 * intermediate) inputs.hidden,
      inputs.tokensInChunk run chunk * inputs.topK * width ≤ state.cache13.length := by
    intro width hwidth
    rw [hat.cache13]
    exact Nat.mul_le_mul (Nat.mul_le_mul_right _ hm) hwidth
  obtain ⟨cache13, hkernels, hlength, hchoices⟩ := runKernels_returns hdata ops (run.orders chunk)
    (hsize _ (Nat.le_max_left _ _)) (hsize _ (Nat.le_max_right _ _))
  have hcut : (if inputs.tokensInChunk run chunk < run.chunkSize ∧ 0 < chunk
      then inputs.tokensInChunk run chunk else state.cacheTokens) =
        inputs.tokensInChunk run chunk := by
    rw [hat.cacheTokens (by omega), cacheTokens_eq h]
  have hnonempty : inputs.w1.size1 ≠ 0 := by
    rw [hcontains.w1.size1]
    omega
  refine ⟨inputs.reduce run (chunk * run.chunkSize) (inputs.tokensInChunk run chunk)
    { state with cache13 := cache13, cacheTokens := inputs.tokensInChunk run chunk }, ?_, ?_⟩
  · rw [runChunk, halign]
    refine bind_eq_ok.mpr ⟨aligned, rfl, (if_neg hnonempty).trans (bind_eq_ok.mpr ⟨cache13, ?_, ?_⟩)⟩
    · rw [hcut, hkernels]
      rfl
    · rw [hcut]
      rfl
  · refine AtChunk.advance hcontains hsum h ?_ rfl hchoices
    exact ⟨hat.hiddenStates, hat.out, hat.aliased, hlength.trans hat.cache13, fun _ => rfl⟩

/-- No chunk is left. -/
theorem AtChunk.done (hat : inputs.AtChunk run ops intermediate w1 w2 x weight chunk state)
    (hend : inputs.numTokens ≤ chunk * run.chunkSize) :
    Holds state.out inputs.numTokens inputs.hidden
      (inputs.tokenOutput ops intermediate w1 w2 x weight) := by
  obtain ⟨entry, hout, hdone⟩ := hat.out
  exact hout.congr fun t ht => hdone t ht (ht.trans_le hend)

/-- The induction is on the chunks that are left. -/
theorem runChunks_returns (hcase : inputs.WellFormed numLocal)
    (hcontains : inputs.Contains run numLocal intermediate w1 w2 x weight)
    (hintermediate : 0 < intermediate)
    (hsum : 2 ≤ inputs.topK ∨ inputs.topK = 1 ∧ inputs.hidden = 0) {count : Nat}
    (hall : inputs.numTokens ≤ (chunk + count) * run.chunkSize)
    (hat : inputs.AtChunk run ops intermediate w1 w2 x weight chunk state) :
    ∃ result, inputs.runChunks run ops (List.range' chunk count) state = .ok result ∧
      Holds result.out inputs.numTokens inputs.hidden
        (inputs.tokenOutput ops intermediate w1 w2 x weight) := by
  induction count generalizing chunk state with
  | zero => exact ⟨state, rfl, hat.done hall⟩
  | succ count ih =>
      by_cases hnone : inputs.tokensInChunk run chunk = 0
      · have hend : inputs.numTokens ≤ chunk * run.chunkSize := by
          have hpos := run.chunkSize_pos
          rw [tokensInChunk, Nat.add_one_mul] at hnone
          omega
        exact ⟨state, if_pos hnone, hat.done hend⟩
      · obtain ⟨next, hnext, hatNext⟩ := runChunk_returns hcase hcontains hintermediate hsum
          (Nat.pos_of_ne_zero hnone) hat
        obtain ⟨result, hresult, hdone⟩ := ih (by rwa [Nat.add_right_comm]) hatNext
        exact ⟨result, (if_neg hnone).trans (bind_eq_ok.mpr ⟨next, hnext, hresult⟩), hdone⟩

/-- In front of the first chunk. -/
theorem atChunk_zero (hcontains : inputs.Contains run numLocal intermediate w1 w2 x weight) :
    inputs.AtChunk run ops intermediate w1 w2 x weight 0 ⟨inputs.hiddenStates,
      if inputs.isInplace run then inputs.hiddenStates else run.outInit, run.cache13Init,
      inputs.m run⟩ where
  hiddenStates := ⟨x, hcontains.hiddenStates, fun _ _ _ _ _ => rfl⟩
  out := by
    refine ⟨_, Holds.of_length ?_ 0, fun t _ hbefore => ?_⟩
    · split
      · exact hcontains.hiddenStates.length
      · exact hcontains.outInit
    · rw [Nat.zero_mul] at hbefore
      exact absurd hbefore (Nat.not_lt_zero t)
  aliased hinplace := (if_pos hinplace).symm
  cache13 := hcontains.cache13Init
  cacheTokens _ := rfl

theorem fusedExpertsImpl_eq (hcase : inputs.WellFormed numLocal)
    (hcontains : inputs.Contains run numLocal intermediate w1 w2 x weight) :
    inputs.fusedExpertsImpl run ops = inputs.runChunks run ops
        (List.range (inputs.numTokens / run.chunkSize + 1)) ⟨inputs.hiddenStates,
          if inputs.isInplace run then inputs.hiddenStates else run.outInit, run.cache13Init,
          inputs.m run⟩ >>= fun state => pure state.out := by
  have hlength : inputs.topkWeights.length = inputs.topkIds.length := by
    rw [hcontains.topkWeights.length, hcase.length]
  rw [fusedExpertsImpl, if_neg (not_not.mpr hcontains.w1.size2.symm), if_neg (not_not.mpr hlength)]

/-- The output of the layer where its choices are summed. -/
theorem fusedExpertsImpl_returns (hcase : inputs.WellFormed numLocal)
    (hcontains : inputs.Contains run numLocal intermediate w1 w2 x weight)
    (hintermediate : 0 < intermediate)
    (hsum : 2 ≤ inputs.topK ∨ inputs.topK = 1 ∧ inputs.hidden = 0) :
    ∃ out, inputs.fusedExpertsImpl run ops = .ok out ∧
      Holds out inputs.numTokens inputs.hidden
        (inputs.tokenOutput ops intermediate w1 w2 x weight) := by
  have hall : inputs.numTokens ≤ (0 + (inputs.numTokens / run.chunkSize + 1)) * run.chunkSize := by
    have hsum := Nat.div_add_mod' inputs.numTokens run.chunkSize
    have hmod := Nat.mod_lt inputs.numTokens run.chunkSize_pos
    rw [Nat.zero_add, Nat.add_one_mul]
    omega
  obtain ⟨result, hresult, hdone⟩ := runChunks_returns hcase hcontains hintermediate hsum hall
    (atChunk_zero hcontains)
  refine ⟨result.out, ?_, hdone⟩
  rw [fusedExpertsImpl_eq hcase hcontains, List.range_eq_range', hresult]
  rfl

end Loop

end FusedInputs

end VllmMlu.Moe
