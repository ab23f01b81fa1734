import VllmMlu.Worker.GdnAttention

/-! Runs of a linear-attention worker: requests come with their blocks and go, steps leave the
states of their requests in the slots of the metadata, and the next step reads them there. -/
namespace VllmMlu.Worker
open VllmMlu.Library VllmMlu.Sched

/-- A request of the worker; `left` is where its last step has left its state. -/
structure GdnResident (numSpec : Nat) where
  blockTable : StateBlocks numSpec
  left : Option StateSlots := none
  numAcceptedTokens : Nat := 1

/-- A scheduled request, with the number of tokens that the step accepts of it. -/
structure GdnScheduled where
  reqId : ReqId
  numTokens : Nat
  scheduled : 0 < numTokens
  numComputedTokens : Nat
  numPromptTokens : Nat
  draftTokens : Option Nat
  accepted : Nat

/-- `num_decode_draft_tokens` of `_prepare_inputs`. -/
def GdnScheduled.numDecodeDraftTokens (request : GdnScheduled) : Int :=
  match request.draftTokens with
  | none => -1
  | some numDrafts =>
      if request.numPromptTokens ≤ request.numComputedTokens then (numDrafts : Int) else -1

/-- The request has drafts to verify, be they none. -/
def GdnScheduled.isSpec (request : GdnScheduled) : Bool := 0 ≤ request.numDecodeDraftTokens

def GdnScheduled.toSequence {numSpec : Nat} (request : GdnScheduled)
    (resident : GdnResident numSpec) : GdnSequence numSpec where
  queryLen := request.numTokens
  scheduled := request.scheduled
  numComputedTokens := request.numComputedTokens
  blockTable := resident.blockTable
  numDecodeDraftTokens := request.numDecodeDraftTokens
  numAcceptedTokens := resident.numAcceptedTokens

inductive GdnEvent (numSpec : Nat) where
  | join (reqId : ReqId) (blockTable : StateBlocks numSpec)
  | release (reqId : ReqId)
  | execute (batch : List GdnScheduled)

structure GdnState (numSpec : Nat) where
  mapper : DeviceAwareLocalIdMapper
  residents : Dict ReqId (GdnResident numSpec)

namespace GdnState

variable {numSpec : Nat}

/-- The state that the step leaves of a request: untouched if it is not in the batch. -/
def leave (metadata : GDNAttentionMetadata) (batch : List GdnScheduled) (reqId : ReqId)
    (resident : GdnResident numSpec) : GdnResident numSpec :=
  match batch.findIdx? fun request => request.reqId = reqId with
  | none => resident
  | some index =>
      { resident with
        left := metadata.stateSlots index
        numAcceptedTokens := (batch[index]?.map GdnScheduled.accepted).getD 1 }

def sequence (state : GdnState numSpec) (request : GdnScheduled) :
    Except GdnError (GdnSequence numSpec) :=
  match state.residents.get? request.reqId with
  | none => .error (.keyError request.reqId)
  | some resident => .ok (request.toSequence resident)

/-- Some request of the step has scheduled drafts. -/
def hasDrafts (batch : List GdnScheduled) : Bool :=
  batch.any fun request => request.draftTokens.isSome

end GdnState

namespace GdnConfig

/-- The metadata of a step. -/
def buildBatch (config : GdnConfig) (state : GdnState config.numSpec)
    (batch : List GdnScheduled) :
    Except GdnError (GDNAttentionMetadata × DeviceAwareLocalIdMapper) := do
  let seqs ← batch.mapM state.sequence
  config.build state.mapper (GdnState.hasDrafts batch) seqs

def machine (config : GdnConfig) :
    Machine (GdnState config.numSpec) (GdnEvent config.numSpec) GdnError where
  step state
    | .join reqId blockTable =>
        .ok { state with residents := state.residents.set reqId { blockTable := blockTable } }
    | .release reqId => .ok { state with residents := state.residents.pop reqId }
    | .execute batch => do
        let built ← config.buildBatch state batch
        pure {
          mapper := built.2
          residents := state.residents.mapValues (GdnState.leave built.1 batch) }

/-- What the scheduler and the KV cache manager promise: blocks belong to one request, a step
has different requests, at most `num_spec` drafts, and accepts at most the drafts and one. -/
def Legal (config : GdnConfig) (state : GdnState config.numSpec) :
    GdnEvent config.numSpec → Prop
  | .join reqId blockTable => reqId ∉ state.residents.keys ∧
      ∀ resident ∈ state.residents.values, ∀ id ∈ blockTable.ids, id ∉ resident.blockTable.ids
  | .release _ => True
  | .execute batch => (batch.map GdnScheduled.reqId).Nodup ∧
      ∀ request ∈ batch, request.reqId ∈ state.residents.keys ∧
        request.draftTokens.getD 0 ≤ config.numSpec ∧
        0 < request.accepted ∧ request.accepted ≤ request.draftTokens.getD 0 + 1

/-- The step handles its speculative requests as such. -/
def Masked (config : GdnConfig) (batch : List GdnScheduled) : Prop :=
  0 < config.numSpec ∧ ∃ request ∈ batch, 0 < request.numDecodeDraftTokens

instance (config : GdnConfig) (batch : List GdnScheduled) : Decidable (config.Masked batch) :=
  inferInstanceAs (Decidable (_ ∧ _))

/-- The step reads every state where the request's last step has left it. -/
def ReadsWhereLeft (config : GdnConfig) (state : GdnState config.numSpec)
    (batch : List GdnScheduled) : Prop :=
  ∃ metadata mapper, config.buildBatch state batch = .ok (metadata, mapper) ∧
    ∀ (i : Nat) request resident left, batch[i]? = some request →
      state.residents.get? request.reqId = some resident → resident.left = some left →
        ∃ slots slot, metadata.stateSlots i = some slots ∧
          slots.after resident.numAcceptedTokens = some slot ∧
          left.after resident.numAcceptedTokens = some slot

/-- The last step has handled the request as this one does, and if not as speculative, the
mapper still knows its block. -/
def KeepsKind (config : GdnConfig) (state : GdnState config.numSpec) (batch : List GdnScheduled)
    (request : GdnScheduled) : Prop :=
  ∀ resident, state.residents.get? request.reqId = some resident →
    match resident.left with
    | none => True
    | some (.perToken _) => config.Masked batch ∧ request.isSpec = true
    | some (.inPlace _) => ¬(config.Masked batch ∧ request.isSpec = true) ∧
        resident.blockTable.first ∈ state.mapper.globalToLocal.keys

/-- The condition on a step: not all requests are speculative, and each is handled as before. -/
def KeepsPlace (config : GdnConfig) (state : GdnState config.numSpec) :
    GdnEvent config.numSpec → Prop
  | .execute batch => (config.Masked batch → ∃ request ∈ batch, request.isSpec = false) ∧
      ∀ request ∈ batch, config.KeepsKind state batch request
  | _ => True

end GdnConfig

section Build

variable {config : GdnConfig} {state : GdnState config.numSpec} {batch : List GdnScheduled}

/-- The sequence that the builder is given of a request. -/
def SequenceOf (state : GdnState config.numSpec) (request : GdnScheduled)
    (seq : GdnSequence config.numSpec) : Prop :=
  ∃ resident, state.residents.get? request.reqId = some resident ∧
    seq = request.toSequence resident

theorem exists_sequences
    (hlive : ∀ request ∈ batch, request.reqId ∈ state.residents.keys) :
    ∃ seqs, batch.mapM state.sequence = .ok seqs ∧ List.Forall₂ (SequenceOf state) batch seqs := by
  apply Cuts.exists_mapM_ok
  intro request hmem
  obtain ⟨resident, hresident⟩ := (Dict.mem_keys_iff _ _).mp (hlive request hmem)
  exact ⟨request.toSequence resident, by rw [GdnState.sequence, hresident],
    resident, hresident, rfl⟩

theorem sum_filter_nonneg_ne_zero (nums : List Int) :
    (nums.filter (0 ≤ ·)).sum ≠ 0 ↔ ∃ num ∈ nums, 0 < num := by
  have hnonneg : ∀ num ∈ nums.filter (0 ≤ ·), 0 ≤ num := by simp
  constructor
  · intro hne
    by_contra hnone
    simp only [not_exists, not_and, not_lt] at hnone
    apply hne
    apply List.sum_eq_zero
    intro num hnum
    have hmem := List.mem_of_mem_filter hnum
    have := hnone num hmem
    have := hnonneg num hnum
    omega
  · rintro ⟨num, hmem, hpos⟩
    have hle := List.single_le_sum hnonneg num
      (List.mem_filter.mpr ⟨hmem, decide_eq_true (Int.le_of_lt hpos)⟩)
    omega

theorem usesMasks_iff {seqs : List (GdnSequence config.numSpec)}
    (hseqs : List.Forall₂ (SequenceOf state) batch seqs) :
    config.usesMasks (GdnState.hasDrafts batch) seqs = true ↔ config.Masked batch := by
  have hdrafts : seqs.map GdnSequence.numDecodeDraftTokens =
      batch.map GdnScheduled.numDecodeDraftTokens := by
    apply Cuts.map_eq_map_of_forall₂
    apply hseqs.imp
    rintro request seq ⟨resident, -, rfl⟩
    rfl
  simp only [GdnConfig.usesMasks, Bool.and_eq_true, decide_eq_true_eq, hdrafts,
    sum_filter_nonneg_ne_zero, GdnConfig.Masked, List.mem_map, exists_exists_and_eq_and]
  constructor
  · rintro ⟨⟨⟨hspec, -⟩, hsome⟩, -⟩
    exact ⟨hspec, hsome⟩
  · rintro ⟨hspec, request, hmem, hpos⟩
    refine ⟨⟨⟨hspec, ?_⟩, request, hmem, hpos⟩, ?_⟩
    · refine List.any_eq_true.mpr ⟨request, hmem, ?_⟩
      cases hdraft : request.draftTokens with
      | some numDrafts => rfl
      | none => simp [GdnScheduled.numDecodeDraftTokens, hdraft] at hpos
    · obtain ⟨i, hi⟩ := List.mem_iff_getElem?.mp hmem
      obtain ⟨seq, hseq, resident, -, rfl⟩ := Cuts.getElem?_of_forall₂ hseqs hi
      have hin := List.mem_filter.mpr ⟨List.mem_of_getElem? hseq,
        show (request.toSequence resident).isSpec = true from decide_eq_true (Int.le_of_lt hpos)⟩
      exact (List.length_pos_of_mem hin).ne'

theorem mem_nonSpecSequences {drafts : Bool} {seqs : List (GdnSequence config.numSpec)}
    {seq : GdnSequence config.numSpec} :
    seq ∈ config.nonSpecSequences drafts seqs ↔
      seq ∈ seqs ∧ ¬(config.usesMasks drafts seqs = true ∧ seq.isSpec = true) := by
  unfold GdnConfig.nonSpecSequences
  split
  · rename_i hmasks
    simp [hmasks]
  · rename_i hmasks
    simp [hmasks]

/-- What a step gives to its requests and leaves of the mapper. -/
structure Placed (config : GdnConfig) (state : GdnState config.numSpec)
    (batch : List GdnScheduled) (metadata : GDNAttentionMetadata)
    (mapper : DeviceAwareLocalIdMapper) : Prop where
  valid : mapper.Valid
  spec : ∀ (i : Nat) request resident, batch[i]? = some request →
    state.residents.get? request.reqId = some resident →
    config.Masked batch → request.isSpec = true →
      metadata.stateSlots i = some (.perToken resident.blockTable.window)
  other : ∀ (i : Nat) request resident, batch[i]? = some request →
    state.residents.get? request.reqId = some resident →
    ¬(config.Masked batch ∧ request.isSpec = true) →
      ∃ localId, metadata.stateSlots i = some (.ofLocalId localId) ∧
        (∀ value, state.mapper.globalToLocal.get? resident.blockTable.first = some value →
          localId = value) ∧
        ∀ value, mapper.globalToLocal.get? resident.blockTable.first = some value →
          value = localId
  frame : ∀ block, block ≠ padSlotId →
    (∀ request ∈ batch, ∀ resident, state.residents.get? request.reqId = some resident →
      ¬(config.Masked batch ∧ request.isSpec = true) → resident.blockTable.first ≠ block) →
    ∀ value, mapper.globalToLocal.get? block = some value →
      state.mapper.globalToLocal.get? block = some value

/-- A step builds its metadata unless all its requests are speculative. -/
theorem buildBatch_spec (hvalid : state.mapper.Valid)
    (hlive : ∀ request ∈ batch, request.reqId ∈ state.residents.keys)
    (hother : config.Masked batch → ∃ request ∈ batch, request.isSpec = false) :
    ∃ metadata mapper, config.buildBatch state batch = .ok (metadata, mapper) ∧
      Placed config state batch metadata mapper := by
  obtain ⟨seqs, hmapM, hseqs⟩ := exists_sequences hlive
  have hmasks := usesMasks_iff hseqs
  have hsome : config.usesMasks (GdnState.hasDrafts batch) seqs = true →
      ∃ seq ∈ seqs, seq.isSpec = false := by
    intro huses
    obtain ⟨request, hmem, hspec⟩ := hother (hmasks.mp huses)
    obtain ⟨i, hi⟩ := List.mem_iff_getElem?.mp hmem
    obtain ⟨seq, hseq, resident, -, rfl⟩ := Cuts.getElem?_of_forall₂ hseqs hi
    exact ⟨_, List.mem_of_getElem? hseq, hspec⟩
  obtain ⟨blocks, hblocks, hfirst, hsource⟩ := nonSpecBlocks_spec hsome
  obtain ⟨localIds, mapper, hlookup, hanswers⟩ :=
    DeviceAwareLocalIdMapper.batchGetLocalIds_spec config.ordered hvalid blocks
  refine ⟨config.metadata (GdnState.hasDrafts batch) seqs localIds, mapper, ?_, hanswers.valid,
    ?_, ?_, ?_⟩
  · refine bind_eq_ok.mpr ⟨seqs, hmapM, ?_⟩
    rw [GdnConfig.build, hblocks]
    simp only [hlookup]
  · intro i request resident hget hresident hmasked hspec
    obtain ⟨seq, hseq, resident', hresident', rfl⟩ := Cuts.getElem?_of_forall₂ hseqs hget
    cases hresident.symm.trans hresident'
    exact stateSlots_of_isSpec localIds (hmasks.mpr hmasked) hseq hspec
  · intro i request resident hget hresident hnot
    obtain ⟨seq, hseq, resident', hresident', rfl⟩ := Cuts.getElem?_of_forall₂ hseqs hget
    cases hresident.symm.trans hresident'
    have hkind : (config.usesMasks (GdnState.hasDrafts batch) seqs &&
        (request.toSequence resident).isSpec) = false := by
      rw [← Bool.not_eq_true, Bool.and_eq_true, hmasks]
      exact hnot
    obtain ⟨j, hj, hslots⟩ := stateSlots_of_not_spec hseq hkind
    obtain ⟨localId, hlocal, hhit, hlast⟩ := hanswers.answer j _ (hfirst j _ hj)
    exact ⟨localId, by rw [hslots, hlocal]; rfl, hhit, hlast⟩
  · intro block hpad hfree value hvalue
    refine hanswers.frame block (fun hmem => ?_) value hvalue
    rcases hsource block hmem with heq | ⟨seq, hseq, heq⟩
    · exact hpad heq
    · obtain ⟨hin, hkind⟩ := mem_nonSpecSequences.mp hseq
      obtain ⟨i, hi⟩ := List.mem_iff_getElem?.mp hin
      obtain ⟨request, hrequest, resident, hresident, rfl⟩ :=
        Cuts.getElem?_of_forall₂ hseqs.flip hi
      refine hfree request (List.mem_of_getElem? hrequest) resident hresident ?_ heq.symm
      rw [← hmasks]
      exact hkind

end Build

section Runs

variable {config : GdnConfig}

/-- The slots that a step leaves are those that the next one looks for. -/
def Found (mapper : DeviceAwareLocalIdMapper) {numSpec : Nat} (resident : GdnResident numSpec) :
    StateSlots → Prop
  | .inPlace slot => ∀ value,
      mapper.globalToLocal.get? resident.blockTable.first = some value → slot = value
  | .perToken slots => slots = resident.blockTable.window

/-- What holds between two steps. -/
structure Located (config : GdnConfig) (state : GdnState config.numSpec) : Prop where
  valid : state.mapper.Valid
  distinct : ∀ reqId other resident rival, state.residents.get? reqId = some resident →
    state.residents.get? other = some rival →
    resident.blockTable.first = rival.blockTable.first → reqId = other
  accepted : ∀ reqId resident, state.residents.get? reqId = some resident →
    0 < resident.numAcceptedTokens ∧ resident.numAcceptedTokens ≤ config.numSpec + 1
  found : ∀ reqId resident left, state.residents.get? reqId = some resident →
    resident.left = some left → Found state.mapper resident left

theorem Located.join {state : GdnState config.numSpec} (hlocated : Located config state)
    {reqId : ReqId} {blockTable : StateBlocks config.numSpec}
    (hlegal : config.Legal state (.join reqId blockTable)) :
    Located config
      { state with residents := state.residents.set reqId { blockTable := blockTable } } := by
  obtain ⟨-, hblocks⟩ := hlegal
  have hapart : ∀ other rival, state.residents.get? other = some rival →
      blockTable.first ≠ rival.blockTable.first := by
    intro other rival hrival heq
    have hmem := (Dict.mem_values_iff _ _).mpr ⟨other, hrival⟩
    exact hblocks rival hmem _ blockTable.first_mem (heq ▸ rival.blockTable.first_mem)
  refine ⟨hlocated.valid, ?_, ?_, ?_⟩
  · intro first second resident rival hfirst hsecond heq
    rw [Dict.get?_set] at hfirst hsecond
    split at hfirst
    · cases hfirst
      split at hsecond
      · simp_all
      · exact absurd heq (hapart _ _ hsecond)
    · split at hsecond
      · cases hsecond
        exact absurd heq.symm (hapart _ _ hfirst)
      · exact hlocated.distinct _ _ _ _ hfirst hsecond heq
  · intro other resident hget
    rw [Dict.get?_set] at hget
    split at hget
    · cases hget
      simp
    · exact hlocated.accepted _ _ hget
  · intro other resident left hget hleft
    rw [Dict.get?_set] at hget
    split at hget
    · cases hget
      cases hleft
    · exact hlocated.found _ _ _ hget hleft

theorem Located.release {state : GdnState config.numSpec} (hlocated : Located config state)
    (reqId : ReqId) :
    Located config { state with residents := state.residents.pop reqId } := by
  have hkept : ∀ other resident, (state.residents.pop reqId).get? other = some resident →
      state.residents.get? other = some resident := by
    intro other resident hget
    rw [Dict.get?_pop] at hget
    split at hget
    · cases hget
    · exact hget
  exact ⟨hlocated.valid,
    fun _ _ _ _ hfirst hsecond => hlocated.distinct _ _ _ _ (hkept _ _ hfirst) (hkept _ _ hsecond),
    fun _ _ hget => hlocated.accepted _ _ (hkept _ _ hget),
    fun _ _ _ hget => hlocated.found _ _ _ (hkept _ _ hget)⟩

/-- A request of the batch is left in the slots of its place, another as it was. -/
theorem get?_leave {state : GdnState config.numSpec} {metadata : GDNAttentionMetadata}
    {batch : List GdnScheduled} {reqId : ReqId} {resident : GdnResident config.numSpec}
    (h : (state.residents.mapValues (GdnState.leave metadata batch)).get? reqId = some resident) :
    ∃ before, state.residents.get? reqId = some before ∧
      resident.blockTable = before.blockTable ∧
      ((resident = before ∧ ∀ request ∈ batch, request.reqId ≠ reqId) ∨
        ∃ (i : Nat) (request : GdnScheduled), batch[i]? = some request ∧ request.reqId = reqId ∧
          resident.left = metadata.stateSlots i ∧
          resident.numAcceptedTokens = request.accepted) := by
  rw [Dict.get?_mapValues, Option.map_eq_some_iff] at h
  obtain ⟨before, hbefore, rfl⟩ := h
  refine ⟨before, hbefore, ?_⟩
  unfold GdnState.leave
  split
  · rename_i hnone
    refine ⟨rfl, .inl ⟨rfl, ?_⟩⟩
    simpa [List.findIdx?_eq_none_iff] using hnone
  · rename_i index hindex
    obtain ⟨hlt, hfound, -⟩ := List.findIdx?_eq_some_iff_getElem.mp hindex
    refine ⟨rfl, .inr ⟨index, batch[index], List.getElem?_eq_getElem hlt, by simpa using hfound,
      rfl, ?_⟩⟩
    simp [List.getElem?_eq_getElem hlt]

/-- The step lemma. -/
theorem Located.execute {state : GdnState config.numSpec} (hlocated : Located config state)
    {batch : List GdnScheduled} (hlegal : config.Legal state (.execute batch))
    {metadata : GDNAttentionMetadata} {mapper : DeviceAwareLocalIdMapper}
    (hplaced : Placed config state batch metadata mapper) :
    Located config {
      mapper := mapper
      residents := state.residents.mapValues (GdnState.leave metadata batch) } := by
  refine ⟨hplaced.valid, ?_, ?_, ?_⟩
  · intro reqId other resident rival hresident hrival heq
    obtain ⟨before, hbefore, htable, -⟩ := get?_leave hresident
    obtain ⟨earlier, hearlier, htable', -⟩ := get?_leave hrival
    rw [htable, htable'] at heq
    exact hlocated.distinct _ _ _ _ hbefore hearlier heq
  · intro reqId resident hresident
    obtain ⟨before, hbefore, -, ⟨rfl, -⟩ | ⟨i, request, hget, -, -, haccepted⟩⟩ :=
      get?_leave hresident
    · exact hlocated.accepted _ _ hbefore
    · obtain ⟨-, hdrafts, hpos, hle⟩ := hlegal.2 request (List.mem_of_getElem? hget)
      omega
  · intro reqId resident left hresident hleft
    obtain ⟨before, hbefore, htable, ⟨rfl, hout⟩ | ⟨i, request, hget, rfl, hslots, -⟩⟩ :=
      get?_leave hresident
    · have hfound := hlocated.found _ _ _ hbefore hleft
      cases left with
      | perToken slots => exact hfound
      | inPlace slot =>
          intro value hvalue
          refine hfound value (hplaced.frame _ ?_ ?_ value hvalue)
          · have := resident.blockTable.valid _ resident.blockTable.first_mem
            simp only [padSlotId]
            omega
          · intro other hother rival hrival _ heq
            exact hout other hother (hlocated.distinct _ _ _ _ hrival hbefore heq)
    · rw [hslots] at hleft
      by_cases hkind : config.Masked batch ∧ request.isSpec = true
      · rw [hplaced.spec i request before hget hbefore hkind.1 hkind.2] at hleft
        cases hleft
        exact htable ▸ rfl
      · obtain ⟨localId, hlocal, -, hlast⟩ := hplaced.other i request before hget hbefore hkind
        rw [hlocal] at hleft
        cases hleft
        intro value hvalue
        rw [htable] at hvalue
        rw [hlast value hvalue]

/-- A step that handles every request as its last step has done reads every state where that
step has left it. -/
theorem Located.reads {state : GdnState config.numSpec} (hlocated : Located config state)
    {batch : List GdnScheduled} (hlegal : config.Legal state (.execute batch))
    (hkeeps : config.KeepsPlace state (.execute batch)) :
    config.ReadsWhereLeft state batch := by
  obtain ⟨metadata, mapper, hbuilt, hplaced⟩ :=
    buildBatch_spec hlocated.valid (fun request hmem => (hlegal.2 request hmem).1) hkeeps.1
  refine ⟨metadata, mapper, hbuilt, ?_⟩
  intro i request resident left hget hresident hleft
  have hkind := hkeeps.2 request (List.mem_of_getElem? hget) resident hresident
  have hfound := hlocated.found _ _ _ hresident hleft
  rw [hleft] at hkind
  cases left with
  | perToken slots =>
      obtain ⟨hpos, hle⟩ := hlocated.accepted _ _ hresident
      cases hfound
      have hlt : resident.numAcceptedTokens - 1 < resident.blockTable.window.length := by
        rw [StateBlocks.length_window]
        omega
      exact ⟨_, _, hplaced.spec i request resident hget hresident hkind.1 hkind.2,
        List.getElem?_eq_getElem hlt, List.getElem?_eq_getElem hlt⟩
  | inPlace slot =>
      obtain ⟨localId, hlocal, hhit, -⟩ :=
        hplaced.other i request resident hget hresident hkind.1
      obtain ⟨value, hvalue⟩ := (Dict.mem_keys_iff _ _).mp hkind.2
      refine ⟨_, slot, hlocal, ?_, rfl⟩
      rw [hhit value hvalue, hfound value hvalue]
      rfl

theorem Located.step {state next : GdnState config.numSpec} {event : GdnEvent config.numSpec}
    (hlocated : Located config state) (hlegal : config.Legal state event)
    (hkeeps : config.KeepsPlace state event) (hnext : config.machine.step state event = .ok next) :
    Located config next := by
  cases event with
  | join reqId blockTable =>
      cases hnext
      exact hlocated.join hlegal
  | release reqId =>
      cases hnext
      exact hlocated.release reqId
  | execute batch =>
      obtain ⟨metadata, mapper, hbuilt, hplaced⟩ :=
        buildBatch_spec hlocated.valid (fun request hmem => (hlegal.2 request hmem).1) hkeeps.1
      obtain ⟨built, hbuilt', hpure⟩ := bind_eq_ok.mp hnext
      cases hbuilt.symm.trans hbuilt'
      cases hpure
      exact hlocated.execute hlegal hplaced

/-- In every run whose steps handle each request as its last step has done, every step reads
the states of its requests where they have been left. -/
theorem state_location_kept (config : GdnConfig) {batchSize : Nat}
    {mapper : DeviceAwareLocalIdMapper}
    (hinit : DeviceAwareLocalIdMapper.init batchSize = .ok mapper)
    {state : GdnState config.numSpec}
    (run : Machine.Run config.machine
      (fun state event => config.Legal state event ∧ config.KeepsPlace state event)
      { mapper := mapper, residents := .empty } state)
    {batch : List GdnScheduled} (hlegal : config.Legal state (.execute batch))
    (hkeeps : config.KeepsPlace state (.execute batch)) :
    config.ReadsWhereLeft state batch := by
  have hlocated : Located config state := by
    apply run.invariant
    · exact ⟨DeviceAwareLocalIdMapper.valid_init hinit, by simp, by simp, by simp⟩
    · intro state event next hinv hallowed hnext
      exact hinv.step hallowed.1 hallowed.2 hnext
  exact hlocated.reads hlegal hkeeps

end Runs

section Examples

instance (config : GdnConfig) (state : GdnState config.numSpec) (event : GdnEvent config.numSpec) :
    Decidable (config.Legal state event) :=
  match event with
  | .join _ _ => inferInstanceAs (Decidable (_ ∧ _))
  | .release _ => .isTrue trivial
  | .execute _ => inferInstanceAs (Decidable (_ ∧ _))

/-- `KeepsKind` of the places of all requests, one by one. -/
instance (config : GdnConfig) (state : GdnState config.numSpec) (batch : List GdnScheduled)
    (request : GdnScheduled) : Decidable (config.KeepsKind state batch request) :=
  match hresident : state.residents.get? request.reqId with
  | none => .isTrue fun _ hsome => by cases hresident.symm.trans hsome
  | some resident =>
      match hleft : resident.left with
      | none => .isTrue fun other hsome => by
          cases hresident.symm.trans hsome
          rw [hleft]
          trivial
      | some (.perToken _) =>
          decidable_of_iff (config.Masked batch ∧ request.isSpec = true) ⟨fun h other hsome => by
            cases hresident.symm.trans hsome
            rw [hleft]
            exact h, fun h => by
            have hkind := h resident hresident
            rwa [hleft] at hkind⟩
      | some (.inPlace _) =>
          decidable_of_iff (¬(config.Masked batch ∧ request.isSpec = true) ∧
              resident.blockTable.first ∈ state.mapper.globalToLocal.keys)
            ⟨fun h other hsome => by
              cases hresident.symm.trans hsome
              rw [hleft]
              exact h, fun h => by
              have hkind := h resident hresident
              rwa [hleft] at hkind⟩

instance (config : GdnConfig) (state : GdnState config.numSpec) (event : GdnEvent config.numSpec) :
    Decidable (config.KeepsPlace state event) :=
  match event with
  | .join _ _ => .isTrue trivial
  | .release _ => .isTrue trivial
  | .execute _ => inferInstanceAs (Decidable (_ ∧ _))

/-- One draft token, no graphs, room for two states. -/
def oneDraft : GdnConfig where
  numSpec := 1
  useFullCudaGraph := false
  decodeCudagraphMaxBs := 4
  padForCudagraph := id
  pads := fun _ => Nat.le_refl _
  setOrder := id
  ordered := fun _ => .refl _

def twoSlots : DeviceAwareLocalIdMapper where
  batchSize := 2
  globalToLocal := .empty
  localToGlobal := .empty
  availableLocalIds := [0, 1]

/-- A decode with as many drafts as are given. -/
def decodeWith (reqId : ReqId) (draftTokens : Option Nat) : GdnScheduled where
  reqId := reqId
  numTokens := draftTokens.getD 0 + 1
  scheduled := Nat.succ_pos _
  numComputedTokens := 4
  numPromptTokens := 4
  draftTokens := draftTokens
  accepted := 1

def twoRequests : List (GdnEvent 1) :=
  [.join 0 ⟨[5, 6], by decide, by decide⟩, .join 1 ⟨[7, 8], by decide, by decide⟩]

/-- A speculative and another request, in two steps. -/
theorem state_location_kept_two_steps :
    ∃ state : GdnState 1,
      Machine.Run oneDraft.machine (fun state event => oneDraft.Legal state event ∧
        oneDraft.KeepsPlace state event) { mapper := twoSlots, residents := .empty } state ∧
      state.residents.keys = [0, 1] ∧
      oneDraft.ReadsWhereLeft state [decodeWith 0 (some 1), decodeWith 1 none] := by
  obtain ⟨state, run, htest⟩ := Machine.exists_of_leadsTo oneDraft.machine
    (fun state event => oneDraft.Legal state event ∧ oneDraft.KeepsPlace state event)
    { mapper := twoSlots, residents := .empty }
    (twoRequests ++ [.execute [decodeWith 0 (some 1), decodeWith 1 none]])
    (fun state => state.residents.keys = [0, 1] ∧
      oneDraft.Legal state (.execute [decodeWith 0 (some 1), decodeWith 1 none]) ∧
      oneDraft.KeepsPlace state (.execute [decodeWith 0 (some 1), decodeWith 1 none]))
    (by decide +kernel)
  obtain ⟨hkeys, hlegal, hkeeps⟩ := of_decide_eq_true htest
  exact ⟨state, run, hkeys, state_location_kept oneDraft
    (rfl : DeviceAwareLocalIdMapper.init 2 = .ok twoSlots) run hlegal hkeeps⟩

/-- A request that is scheduled without drafts leaves its state in slot 0; with a draft in the
next step, next to a request without, it is looked for in its first block. -/
theorem speculative_state_elsewhere :
    ¬∀ state : GdnState 1, Machine.Run oneDraft.machine oneDraft.Legal
        { mapper := twoSlots, residents := .empty } state →
      ∀ batch, oneDraft.Legal state (.execute batch) → oneDraft.ReadsWhereLeft state batch := by
  intro hclaim
  obtain ⟨state, run, htest⟩ := Machine.exists_of_leadsTo oneDraft.machine oneDraft.Legal
    { mapper := twoSlots, residents := .empty }
    (twoRequests ++ [.execute [decodeWith 0 none, decodeWith 1 none]])
    (fun state => oneDraft.Legal state (.execute [decodeWith 0 (some 1), decodeWith 1 none]) ∧
      (state.residents.get? 0).map (fun resident => (resident.left, resident.numAcceptedTokens)) =
        some (some (.inPlace 0), 1) ∧
      ((oneDraft.buildBatch state [decodeWith 0 (some 1), decodeWith 1 none]).toOption.bind
        fun built => built.1.stateSlots 0) = some (.perToken [5, 6]))
    (by decide +kernel)
  obtain ⟨hlegal, hleft, hslots⟩ := of_decide_eq_true htest
  obtain ⟨metadata, mapper, hbuilt, hreads⟩ := hclaim state run _ hlegal
  obtain ⟨resident, hresident, hplace⟩ := Option.map_eq_some_iff.mp hleft
  obtain ⟨slots, slot, hfound, hread, hkept⟩ :=
    hreads 0 (decodeWith 0 (some 1)) resident (.inPlace 0) rfl hresident (congrArg Prod.fst hplace)
  rw [hbuilt] at hslots
  change metadata.stateSlots 0 = _ at hslots
  cases hslots.symm.trans hfound
  rw [show resident.numAcceptedTokens = 1 from congrArg Prod.snd hplace] at hread hkept
  cases hkept
  cases hread

end Examples

end VllmMlu.Worker
