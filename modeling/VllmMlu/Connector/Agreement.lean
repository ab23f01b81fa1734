import VllmMlu.Connector.SharedStorage
import VllmMlu.Library.Cuts
import VllmMlu.Library.Machine

/-! Runs of the connector: what is stored is found again, and what is loaded is what
was found. -/
namespace VllmMlu.Connector

open Library

variable {blockSize : Nat}

/-! ### Aligned prefixes -/

/-- The tokens of the whole blocks before the last of `numTokens` tokens. -/
def alignedTokens (blockSize numTokens : Nat) : Nat := (numTokens - 1) / blockSize * blockSize

theorem alignToBlockSize_natCast {numTokens : Nat} (h : 0 < numTokens) :
    alignToBlockSize numTokens blockSize = alignedTokens blockSize numTokens := by
  unfold alignToBlockSize alignedTokens
  push_cast [Nat.cast_sub h]
  rfl

theorem alignToBlockSize_le (hblock : 0 < blockSize) {numTokens : Int} (h : numTokens ≤ 0) :
    alignToBlockSize numTokens blockSize ≤ -blockSize := by
  unfold alignToBlockSize
  have hdiv : (numTokens - 1) / (blockSize : Int) ≤ -1 := by
    apply Int.le_of_lt_add_one
    exact Int.ediv_lt_of_lt_mul (by omega) (by omega)
  calc (numTokens - 1) / (blockSize : Int) * blockSize
      ≤ -1 * blockSize := Int.mul_le_mul_of_nonneg_right hdiv (by omega)
    _ = -blockSize := by omega

theorem alignedTokens_le (numTokens : Nat) : alignedTokens blockSize numTokens ≤ numTokens - 1 :=
  Nat.div_mul_le_self _ _

theorem upTo_natCast {α : Type} (xs : List α) (stop : Nat) : upTo xs stop = xs.take stop := by
  rw [upTo, if_neg (by omega), Int.toNat_natCast]

theorem upTo_eq_nil {α : Type} {xs : List α} {stop : Int} (h : xs.length + stop ≤ 0)
    (hneg : stop < 0) : upTo xs stop = [] := by
  rw [upTo, if_pos hneg, Int.toNat_of_nonpos h, List.take_zero]

/-- The tokens that a load or store is about. -/
theorem upTo_align {α : Type} (xs : List α) :
    upTo xs (alignToBlockSize xs.length blockSize) =
      xs.take (alignedTokens blockSize xs.length) := by
  rcases Nat.eq_zero_or_pos xs.length with hnil | hpos
  · rw [List.eq_nil_of_length_eq_zero hnil]
    simp [upTo]
  · rw [alignToBlockSize_natCast hpos, upTo_natCast]

/-- The tokens that a look-up is about. -/
theorem upTo_align_pred (hblock : 0 < blockSize) {α : Type} (xs : List α) :
    upTo xs (alignToBlockSize (xs.length - 1) blockSize) =
      xs.take (alignedTokens blockSize (xs.length - 1)) := by
  rcases Nat.lt_or_ge 1 xs.length with hlt | hle
  · have hcast : ((xs.length : Int) - 1) = ((xs.length - 1 : Nat) : Int) := by omega
    rw [hcast, alignToBlockSize_natCast (by omega), upTo_natCast]
  · have hneg := alignToBlockSize_le hblock (show (xs.length : Int) - 1 ≤ 0 by omega)
    rw [upTo_eq_nil (by omega) (by omega)]
    have hzero : alignedTokens blockSize (xs.length - 1) = 0 := by
      have := @alignedTokens_le blockSize (xs.length - 1)
      omega
    rw [hzero, List.take_zero]

theorem alignedTokens_eq_iff (hblock : 0 < blockSize) (numTokens : Nat) :
    alignedTokens blockSize numTokens = alignedTokens blockSize (numTokens - 1) ↔
      numTokens ≤ 1 ∨ ¬blockSize ∣ numTokens - 1 := by
  unfold alignedTokens
  rcases Nat.lt_or_ge 1 numTokens with hlt | hle
  · obtain ⟨rest, rfl⟩ : ∃ rest, numTokens = rest + 2 := ⟨numTokens - 2, by omega⟩
    have hsucc := Nat.succ_div (a := rest) (b := blockSize)
    simp only [Nat.add_sub_cancel, show rest + 2 - 1 = rest + 1 by omega]
    rw [Nat.mul_left_inj (by omega), hsucc]
    split
    · rename_i hdvd
      simp [hdvd]
    · rename_i hdvd
      simp [hdvd]
  · rw [show numTokens - 1 - 1 = numTokens - 1 by omega]
    simp [hle]

/-! ### Names of folders -/

@[simp] theorem length_toBytes (tokenIds : List TokenId) :
    (toBytes tokenIds).length = 8 * tokenIds.length := by
  induction tokenIds with
  | nil => rfl
  | cons token rest ih =>
      rw [toBytes, List.flatMap_cons, List.length_append]
      rw [toBytes] at ih
      rw [ih, tokenBytes, List.length_map, List.length_range, List.length_cons]
      omega

theorem length_eq_of_generateFoldername {left right : List TokenId} {mmHashes : List String}
    (h : generateFoldername left mmHashes = generateFoldername right mmHashes) :
    left.length = right.length := by
  have hlength := congrArg List.length h
  unfold generateFoldername at hlength
  split at hlength
  · simp only [length_toBytes] at hlength
    omega
  · simp only [List.length_append, length_toBytes] at hlength
    omega

theorem tokenBytes_injective {left right : TokenId} (h : tokenBytes left = tokenBytes right) :
    left = right := by
  apply BitVec.eq_of_getLsbD_eq
  intro bit hbit
  have hbyte := congrArg (·[bit / 8]?) h
  simp only [tokenBytes, List.getElem?_map, List.getElem?_range (by omega : bit / 8 < 8),
    Option.map_some, Option.some.injEq] at hbyte
  have hlsb := congrArg (BitVec.getLsbD · (bit % 8)) hbyte
  simp only [BitVec.getLsbD_extractLsb', Nat.mod_lt _ (by omega : 8 > 0), decide_true,
    Bool.true_and, Nat.div_add_mod] at hlsb
  exact hlsb

/-- Without multimodal hashes the name of a folder tells the tokens. -/
theorem toBytes_injective {left right : List TokenId} (h : toBytes left = toBytes right) :
    left = right := by
  induction left generalizing right with
  | nil =>
      have hlength := congrArg List.length h
      simp only [length_toBytes, List.length_nil] at hlength
      exact (List.eq_nil_of_length_eq_zero (by omega)).symm
  | cons token rest ih =>
      cases right with
      | nil =>
          have hlength := congrArg List.length h
          simp only [length_toBytes, List.length_cons, List.length_nil] at hlength
          omega
      | cons other others =>
          simp only [toBytes, List.flatMap_cons] at h
          obtain ⟨hfirst, hrest⟩ := List.append_inj h (by simp [tokenBytes])
          rw [tokenBytes_injective hfirst, ih hrest]

/-! ### Runs -/

/-- The connector on the scheduler's side, the storage, and the metadata of the
batches that the worker still has to execute, oldest first. -/
structure ConnectorState where
  storage : Storage
  requestsNeedLoad : NeedLoad
  inFlight : List (List ReqMeta)
  /-- The stores that the worker has carried out. -/
  stored : List ReqMeta

def ConnectorState.empty : ConnectorState where
  storage := .empty
  requestsNeedLoad := .empty
  inFlight := []
  stored := []

inductive Event where
  /-- `get_num_new_matched_tokens`, and `update_state_after_alloc` with its result. -/
  | lookUp (request : Request) (numComputedTokens : Nat)
  /-- `build_connector_meta`. -/
  | schedule (output : SchedulerOutput)
  /-- The worker loads and stores what the oldest batch asks for. -/
  | execute

def connector (blockSize : Nat) : Machine ConnectorState Event ConnectorError where
  step
    | state, .lookUp request numComputedTokens =>
        let numExternalTokens :=
          (getNumNewMatchedTokens blockSize state.storage request numComputedTokens).1
        return { state with
          requestsNeedLoad :=
            updateStateAfterAlloc state.requestsNeedLoad request numExternalTokens }
    | state, .schedule output => do
        let requests ←
          buildConnectorMeta blockSize state.storage state.requestsNeedLoad output
        return { state with
          requestsNeedLoad := .empty
          inFlight := state.inFlight ++ [requests] }
    | state, .execute =>
        match state.inFlight with
        | [] => throw .nothingToExecute
        | requests :: rest => do
            startLoadKv state.storage requests
            return { state with
              storage := saveKv state.storage requests
              inFlight := rest
              stored := state.stored ++ requests.filter ReqMeta.isStore }

/-- The folder whose existence was checked for the request of an entry. -/
def ReqMeta.checked (blockSize : Nat) (entry : ReqMeta) : Folder :=
  checkedFolder blockSize entry.promptTokenIds entry.mmHashes

/-- A load finds, in the folder that was checked, files that were saved for the same
tokens with as many slots. -/
def ReqMeta.LoadsRight (blockSize : Nat) (storage : Storage) (entry : ReqMeta) : Prop :=
  entry.folder = entry.checked blockSize ∧
    ∃ saved, storage.get? entry.folder = some saved ∧ saved.isStore = true ∧
      saved.tokenIds = entry.tokenIds ∧ saved.slotMapping.length = entry.slotMapping.length

/-- What is stored is found, and every load that is still to come is right. -/
structure ConnectorState.Agrees (blockSize : Nat) (state : ConnectorState) : Prop where
  found : ∀ entry ∈ state.stored,
    foundMatchForPrompt blockSize state.storage entry.promptTokenIds entry.mmHashes = true
  loads : ∀ requests ∈ state.inFlight, ∀ entry ∈ requests, entry.isStore = false →
    entry.LoadsRight blockSize state.storage

/-- A scheduled new request is the one that was looked up under its id. -/
def Event.Allowed (state : ConnectorState) : Event → Prop
  | .schedule output => ∀ newReq ∈ output.scheduledNewReqs,
      ∀ request ∈ state.requestsNeedLoad.get? newReq.reqId,
        request.promptTokenIds = newReq.promptTokenIds ∧ request.mmHashes = newReq.mmHashes
  | _ => True

/-- Tokens whose whole blocks are the ones that are looked up for the prompt, in
enough blocks, and known by the name of their folder. -/
structure Transferable (blockSize : Nat) (digested : List TokenId → List String → Prop)
    (promptTokenIds tokenIds : List TokenId) (mmHashes : List String) (blockIds : List Nat) :
    Prop where
  sameBlocks : alignedTokens blockSize tokenIds.length =
    alignedTokens blockSize (promptTokenIds.length - 1)
  covered : alignedTokens blockSize tokenIds.length ≤ blockIds.length * blockSize
  digested : digested (tokenIds.take (alignedTokens blockSize tokenIds.length)) mmHashes

/-- The tokens of every load and every store of the step can be transferred. -/
def Event.Smooth (blockSize : Nat) (digested : List TokenId → List String → Prop)
    (state : ConnectorState) : Event → Prop
  | .schedule output =>
      Event.Allowed state (.schedule output) ∧
      (∀ newReq ∈ output.scheduledNewReqs, newReq.reqId ∈ state.requestsNeedLoad.keys ∨
          foundMatchForPrompt blockSize state.storage newReq.promptTokenIds newReq.mmHashes =
            false →
        Transferable blockSize digested newReq.promptTokenIds newReq.promptTokenIds
          newReq.mmHashes newReq.blockIds) ∧
      ∀ cached ∈ output.scheduledCachedReqs, cached.resumed = true →
        ∀ request ∈ state.requestsNeedLoad.get? cached.reqId,
        ∀ blockIds ∈ cached.newBlockIds,
          Transferable blockSize digested request.promptTokenIds
            (upTo request.allTokenIds (cached.numComputedTokens + cached.numScheduledTokens))
            request.mmHashes blockIds
  | _ => True

/-- No two token prefixes have the same name together with their multimodal hashes. -/
def Unambiguous (digested : List TokenId → List String → Prop) : Prop :=
  ∀ left leftHashes right rightHashes, digested left leftHashes → digested right rightHashes →
    generateFoldername left leftHashes = generateFoldername right rightHashes → left = right

/-! ### One entry -/

section Entries

variable {digested : List TokenId → List String → Prop} {storage : Storage}

theorem length_slots (blockIds : List Nat) :
    (ReqMeta.slots blockIds blockSize).length = blockIds.length * blockSize := by
  simp [ReqMeta.slots, List.length_flatMap, Function.comp_def]

theorem checkedFolder_eq (hblock : 0 < blockSize) (promptTokenIds : List TokenId)
    (mmHashes : List String) : checkedFolder blockSize promptTokenIds mmHashes =
      generateFoldername
        (promptTokenIds.take (alignedTokens blockSize (promptTokenIds.length - 1))) mmHashes := by
  rw [checkedFolder, upTo_align_pred hblock]

theorem folder_makeMeta (promptTokenIds tokenIds : List TokenId) (blockIds : List Nat)
    (isStore : Bool) (mmHashes : List String) :
    (ReqMeta.makeMeta promptTokenIds tokenIds blockIds blockSize isStore mmHashes).folder =
      generateFoldername (tokenIds.take (alignedTokens blockSize tokenIds.length)) mmHashes := by
  rw [ReqMeta.folder, ReqMeta.makeMeta, upTo_align]

/-- The folder of an entry is the one that was checked exactly where both are named
by equally many tokens. -/
theorem folder_eq_checked_iff (hblock : 0 < blockSize) {promptTokenIds tokenIds : List TokenId}
    (hstart : tokenIds <+: promptTokenIds ∨ promptTokenIds <+: tokenIds) (blockIds : List Nat)
    (isStore : Bool) (mmHashes : List String) :
    (ReqMeta.makeMeta promptTokenIds tokenIds blockIds blockSize isStore mmHashes).folder =
        checkedFolder blockSize promptTokenIds mmHashes ↔
      alignedTokens blockSize tokenIds.length =
        alignedTokens blockSize (promptTokenIds.length - 1) := by
  have hstored := @alignedTokens_le blockSize tokenIds.length
  have hchecked := @alignedTokens_le blockSize (promptTokenIds.length - 1)
  rw [folder_makeMeta, checkedFolder_eq hblock]
  constructor
  · intro heq
    have hlength := length_eq_of_generateFoldername heq
    rw [List.length_take, List.length_take] at hlength
    omega
  · intro heq
    rw [heq] at hstored ⊢
    congr 1
    rcases hstart with ⟨rest, rfl⟩ | ⟨rest, rfl⟩
    · rw [List.take_append_of_le_length (by omega)]
    · rw [List.take_append_of_le_length (by omega)]

/-- What an entry in flight satisfies. -/
structure ReqMeta.Sound (blockSize : Nat) (digested : List TokenId → List String → Prop)
    (storage : Storage) (entry : ReqMeta) : Prop where
  folder : entry.folder = entry.checked blockSize
  slots : entry.tokenIds ≠ [] → entry.slotMapping.length = entry.tokenIds.length
  known : digested entry.tokenIds entry.mmHashes
  present : entry.isStore = false → entry.folder ∈ storage.keys ∧ entry.tokenIds ≠ []

theorem ReqMeta.Sound.mono {entry : ReqMeta} {later : Storage}
    (h : entry.Sound blockSize digested storage)
    (hsub : ∀ folder ∈ storage.keys, folder ∈ later.keys) :
    entry.Sound blockSize digested later where
  folder := h.folder
  slots := h.slots
  known := h.known
  present := fun hload => ⟨hsub _ (h.present hload).1, (h.present hload).2⟩

/-- Whether a match reported for a prompt leads to a load. -/
def Loadable (blockSize : Nat) (storage : Storage) (promptTokenIds : List TokenId)
    (mmHashes : List String) : Prop :=
  checkedFolder blockSize promptTokenIds mmHashes ∈ storage.keys ∧
    0 < alignedTokens blockSize (promptTokenIds.length - 1)

theorem Transferable.sound (hblock : 0 < blockSize) {promptTokenIds tokenIds : List TokenId}
    {mmHashes : List String} {blockIds : List Nat}
    (h : Transferable blockSize digested promptTokenIds tokenIds mmHashes blockIds)
    (hstart : tokenIds <+: promptTokenIds ∨ promptTokenIds <+: tokenIds) {isStore : Bool}
    (hload : isStore = false → Loadable blockSize storage promptTokenIds mmHashes) :
    (ReqMeta.makeMeta promptTokenIds tokenIds blockIds blockSize isStore mmHashes).Sound blockSize
      digested storage := by
  have hfolder := (folder_eq_checked_iff hblock hstart blockIds isStore mmHashes).mpr h.sameBlocks
  have haligned := @alignedTokens_le blockSize tokenIds.length
  have htokens : (ReqMeta.makeMeta promptTokenIds tokenIds blockIds blockSize isStore
      mmHashes).tokenIds = tokenIds.take (alignedTokens blockSize tokenIds.length) := upTo_align _
  refine ⟨hfolder, fun hne => ?_, ?_, fun hstore => ⟨hfolder ▸ (hload hstore).1, fun hnil => ?_⟩⟩
  · have hcovered := h.covered
    have hpos : 0 < tokenIds.length := by
      rw [htokens] at hne
      exact List.length_pos_iff.mpr fun hnil => hne (by rw [hnil, List.take_nil])
    rw [htokens]
    simp only [ReqMeta.makeMeta, alignToBlockSize_natCast hpos, upTo_natCast,
      List.length_take, length_slots]
    omega
  · rw [htokens]
    exact h.digested
  · have hpos := (hload hstore).2
    have hlength := congrArg List.length (htokens.symm.trans hnil)
    rw [List.length_take, List.length_nil, h.sameBlocks] at hlength
    rw [h.sameBlocks] at haligned
    omega

theorem saveKv_keys (requests : List ReqMeta) (storage : Storage) (folder : Folder) :
    folder ∈ (saveKv storage requests).keys ↔
      folder ∈ storage.keys ∨ ∃ entry ∈ requests, entry.isStore = true ∧ entry.folder = folder := by
  induction requests generalizing storage with
  | nil => simp [saveKv]
  | cons entry rest ih =>
      simp only [saveKv, List.foldl_cons] at ih ⊢
      rw [ih]
      cases hstore : entry.isStore with
      | false => simp [hstore]
      | true =>
          rw [if_pos rfl, Dict.mem_keys_set]
          simp only [List.mem_cons, exists_eq_or_imp, hstore, true_and]
          rw [eq_comm, or_left_comm, or_assoc]

/-- Storage whose files are what their folders are named after. -/
def Storage.Named (digested : List TokenId → List String → Prop) (storage : Storage) : Prop :=
  ∀ folder saved, storage.get? folder = some saved →
    folder = saved.folder ∧ saved.isStore = true ∧ digested saved.tokenIds saved.mmHashes ∧
      (saved.tokenIds ≠ [] → saved.slotMapping.length = saved.tokenIds.length)

theorem Storage.Named.saveKv {requests : List ReqMeta} (h : Storage.Named digested storage)
    {other : Storage} (hsound : ∀ entry ∈ requests, entry.Sound blockSize digested other) :
    Storage.Named digested (saveKv storage requests) := by
  induction requests generalizing storage with
  | nil => exact h
  | cons entry rest ih =>
      simp only [Connector.saveKv, List.foldl_cons] at ih ⊢
      apply ih _ fun later hmem => hsound later (List.mem_cons_of_mem _ hmem)
      split
      · rename_i hstore
        intro folder saved hget
        rw [Dict.get?_set] at hget
        split at hget
        · rename_i heq
          cases hget
          have hentry := hsound entry List.mem_cons_self
          exact ⟨heq, hstore, hentry.known, hentry.slots⟩
        · exact h folder saved hget
      · exact h

/-- A sound load from named storage is right. -/
theorem ReqMeta.Sound.loadsRight {entry : ReqMeta} (h : entry.Sound blockSize digested storage)
    (hkeys : Unambiguous digested) (hnamed : Storage.Named digested storage)
    (hload : entry.isStore = false) : entry.LoadsRight blockSize storage := by
  obtain ⟨hmem, hne⟩ := h.present hload
  obtain ⟨saved, hsaved⟩ := (Dict.mem_keys_iff storage entry.folder).mp hmem
  obtain ⟨hfolder, hstore, hknown, hslots⟩ := hnamed _ _ hsaved
  have htokens : saved.tokenIds = entry.tokenIds :=
    hkeys _ _ _ _ hknown h.known hfolder.symm
  refine ⟨h.folder, saved, hsaved, hstore, htokens, ?_⟩
  rw [hslots (htokens ▸ hne), h.slots hne, htokens]

end Entries

/-! ### Runs whose transfers are smooth -/

section Runs

variable {digested : List TokenId → List String → Prop}

/-- What every state of a smooth run satisfies. -/
structure ConnectorState.Sound (blockSize : Nat) (digested : List TokenId → List String → Prop)
    (state : ConnectorState) : Prop where
  named : Storage.Named digested state.storage
  needLoad : ∀ id request, state.requestsNeedLoad.get? id = some request →
    Loadable blockSize state.storage request.promptTokenIds request.mmHashes
  inFlight : ∀ requests ∈ state.inFlight, ∀ entry ∈ requests,
    entry.Sound blockSize digested state.storage
  stored : ∀ entry ∈ state.stored, entry.checked blockSize ∈ state.storage.keys

theorem ConnectorState.Sound.empty : ConnectorState.empty.Sound blockSize digested where
  named := nofun
  needLoad := nofun
  inFlight := nofun
  stored := nofun

theorem ConnectorState.Sound.lookUp (hblock : 0 < blockSize) {state : ConnectorState}
    (h : state.Sound blockSize digested) (request : Request) (numComputedTokens : Nat) :
    ConnectorState.Sound blockSize digested { state with
      requestsNeedLoad := updateStateAfterAlloc state.requestsNeedLoad request
        (getNumNewMatchedTokens blockSize state.storage request numComputedTokens).1 } where
  named := h.named
  inFlight := h.inFlight
  stored := h.stored
  needLoad := by
    intro id other hget
    simp only [updateStateAfterAlloc] at hget
    split at hget
    · rename_i hmatched
      rw [Dict.get?_set] at hget
      split at hget
      · cases hget
        unfold getNumNewMatchedTokens foundMatchForPrompt at hmatched
        split at hmatched
        · rename_i hfound
          refine ⟨of_decide_eq_true hfound, ?_⟩
          rcases Nat.lt_or_ge 1 request.promptTokenIds.length with hlt | hle
          · have hcast : ((request.promptTokenIds.length : Int) - 1) =
                ((request.promptTokenIds.length - 1 : Nat) : Int) := by omega
            rw [hcast, alignToBlockSize_natCast (by omega)] at hmatched
            omega
          · have hneg := alignToBlockSize_le hblock
              (show (request.promptTokenIds.length : Int) - 1 ≤ 0 by omega)
            omega
        · exact absurd hmatched (by simp)
      · exact h.needLoad id other hget
    · exact h.needLoad id other hget

theorem newRequestMeta_sound (hblock : 0 < blockSize) {state : ConnectorState}
    (h : state.Sound blockSize digested) {output : SchedulerOutput}
    (hsmooth : Event.Smooth blockSize digested state (.schedule output))
    {newReq : NewRequestData} (hmem : newReq ∈ output.scheduledNewReqs) {entry : ReqMeta}
    (hentry : newRequestMeta blockSize state.storage state.requestsNeedLoad newReq = some entry) :
    entry.Sound blockSize digested state.storage := by
  obtain ⟨hallowed, hnew, -⟩ := hsmooth
  unfold newRequestMeta at hentry
  simp only at hentry
  split at hentry
  · rename_i hload
    cases hentry
    obtain ⟨request, hrequest⟩ := (Dict.mem_keys_iff _ _).mp hload
    obtain ⟨hprompt, hhashes⟩ := hallowed newReq hmem request hrequest
    have hloadable := h.needLoad _ _ hrequest
    rw [hprompt, hhashes] at hloadable
    exact (hnew newReq hmem (.inl hload)).sound hblock (.inl (List.prefix_refl _))
      fun _ => hloadable
  · split at hentry
    · cases hentry
    · rename_i hmissing
      cases hentry
      exact (hnew newReq hmem (.inr (by simpa using hmissing))).sound hblock
        (.inl (List.prefix_refl _)) nofun

theorem upTo_initial {α : Type} (xs : List α) (stop : Int) : upTo xs stop <+: xs :=
  List.take_prefix _ _

theorem cachedRequestMeta_sound (hblock : 0 < blockSize) {state : ConnectorState}
    (h : state.Sound blockSize digested) {output : SchedulerOutput}
    (hsmooth : Event.Smooth blockSize digested state (.schedule output))
    {cached : CachedRequestData} (hmem : cached ∈ output.scheduledCachedReqs) {entry : ReqMeta}
    (hentry : cachedRequestMeta blockSize state.requestsNeedLoad cached = .ok (some entry)) :
    entry.Sound blockSize digested state.storage := by
  obtain ⟨-, -, hcached⟩ := hsmooth
  unfold cachedRequestMeta at hentry
  split at hentry
  · rename_i request hresumed hrequest
    split at hentry
    · cases hentry
    · rename_i blockIds hblockIds
      cases hentry
      have htransfer := hcached cached hmem hresumed request hrequest blockIds hblockIds
      apply htransfer.sound hblock
      · exact List.prefix_or_prefix_of_prefix (upTo_initial _ _) (List.prefix_append _ _)
      · exact fun _ => h.needLoad _ _ hrequest
  · cases hentry

theorem ConnectorState.Sound.schedule (hblock : 0 < blockSize) {state : ConnectorState}
    (h : state.Sound blockSize digested) {output : SchedulerOutput}
    (hsmooth : Event.Smooth blockSize digested state (.schedule output)) {requests : List ReqMeta}
    (hbuild : buildConnectorMeta blockSize state.storage state.requestsNeedLoad output =
      .ok requests) :
    ConnectorState.Sound blockSize digested { state with
      requestsNeedLoad := .empty
      inFlight := state.inFlight ++ [requests] } where
  named := h.named
  needLoad := nofun
  stored := h.stored
  inFlight := by
    intro batch hbatch entry hentry
    rcases List.mem_append.mp hbatch with hearlier | hlast
    · exact h.inFlight batch hearlier entry hentry
    · rw [List.mem_singleton] at hlast
      subst hlast
      unfold buildConnectorMeta at hbuild
      obtain ⟨cachedMetas, hcached, hbuild⟩ := bind_eq_ok.mp hbuild
      simp only at hbuild
      split at hbuild
      · cases hbuild
        rcases List.mem_append.mp hentry with hnew | hresumed
        · obtain ⟨newReq, hmem, heq⟩ := List.mem_filterMap.mp hnew
          exact newRequestMeta_sound hblock h hsmooth hmem heq
        · obtain ⟨made, hmade, heq⟩ := List.mem_filterMap.mp hresumed
          obtain ⟨cached, hmem, hok⟩ := (Cuts.mem_of_mapM_ok hcached made).mp hmade
          cases heq
          exact cachedRequestMeta_sound hblock h hsmooth hmem hok
      · cases hbuild

theorem ConnectorState.Sound.execute {state : ConnectorState} {requests : List ReqMeta}
    {rest : List (List ReqMeta)} (h : state.Sound blockSize digested)
    (hinFlight : state.inFlight = requests :: rest) :
    ConnectorState.Sound blockSize digested { state with
      storage := saveKv state.storage requests
      inFlight := rest
      stored := state.stored ++ requests.filter ReqMeta.isStore } := by
  have hsub : ∀ folder ∈ state.storage.keys, folder ∈ (saveKv state.storage requests).keys :=
    fun folder hmem => (saveKv_keys requests state.storage folder).mpr (.inl hmem)
  have hsound := h.inFlight
  rw [hinFlight] at hsound
  constructor
  · exact h.named.saveKv (hsound requests List.mem_cons_self)
  · intro id request hget
    exact ⟨hsub _ (h.needLoad id request hget).1, (h.needLoad id request hget).2⟩
  · intro batch hbatch entry hentry
    exact (hsound batch (List.mem_cons_of_mem _ hbatch) entry hentry).mono hsub
  · intro entry hentry
    rcases List.mem_append.mp hentry with hearlier | hnow
    · exact hsub _ (h.stored entry hearlier)
    · obtain ⟨hmem, hstore⟩ := List.mem_filter.mp hnow
      rw [← (hsound requests List.mem_cons_self entry hmem).folder]
      exact (saveKv_keys requests state.storage _).mpr (.inr ⟨entry, hmem, hstore, rfl⟩)

theorem ConnectorState.Sound.step (hblock : 0 < blockSize) {state next : ConnectorState}
    {event : Event} (h : state.Sound blockSize digested)
    (hsmooth : event.Smooth blockSize digested state)
    (hstep : (connector blockSize).step state event = .ok next) :
    next.Sound blockSize digested := by
  cases event with
  | lookUp request numComputedTokens =>
      cases hstep
      exact h.lookUp hblock request numComputedTokens
  | schedule output =>
      obtain ⟨requests, hbuild, hstep⟩ := bind_eq_ok.mp hstep
      cases hstep
      exact h.schedule hblock hsmooth hbuild
  | execute =>
      simp only [connector] at hstep
      split at hstep
      · cases hstep
      · rename_i requests rest hinFlight
        obtain ⟨-, -, hstep⟩ := bind_eq_ok.mp hstep
        cases hstep
        exact h.execute hinFlight

theorem ConnectorState.Sound.agrees {state : ConnectorState} (h : state.Sound blockSize digested)
    (hkeys : Unambiguous digested) : state.Agrees blockSize where
  found := fun entry hmem => decide_eq_true (h.stored entry hmem)
  loads := fun requests hbatch entry hmem hload =>
    (h.inFlight requests hbatch entry hmem).loadsRight hkeys h.named hload

/-- A prompt that is stored because no match is found for it is found afterwards
exactly where its last token does not begin a block; a folder to load from is the
checked one exactly where both names take equally many tokens; and in a run whose
loads and stores take these tokens, from enough blocks, everything stored is found
and every load is right. -/
theorem connector_agreement (hblock : 0 < blockSize) :
    (∀ (storage : Storage) (promptTokenIds : List TokenId) (mmHashes : List String)
      (blockIds : List Nat), foundMatchForPrompt blockSize storage promptTokenIds mmHashes = false →
      (foundMatchForPrompt blockSize (saveKv storage [ReqMeta.makeMeta promptTokenIds
          promptTokenIds blockIds blockSize true mmHashes]) promptTokenIds mmHashes = true ↔
        promptTokenIds.length ≤ 1 ∨ ¬blockSize ∣ promptTokenIds.length - 1)) ∧
    (∀ (request : Request) (tokenIds : List TokenId) (blockIds : List Nat),
      tokenIds <+: request.allTokenIds →
      ((ReqMeta.makeMeta request.promptTokenIds tokenIds blockIds blockSize false
          request.mmHashes).folder =
          checkedFolder blockSize request.promptTokenIds request.mmHashes ↔
        alignedTokens blockSize tokenIds.length =
          alignedTokens blockSize (request.promptTokenIds.length - 1))) ∧
    ∀ digested, Unambiguous digested → ∀ state,
      (connector blockSize).Run (Event.Smooth blockSize digested) .empty state →
      state.Agrees blockSize := by
  refine ⟨?_, ?_, ?_⟩
  · intro storage promptTokenIds mmHashes blockIds hmissing
    have hfolder := folder_eq_checked_iff hblock (.inl (List.prefix_refl promptTokenIds)) blockIds
      true mmHashes
    rw [alignedTokens_eq_iff hblock] at hfolder
    rw [← hfolder]
    unfold foundMatchForPrompt at hmissing ⊢
    rw [decide_eq_true_iff, saveKv_keys]
    simp only [List.mem_singleton, exists_eq_left]
    exact ⟨fun h => (h.resolve_left (of_decide_eq_false hmissing)).2, fun h => .inr ⟨rfl, h⟩⟩
  · intro request tokenIds blockIds hstart
    apply folder_eq_checked_iff hblock
    exact List.prefix_or_prefix_of_prefix hstart (List.prefix_append _ _)
  · intro digested hkeys state run
    have hsound : state.Sound blockSize digested :=
      run.invariant .empty fun _ _ _ hsound hsmooth hstep => hsound.step hblock hsmooth hstep
    exact hsound.agrees hkeys

end Runs

/-! ### Samples -/

instance (blockSize : Nat) (digested : List TokenId → List String → Prop)
    [∀ tokenIds mmHashes, Decidable (digested tokenIds mmHashes)]
    (promptTokenIds tokenIds : List TokenId) (mmHashes : List String) (blockIds : List Nat) :
    Decidable (Transferable blockSize digested promptTokenIds tokenIds mmHashes blockIds) :=
  decidable_of_iff (alignedTokens blockSize tokenIds.length =
      alignedTokens blockSize (promptTokenIds.length - 1) ∧
    alignedTokens blockSize tokenIds.length ≤ blockIds.length * blockSize ∧
    digested (tokenIds.take (alignedTokens blockSize tokenIds.length)) mmHashes)
    ⟨fun h => ⟨h.1, h.2.1, h.2.2⟩, fun h => ⟨h.sameBlocks, h.covered, h.digested⟩⟩

instance (state : ConnectorState) (event : Event) : Decidable (event.Allowed state) :=
  match event with
  | .lookUp _ _ => isTrue trivial
  | .schedule _ => by unfold Event.Allowed; infer_instance
  | .execute => isTrue trivial

instance (blockSize : Nat) (digested : List TokenId → List String → Prop)
    [∀ tokenIds mmHashes, Decidable (digested tokenIds mmHashes)] (state : ConnectorState)
    (event : Event) : Decidable (event.Smooth blockSize digested state) :=
  match event with
  | .lookUp _ _ => isTrue trivial
  | .schedule _ => by unfold Event.Smooth; infer_instance
  | .execute => isTrue trivial

namespace Samples

/-- A request of `length` tokens that is scheduled for the first time. -/
def newReq (reqId length : Nat) (blockIds : List Nat) : NewRequestData where
  reqId
  promptTokenIds := (List.range length).map (BitVec.ofNat 64)
  mmHashes := []
  blockIds

def request (reqId length : Nat) : Request where
  requestId := reqId
  promptTokenIds := (List.range length).map (BitVec.ofNat 64)
  outputTokenIds := []
  mmHashes := []

/-- The names of folders without multimodal hashes. -/
def textOnly (_ : List TokenId) (mmHashes : List String) : Prop := mmHashes = []

instance (tokenIds : List TokenId) (mmHashes : List String) :
    Decidable (textOnly tokenIds mmHashes) := by
  unfold textOnly
  infer_instance

theorem textOnly_unambiguous : Unambiguous textOnly := by
  intro left leftHashes right rightHashes hleft hright h
  rw [hleft, hright] at h
  exact toBytes_injective h

end Samples

open Samples in
/-- Four tokens, two to a block, are stored and loaded by the next request. -/
theorem connector_agreement_four_tokens : ∃ state entry,
    (connector 2).Run (Event.Smooth 2 textOnly) .empty state ∧
    entry ∈ state.stored ∧ entry.promptTokenIds = [0, 1, 2, 3] ∧
    foundMatchForPrompt 2 state.storage entry.promptTokenIds entry.mmHashes = true ∧
    ∃ load ∈ state.inFlight.flatten, load.isStore = false ∧
      load.LoadsRight 2 state.storage := by
  obtain ⟨state, run, htest⟩ := Machine.exists_of_leadsTo (connector 2) (Event.Smooth 2 textOnly)
    .empty
    [.schedule ⟨[newReq 0 4 [0, 1]], []⟩, .execute, .lookUp (request 1 4) 0,
      .schedule ⟨[newReq 1 4 [2, 3]], []⟩]
    (fun state => (state.stored.any fun entry => decide (entry.promptTokenIds = [0, 1, 2, 3])) &&
      state.inFlight.flatten.any fun entry => !entry.isStore)
    (by decide +kernel)
  rw [Bool.and_eq_true, List.any_eq_true, List.any_eq_true] at htest
  obtain ⟨⟨entry, hstored, hprompt⟩, load, hload, hkind⟩ := htest
  have hagrees := (connector_agreement (by decide : 0 < 2)).2.2 textOnly textOnly_unambiguous
    state run
  obtain ⟨requests, hbatch, hentry⟩ := List.mem_flatten.mp hload
  have hisLoad : load.isStore = false := by simpa using hkind
  exact ⟨state, entry, run, hstored, of_decide_eq_true hprompt, hagrees.found entry hstored, load,
    hload, hisLoad, hagrees.loads requests hbatch load hentry hisLoad⟩

open Samples in
/-- Three tokens, two to a block: the look-up takes no token where the store took two. -/
theorem stored_prompt_not_found : ∃ state entry,
    (connector 2).Run Event.Allowed .empty state ∧ entry ∈ state.stored ∧
    foundMatchForPrompt 2 state.storage entry.promptTokenIds entry.mmHashes = false := by
  obtain ⟨state, run, htest⟩ := Machine.exists_of_leadsTo (connector 2) Event.Allowed .empty
    [.schedule ⟨[newReq 0 3 [0, 1]], []⟩, .execute]
    (fun state => state.stored.any fun entry =>
      !foundMatchForPrompt 2 state.storage entry.promptTokenIds entry.mmHashes)
    (by decide +kernel)
  rw [List.any_eq_true] at htest
  obtain ⟨entry, hmem, hmissing⟩ := htest
  exact ⟨state, entry, run, hmem, by simpa using hmissing⟩

end VllmMlu.Connector
