import VllmMlu.Worker.GdnStates
import VllmMlu.Worker.LocalIdRuns

/-! Whether one `build` keeps the states of the requests of a step apart, and its padding out
of the mapper. -/
namespace VllmMlu.Worker
open VllmMlu.Library

namespace DeviceAwareLocalIdMapper

variable {mapper next : DeviceAwareLocalIdMapper} {gids : List Int}

/-- The local ids in the order in which misses take them while `gids` are in use: the free ones,
then those of the other ids from the one used least recently on. -/
def queue (mapper : DeviceAwareLocalIdMapper) (gids : List Int) : List Nat :=
  mapper.availableLocalIds ++
    (mapper.globalToLocal.entries.filter fun entry => entry.1 ∉ gids).map Prod.snd

/-- The local ids of a lookup: those of the hits, and the first of the queue for the misses. -/
def localIdsFor (mapper : DeviceAwareLocalIdMapper) (gids : List Int) : List Nat :=
  gids.filterMap mapper.globalToLocal.get? ++
    (mapper.queue gids).take (gids.filter fun gid => gid ∉ mapper.globalToLocal.keys).dedup.length

theorem queue_touch {gid : Int} (hmem : gid ∈ gids) :
    (mapper.touch gid).queue gids = mapper.queue gids := by
  have hentries : ((mapper.globalToLocal.moveToEnd gid).entries.filter fun entry =>
      entry.1 ∉ gids) = mapper.globalToLocal.entries.filter fun entry => entry.1 ∉ gids := by
    unfold Dict.moveToEnd
    split
    · rfl
    · rename_i value hvalue
      rw [Dict.entries_set_of_not_mem _ _ _ (by simp), List.filter_append, Dict.pop,
        List.filter_filter, List.filter_cons_of_neg (by simp [hmem]), List.filter_nil,
        List.append_nil]
      apply List.filter_congr
      intro entry _
      by_cases hin : entry.1 ∈ gids
      · simp [hin]
      · have hne : entry.1 ≠ gid := fun heq => hin (heq ▸ hmem)
        simp [hin, hne]
  rw [queue, queue, touch, hentries]

theorem queue_foldl_touch {hits : List Int} (hmem : ∀ gid ∈ hits, gid ∈ gids) :
    (hits.foldl touch mapper).queue gids = mapper.queue gids := by
  induction hits generalizing mapper with
  | nil => rfl
  | cons gid rest ih =>
      rw [List.foldl_cons, ih fun other hother => hmem other (List.mem_cons_of_mem _ hother),
        queue_touch (hmem gid List.mem_cons_self)]

theorem queue_set {gid : Int} (hmem : gid ∈ gids) (hfresh : gid ∉ mapper.globalToLocal.keys)
    (newLocal : Nat) (back : Dict Nat Int) (available : List Nat) :
    DeviceAwareLocalIdMapper.queue { mapper with
        globalToLocal := mapper.globalToLocal.set gid newLocal
        localToGlobal := back
        availableLocalIds := available } gids =
      available ++
        (mapper.globalToLocal.entries.filter fun entry => entry.1 ∉ gids).map Prod.snd := by
  rw [queue, Dict.entries_set_of_not_mem _ _ _ hfresh, List.filter_append,
    List.filter_cons_of_neg (by simp [hmem]), List.filter_nil, List.append_nil]

/-- An eviction moves the local id that is next in the queue to the free ones. -/
theorem queue_evict {used : Finset Int} (hvalid : mapper.Valid)
    (hrecent : mapper.globalToLocal.Recent used) (hroom : used.card < mapper.batchSize)
    (hused : ∀ gid ∈ gids, gid ∈ mapper.globalToLocal.keys → gid ∈ used)
    (h : mapper.evict = .ok next) : next.queue gids = mapper.queue gids := by
  unfold evict at h
  split at h
  · rename_i hfull
    have hlength := hvalid.shared.length_eq
    rw [List.length_append, List.length_range] at hlength
    have hnone : mapper.availableLocalIds = [] := List.length_eq_zero_iff.mp (by omega)
    have hkeys : mapper.globalToLocal.keys.length = mapper.globalToLocal.values.length := by
      simp [Dict.keys, Dict.values]
    obtain ⟨gid, localId, hpop, hunused, -⟩ := hrecent.popFirst (by omega)
    have hentries := Dict.entries_of_popFirst hpop
    have hother : gid ∉ gids := fun hmem =>
      hunused (hused gid hmem (by simp [Dict.keys, hentries]))
    rw [hpop] at h
    cases h
    rw [queue, queue, hentries, hnone, List.filter_cons_of_pos (by simp [hother])]
    rfl
  · cases h
    rfl

/-- A miss takes the local id at the head of the queue. -/
theorem queue_assign {used : Finset Int} (hvalid : mapper.Valid)
    (hrecent : mapper.globalToLocal.Recent used) (hroom : used.card < mapper.batchSize)
    (hused : ∀ gid ∈ gids, gid ∈ mapper.globalToLocal.keys → gid ∈ used) {gid : Int}
    (hmem : gid ∈ gids) (hmiss : gid ∉ mapper.globalToLocal.keys) {newMappings : Dict Int Nat}
    {result : DeviceAwareLocalIdMapper × Dict Int Nat}
    (h : assign (mapper, newMappings) gid = .ok result) :
    ∃ newLocal, result.2 = newMappings.set gid newLocal ∧
      mapper.queue gids = newLocal :: result.1.queue gids := by
  obtain ⟨evicted, newLocal, available, hevict, havailable, heq⟩ := assign_eq h
  have hqueue := queue_evict hvalid hrecent hroom hused hevict
  have hfresh : gid ∉ evicted.globalToLocal.keys := fun hkey =>
    hmiss ((evict_recent hrecent hroom hevict).2 gid hkey)
  refine ⟨newLocal, by rw [heq], ?_⟩
  rw [heq, queue_set hmem hfresh, ← hqueue, queue, havailable, List.cons_append]

/-- The misses take the local ids of the queue in turn. -/
theorem queue_foldlM_assign {used : Finset Int} (hvalid : mapper.Valid)
    (hrecent : mapper.globalToLocal.Recent used) {newMappings : Dict Int Nat} {misses : List Int}
    (hnodup : misses.Nodup) (hmem : ∀ gid ∈ misses, gid ∈ gids)
    (hmisses : ∀ gid ∈ misses, gid ∉ mapper.globalToLocal.keys)
    (hroom : (used ∪ misses.toFinset).card ≤ mapper.batchSize)
    (hused : ∀ gid ∈ gids, gid ∈ mapper.globalToLocal.keys → gid ∈ used)
    {result : DeviceAwareLocalIdMapper × Dict Int Nat}
    (h : misses.foldlM assign (mapper, newMappings) = .ok result) :
    ∃ given rest, mapper.queue gids = given ++ rest ∧
      List.Forall₂ (fun gid newLocal => result.2.get? gid = some newLocal) misses given ∧
      ∀ gid, gid ∉ misses → result.2.get? gid = newMappings.get? gid := by
  induction misses generalizing mapper newMappings used with
  | nil =>
      cases h
      exact ⟨[], mapper.queue gids, rfl, .nil, fun _ _ => rfl⟩
  | cons gid rest ih =>
      rw [List.foldlM_cons] at h
      obtain ⟨⟨first, mappings⟩, hassign, hrest⟩ := bind_eq_ok.mp h
      rw [List.nodup_cons] at hnodup
      rw [List.toFinset_cons, Finset.union_insert, ← Finset.insert_union] at hroom
      have hmiss := hmisses gid List.mem_cons_self
      have hinsert : (insert gid used).card ≤ mapper.batchSize :=
        (Finset.card_le_card Finset.subset_union_left).trans hroom
      obtain ⟨hfirst, hkeys⟩ := assign_recent hrecent hmiss hinsert hassign
      obtain ⟨newLocal, hmappings, hqueue⟩ := queue_assign hvalid hrecent
        (card_lt_of_miss hrecent hmiss hinsert) hused (hmem gid List.mem_cons_self) hmiss hassign
      obtain ⟨_, _, hspec, hvalidFirst, -⟩ := assign_spec hvalid newMappings hmiss
      rw [hassign, Except.ok.injEq, Prod.mk.injEq] at hspec
      change mappings = newMappings.set gid newLocal at hmappings
      obtain ⟨given, behind, hrestQueue, hgiven, hothers⟩ := ih (hspec.1 ▸ hvalidFirst) hfirst
        hnodup.2 (fun other hother => hmem other (List.mem_cons_of_mem _ hother))
        (by
          intro other hother hkey
          rcases hkeys other hkey with rfl | hkey
          · exact hnodup.1 hother
          · exact hmisses other (List.mem_cons_of_mem _ hother) hkey)
        (by rwa [assign_batchSize hassign])
        (fun other hother hkey => by
          rcases hkeys other hkey with rfl | hkey
          · exact Finset.mem_insert_self _ _
          · exact Finset.mem_insert_of_mem (hused other hother hkey)) hrest
      refine ⟨newLocal :: given, behind, by rw [hqueue, hrestQueue, List.cons_append],
        .cons ?_ hgiven, fun other hother => ?_⟩
      · rw [hothers gid hnodup.1, hmappings, Dict.get?_set_self]
      · rw [List.mem_cons, not_or] at hother
        rw [hothers other hother.2, hmappings, Dict.get?_set_of_ne _ _ hother.1]

/-- The local ids that a lookup returns. -/
theorem mem_batchGetLocalIds {order : List Int → List Int}
    (horder : ∀ misses, (order misses).Perm misses) (hvalid : mapper.Valid)
    (hroom : gids.toFinset.card ≤ mapper.batchSize) {localIds : List Nat}
    (h : mapper.batchGetLocalIds order gids = .ok (localIds, next)) (localId : Nat) :
    localId ∈ localIds ↔ localId ∈ mapper.localIdsFor gids := by
  obtain ⟨⟨last, newMappings⟩, hfold, hrest⟩ := bind_eq_ok.mp h
  obtain ⟨answers, hanswers, hpure⟩ := bind_eq_ok.mp hrest
  cases hpure
  have hmem : ∀ gid, gid ∈ uniqueMisses order mapper gids ↔
      gid ∈ gids ∧ gid ∉ mapper.globalToLocal.keys := mem_uniqueMisses horder
  have hunion : ∅ ∪ gids.toFinset.filter (· ∈ mapper.globalToLocal.keys) ∪
      (uniqueMisses order mapper gids).toFinset = gids.toFinset := by
    ext gid
    simp only [Finset.mem_union, Finset.mem_filter, List.mem_toFinset, hmem]
    tauto
  have hnodup : (uniqueMisses order mapper gids).Nodup :=
    (horder _).nodup_iff.mpr (List.nodup_dedup _)
  obtain ⟨given, behind, hqueue, hgiven, -⟩ := queue_foldlM_assign
    (foldl_touch gids hvalid).1 (foldl_touch_recent gids (.none _)) hnodup
    (fun gid hgid => ((hmem gid).mp hgid).1)
    (fun gid hgid hkey => ((hmem gid).mp hgid).2 ((mem_keys_foldl_touch _ _ _).mp hkey))
    (by rwa [hunion, foldl_touch_batchSize])
    (fun gid hgid hkey => by
      rw [mem_keys_foldl_touch] at hkey
      simp [hgid, hkey]) hfold
  rw [queue_foldl_touch fun gid hgid => hgid] at hqueue
  have hlength : (gids.filter fun gid => gid ∉ mapper.globalToLocal.keys).dedup.length =
      given.length := by
    have hmisses : (uniqueMisses order mapper gids).length = _ := (horder _).length_eq
    rw [← hmisses, hgiven.length_eq]
  have hnew : localId ∈ given ↔
      ∃ gid ∈ uniqueMisses order mapper gids, newMappings.get? gid = some localId :=
    Cuts.mem_of_forall₂ hgiven localId
  rw [Cuts.mem_of_mapM_ok hanswers, localIdsFor, hlength, hqueue, List.take_left,
    List.mem_append, List.mem_filterMap, hnew]
  -- A hit is answered by the mapper as it was, a miss by the new mappings.
  have hanswer : ∀ gid, localIdOf mapper newMappings gid = .ok localId ↔
      (mapper.globalToLocal.get? gid).or (newMappings.get? gid) = some localId := by
    intro gid
    unfold localIdOf
    cases (mapper.globalToLocal.get? gid).or (newMappings.get? gid) with
    | none => simp
    | some value => simp
  constructor
  · rintro ⟨gid, hgid, hlocal⟩
    rw [hanswer] at hlocal
    cases hget : mapper.globalToLocal.get? gid with
    | some value =>
        rw [hget, Option.some_or] at hlocal
        exact .inl ⟨gid, hgid, hget.trans hlocal⟩
    | none =>
        rw [hget, Option.none_or] at hlocal
        exact .inr ⟨gid, (hmem gid).mpr ⟨hgid, (Dict.get?_eq_none_iff _ _).mp hget⟩, hlocal⟩
  · rintro (⟨gid, hgid, hlocal⟩ | ⟨gid, hgid, hlocal⟩)
    · exact ⟨gid, hgid, by rw [hanswer, hlocal, Option.some_or]⟩
    · obtain ⟨hin, hmiss⟩ := (hmem gid).mp hgid
      exact ⟨gid, hin, by
        rw [hanswer, (Dict.get?_eq_none_iff _ _).mpr hmiss, Option.none_or, hlocal]⟩

end DeviceAwareLocalIdMapper

def StateSlots.slots : StateSlots → List Int
  | .inPlace slot => [slot]
  | .perToken slots => slots

section Build

variable {config : GdnConfig} {mapper : DeviceAwareLocalIdMapper} {drafts : Bool}
  {seqs : List (GdnSequence config.numSpec)}

/-- The blocks whose states are kept in one slot. -/
def GdnConfig.firstBlocks (config : GdnConfig) (drafts : Bool)
    (seqs : List (GdnSequence config.numSpec)) : List Int :=
  (config.nonSpecSequences drafts seqs).map fun seq => seq.blockTable.first

/-- The requests of a step have local slots of their own, and padding is padding. -/
structure KeepsApart (config : GdnConfig) (mapper : DeviceAwareLocalIdMapper) (drafts : Bool)
    (seqs : List (GdnSequence config.numSpec)) (metadata : GDNAttentionMetadata)
    (next : DeviceAwareLocalIdMapper) : Prop where
  located : ∀ i < seqs.length, ∃ slots, metadata.stateSlots i = some slots ∧
    ∀ slot ∈ slots.slots, 0 ≤ slot ∧ slot < mapper.batchSize
  apart : ∀ i j, i < seqs.length → j < seqs.length → i ≠ j → ∀ slots others,
    metadata.stateSlots i = some slots → metadata.stateSlots j = some others →
    slots.slots.Disjoint others.slots
  padding : ∀ (p : Nat) (entry : Nat), (config.nonSpecSequences drafts seqs).length ≤ p →
    metadata.nonSpecStateIndicesTensor[p]? = some entry → (entry : Int) = padSlotId
  /-- The mapper is left as a lookup of the requests alone leaves it. -/
  unmoved : ∃ localIds, mapper.batchGetLocalIds config.setOrder (config.firstBlocks drafts seqs) =
    .ok (localIds, next)

/-- The batches that `build` handles. -/
structure Suits (config : GdnConfig) (mapper : DeviceAwareLocalIdMapper) (drafts : Bool)
    (seqs : List (GdnSequence config.numSpec)) : Prop where
  mixed : config.usesMasks drafts seqs = true → ∃ seq ∈ seqs, seq.isSpec = false
  unpadded : config.padded drafts seqs = true →
    min config.decodeCudagraphMaxBs (config.paddedTokens seqs) = seqs.length
  unmapped : config.usesMasks drafts seqs = true → ∀ seq ∈ seqs, seq.isSpec = true →
    ∀ block ∈ seq.blockTable.window, block < mapper.batchSize ∧
      ∀ localId ∈ mapper.localIdsFor (config.firstBlocks drafts seqs), (localId : Int) ≠ block

theorem nonSpecSequences_of_padded (hpadded : config.padded drafts seqs = true) :
    config.nonSpecSequences drafts seqs = seqs := by
  simp only [GdnConfig.padded, Bool.and_eq_true, Bool.not_eq_true'] at hpadded
  rw [GdnConfig.nonSpecSequences, hpadded.1.2]
  rfl

/-- The blocks that go through the mapper are the first blocks and the padding behind them. -/
theorem nonSpecBlocks_eq
    (hmixed : config.usesMasks drafts seqs = true → ∃ seq ∈ seqs, seq.isSpec = false) :
    config.nonSpecBlocks drafts seqs = some (config.firstBlocks drafts seqs ++
      List.replicate (if config.padded drafts seqs then
        min config.decodeCudagraphMaxBs (config.paddedTokens seqs) - seqs.length else 0)
        padSlotId) := by
  unfold GdnConfig.nonSpecBlocks
  simp only [some_nonSpec hmixed, Bool.false_eq_true, if_false]
  split
  · rename_i hpadded
    obtain ⟨hlength, hroom⟩ := length_le_of_padded hpadded
    rw [List.take_of_length_le (by rw [List.length_map, hlength]; exact hroom), ← hlength,
      GdnConfig.firstBlocks, nonSpecSequences_of_padded hpadded]
  · rw [List.replicate_zero, List.append_nil]
    rfl

/-- A lookup of the first blocks, alone or with padding behind them, gives every sequence its
slots. -/
theorem exists_stateSlots {next : DeviceAwareLocalIdMapper} {localIds : List Nat}
    (hmapped : ∀ (j : Nat) block, (config.firstBlocks drafts seqs)[j]? = some block →
      ∃ localId, localIds[j]? = some localId ∧ next.globalToLocal.get? block = some localId)
    {i : Nat} {seq : GdnSequence config.numSpec} (hget : seqs[i]? = some seq) :
    ∃ slots, (config.metadata drafts seqs localIds).stateSlots i = some slots ∧
      ((config.usesMasks drafts seqs = true ∧ seq.isSpec = true ∧
          slots = .perToken seq.blockTable.window) ∨
        ∃ localId ∈ localIds, slots = .ofLocalId localId ∧
          next.globalToLocal.get? seq.blockTable.first = some localId) := by
  cases hspec : config.usesMasks drafts seqs && seq.isSpec with
  | true =>
      rw [Bool.and_eq_true] at hspec
      exact ⟨_, stateSlots_of_isSpec localIds hspec.1 hget hspec.2, .inl ⟨hspec.1, hspec.2, rfl⟩⟩
  | false =>
      obtain ⟨j, hj, hslots⟩ := stateSlots_of_not_spec hget hspec
      obtain ⟨localId, hlocal, hvalue⟩ := hmapped j seq.blockTable.first (by
        rw [GdnConfig.firstBlocks, List.getElem?_map, hj, Option.map_some])
      refine ⟨.ofLocalId localId, ?_, .inr ⟨localId, List.mem_of_getElem? hlocal, rfl, hvalue⟩⟩
      rw [hslots, hlocal, Option.map_some]

/-- Every answer is the slot of a sequence that is not handled as speculative. -/
theorem exists_sequence_of_answer {next : DeviceAwareLocalIdMapper} {localIds : List Nat}
    (hmapped : ∀ (j : Nat) block, (config.firstBlocks drafts seqs)[j]? = some block →
      ∃ localId, localIds[j]? = some localId ∧ next.globalToLocal.get? block = some localId)
    (hlength : localIds.length = (config.firstBlocks drafts seqs).length) {localId : Nat}
    (hmem : localId ∈ localIds) :
    ∃ (i : Nat) (seq : GdnSequence config.numSpec), seqs[i]? = some seq ∧
      ¬(config.usesMasks drafts seqs = true ∧ seq.isSpec = true) ∧
      (config.metadata drafts seqs localIds).stateSlots i = some (.ofLocalId localId) := by
  obtain ⟨j, hj⟩ := List.mem_iff_getElem?.mp hmem
  have hlt := (List.getElem?_eq_some_iff.mp hj).1
  rw [hlength, GdnConfig.firstBlocks, List.length_map] at hlt
  obtain ⟨value, hvalue, hget⟩ := hmapped j _ (by
    rw [GdnConfig.firstBlocks, List.getElem?_map, List.getElem?_eq_getElem hlt, Option.map_some])
  rw [hj, Option.some.injEq] at hvalue
  subst hvalue
  obtain ⟨hin, hkind⟩ := mem_nonSpecSequences.mp (List.getElem_mem hlt)
  obtain ⟨i, hi⟩ := List.mem_iff_getElem?.mp hin
  obtain ⟨slots, hslots, hcases⟩ := exists_stateSlots hmapped hi
  refine ⟨i, _, hi, hkind, ?_⟩
  rcases hcases with ⟨hmasks, hspec, -⟩ | ⟨other, -, rfl, hother⟩
  · exact absurd ⟨hmasks, hspec⟩ hkind
  · rw [hget, Option.some.injEq] at hother
    rw [hslots, hother]

theorem card_firstBlocks (hfits : seqs.length ≤ mapper.batchSize) :
    (config.firstBlocks drafts seqs).toFinset.card ≤ mapper.batchSize := by
  have hcard := List.toFinset_card_le (config.firstBlocks drafts seqs)
  have hlength : (config.nonSpecSequences drafts seqs).length ≤ seqs.length := by
    unfold GdnConfig.nonSpecSequences
    split
    · exact List.length_filter_le _ _
    · exact le_refl _
  rw [GdnConfig.firstBlocks, List.length_map] at hcard
  rw [GdnConfig.firstBlocks]
  omega

theorem getElem?_apart
    (hblocks : seqs.Pairwise fun seq other => seq.blockTable.ids.Disjoint other.blockTable.ids)
    {i j : Nat} {seq other : GdnSequence config.numSpec} (hi : seqs[i]? = some seq)
    (hj : seqs[j]? = some other) (hne : i ≠ j) :
    seq.blockTable.ids.Disjoint other.blockTable.ids := by
  obtain ⟨hlti, rfl⟩ := List.getElem?_eq_some_iff.mp hi
  obtain ⟨hltj, rfl⟩ := List.getElem?_eq_some_iff.mp hj
  rw [List.pairwise_iff_getElem] at hblocks
  rcases Nat.lt_or_gt_of_ne hne with hlt | hlt
  · exact hblocks i j hlti hltj hlt
  · exact (hblocks j i hltj hlti hlt).symm

theorem window_subset {numSpec : Nat} (blocks : StateBlocks numSpec) {block : Int}
    (hmem : block ∈ blocks.window) : block ∈ blocks.ids :=
  List.mem_of_mem_take hmem

/-- Without padding the slots are the answers for the requests alone. -/
theorem build_suits (hvalid : mapper.Valid) (hfits : seqs.length ≤ mapper.batchSize)
    (hblocks : seqs.Pairwise fun seq other => seq.blockTable.ids.Disjoint other.blockTable.ids)
    (hsuits : Suits config mapper drafts seqs) :
    ∃ metadata next, config.build mapper drafts seqs = .ok (metadata, next) ∧
      KeepsApart config mapper drafts seqs metadata next := by
  have hcard := @card_firstBlocks config mapper drafts seqs hfits
  obtain ⟨localIds, next, hlookup, hanswers, hsize, -, hmapped⟩ :=
    DeviceAwareLocalIdMapper.answer_spec hvalid (.none _)
      ⟨config.firstBlocks drafts seqs, config.setOrder, config.ordered⟩
      (by rwa [Finset.empty_union])
  change mapper.batchGetLocalIds config.setOrder (config.firstBlocks drafts seqs) =
    .ok (localIds, next) at hlookup
  have hreturned := DeviceAwareLocalIdMapper.mem_batchGetLocalIds config.ordered hvalid hcard
    hlookup
  have hnone : (if config.padded drafts seqs then
      min config.decodeCudagraphMaxBs (config.paddedTokens seqs) - seqs.length else 0) = 0 := by
    split
    · rename_i hpadded
      rw [hsuits.unpadded hpadded, Nat.sub_self]
    · rfl
  refine ⟨config.metadata drafts seqs localIds, next, ?_, ?_, ?_, ?_, localIds, hlookup⟩
  · rw [GdnConfig.build, nonSpecBlocks_eq hsuits.mixed, hnone, List.replicate_zero,
      List.append_nil]
    simp only [hlookup]
  · intro i hi
    obtain ⟨slots, hslots, hcases⟩ := exists_stateSlots hmapped (List.getElem?_eq_getElem hi)
    refine ⟨slots, hslots, fun slot hslot => ?_⟩
    rcases hcases with ⟨hmasks, hspec, rfl⟩ | ⟨localId, -, rfl, hget⟩
    · exact ⟨seqs[i].blockTable.valid slot (window_subset _ hslot),
        (hsuits.unmapped hmasks _ (List.getElem_mem hi) hspec slot hslot).1⟩
    · have hbound := hanswers.valid.oneToOne.bounded _ _ hget
      rw [hsize] at hbound
      rw [StateSlots.ofLocalId, StateSlots.slots, List.mem_singleton] at hslot
      omega
  · intro i j hi hj hne slots others hslots hothers
    have happart := getElem?_apart hblocks (List.getElem?_eq_getElem hi)
      (List.getElem?_eq_getElem hj) hne
    obtain ⟨_, hfirst, hcases⟩ := exists_stateSlots hmapped (List.getElem?_eq_getElem hi)
    cases hslots.symm.trans hfirst
    obtain ⟨_, hsecond, hcases'⟩ := exists_stateSlots hmapped (List.getElem?_eq_getElem hj)
    cases hothers.symm.trans hsecond
    -- A speculative window meets no other blocks and no local id that the step uses.
    have hwindow : ∀ (seq : GdnSequence config.numSpec) localId, seq ∈ seqs →
        config.usesMasks drafts seqs = true → seq.isSpec = true → localId ∈ localIds →
        (localId : Int) ∉ seq.blockTable.window := fun seq localId hseq hmasks hspec hlocal hblock =>
      (hsuits.unmapped hmasks seq hseq hspec localId hblock).2 localId
        ((hreturned localId).mp hlocal) rfl
    intro slot hslot hother
    rcases hcases with ⟨hmasks, hspec, rfl⟩ | ⟨localId, hlocal, rfl, hget⟩
    · rcases hcases' with ⟨-, -, rfl⟩ | ⟨localId, hlocal, rfl, -⟩
      · exact happart (window_subset _ hslot) (window_subset _ hother)
      · obtain rfl := List.mem_singleton.mp hother
        exact hwindow _ localId (List.getElem_mem hi) hmasks hspec hlocal hslot
    · obtain rfl := List.mem_singleton.mp hslot
      rcases hcases' with ⟨hmasks, hspec, rfl⟩ | ⟨localId', -, rfl, hget'⟩
      · exact hwindow _ localId (List.getElem_mem hj) hmasks hspec hlocal hother
      · obtain rfl : localId = localId' := Int.natCast_inj.mp (List.mem_singleton.mp hother)
        have heq := hanswers.valid.inverse.injective hget hget'
        exact happart (seqs[i].blockTable.first_mem) (heq ▸ seqs[j].blockTable.first_mem)
  · intro p entry hp hentry
    have hlt := (List.getElem?_eq_some_iff.mp hentry).1
    have hlength := hanswers.length
    simp only [GdnConfig.metadata, GdnConfig.firstBlocks, List.length_map] at hlt hlength
    omega

/-- What a batch is like whose requests `build` keeps apart. -/
theorem suits_of_build (hvalid : mapper.Valid) (hfits : seqs.length ≤ mapper.batchSize)
    {metadata : GDNAttentionMetadata} {next : DeviceAwareLocalIdMapper}
    (hbuild : config.build mapper drafts seqs = .ok (metadata, next))
    (hkeeps : KeepsApart config mapper drafts seqs metadata next) :
    Suits config mapper drafts seqs := by
  have hmixed : config.usesMasks drafts seqs = true → ∃ seq ∈ seqs, seq.isSpec = false := by
    intro hmasks
    by_contra hall
    push Not at hall
    rw [build_all_speculative mapper hmasks fun seq hmem => by simpa using hall seq hmem] at hbuild
    cases hbuild
  rw [GdnConfig.build, nonSpecBlocks_eq hmixed] at hbuild
  simp only at hbuild
  split at hbuild
  · cases hbuild
  rename_i localIds _ hlookup
  cases hbuild
  obtain ⟨_, _, hspec, hanswers⟩ :=
    DeviceAwareLocalIdMapper.batchGetLocalIds_spec config.ordered hvalid
      (config.firstBlocks drafts seqs ++ List.replicate (if config.padded drafts seqs then
        min config.decodeCudagraphMaxBs (config.paddedTokens seqs) - seqs.length else 0) padSlotId)
  rw [hlookup, Except.ok.injEq, Prod.mk.injEq] at hspec
  obtain ⟨rfl, rfl⟩ := hspec
  refine ⟨hmixed, fun hpadded => ?_, fun hmasks seq hmem hspeculative block hblock => ?_⟩
  · obtain ⟨hlength, hroom⟩ := length_le_of_padded hpadded
    rw [nonSpecSequences_of_padded hpadded] at hlength
    by_contra hne
    have hlong : seqs.length < localIds.length := by
      rw [hanswers.length, List.length_append, List.length_replicate, if_pos hpadded,
        GdnConfig.firstBlocks, nonSpecSequences_of_padded hpadded, List.length_map]
      omega
    have hentry := hkeeps.padding seqs.length localIds[seqs.length]
      (by rw [nonSpecSequences_of_padded hpadded]) (List.getElem?_eq_getElem hlong)
    rw [padSlotId] at hentry
    omega
  · have hnone : config.padded drafts seqs = false := by
      simp [GdnConfig.padded, hmasks]
    simp only [hnone, Bool.false_eq_true, if_false, List.replicate_zero, List.append_nil] at hlookup
    have hcard := @card_firstBlocks config mapper drafts seqs hfits
    obtain ⟨_, _, hspec, hanswered, -, -, hmapped⟩ :=
      DeviceAwareLocalIdMapper.answer_spec hvalid (.none _)
        ⟨config.firstBlocks drafts seqs, config.setOrder, config.ordered⟩
        (by rwa [Finset.empty_union])
    change mapper.batchGetLocalIds config.setOrder (config.firstBlocks drafts seqs) = _ at hspec
    rw [hlookup, Except.ok.injEq, Prod.mk.injEq] at hspec
    obtain ⟨rfl, rfl⟩ := hspec
    obtain ⟨i, hi⟩ := List.mem_iff_getElem?.mp hmem
    have hslots := stateSlots_of_isSpec localIds hmasks hi hspeculative
    obtain ⟨_, hsame, hbounds⟩ := hkeeps.located i (List.getElem?_eq_some_iff.mp hi).1
    cases hslots.symm.trans hsame
    refine ⟨(hbounds block hblock).2, fun localId hlocal heq => ?_⟩
    rw [← DeviceAwareLocalIdMapper.mem_batchGetLocalIds config.ordered hvalid hcard hlookup]
      at hlocal
    obtain ⟨j, other, hj, hkind, hother⟩ :=
      exists_sequence_of_answer hmapped hanswered.length hlocal
    have hne : i ≠ j := by
      rintro rfl
      rw [hi, Option.some.injEq] at hj
      exact hkind ⟨hmasks, hj ▸ hspeculative⟩
    refine hkeeps.apart i j (List.getElem?_eq_some_iff.mp hi).1 (List.getElem?_eq_some_iff.mp hj).1
      hne _ _ hslots hother hblock ?_
    rw [← heq]
    exact List.mem_singleton_self _

/-- `build` keeps the requests of a step apart and its padding out of the mapper exactly for
the batches that have no padding and a sequence that is not speculative, and whose speculative
blocks happen to be numbered like local ids that the step does not use. -/
theorem build_keeps_apart_iff (hvalid : mapper.Valid) (hfits : seqs.length ≤ mapper.batchSize)
    (hblocks : seqs.Pairwise fun seq other => seq.blockTable.ids.Disjoint other.blockTable.ids) :
    (∃ metadata next, config.build mapper drafts seqs = .ok (metadata, next) ∧
      KeepsApart config mapper drafts seqs metadata next) ↔ Suits config mapper drafts seqs :=
  ⟨fun ⟨_, _, hbuild, hkeeps⟩ => suits_of_build hvalid hfits hbuild hkeeps,
    build_suits hvalid hfits hblocks⟩

end Build

section Examples

/-- No drafts; decodes are padded to two. -/
def pairGraphs : GdnConfig where
  numSpec := 0
  useFullCudaGraph := true
  decodeCudagraphMaxBs := 2
  padForCudagraph := fun numTokens => max numTokens 2
  pads := fun _ => Nat.le_max_left _ _
  setOrder := id
  ordered := List.Perm.refl

def oneSlot : DeviceAwareLocalIdMapper where
  batchSize := 1
  globalToLocal := .empty
  localToGlobal := .empty
  availableLocalIds := [0]

def decodeIn (numSpec : Nat) (blockTable : StateBlocks numSpec) : GdnSequence numSpec where
  queryLen := 1
  scheduled := Nat.one_pos
  numComputedTokens := 4
  blockTable := blockTable
  numDecodeDraftTokens := -1
  numAcceptedTokens := 1

/-- A decode with one draft. -/
def draftIn (blockTable : StateBlocks 1) : GdnSequence 1 where
  queryLen := 2
  scheduled := Nat.two_pos
  numComputedTokens := 4
  blockTable := blockTable
  numDecodeDraftTokens := 1
  numAcceptedTokens := 1

/-- Two decodes without drafts, in eager mode. -/
theorem build_keeps_apart_two_decodes : ∃ metadata next,
    oneDraft.build twoSlots false [decodeIn 1 ⟨[5, 6], by decide, by decide⟩,
      decodeIn 1 ⟨[7, 8], by decide, by decide⟩] = .ok (metadata, next) ∧
    KeepsApart oneDraft twoSlots false [decodeIn 1 ⟨[5, 6], by decide, by decide⟩,
      decodeIn 1 ⟨[7, 8], by decide, by decide⟩] metadata next := by
  have hvalid := DeviceAwareLocalIdMapper.valid_init
    (rfl : DeviceAwareLocalIdMapper.init 2 = .ok twoSlots)
  refine (build_keeps_apart_iff hvalid (by decide)
    (List.pairwise_pair.mpr (by simp [decodeIn, List.Disjoint]))).mpr ⟨?_, ?_, ?_⟩
  · intro hmasks
    exact absurd hmasks (by decide)
  · intro hpadded
    exact absurd hpadded (by decide)
  · intro hmasks
    exact absurd hmasks (by decide)

/-- A step of drafts alone raises, and the padding of a single decode takes over its slot. -/
theorem draft_step_raises :
    (¬∃ metadata next,
      oneDraft.build twoSlots true [draftIn ⟨[5, 6], by decide, by decide⟩] =
        .ok (metadata, next)) ∧
    ∃ metadata next,
      pairGraphs.build oneSlot false [decodeIn 0 ⟨[5], by decide, by decide⟩] =
        .ok (metadata, next) ∧
      metadata.nonSpecStateIndicesTensor = [0, 0] ∧ next.globalToLocal.keys = [padSlotId] ∧
      ¬KeepsApart pairGraphs oneSlot false [decodeIn 0 ⟨[5], by decide, by decide⟩] metadata
        next := by
  constructor
  · rintro ⟨metadata, next, hok⟩
    have hraises := @build_all_speculative oneDraft true
      [draftIn ⟨[5, 6], by decide, by decide⟩] twoSlots (by decide) (by decide)
    rw [hraises] at hok
    cases hok
  · refine ⟨_, _, rfl, by decide, by decide, fun hkeeps => ?_⟩
    have hpad := hkeeps.padding 1 0 (by decide) (by decide)
    exact absurd hpad (by decide)

end Examples

end VllmMlu.Worker
