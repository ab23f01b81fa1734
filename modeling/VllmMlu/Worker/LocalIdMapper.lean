import VllmMlu.Library.Cuts
import VllmMlu.Library.Machine
import VllmMlu.Library.Recency

/-! The mapper from the block ids of the linear-attention states to the few slots that the
worker has memory for; it forgets the id that was looked up least recently. -/
namespace VllmMlu.Worker
open VllmMlu.Library

inductive MapperError where
  /-- "batch_size must be positive". -/
  | valueError
  | keyError
  | indexError
deriving DecidableEq, Repr

structure DeviceAwareLocalIdMapper where
  batchSize : Nat
  globalToLocal : Dict Int Nat
  localToGlobal : Dict Nat Int
  availableLocalIds : List Nat

namespace DeviceAwareLocalIdMapper

def init (batchSize : Nat) : Except MapperError DeviceAwareLocalIdMapper :=
  if batchSize = 0 then .error .valueError
  else .ok {
    batchSize := batchSize
    globalToLocal := .empty
    localToGlobal := .empty
    availableLocalIds := List.range batchSize }

def reset (mapper : DeviceAwareLocalIdMapper) : DeviceAwareLocalIdMapper :=
  { mapper with
    globalToLocal := .empty
    localToGlobal := .empty
    availableLocalIds := List.range mapper.batchSize }

/-- Every local id is free or stands for one global id. -/
structure Valid (mapper : DeviceAwareLocalIdMapper) : Prop where
  positive : 0 < mapper.batchSize
  shared : (mapper.globalToLocal.values ++ mapper.availableLocalIds).Perm
    (List.range mapper.batchSize)
  inverse : mapper.localToGlobal.InverseOf mapper.globalToLocal

/-- A hit of the first pass. -/
def touch (mapper : DeviceAwareLocalIdMapper) (gid : Int) : DeviceAwareLocalIdMapper :=
  { mapper with globalToLocal := mapper.globalToLocal.moveToEnd gid }

/-- Room for one more global id. -/
def evict (mapper : DeviceAwareLocalIdMapper) : Except MapperError DeviceAwareLocalIdMapper :=
  if mapper.batchSize ≤ mapper.globalToLocal.values.length then
    match mapper.globalToLocal.popFirst with
    | none => .error .keyError
    | some ((_, oldLocal), rest) =>
        .ok { mapper with
          globalToLocal := rest
          localToGlobal := mapper.localToGlobal.pop oldLocal
          availableLocalIds := mapper.availableLocalIds ++ [oldLocal] }
  else .ok mapper

/-- One turn of the second pass: the next free local id for a miss. -/
def assign (state : DeviceAwareLocalIdMapper × Dict Int Nat) (gid : Int) :
    Except MapperError (DeviceAwareLocalIdMapper × Dict Int Nat) := do
  let mapper ← state.1.evict
  match mapper.availableLocalIds with
  | [] => .error .indexError
  | newLocal :: available =>
      pure ({ mapper with
        globalToLocal := mapper.globalToLocal.set gid newLocal
        localToGlobal := mapper.localToGlobal.set newLocal gid
        availableLocalIds := available }, state.2.set gid newLocal)

/-- The set of the misses; `order` is the order in which Python goes through its elements. -/
def uniqueMisses (order : List Int → List Int) (mapper : DeviceAwareLocalIdMapper)
    (gids : List Int) : List Int :=
  order (gids.filter fun gid => gid ∉ mapper.globalToLocal.keys).dedup

/-- The id of a hit from the first pass, of a miss from the third. -/
def localIdOf (mapper : DeviceAwareLocalIdMapper) (newMappings : Dict Int Nat) (gid : Int) :
    Except MapperError Nat :=
  match (mapper.globalToLocal.get? gid).or (newMappings.get? gid) with
  | none => .error .keyError
  | some localId => .ok localId

def batchGetLocalIds (order : List Int → List Int) (mapper : DeviceAwareLocalIdMapper)
    (gids : List Int) : Except MapperError (List Nat × DeviceAwareLocalIdMapper) := do
  let state ← (uniqueMisses order mapper gids).foldlM assign
    (gids.foldl touch mapper, Dict.empty)
  let localIds ← gids.mapM (localIdOf mapper state.2)
  pure (localIds, state.1)

theorem valid_init {batchSize : Nat} {mapper : DeviceAwareLocalIdMapper}
    (h : init batchSize = .ok mapper) : mapper.Valid := by
  unfold init at h
  split at h
  · cases h
  · rename_i hne
    cases h
    exact ⟨Nat.pos_of_ne_zero hne, .refl _, fun _ _ => by simp⟩

theorem Valid.reset {mapper : DeviceAwareLocalIdMapper} (hvalid : mapper.Valid) :
    mapper.reset.Valid :=
  ⟨hvalid.positive, .refl _, fun _ _ => by simp [DeviceAwareLocalIdMapper.reset]⟩

theorem Valid.touch {mapper : DeviceAwareLocalIdMapper} (hvalid : mapper.Valid) (gid : Int) :
    (mapper.touch gid).Valid :=
  ⟨hvalid.positive, ((Dict.values_moveToEnd_perm _ gid).append_right _).trans hvalid.shared,
    fun key value => (hvalid.inverse key value).trans (by
      simp [DeviceAwareLocalIdMapper.touch])⟩

/-- The first pass changes the order of the ids and nothing else. -/
theorem foldl_touch (gids : List Int) {mapper : DeviceAwareLocalIdMapper}
    (hvalid : mapper.Valid) :
    (gids.foldl DeviceAwareLocalIdMapper.touch mapper).Valid ∧
      ∀ gid, (gids.foldl DeviceAwareLocalIdMapper.touch mapper).globalToLocal.get? gid =
        mapper.globalToLocal.get? gid := by
  induction gids generalizing mapper with
  | nil => exact ⟨hvalid, fun gid => rfl⟩
  | cons first rest ih =>
      obtain ⟨hrest, hget⟩ := ih (hvalid.touch first)
      refine ⟨hrest, fun gid => ?_⟩
      rw [List.foldl_cons, hget]
      exact Dict.get?_moveToEnd _ first gid

theorem mem_keys_foldl_touch (gids : List Int) (mapper : DeviceAwareLocalIdMapper) (gid : Int) :
    gid ∈ (gids.foldl touch mapper).globalToLocal.keys ↔ gid ∈ mapper.globalToLocal.keys := by
  induction gids generalizing mapper with
  | nil => rfl
  | cons first rest ih => exact (ih (mapper.touch first)).trans (Dict.mem_keys_moveToEnd _ _ _)

theorem mem_uniqueMisses {order : List Int → List Int}
    (horder : ∀ misses, (order misses).Perm misses) {mapper : DeviceAwareLocalIdMapper}
    {gids : List Int} (gid : Int) : gid ∈ uniqueMisses order mapper gids ↔
      gid ∈ gids ∧ gid ∉ mapper.globalToLocal.keys := by
  rw [uniqueMisses, (horder _).mem_iff, List.mem_dedup, List.mem_filter, decide_eq_true_eq]

/-- After an eviction an id is free, and what is still mapped is mapped as before. -/
theorem evict_spec {mapper : DeviceAwareLocalIdMapper} (hvalid : mapper.Valid) :
    ∃ next newLocal available, mapper.evict = .ok next ∧
      next.availableLocalIds = newLocal :: available ∧ next.Valid ∧
      ∀ gid value, next.globalToLocal.get? gid = some value →
        mapper.globalToLocal.get? gid = some value := by
  have hlength := hvalid.shared.length_eq
  rw [List.length_append, List.length_range] at hlength
  unfold evict
  split
  · rename_i hfull
    split
    · rename_i hnone
      have hempty := Dict.popFirst_eq_none hnone
      have hpositive := hvalid.positive
      rw [hempty, List.length_nil] at hfull
      omega
    · rename_i oldGid oldLocal rest hpop
      obtain ⟨hget, rfl⟩ := Dict.get?_of_popFirst hpop
      have hnone : mapper.availableLocalIds = [] := List.length_eq_zero_iff.mp (by omega)
      refine ⟨_, oldLocal, [], rfl, by rw [hnone, List.nil_append],
        ⟨hvalid.positive, ?_, hvalid.inverse.pop hget⟩, ?_⟩
      · have hshared := hvalid.shared
        rw [hnone, List.append_nil] at hshared
        simp only [hnone, List.nil_append]
        exact (List.perm_append_singleton _ _).trans
          ((Dict.values_perm_pop hget).symm.trans hshared)
      · intro gid value hvalue
        have hne : gid ≠ oldGid := by
          rintro rfl
          simp at hvalue
        rwa [Dict.get?_pop_of_ne _ hne] at hvalue
  · rename_i hroom
    obtain ⟨newLocal, available, havailable⟩ :=
      List.exists_cons_of_length_pos (l := mapper.availableLocalIds) (by omega)
    exact ⟨mapper, newLocal, available, rfl, havailable, hvalid, fun _ _ h => h⟩

theorem assign_spec {mapper : DeviceAwareLocalIdMapper} (hvalid : mapper.Valid)
    (newMappings : Dict Int Nat) {gid : Int} (hmiss : gid ∉ mapper.globalToLocal.keys) :
    ∃ next newLocal, assign (mapper, newMappings) gid = .ok (next, newMappings.set gid newLocal) ∧
      next.Valid ∧ next.globalToLocal.get? gid = some newLocal ∧
      ∀ other value, other ≠ gid → next.globalToLocal.get? other = some value →
        mapper.globalToLocal.get? other = some value := by
  obtain ⟨evicted, newLocal, available, hevict, havailable, hevicted, hkept⟩ := evict_spec hvalid
  have hfresh : gid ∉ evicted.globalToLocal.keys := by
    intro hmem
    obtain ⟨value, hvalue⟩ := (Dict.mem_keys_iff _ _).mp hmem
    exact hmiss (Dict.mem_keys_of_get? (hkept gid value hvalue))
  have hfree : newLocal ∉ evicted.globalToLocal.values := by
    have hnodup := hevicted.shared.nodup_iff.mpr List.nodup_range
    rw [List.nodup_append'] at hnodup
    exact fun hused => hnodup.2.2 hused (by simp [havailable])
  refine ⟨{ evicted with
    globalToLocal := evicted.globalToLocal.set gid newLocal
    localToGlobal := evicted.localToGlobal.set newLocal gid
    availableLocalIds := available }, newLocal, ?_,
    ⟨hevicted.positive, ?_, hevicted.inverse.set hfresh hfree⟩, Dict.get?_set_self _ _ _, ?_⟩
  · simp only [assign, hevict]
    change (match evicted.availableLocalIds with | [] => _ | newLocal :: available => _) = _
    rw [havailable]
    rfl
  · have hshared := hevicted.shared
    rw [havailable] at hshared
    rw [Dict.values_set_of_not_mem _ _ _ hfresh, List.append_assoc]
    exact hshared
  · intro other value hne hvalue
    rw [Dict.get?_set_of_ne _ _ hne] at hvalue
    exact hkept other value hvalue

/-- The second pass: each miss is given an id once, and what is mapped in the end is mapped to
what it was given or as before. -/
theorem foldlM_assign {mapper : DeviceAwareLocalIdMapper} (hvalid : mapper.Valid)
    (newMappings : Dict Int Nat) {misses : List Int} (hnodup : misses.Nodup)
    (hmisses : ∀ gid ∈ misses, gid ∉ mapper.globalToLocal.keys) :
    ∃ next mappings, misses.foldlM assign (mapper, newMappings) = .ok (next, mappings) ∧
      next.Valid ∧
      (∀ gid ∈ misses, ∃ newLocal, mappings.get? gid = some newLocal ∧
        ∀ value, next.globalToLocal.get? gid = some value → value = newLocal) ∧
      ∀ other, other ∉ misses → mappings.get? other = newMappings.get? other ∧
        ∀ value, next.globalToLocal.get? other = some value →
          mapper.globalToLocal.get? other = some value := by
  induction misses generalizing mapper newMappings with
  | nil => exact ⟨mapper, newMappings, rfl, hvalid, by simp, fun _ _ => ⟨rfl, fun _ h => h⟩⟩
  | cons gid rest ih =>
      rw [List.nodup_cons] at hnodup
      obtain ⟨first, newLocal, hassign, hfirst, hgiven, hkept⟩ :=
        assign_spec hvalid newMappings (hmisses gid List.mem_cons_self)
      have hrest : ∀ other ∈ rest, other ∉ first.globalToLocal.keys := by
        intro other hother hmem
        have hne : other ≠ gid := fun heq => hnodup.1 (heq ▸ hother)
        obtain ⟨value, hvalue⟩ := (Dict.mem_keys_iff _ _).mp hmem
        exact hmisses other (List.mem_cons_of_mem _ hother)
          (Dict.mem_keys_of_get? (hkept other value hne hvalue))
      obtain ⟨next, mappings, hfold, hnext, hnew, hold⟩ :=
        ih hfirst (newMappings.set gid newLocal) hnodup.2 hrest
      refine ⟨next, mappings, ?_, hnext, ?_, ?_⟩
      · rw [List.foldlM_cons, hassign]
        exact hfold
      · intro other hother
        rcases List.mem_cons.mp hother with rfl | hother
        · obtain ⟨hmapping, hlast⟩ := hold other hnodup.1
          refine ⟨newLocal, by rw [hmapping, Dict.get?_set_self], fun value hvalue => ?_⟩
          rw [hlast value hvalue] at hgiven
          exact Option.some.inj hgiven
        · exact hnew other hother
      · intro other hother
        rw [List.mem_cons, not_or] at hother
        obtain ⟨hmapping, hlast⟩ := hold other hother.2
        exact ⟨by rw [hmapping, Dict.get?_set_of_ne _ _ hother.1],
          fun value hvalue => hkept other value hother.1 (hlast value hvalue)⟩

/-- What a lookup answers and leaves behind. -/
structure Answers (mapper : DeviceAwareLocalIdMapper) (gids : List Int) (localIds : List Nat)
    (next : DeviceAwareLocalIdMapper) : Prop where
  valid : next.Valid
  length : localIds.length = gids.length
  answer : ∀ (i : Nat) (gid : Int), gids[i]? = some gid → ∃ localId, localIds[i]? = some localId ∧
    (∀ value, mapper.globalToLocal.get? gid = some value → localId = value) ∧
      ∀ value, next.globalToLocal.get? gid = some value → value = localId
  frame : ∀ gid, gid ∉ gids → ∀ value, next.globalToLocal.get? gid = some value →
    mapper.globalToLocal.get? gid = some value

/-- A lookup returns: the id of a hit is the one it had, and every id that is still mapped
afterwards is mapped to the answer. -/
theorem batchGetLocalIds_spec {order : List Int → List Int}
    (horder : ∀ misses, (order misses).Perm misses) {mapper : DeviceAwareLocalIdMapper}
    (hvalid : mapper.Valid) (gids : List Int) :
    ∃ localIds next, mapper.batchGetLocalIds order gids = .ok (localIds, next) ∧
      Answers mapper gids localIds next := by
  obtain ⟨htouched, htouch⟩ := foldl_touch gids hvalid
  have hmem : ∀ gid, gid ∈ uniqueMisses order mapper gids ↔
      gid ∈ gids ∧ gid ∉ mapper.globalToLocal.keys := mem_uniqueMisses horder
  have hnodup : (uniqueMisses order mapper gids).Nodup :=
    (horder _).nodup_iff.mpr (List.nodup_dedup _)
  obtain ⟨next, newMappings, hfold, hnext, hnew, hold⟩ :=
    foldlM_assign htouched Dict.empty hnodup (by
      intro gid hgid hkey
      rw [mem_keys_foldl_touch] at hkey
      exact ((hmem gid).mp hgid).2 hkey)
  have hanswer : ∀ gid ∈ gids, ∃ localId, localIdOf mapper newMappings gid = .ok localId ∧
      (∀ value, mapper.globalToLocal.get? gid = some value → localId = value) ∧
      ∀ value, next.globalToLocal.get? gid = some value → value = localId := by
    intro gid hgid
    cases hget : mapper.globalToLocal.get? gid with
    | some value =>
        refine ⟨value, by rw [localIdOf, hget]; rfl, by simp, fun last hlast => ?_⟩
        have hhit : ¬(gid ∈ gids ∧ gid ∉ mapper.globalToLocal.keys) := fun h =>
          h.2 (Dict.mem_keys_of_get? hget)
        have hkept := (hold gid (mt (hmem gid).mp hhit)).2 last hlast
        rw [htouch, hget] at hkept
        exact (Option.some.inj hkept).symm
    | none =>
        obtain ⟨newLocal, hmapping, hlast⟩ :=
          hnew gid ((hmem gid).mpr ⟨hgid, (Dict.get?_eq_none_iff _ _).mp hget⟩)
        exact ⟨newLocal, by rw [localIdOf, hget, hmapping]; rfl, by simp, hlast⟩
  obtain ⟨localIds, hlocals, hanswers⟩ := Cuts.exists_mapM_ok hanswer
  refine ⟨localIds, next, bind_eq_ok.mpr ⟨_, hfold, bind_eq_ok.mpr ⟨_, hlocals, rfl⟩⟩, hnext,
    hanswers.length_eq.symm, ?_, ?_⟩
  · intro i gid hgid
    exact Cuts.getElem?_of_forall₂ hanswers hgid
  · intro gid hgid value hvalue
    have hkept := (hold gid (mt (hmem gid).mp fun h => hgid h.1)).2 value hvalue
    rwa [htouch] at hkept

end DeviceAwareLocalIdMapper

end VllmMlu.Worker
