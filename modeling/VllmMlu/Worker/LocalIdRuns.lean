import VllmMlu.Worker.LocalIdMapper

/-! The local ids over any number of lookups: which ids share one, and how long an id keeps
the one it was given. -/
namespace VllmMlu.Worker
open VllmMlu.Library

namespace DeviceAwareLocalIdMapper

variable {mapper next : DeviceAwareLocalIdMapper} {used : Finset Int}

/-! Which ids are used last. -/

theorem touch_recent (hrecent : mapper.globalToLocal.Recent used) (gid : Int) :
    (mapper.touch gid).globalToLocal.Recent
      (used ∪ ({gid} : Finset Int).filter (· ∈ mapper.globalToLocal.keys)) := by
  by_cases hhit : gid ∈ mapper.globalToLocal.keys
  · rw [Finset.filter_singleton, if_pos hhit, Finset.union_comm, ← Finset.insert_eq]
    exact hrecent.moveToEnd hhit
  · have hsame : (mapper.touch gid).globalToLocal = mapper.globalToLocal := by
      rw [touch, Dict.moveToEnd, (Dict.get?_eq_none_iff _ _).mpr hhit]
    rw [Finset.filter_singleton, if_neg hhit, Finset.union_empty, hsame]
    exact hrecent

/-- The first pass uses the hits. -/
theorem foldl_touch_recent (gids : List Int) (hrecent : mapper.globalToLocal.Recent used) :
    (gids.foldl touch mapper).globalToLocal.Recent
      (used ∪ gids.toFinset.filter (· ∈ mapper.globalToLocal.keys)) := by
  induction gids generalizing mapper used with
  | nil => simpa using hrecent
  | cons gid rest ih =>
      have hrest := ih (touch_recent hrecent gid)
      have hkeys : ∀ other, other ∈ (mapper.touch gid).globalToLocal.keys ↔
          other ∈ mapper.globalToLocal.keys := fun other => Dict.mem_keys_moveToEnd _ gid other
      simp only [hkeys, Finset.union_assoc, ← Finset.filter_union] at hrest
      rwa [List.toFinset_cons, Finset.insert_eq]

/-- An eviction spares the used ids while there is room for them and one more. -/
theorem evict_recent (hrecent : mapper.globalToLocal.Recent used)
    (hroom : used.card < mapper.batchSize) (h : mapper.evict = .ok next) :
    next.globalToLocal.Recent used ∧
      ∀ gid ∈ next.globalToLocal.keys, gid ∈ mapper.globalToLocal.keys := by
  unfold evict at h
  split at h
  · rename_i hfull
    have hlength : mapper.globalToLocal.keys.length = mapper.globalToLocal.values.length := by
      simp [Dict.keys, Dict.values]
    obtain ⟨gid, localId, hpop, -, hrest⟩ := hrecent.popFirst (by omega)
    rw [hpop] at h
    cases h
    exact ⟨hrest, by simp +contextual⟩
  · cases h
    exact ⟨hrecent, fun _ hmem => hmem⟩

theorem evict_batchSize (h : mapper.evict = .ok next) : next.batchSize = mapper.batchSize := by
  unfold evict at h
  split at h
  · split at h
    · cases h
    · cases h
      rfl
  · cases h
    rfl

/-- What a turn of the second pass does, when it does not raise. -/
theorem assign_eq {state result : DeviceAwareLocalIdMapper × Dict Int Nat} {gid : Int}
    (h : assign state gid = .ok result) :
    ∃ evicted newLocal available, state.1.evict = .ok evicted ∧
      evicted.availableLocalIds = newLocal :: available ∧ result = ({ evicted with
        globalToLocal := evicted.globalToLocal.set gid newLocal
        localToGlobal := evicted.localToGlobal.set newLocal gid
        availableLocalIds := available }, state.2.set gid newLocal) := by
  obtain ⟨evicted, hevict, hrest⟩ := bind_eq_ok.mp h
  split at hrest
  · cases hrest
  · rename_i newLocal available havailable
    exact ⟨evicted, newLocal, available, hevict, havailable, (pure_eq_ok.mp hrest).symm⟩

theorem assign_batchSize {state result : DeviceAwareLocalIdMapper × Dict Int Nat} {gid : Int}
    (h : assign state gid = .ok result) : result.1.batchSize = state.1.batchSize := by
  obtain ⟨evicted, newLocal, available, hevict, -, heq⟩ := assign_eq h
  rw [heq]
  have hsize := evict_batchSize hevict
  exact hsize

/-- Room for a miss is room for an eviction that spares the used ids. -/
theorem card_lt_of_miss (hrecent : mapper.globalToLocal.Recent used) {gid : Int}
    (hmiss : gid ∉ mapper.globalToLocal.keys)
    (hroom : (insert gid used).card ≤ mapper.batchSize) : used.card < mapper.batchSize := by
  have hunused : gid ∉ used := fun hused => hmiss (hrecent.mem_keys hused)
  rw [Finset.card_insert_of_notMem hunused] at hroom
  omega

theorem assign_recent {state result : DeviceAwareLocalIdMapper × Dict Int Nat} {gid : Int}
    (hrecent : state.1.globalToLocal.Recent used) (hmiss : gid ∉ state.1.globalToLocal.keys)
    (hroom : (insert gid used).card ≤ state.1.batchSize) (h : assign state gid = .ok result) :
    result.1.globalToLocal.Recent (insert gid used) ∧
      ∀ other ∈ result.1.globalToLocal.keys, other = gid ∨ other ∈ state.1.globalToLocal.keys := by
  obtain ⟨evicted, newLocal, available, hevict, -, rfl⟩ := assign_eq h
  obtain ⟨hkept, hkeys⟩ := evict_recent hrecent (card_lt_of_miss hrecent hmiss hroom) hevict
  refine ⟨hkept.set (fun hmem => hmiss (hkeys gid hmem)) newLocal, fun other hmem => ?_⟩
  exact ((Dict.mem_keys_set _ _ _ _).mp hmem).imp_right (hkeys other)

/-- The second pass uses the misses. -/
theorem foldlM_assign_recent {state result : DeviceAwareLocalIdMapper × Dict Int Nat}
    {misses : List Int} (hrecent : state.1.globalToLocal.Recent used) (hnodup : misses.Nodup)
    (hmisses : ∀ gid ∈ misses, gid ∉ state.1.globalToLocal.keys)
    (hroom : (used ∪ misses.toFinset).card ≤ state.1.batchSize)
    (h : misses.foldlM assign state = .ok result) :
    result.1.globalToLocal.Recent (used ∪ misses.toFinset) := by
  induction misses generalizing state used with
  | nil =>
      rw [List.foldlM_nil, pure_eq_ok] at h
      rw [← h]
      simpa using hrecent
  | cons gid rest ih =>
      rw [List.foldlM_cons] at h
      obtain ⟨first, hassign, hrest⟩ := bind_eq_ok.mp h
      rw [List.nodup_cons] at hnodup
      rw [List.toFinset_cons, Finset.union_insert, ← Finset.insert_union] at hroom ⊢
      obtain ⟨hfirst, hkeys⟩ := assign_recent hrecent (hmisses gid List.mem_cons_self)
        ((Finset.card_le_card Finset.subset_union_left).trans hroom) hassign
      refine ih hfirst hnodup.2 ?_ (by rwa [assign_batchSize hassign]) hrest
      intro other hother hmem
      rcases hkeys other hmem with rfl | hmem
      · exact hnodup.1 hother
      · exact hmisses other (List.mem_cons_of_mem _ hother) hmem

theorem foldl_touch_batchSize (gids : List Int) (mapper : DeviceAwareLocalIdMapper) :
    (gids.foldl touch mapper).batchSize = mapper.batchSize := by
  induction gids generalizing mapper with
  | nil => rfl
  | cons gid rest ih => exact ih (mapper.touch gid)

section Lookup

variable {order : List Int → List Int} {gids : List Int} {localIds : List Nat}

theorem batchGetLocalIds_batchSize
    (h : mapper.batchGetLocalIds order gids = .ok (localIds, next)) :
    next.batchSize = mapper.batchSize := by
  obtain ⟨state, hfold, hrest⟩ := bind_eq_ok.mp h
  obtain ⟨_, -, hpure⟩ := bind_eq_ok.mp hrest
  cases hpure
  exact @foldlM_invariant _ _ _ assign (fun state => state.1.batchSize = mapper.batchSize) _ _ _
    (foldl_touch_batchSize gids mapper)
    (fun _ _ _ _ hstart hassign => (assign_batchSize hassign).trans hstart) hfold

/-- A lookup uses its ids, and forgets none of the ids used before if there is room for all. -/
theorem batchGetLocalIds_recent (horder : ∀ misses, (order misses).Perm misses)
    (hrecent : mapper.globalToLocal.Recent used)
    (hroom : (used ∪ gids.toFinset).card ≤ mapper.batchSize)
    (h : mapper.batchGetLocalIds order gids = .ok (localIds, next)) :
    next.globalToLocal.Recent (used ∪ gids.toFinset) := by
  obtain ⟨state, hfold, hrest⟩ := bind_eq_ok.mp h
  obtain ⟨_, -, hpure⟩ := bind_eq_ok.mp hrest
  cases hpure
  have hmem : ∀ gid, gid ∈ uniqueMisses order mapper gids ↔
      gid ∈ gids ∧ gid ∉ mapper.globalToLocal.keys := mem_uniqueMisses horder
  have hunion : used ∪ gids.toFinset.filter (· ∈ mapper.globalToLocal.keys) ∪
      (uniqueMisses order mapper gids).toFinset = used ∪ gids.toFinset := by
    ext gid
    simp only [Finset.mem_union, Finset.mem_filter, List.mem_toFinset, hmem]
    tauto
  rw [← hunion]
  refine foldlM_assign_recent (foldl_touch_recent gids hrecent)
    ((horder _).nodup_iff.mpr (List.nodup_dedup _)) ?_ ?_ hfold
  · intro gid hgid hkey
    rw [mem_keys_foldl_touch] at hkey
    exact ((hmem gid).mp hgid).2 hkey
  · rw [hunion, foldl_touch_batchSize]
    exact hroom

end Lookup

/-! Runs of calls. -/

/-- A lookup, with the order in which Python goes through the set of the misses. -/
structure Lookup where
  gids : List Int
  setOrder : List Int → List Int
  ordered : ∀ misses, (setOrder misses).Perm misses

def answer (mapper : DeviceAwareLocalIdMapper) (lookup : Lookup) :
    Except MapperError (List Nat × DeviceAwareLocalIdMapper) :=
  mapper.batchGetLocalIds lookup.setOrder lookup.gids

/-- An id that is still there keeps its local id. -/
theorem Answers.keeps {gids : List Int} {localIds : List Nat}
    (hanswers : Answers mapper gids localIds next) {gid : Int} {localId : Nat}
    (hget : mapper.globalToLocal.get? gid = some localId)
    (hkey : gid ∈ next.globalToLocal.keys) : next.globalToLocal.get? gid = some localId := by
  obtain ⟨value, hvalue⟩ := (Dict.mem_keys_iff _ _).mp hkey
  by_cases hmem : gid ∈ gids
  · obtain ⟨i, hi⟩ := List.mem_iff_getElem?.mp hmem
    obtain ⟨answer, -, hhit, hlast⟩ := hanswers.answer i gid hi
    rw [hvalue, hlast value hvalue, hhit localId hget]
  · have hold := hanswers.frame gid hmem value hvalue
    rw [hget] at hold
    rw [hvalue, Option.some.inj hold]

/-- A lookup returns, and if the mapper has room for its ids together with those used before,
every one of them is mapped afterwards, the ids of the lookup to the answers. -/
theorem answer_spec (hvalid : mapper.Valid) (hrecent : mapper.globalToLocal.Recent used)
    (lookup : Lookup) (hroom : (used ∪ lookup.gids.toFinset).card ≤ mapper.batchSize) :
    ∃ localIds next, mapper.answer lookup = .ok (localIds, next) ∧
      Answers mapper lookup.gids localIds next ∧ next.batchSize = mapper.batchSize ∧
      next.globalToLocal.Recent (used ∪ lookup.gids.toFinset) ∧
      ∀ (i : Nat) gid, lookup.gids[i]? = some gid →
        ∃ localId, localIds[i]? = some localId ∧ next.globalToLocal.get? gid = some localId := by
  obtain ⟨localIds, next, hok, hanswers⟩ :=
    batchGetLocalIds_spec lookup.ordered hvalid lookup.gids
  have hnext := batchGetLocalIds_recent lookup.ordered hrecent hroom hok
  refine ⟨localIds, next, hok, hanswers, batchGetLocalIds_batchSize hok, hnext, ?_⟩
  intro i gid hgid
  obtain ⟨localId, hlocalId, -, hlast⟩ := hanswers.answer i gid hgid
  obtain ⟨value, hvalue⟩ := (Dict.mem_keys_iff _ _).mp (hnext.mem_keys
    (Finset.mem_union_right used (List.mem_toFinset.mpr (List.mem_of_getElem? hgid))))
  exact ⟨localId, hlocalId, by rw [hvalue, hlast value hvalue]⟩

inductive Call where
  | batchGetLocalIds (lookup : Lookup)
  | reset

/-- No lookup asks for more ids than the mapper has. -/
def Call.Fits (mapper : DeviceAwareLocalIdMapper) : Call → Prop
  | .batchGetLocalIds lookup => lookup.gids.toFinset.card ≤ mapper.batchSize
  | .reset => True

def machine : Machine DeviceAwareLocalIdMapper Call MapperError where
  step := fun mapper call =>
    match call with
    | .batchGetLocalIds lookup => do
        let (_, next) ← mapper.answer lookup
        pure next
    | .reset => pure mapper.reset

/-- The containers of the mapper agree. -/
structure OneToOne (mapper : DeviceAwareLocalIdMapper) (batchSize : Nat) : Prop where
  injective : ∀ gid other localId, mapper.globalToLocal.get? gid = some localId →
    mapper.globalToLocal.get? other = some localId → gid = other
  bounded : ∀ gid localId, mapper.globalToLocal.get? gid = some localId → localId < batchSize
  inverse : ∀ gid localId, mapper.localToGlobal.get? localId = some gid ↔
    mapper.globalToLocal.get? gid = some localId
  shared : (mapper.globalToLocal.values ++ mapper.availableLocalIds).Perm (List.range batchSize)

theorem Valid.oneToOne (hvalid : mapper.Valid) : mapper.OneToOne mapper.batchSize where
  injective := fun _ _ _ hgid hother => hvalid.inverse.injective hgid hother
  bounded := fun gid localId hget => by
    have hmem := (Dict.mem_values_iff _ _).mpr ⟨gid, hget⟩
    exact List.mem_range.mp (hvalid.shared.mem_iff.mp (List.mem_append_left _ hmem))
  inverse := hvalid.inverse
  shared := hvalid.shared

theorem init_batchSize {batchSize : Nat} (h : init batchSize = .ok mapper) :
    mapper.batchSize = batchSize := by
  unfold init at h
  split at h
  · cases h
  · cases h
    rfl

theorem machine_step {call : Call} (hvalid : mapper.Valid)
    (hok : machine.step mapper call = .ok next) :
    next.Valid ∧ next.batchSize = mapper.batchSize := by
  cases call with
  | batchGetLocalIds lookup =>
      obtain ⟨localIds, other, hanswer, hanswers⟩ :=
        batchGetLocalIds_spec lookup.ordered hvalid lookup.gids
      obtain ⟨result, hresult, hpure⟩ := bind_eq_ok.mp hok
      rw [answer, hanswer, Except.ok.injEq] at hresult
      subst hresult
      cases hpure
      exact ⟨hanswers.valid, batchGetLocalIds_batchSize hanswer⟩
  | reset =>
      cases hok
      exact ⟨hvalid.reset, rfl⟩

/-- After any calls the local ids in use stand for one global id each and the others are free,
and the next lookup returns the same local id for the same global ids only. -/
theorem local_ids_one_to_one {batchSize : Nat} {start : DeviceAwareLocalIdMapper}
    (hinit : init batchSize = .ok start) (run : machine.Run Call.Fits start mapper) :
    mapper.OneToOne batchSize ∧
      ∀ lookup : Lookup, lookup.gids.toFinset.card ≤ batchSize →
        ∃ localIds next, mapper.answer lookup = .ok (localIds, next) ∧
          localIds.length = lookup.gids.length ∧
          ∀ i j : Nat, i < lookup.gids.length → j < lookup.gids.length →
            (localIds[i]? = localIds[j]? ↔ lookup.gids[i]? = lookup.gids[j]?) := by
  have hinvariant : mapper.Valid ∧ mapper.batchSize = batchSize := by
    induction run with
    | refl => exact ⟨valid_init hinit, init_batchSize hinit⟩
    | step _ _ hok ih =>
        obtain ⟨hnext, hsize⟩ := machine_step ih.1 hok
        exact ⟨hnext, hsize.trans ih.2⟩
  obtain ⟨hvalid, rfl⟩ := hinvariant
  refine ⟨hvalid.oneToOne, fun lookup hfits => ?_⟩
  obtain ⟨localIds, next, hok, hanswers, -, -, hmapped⟩ :=
    answer_spec hvalid (.none _) lookup (by rwa [Finset.empty_union])
  refine ⟨localIds, next, hok, hanswers.length, fun i j hi hj => ?_⟩
  obtain ⟨first, hfirst, hfirstMapped⟩ := hmapped i _ (List.getElem?_eq_getElem hi)
  obtain ⟨second, hsecond, hsecondMapped⟩ := hmapped j _ (List.getElem?_eq_getElem hj)
  rw [hfirst, hsecond, List.getElem?_eq_getElem hi, List.getElem?_eq_getElem hj,
    Option.some.injEq, Option.some.injEq]
  constructor
  · rintro rfl
    exact hanswers.valid.inverse.injective hfirstMapped hsecondMapped
  · intro heq
    rw [heq, hsecondMapped] at hfirstMapped
    exact (Option.some.inj hfirstMapped).symm

namespace Samples

/-- A lookup whose misses are mapped in the order in which they come. -/
def lookupOf (gids : List Int) : Lookup := ⟨gids, id, List.Perm.refl⟩

/-- A mapper with one local id. -/
def oneId : DeviceAwareLocalIdMapper where
  batchSize := 1
  globalToLocal := .empty
  localToGlobal := .empty
  availableLocalIds := [0]

end Samples

open Samples in
theorem local_ids_one_to_one_single : ∃ next,
    machine.step oneId (.batchGetLocalIds (lookupOf [5])) = .ok next ∧ next.OneToOne 1 := by
  have hinit : init 1 = .ok oneId := rfl
  have hfits : Call.Fits oneId (.batchGetLocalIds (lookupOf [5])) := by
    change ([5] : List Int).toFinset.card ≤ 1
    decide
  refine ⟨_, rfl, (local_ids_one_to_one hinit (.step .refl hfits rfl)).1⟩

/-- Lookups one after another, and the answers to them. -/
def answers (mapper : DeviceAwareLocalIdMapper) :
    List Lookup → Except MapperError (List (List Nat) × DeviceAwareLocalIdMapper)
  | [] => pure ([], mapper)
  | lookup :: rest => do
      let (localIds, next) ← mapper.answer lookup
      let (others, last) ← next.answers rest
      pure (localIds :: others, last)

theorem answers_cons {lookup : Lookup} {rest : List Lookup} {localIds : List Nat}
    {result : List (List Nat)} {last : DeviceAwareLocalIdMapper}
    (hanswer : mapper.answer lookup = .ok (localIds, next))
    (hok : mapper.answers (lookup :: rest) = .ok (result, last)) :
    ∃ others, next.answers rest = .ok (others, last) ∧ result = localIds :: others := by
  obtain ⟨first, hfirst, htail⟩ := bind_eq_ok.mp hok
  rw [hanswer, Except.ok.injEq] at hfirst
  subst hfirst
  obtain ⟨others, hothers, hpure⟩ := bind_eq_ok.mp htail
  cases hpure
  exact ⟨others.1, hothers, rfl⟩

theorem exists_answers (hvalid : mapper.Valid) (lookups : List Lookup) :
    ∃ others last, mapper.answers lookups = .ok (others, last) := by
  induction lookups generalizing mapper with
  | nil => exact ⟨[], mapper, rfl⟩
  | cons lookup rest ih =>
      obtain ⟨localIds, next, hanswer, hanswers⟩ :=
        batchGetLocalIds_spec lookup.ordered hvalid lookup.gids
      obtain ⟨others, last, hrest⟩ := ih hanswers.valid
      exact ⟨localIds :: others, last,
        bind_eq_ok.mpr ⟨_, hanswer, bind_eq_ok.mpr ⟨_, hrest, rfl⟩⟩⟩

/-- The ids that occur in some lookups. -/
def distinctIds (lookups : List Lookup) : Finset Int := (lookups.flatMap Lookup.gids).toFinset

theorem distinctIds_cons (lookup : Lookup) (rest : List Lookup) :
    distinctIds (lookup :: rest) = lookup.gids.toFinset ∪ distinctIds rest := by
  rw [distinctIds, List.flatMap_cons, List.toFinset_append, distinctIds]

/-- A used id keeps its local id as long as the mapper has room for all ids that are used. -/
theorem answers_keep (hvalid : mapper.Valid) (hrecent : mapper.globalToLocal.Recent used)
    {lookups : List Lookup} {others : List (List Nat)} {last : DeviceAwareLocalIdMapper}
    (hok : mapper.answers lookups = .ok (others, last)) {gid : Int} {localId : Nat}
    (hused : gid ∈ used) (hget : mapper.globalToLocal.get? gid = some localId) {j : Nat}
    {lookup : Lookup} (hlookup : lookups[j]? = some lookup) {q : Nat}
    (hgid : lookup.gids[q]? = some gid)
    (hroom : (used ∪ distinctIds (lookups.take (j + 1))).card ≤ mapper.batchSize) :
    ∃ localIds, others[j]? = some localIds ∧ localIds[q]? = some localId := by
  induction lookups generalizing mapper used others j with
  | nil => simp at hlookup
  | cons first rest ih =>
      rw [List.take_succ_cons, distinctIds_cons, ← Finset.union_assoc] at hroom
      have hfirst : (used ∪ first.gids.toFinset).card ≤ mapper.batchSize :=
        (Finset.card_le_card Finset.subset_union_left).trans hroom
      obtain ⟨localIds, next, hanswer, hanswers, hsize, hnext, -⟩ :=
        answer_spec hvalid hrecent first hfirst
      obtain ⟨tail, htail, rfl⟩ := answers_cons hanswer hok
      cases j with
      | zero =>
          cases hlookup
          obtain ⟨value, hvalue, hhit, -⟩ := hanswers.answer q gid hgid
          exact ⟨localIds, rfl, by rw [hvalue, hhit localId hget]⟩
      | succ j =>
          have hkept := hanswers.keeps hget
            (hnext.mem_keys (Finset.mem_union_left _ hused))
          exact ih hanswers.valid hnext htail (Finset.mem_union_left _ hused) hkept hlookup
            (by rwa [hsize])

theorem answers_stable (hvalid : mapper.Valid) {lookups : List Lookup} {others : List (List Nat)}
    {last : DeviceAwareLocalIdMapper} (hok : mapper.answers lookups = .ok (others, last))
    {i j p q : Nat} {first second : Lookup} {gid : Int} (hlt : i < j)
    (hfirst : lookups[i]? = some first) (hsecond : lookups[j]? = some second)
    (hp : first.gids[p]? = some gid) (hq : second.gids[q]? = some gid)
    (hroom : (distinctIds ((lookups.drop i).take (j - i + 1))).card ≤ mapper.batchSize) :
    ∃ localId firstIds secondIds, others[i]? = some firstIds ∧ others[j]? = some secondIds ∧
      firstIds[p]? = some localId ∧ secondIds[q]? = some localId := by
  induction lookups generalizing mapper others i j with
  | nil => simp at hfirst
  | cons lookup rest ih =>
      obtain ⟨j, rfl⟩ := Nat.exists_eq_add_one_of_ne_zero (Nat.ne_zero_of_lt hlt)
      cases i with
      | zero =>
          obtain rfl : lookup = first := Option.some.inj hfirst
          rw [List.drop_zero, Nat.sub_zero, List.take_succ_cons, distinctIds_cons] at hroom
          have hids : (∅ ∪ lookup.gids.toFinset).card ≤ mapper.batchSize := by
            rw [Finset.empty_union]
            exact (Finset.card_le_card Finset.subset_union_left).trans hroom
          -- From here on the ids of the first lookup are the ones used last.
          obtain ⟨firstIds, next, hanswer, hanswers, hsize, hnext, hmapped⟩ :=
            answer_spec hvalid (.none _) lookup hids
          obtain ⟨tail, htail, rfl⟩ := answers_cons hanswer hok
          obtain ⟨localId, hlocalId, hget⟩ := hmapped p gid hp
          rw [Finset.empty_union] at hnext
          obtain ⟨secondIds, hsecondIds, hlast⟩ := answers_keep hanswers.valid hnext htail
            (List.mem_toFinset.mpr (List.mem_of_getElem? hp)) hget hsecond hq (by rwa [hsize])
          exact ⟨localId, firstIds, secondIds, rfl, hsecondIds, hlocalId, hlast⟩
      | succ i =>
          obtain ⟨localIds, next, hanswer, hanswers⟩ :=
            batchGetLocalIds_spec lookup.ordered hvalid lookup.gids
          obtain ⟨tail, htail, rfl⟩ := answers_cons hanswer hok
          have hsize := batchGetLocalIds_batchSize hanswer
          rw [List.drop_succ_cons, Nat.add_sub_add_right] at hroom
          exact ih hanswers.valid htail (by omega) hfirst hsecond (by rwa [hsize])

/-- Lookups return, and an id has the same local id in two of them if the ids that occur from
the one to the other are not more than the mapper has. -/
theorem local_id_stable {batchSize : Nat} {start : DeviceAwareLocalIdMapper}
    (hinit : init batchSize = .ok start) (lookups : List Lookup) :
    ∃ others last, start.answers lookups = .ok (others, last) ∧
      ∀ (i j p q : Nat) (first second : Lookup) (gid : Int), i < j → lookups[i]? = some first →
        lookups[j]? = some second → first.gids[p]? = some gid → second.gids[q]? = some gid →
        (distinctIds ((lookups.drop i).take (j - i + 1))).card ≤ batchSize →
        ∃ localId firstIds secondIds, others[i]? = some firstIds ∧ others[j]? = some secondIds ∧
          firstIds[p]? = some localId ∧ secondIds[q]? = some localId := by
  have hvalid := valid_init hinit
  obtain ⟨others, last, hok⟩ := exists_answers hvalid lookups
  refine ⟨others, last, hok, fun i j p q first second gid hlt hfirst hsecond hp hq hroom => ?_⟩
  rw [← init_batchSize hinit] at hroom
  exact answers_stable hvalid hok hlt hfirst hsecond hp hq hroom

open Samples in
theorem local_id_stable_single : ∃ others last localId firstIds secondIds,
    oneId.answers [lookupOf [5], lookupOf [5, 5]] = .ok (others, last) ∧
      others[0]? = some firstIds ∧ others[1]? = some secondIds ∧
      firstIds[0]? = some localId ∧ secondIds[1]? = some localId := by
  have hinit : init 1 = .ok oneId := rfl
  obtain ⟨others, last, hok, hstable⟩ := local_id_stable hinit [lookupOf [5], lookupOf [5, 5]]
  obtain ⟨localId, firstIds, secondIds, hids⟩ :=
    hstable 0 1 0 1 _ _ 5 Nat.zero_lt_one rfl rfl rfl rfl (by decide)
  exact ⟨others, last, localId, firstIds, secondIds, hok, hids⟩

end DeviceAwareLocalIdMapper

end VllmMlu.Worker
