import VllmMlu.Allocator.CnMem

/-! Sleep mode over whole runs: which allocations are mapped, and what they hold
after they are woken up. -/
namespace VllmMlu.Allocator

open Library

variable {fresh : Nat → Contents}

/-! ### The device -/

/-- A device without faults that has mapped the addresses of `live`, each with a
handle of its own that is not released. -/
structure DeviceSound (live : Ptr → Prop) (device : Device) : Prop where
  noFaults : device.faults = []
  mapped : ∀ ptr, ptr ∈ device.mapped.keys ↔ live ptr
  handles : ∀ ptr, live ptr → ∃ memHandle, device.memHandles.get? ptr = some memHandle ∧
    memHandle ∉ device.released ∧ memHandle < device.nextHandle
  distinct : ∀ left right, live left → live right →
    device.memHandles.get? left = device.memHandles.get? right → left = right
  released : ∀ memHandle ∈ device.released, memHandle < device.nextHandle

namespace DeviceSound

variable {live other : Ptr → Prop} {device : Device} {ptr : Ptr}

theorem congr (h : DeviceSound live device) (hiff : ∀ ptr, live ptr ↔ other ptr) :
    DeviceSound other device := by
  rwa [← funext fun ptr => propext (hiff ptr)]

theorem contents_isSome (h : DeviceSound live device) (hlive : live ptr) :
    ∃ contents, device.contents ptr = some contents := by
  obtain ⟨held, hheld⟩ := (Dict.mem_keys_iff _ _).mp ((h.mapped ptr).mpr hlive)
  exact ⟨held.2, by rw [Device.contents, hheld]; rfl⟩

theorem get?_eq_none (h : DeviceSound live device) (hlive : ¬live ptr) :
    device.mapped.get? ptr = none :=
  (Dict.get?_eq_none_iff _ _).mpr fun hmem => hlive ((h.mapped ptr).mp hmem)

theorem createAndMap (h : DeviceSound live device) (hptr : ¬live ptr) :
    DeviceSound (fun other => other = ptr ∨ live other) (device.createAndMap fresh ptr) := by
  unfold Device.createAndMap
  rw [h.get?_eq_none hptr]
  constructor
  · exact h.noFaults
  · intro other
    rw [Dict.mem_keys_set, h.mapped]
  · intro other hother
    simp only [Dict.get?_set]
    split
    · refine ⟨device.nextHandle, rfl, fun hmem => ?_, Nat.lt_succ_self _⟩
      exact Nat.lt_irrefl _ (h.released _ hmem)
    · rename_i hne
      obtain ⟨memHandle, hget, hfree, hlt⟩ := h.handles other (hother.resolve_left hne)
      exact ⟨memHandle, hget, hfree, Nat.lt_succ_of_lt hlt⟩
  · intro left right hleft hright heq
    simp only [Dict.get?_set] at heq
    split at heq
    · rename_i hleftEq
      split at heq
      · rename_i hrightEq
        exact hleftEq.trans hrightEq.symm
      · rename_i hne
        obtain ⟨memHandle, hget, -, hlt⟩ := h.handles right (hright.resolve_left hne)
        rw [hget, Option.some.injEq] at heq
        omega
    · rename_i hne
      split at heq
      · obtain ⟨memHandle, hget, -, hlt⟩ := h.handles left (hleft.resolve_left hne)
        rw [hget, Option.some.injEq] at heq
        omega
      · rename_i hne'
        exact h.distinct left right (hleft.resolve_left hne) (hright.resolve_left hne') heq
  · intro memHandle hmem
    exact Nat.lt_succ_of_lt (h.released memHandle hmem)

theorem unmapAndRelease (h : DeviceSound live device) (hptr : live ptr) :
    DeviceSound (fun other => live other ∧ other ≠ ptr) (device.unmapAndRelease ptr) := by
  obtain ⟨held, hheld⟩ := (Dict.mem_keys_iff _ _).mp ((h.mapped ptr).mpr hptr)
  obtain ⟨memHandle, hget, hfree, hlt⟩ := h.handles ptr hptr
  simp only [Device.unmapAndRelease, hheld, hget, if_neg hfree]
  constructor
  · exact h.noFaults
  · intro other
    rw [Dict.mem_keys_pop, h.mapped]
  · rintro other ⟨hother, hne⟩
    obtain ⟨otherHandle, hotherGet, hotherFree, hotherLt⟩ := h.handles other hother
    refine ⟨otherHandle, hotherGet, ?_, hotherLt⟩
    rw [List.mem_cons, not_or]
    refine ⟨fun heq => hne ?_, hotherFree⟩
    exact h.distinct other ptr hother hptr (by rw [hotherGet, hget, heq])
  · intro left right hleft hright
    exact h.distinct left right hleft.1 hright.1
  · intro other hmem
    rcases List.mem_cons.mp hmem with rfl | hmem
    · exact hlt
    · exact h.released other hmem

theorem write (h : DeviceSound live device) (hptr : live ptr) (contents : Contents) :
    ∃ next, device.write ptr contents = some next ∧ DeviceSound live next ∧
      next.contents ptr = some contents ∧
      ∀ other, other ≠ ptr → next.contents other = device.contents other := by
  obtain ⟨held, hheld⟩ := (Dict.mem_keys_iff _ _).mp ((h.mapped ptr).mpr hptr)
  refine ⟨{ device with mapped := device.mapped.set ptr (held.1, contents) },
    by rw [Device.write, hheld]; rfl, ⟨h.noFaults, ?_, h.handles, h.distinct, h.released⟩, ?_, ?_⟩
  · intro other
    rw [Dict.mem_keys_set, h.mapped]
    exact ⟨fun hor => hor.elim (fun heq => heq ▸ hptr) id, .inr⟩
  · simp [Device.contents]
  · intro other hne
    simp only [Device.contents, Dict.get?_set_of_ne _ _ hne]

end DeviceSound

theorem Device.contents_createAndMap {device : Device} {ptr other : Ptr} (hne : other ≠ ptr) :
    (device.createAndMap fresh ptr).contents other = device.contents other := by
  unfold createAndMap
  cases device.mapped.get? ptr with
  | none => simp only [contents, Dict.get?_set_of_ne _ _ hne]
  | some held => rfl

theorem Device.contents_unmapAndRelease {device : Device} {ptr other : Ptr} (hne : other ≠ ptr) :
    (device.unmapAndRelease ptr).contents other = device.contents other := by
  unfold unmapAndRelease
  cases device.mapped.get? ptr with
  | none => rfl
  | some held =>
      cases device.memHandles.get? ptr with
      | none => simp only [contents, Dict.get?_pop_of_ne _ hne]
      | some memHandle =>
          simp only
          split <;> simp only [contents, Dict.get?_pop_of_ne _ hne]

/-! ### Allocator and device -/

/-- The allocations of the table are mapped unless they are asleep, and an asleep one
has a copy of what it held (`slept`) where it was offloaded. -/
structure Sound (asleep : Ptr → Prop) (slept : Ptr → Option Contents) (memory : Memory) :
    Prop where
  device : DeviceSound (fun ptr => ptr ∈ memory.1.pointerToData.keys ∧ ¬asleep ptr) memory.2
  dMem : ∀ ptr data, memory.1.pointerToData.get? ptr = some data → data.handle.dMem = ptr
  backup : ∀ ptr data, memory.1.pointerToData.get? ptr = some data →
    (asleep ptr → data.cpuBackupTensor = slept ptr) ∧
      (¬asleep ptr → data.cpuBackupTensor = none)

namespace Sound

variable {asleep : Ptr → Prop} {slept : Ptr → Option Contents} {memory : Memory} {ptr : Ptr}
  {data : AllocationData}

theorem congr (h : Sound asleep slept memory) {asleep' : Ptr → Prop}
    {slept' : Ptr → Option Contents}
    (hasleep : ∀ ptr ∈ memory.1.pointerToData.keys, asleep ptr ↔ asleep' ptr)
    (hslept : ∀ ptr ∈ memory.1.pointerToData.keys, asleep' ptr → slept ptr = slept' ptr) :
    Sound asleep' slept' memory where
  device := h.device.congr fun ptr =>
    and_congr_right fun hmem => not_congr (hasleep ptr hmem)
  dMem := h.dMem
  backup := by
    intro ptr data hget
    have hmem := Dict.mem_keys_of_get? hget
    obtain ⟨hbackup, hnone⟩ := h.backup ptr data hget
    rw [← hasleep ptr hmem]
    exact ⟨fun hasleepPtr => (hbackup hasleepPtr).trans
      (hslept ptr hmem ((hasleep ptr hmem).mp hasleepPtr)), hnone⟩

theorem malloc (h : Sound asleep slept memory) {handle : Handle}
    (hfresh : handle.dMem ∉ memory.1.pointerToData.keys) :
    Sound (fun ptr => asleep ptr ∧ ptr ≠ handle.dMem) slept (myMalloc fresh memory handle) where
  device := by
    apply (h.device.createAndMap fun hmem => hfresh hmem.1).congr
    intro ptr
    simp only [myMalloc, CnMemAllocator.pythonMallocCallback, Dict.mem_keys_set]
    by_cases hptr : ptr = handle.dMem
    · simp [hptr]
    · simp [hptr]
  dMem := by
    intro ptr data hget
    simp only [myMalloc, CnMemAllocator.pythonMallocCallback, Dict.get?_set] at hget
    split at hget
    · rename_i heq
      cases hget
      exact heq.symm
    · exact h.dMem ptr data hget
  backup := by
    intro ptr data hget
    simp only [myMalloc, CnMemAllocator.pythonMallocCallback, Dict.get?_set] at hget
    split at hget
    · rename_i heq
      cases hget
      exact ⟨fun hasleep => absurd heq hasleep.2, fun _ => rfl⟩
    · rename_i hne
      obtain ⟨hbackup, hnone⟩ := h.backup ptr data hget
      exact ⟨fun hasleep => hbackup hasleep.1, fun hawake => hnone fun hasleep =>
        hawake ⟨hasleep, hne⟩⟩

/-- Remove an allocation from the table and unmap it. -/
theorem remove (h : Sound asleep slept memory)
    (hget : memory.1.pointerToData.get? ptr = some data) (hawake : ¬asleep ptr)
    {allocator : CnMemAllocator}
    (htable : allocator.pointerToData = memory.1.pointerToData.pop ptr) :
    Sound asleep slept (allocator, memory.2.unmapAndRelease data.handle.dMem) where
  device := by
    rw [h.dMem ptr data hget]
    apply (h.device.unmapAndRelease ⟨Dict.mem_keys_of_get? hget, hawake⟩).congr
    intro other
    simp only [htable, Dict.mem_keys_pop]
    exact and_right_comm
  dMem := by
    intro other otherData hother
    simp only [htable, Dict.get?_pop] at hother
    split at hother
    · cases hother
    · exact h.dMem other otherData hother
  backup := by
    intro other otherData hother
    simp only [htable, Dict.get?_pop] at hother
    split at hother
    · cases hother
    · exact h.backup other otherData hother

theorem free (h : Sound asleep slept memory) (hawake : ¬asleep ptr) :
    Sound asleep slept (myFree memory ptr) := by
  unfold myFree CnMemAllocator.pythonFreeCallback
  cases hget : memory.1.pointerToData.get? ptr with
  | none => exact h
  | some data => exact h.remove hget hawake rfl

theorem releaseOne (h : Sound asleep slept memory) (hawake : ¬asleep ptr) {next : Memory}
    (hstep : releaseOne memory ptr = .ok next) : Sound asleep slept next := by
  unfold Allocator.releaseOne CnMemAllocator.pythonFreeCallback at hstep
  cases hget : memory.1.pointerToData.get? ptr with
  | none => rw [hget] at hstep; cases hstep
  | some data =>
      rw [hget] at hstep
      cases hstep
      exact h.remove hget hawake rfl

/-- Give one allocation another backup, on a device that maps it accordingly. -/
theorem replace (h : Sound asleep slept memory)
    (hget : memory.1.pointerToData.get? ptr = some data) (backup : Option Contents)
    {allocator : CnMemAllocator}
    (htable : ∀ other, allocator.pointerToData.get? other =
      if other = ptr then some { data with cpuBackupTensor := backup }
      else memory.1.pointerToData.get? other) {asleep' : Ptr → Prop}
    (hothers : ∀ other, other ≠ ptr → (asleep' other ↔ asleep other)) {device : Device}
    (hdevice : DeviceSound
      (fun other => other ∈ memory.1.pointerToData.keys ∧ ¬asleep' other) device)
    (hbackup : (asleep' ptr → backup = slept ptr) ∧ (¬asleep' ptr → backup = none)) :
    Sound asleep' slept (allocator, device) where
  device := by
    apply hdevice.congr
    intro other
    apply and_congr_left'
    rw [Dict.mem_keys_iff, Dict.mem_keys_iff]
    simp only [htable]
    split
    · rename_i heq
      rw [heq, hget]
      simp
    · rfl
  dMem := by
    intro other otherData hother
    rw [htable] at hother
    split at hother
    · rename_i heq
      cases hother
      rw [heq]
      exact h.dMem ptr data hget
    · exact h.dMem other otherData hother
  backup := by
    intro other otherData hother
    rw [htable] at hother
    split at hother
    · rename_i heq
      cases hother
      rw [heq]
      exact hbackup
    · rename_i hne
      rw [hothers other hne]
      exact h.backup other otherData hother

/-- What one round of a loop leaves as it is: which allocations there are, and what
there is of the others. -/
structure Keeps (ptr : Ptr) (memory next : Memory) : Prop where
  keys : ∀ other, other ∈ next.1.pointerToData.keys ↔ other ∈ memory.1.pointerToData.keys
  others : ∀ other, other ≠ ptr →
    next.1.pointerToData.get? other = memory.1.pointerToData.get? other ∧
      next.2.contents other = memory.2.contents other

theorem keys_set_of_mem {table : Dict Ptr AllocationData} (hmem : ptr ∈ table.keys)
    (data : AllocationData) (other : Ptr) :
    other ∈ (table.set ptr data).keys ↔ other ∈ table.keys := by
  rw [Dict.mem_keys_set]
  exact ⟨fun h => h.elim (fun heq => heq ▸ hmem) id, .inr⟩

theorem sleepOne (h : Sound asleep slept memory)
    (hget : memory.1.pointerToData.get? ptr = some data) (hawake : ¬asleep ptr)
    {offloadTags : List Tag}
    (hslept : slept ptr = if data.tag ∈ offloadTags then memory.2.contents ptr else none) :
    ∃ next, sleepOne offloadTags memory (ptr, data) = .ok next ∧
      Sound (fun other => asleep other ∨ other = ptr) slept next ∧ Keeps ptr memory next := by
  have hlive : ptr ∈ memory.1.pointerToData.keys ∧ ¬asleep ptr :=
    ⟨Dict.mem_keys_of_get? hget, hawake⟩
  have hdMem := h.dMem ptr data hget
  have hdevice : DeviceSound
      (fun other => other ∈ memory.1.pointerToData.keys ∧ ¬(asleep other ∨ other = ptr))
      (memory.2.unmapAndRelease data.handle.dMem) := by
    rw [hdMem]
    apply (h.device.unmapAndRelease hlive).congr
    intro other
    rw [not_or, and_assoc]
  have hothers : ∀ other, other ≠ ptr → ((asleep other ∨ other = ptr) ↔ asleep other) :=
    fun other hne => or_iff_left hne
  have hcontents : ∀ other, other ≠ ptr →
      (memory.2.unmapAndRelease data.handle.dMem).contents other = memory.2.contents other := by
    intro other hne
    rw [hdMem]
    exact Device.contents_unmapAndRelease hne
  obtain ⟨contents, hheld⟩ := h.device.contents_isSome hlive
  unfold Allocator.sleepOne
  by_cases htag : data.tag ∈ offloadTags
  · rw [if_pos htag, hheld] at hslept
    simp only [if_pos htag, hheld]
    refine ⟨_, rfl, ?_, ?_⟩
    · exact h.replace hget _ (fun other => Dict.get?_set _ _ _ _) hothers hdevice
        ⟨fun _ => hslept.symm, fun hnot => absurd (.inr rfl) hnot⟩
    · exact ⟨keys_set_of_mem hlive.1 _,
        fun other hne => ⟨Dict.get?_set_of_ne _ _ hne, hcontents other hne⟩⟩
  · rw [if_neg htag] at hslept
    simp only [if_neg htag]
    refine ⟨_, rfl, ?_, ?_⟩
    · refine h.replace hget none (fun other => ?_) hothers hdevice
        ⟨fun _ => hslept.symm, fun _ => rfl⟩
      split
      · rename_i heq
        rw [heq, hget, ← (h.backup ptr data hget).2 hawake]
      · rfl
    · exact ⟨fun _ => Iff.rfl, fun other hne => ⟨rfl, hcontents other hne⟩⟩

theorem wakeOne (h : Sound asleep slept memory)
    (hget : memory.1.pointerToData.get? ptr = some data) (hasleep : asleep ptr)
    {tags : Option (List Tag)} (hcovers : covers tags data.tag = true) :
    ∃ next, wakeOne fresh tags memory (ptr, data) = .ok next ∧
      Sound (fun other => asleep other ∧ other ≠ ptr) slept next ∧ Keeps ptr memory next ∧
      ∀ contents, slept ptr = some contents → next.2.contents ptr = some contents := by
  have hmem := Dict.mem_keys_of_get? hget
  have hdMem := h.dMem ptr data hget
  have hbackup := (h.backup ptr data hget).1 hasleep
  have hdevice : DeviceSound
      (fun other => other ∈ memory.1.pointerToData.keys ∧ ¬(asleep other ∧ other ≠ ptr))
      (memory.2.createAndMap fresh data.handle.dMem) := by
    rw [hdMem]
    apply (h.device.createAndMap fun hlive => hlive.2 hasleep).congr
    intro other
    by_cases heq : other = ptr
    · simp [heq, hmem]
    · simp [heq]
  have hothers : ∀ other, other ≠ ptr → ((asleep other ∧ other ≠ ptr) ↔ asleep other) :=
    fun other hne => and_iff_left hne
  have hcontents : ∀ other, other ≠ ptr →
      (memory.2.createAndMap fresh data.handle.dMem).contents other =
        memory.2.contents other := by
    intro other hne
    rw [hdMem]
    exact Device.contents_createAndMap hne
  unfold Allocator.wakeOne
  simp only [if_pos hcovers]
  cases hsaved : data.cpuBackupTensor with
  | none =>
      refine ⟨_, rfl, ?_, ⟨fun _ => Iff.rfl, fun other hne => ⟨rfl, hcontents other hne⟩⟩, ?_⟩
      · refine h.replace hget none (fun other => ?_) hothers hdevice
          ⟨fun hstill => absurd rfl hstill.2, fun _ => rfl⟩
        split
        · rename_i heq
          rw [heq, hget, ← hsaved]
        · rfl
      · rw [← hbackup, hsaved]
        simp
  | some backup =>
      obtain ⟨next, hwrite, hnext, hself, hrest⟩ := hdevice.write
        (show ptr ∈ memory.1.pointerToData.keys ∧ ¬(asleep ptr ∧ ptr ≠ ptr) from
          ⟨hmem, fun hstill => hstill.2 rfl⟩) backup
      simp only [hwrite]
      refine ⟨_, rfl, ?_, ?_, ?_⟩
      · exact h.replace hget _ (fun other => Dict.get?_set _ _ _ _) hothers hnext
          ⟨fun hstill => absurd rfl hstill.2, fun _ => rfl⟩
      · exact ⟨keys_set_of_mem hmem _, fun other hne => ⟨Dict.get?_set_of_ne _ _ hne,
          (hrest other hne).trans (hcontents other hne)⟩⟩
      · rw [← hbackup, hsaved]
        rintro contents ⟨⟩
        exact hself

/-- What `sleep` backs up of each allocation. -/
def backedUp (offloadTags : List Tag) (memory : Memory) (ptr : Ptr) : Option Contents :=
  (memory.1.pointerToData.get? ptr).bind fun data =>
    if data.tag ∈ offloadTags then memory.2.contents ptr else none

/-- The allocations that a loop still has to come to are as they were before it. -/
structure Remaining (memory : Memory) (rest : List (Ptr × AllocationData)) (state : Memory) :
    Prop where
  nodup : (rest.map Prod.fst).Nodup
  entries : ∀ entry ∈ rest, state.1.pointerToData.get? entry.1 = some entry.2 ∧
    memory.1.pointerToData.get? entry.1 = some entry.2 ∧
      state.2.contents entry.1 = memory.2.contents entry.1
  keys : ∀ ptr, ptr ∈ state.1.pointerToData.keys ↔ ptr ∈ memory.1.pointerToData.keys

theorem Remaining.start (memory : Memory) :
    Remaining memory memory.1.pointerToData.entries memory where
  nodup := memory.1.pointerToData.nodup
  entries := fun entry hmem =>
    have hget := (Dict.get?_eq_some_iff _ _ _).mpr hmem
    ⟨hget, hget, rfl⟩
  keys := fun _ => Iff.rfl

theorem Remaining.next {start state next : Memory} {entry : Ptr × AllocationData}
    {rest : List (Ptr × AllocationData)} (h : Remaining start (entry :: rest) state)
    (hkeeps : Keeps entry.1 state next) : Remaining start rest next where
  nodup := (List.nodup_cons.mp h.nodup).2
  entries := by
    intro other hmem
    have hne : other.1 ≠ entry.1 := by
      rintro heq
      exact (List.nodup_cons.mp h.nodup).1 (heq ▸ List.mem_map_of_mem hmem)
    obtain ⟨hstate, hstart, hcontents⟩ := h.entries other (List.mem_cons_of_mem _ hmem)
    obtain ⟨htable, hdevice⟩ := hkeeps.others other.1 hne
    exact ⟨htable.trans hstate, hstart, hdevice.trans hcontents⟩
  keys := fun ptr => (hkeeps.keys ptr).trans (h.keys ptr)

theorem Remaining.not_mem {state : Memory} {entry : Ptr × AllocationData}
    {rest : List (Ptr × AllocationData)} (h : Remaining memory (entry :: rest) state) :
    entry.1 ∉ rest.map Prod.fst := (List.nodup_cons.mp h.nodup).1

theorem sleep (h : Sound asleep slept memory)
    (hawake : ∀ ptr ∈ memory.1.pointerToData.keys, ¬asleep ptr) (offloadTags : Option (List Tag)) :
    ∃ next, sleep offloadTags memory = .ok next ∧
      Sound (fun ptr => ptr ∈ memory.1.pointerToData.keys)
        (backedUp (offloadTags.getD [CnMemAllocator.defaultTag]) memory) next := by
  obtain ⟨next, hnext, hsound, hremaining⟩ := @foldlM_returns _ _ _
    (Allocator.sleepOne (offloadTags.getD [CnMemAllocator.defaultTag]))
    (fun rest state => Sound (fun ptr => ptr ∉ rest.map Prod.fst)
      (backedUp (offloadTags.getD [CnMemAllocator.defaultTag]) memory) state ∧
        Remaining memory rest state)
    memory.1.pointerToData.entries memory
    ⟨h.congr (fun ptr hmem => iff_of_false (hawake ptr hmem) (not_not.mpr hmem))
      fun ptr hmem hnot => absurd hmem hnot, .start memory⟩ (by
    rintro entry rest state ⟨hstate, hremaining⟩
    obtain ⟨hget, hgetStart, hcontents⟩ := hremaining.entries entry List.mem_cons_self
    have hbackup : backedUp (offloadTags.getD [CnMemAllocator.defaultTag]) memory entry.1 =
        if entry.2.tag ∈ offloadTags.getD [CnMemAllocator.defaultTag] then
          state.2.contents entry.1 else none := by
      rw [backedUp, hgetStart, hcontents]
      rfl
    obtain ⟨next, hok, hnext, hkeeps⟩ := hstate.sleepOne hget (by simp) hbackup
    refine ⟨next, hok, hnext.congr (fun ptr _ => ?_) (fun _ _ _ => rfl), hremaining.next hkeeps⟩
    have hnot := hremaining.not_mem
    by_cases heq : ptr = entry.1
    · subst heq
      simpa using hnot
    · simp [heq])
  exact ⟨next, hnext, hsound.congr
    (fun ptr hmem => iff_of_true List.not_mem_nil ((hremaining.keys ptr).mp hmem))
    (fun _ _ _ => rfl)⟩

/-- The allocations that `wake_up` comes to. -/
def Covered (tags : Option (List Tag)) (memory : Memory) (ptr : Ptr) : Prop :=
  ∃ data, memory.1.pointerToData.get? ptr = some data ∧ covers tags data.tag = true

theorem wakeUp (h : Sound asleep slept memory) {tags : Option (List Tag)}
    (hasleep : ∀ ptr, Covered tags memory ptr → asleep ptr) :
    ∃ next, wakeUp fresh tags memory = .ok next ∧
      Sound (fun ptr => asleep ptr ∧ ¬Covered tags memory ptr) slept next ∧
      ∀ ptr, Covered tags memory ptr → ∀ contents, slept ptr = some contents →
        next.2.contents ptr = some contents := by
  obtain ⟨next, hnext, hsound, hremaining, hwoken⟩ := @foldlM_returns _ _ _
    (Allocator.wakeOne fresh tags)
    (fun rest state =>
      Sound (fun ptr => asleep ptr ∧ (ptr ∈ rest.map Prod.fst ∨ ¬Covered tags memory ptr)) slept
        state ∧ Remaining memory rest state ∧
      ∀ ptr, Covered tags memory ptr → ptr ∉ rest.map Prod.fst → ∀ contents,
        slept ptr = some contents → state.2.contents ptr = some contents)
    memory.1.pointerToData.entries memory
    ⟨h.congr (fun ptr hmem => ⟨fun hptr => ⟨hptr, .inl hmem⟩, And.left⟩) (fun _ _ _ => rfl),
      .start memory, fun ptr hcovered hnot => by
        obtain ⟨data, hget, -⟩ := hcovered
        exact absurd (Dict.mem_keys_of_get? hget) hnot⟩ (by
    rintro ⟨ptr, data⟩ rest state ⟨hstate, hremaining, hwoken⟩
    obtain ⟨hget, hgetStart, hcontents⟩ := hremaining.entries _ List.mem_cons_self
    have hnot := hremaining.not_mem
    by_cases hcovers : covers tags data.tag = true
    · have hcovered : Covered tags memory ptr := ⟨data, hgetStart, hcovers⟩
      obtain ⟨next, hok, hnext, hkeeps, hself⟩ := hstate.wakeOne hget
        ⟨hasleep ptr hcovered, .inl (by simp)⟩ hcovers
      refine ⟨next, hok, hnext.congr (fun other _ => ?_) (fun _ _ _ => rfl),
        hremaining.next hkeeps, fun other hother hmem contents hslept => ?_⟩
      · by_cases heq : other = ptr
        · subst heq
          simp [hcovered, hnot]
        · simp [heq]
      · by_cases heq : other = ptr
        · rw [heq] at hslept ⊢
          exact hself contents hslept
        · rw [(hkeeps.others other heq).2]
          exact hwoken other hother (by simpa [heq] using hmem) contents hslept
    · have hcovered : ¬Covered tags memory ptr := by
        rintro ⟨other, hother, htag⟩
        cases hgetStart.symm.trans hother
        exact hcovers htag
      refine ⟨state, by simp [Allocator.wakeOne, hcovers], hstate.congr (fun other _ => ?_)
        (fun _ _ _ => rfl), hremaining.next ⟨fun _ => Iff.rfl, fun _ _ => ⟨rfl, rfl⟩⟩, ?_⟩
      · by_cases heq : other = ptr
        · subst heq
          simp [hcovered]
        · simp [heq]
      · intro other hother hmem contents hslept
        apply hwoken other hother _ contents hslept
        rw [List.map_cons, List.mem_cons, not_or]
        refine ⟨?_, hmem⟩
        rintro rfl
        exact hcovered hother)
  refine ⟨next, hnext, hsound.congr (fun ptr _ => ?_) (fun _ _ _ => rfl), fun ptr hcovered =>
    hwoken ptr hcovered List.not_mem_nil⟩
  simp

end Sound

/-! ### Runs -/

/-- The allocator, its device, and two records of the calls so far. -/
structure SleepMode where
  memory : Memory
  /-- The addresses put to sleep that no `wake_up` has covered since. -/
  asleep : List Ptr
  /-- What an offloaded allocation held when it was put to sleep. -/
  slept : Ptr → Option Contents

namespace SleepMode

def empty : SleepMode where
  memory := (.empty, .empty)
  asleep := []
  slept := fun _ => none

def live (state : SleepMode) : List Ptr := state.memory.1.pointerToData.keys

def contents (state : SleepMode) (ptr : Ptr) : Option Contents := state.memory.2.contents ptr

/-- The allocations that are put to sleep now; those asleep keep what they held. -/
def fallAsleep (state : SleepMode) (offloadTags : Option (List Tag)) (memory : Memory) :
    SleepMode where
  memory := memory
  asleep := state.live
  slept := fun ptr =>
    if ptr ∈ state.asleep then state.slept ptr
    else Sound.backedUp (offloadTags.getD [CnMemAllocator.defaultTag]) state.memory ptr

end SleepMode

instance (tags : Option (List Tag)) (memory : Memory) (ptr : Ptr) :
    Decidable (Sound.Covered tags memory ptr) :=
  decidable_of_iff
    ((memory.1.pointerToData.get? ptr).any fun data => covers tags data.tag) (by
      rw [Option.any_eq_true]
      rfl)

inductive Event where
  | malloc (handle : Handle)
  | free (ptr : Ptr)
  | enterMemoryPool (tag : Option Tag)
  | exitMemoryPool (allocations : List Ptr)
  | sleep (offloadTags : Option (List Tag))
  | wakeUp (tags : Option (List Tag))
  /-- The model computes. -/
  | write (ptr : Ptr) (contents : Contents)

/-- The driver reserves an address that is not in use. -/
def Event.Allowed (state : SleepMode) (event : Event) : Prop :=
  match event with
  | .malloc handle => handle.dMem ∉ state.live
  | _ => True

/-- No sleep while something is asleep, and of what is asleep nothing is freed and
nothing else woken up. -/
def Event.Smooth (state : SleepMode) (event : Event) : Prop :=
  event.Allowed state ∧
    match event with
    | .free ptr => ptr ∉ state.asleep
    | .exitMemoryPool allocations => ∀ ptr ∈ allocations, ptr ∉ state.asleep
    | .sleep _ => ∀ ptr ∈ state.live, ptr ∉ state.asleep
    | .wakeUp tags => ∀ ptr ∈ state.live, Sound.Covered tags state.memory ptr →
        ptr ∈ state.asleep
    | _ => True

instance (state : SleepMode) (event : Event) : Decidable (event.Allowed state) := by
  cases event <;> unfold Event.Allowed <;> infer_instance

instance (state : SleepMode) (event : Event) : Decidable (event.Smooth state) := by
  cases event <;> unfold Event.Smooth <;> infer_instance

def sleepMode (fresh : Nat → Contents) : Machine SleepMode Event AllocatorError where
  step state event := do
    match event with
    | .malloc handle =>
        return { state with
          memory := myMalloc fresh state.memory handle
          asleep := state.asleep.filter (· ≠ handle.dMem) }
    | .free ptr => return { state with memory := myFree state.memory ptr }
    | .enterMemoryPool tag => return { state with memory := enterMemoryPool tag state.memory }
    | .exitMemoryPool allocations =>
        let memory ← exitMemoryPool allocations state.memory
        return { state with memory }
    | .sleep offloadTags =>
        let memory ← sleep offloadTags state.memory
        return state.fallAsleep offloadTags memory
    | .wakeUp tags =>
        let memory ← wakeUp fresh tags state.memory
        return { state with
          memory
          asleep := state.asleep.filter fun ptr => ¬Sound.Covered tags state.memory ptr }
    | .write ptr contents =>
        match state.memory.2.write ptr contents with
        | none => throw .systemError
        | some device => return { state with memory := (state.memory.1, device) }

namespace SleepMode

/-- The invariant of the runs. -/
def Inv (state : SleepMode) : Prop := Sound (· ∈ state.asleep) state.slept state.memory

theorem Inv.empty : Inv empty where
  device := {
    noFaults := rfl
    mapped := fun _ => iff_of_false List.not_mem_nil fun h => List.not_mem_nil h.1
    handles := fun _ h => absurd h.1 List.not_mem_nil
    distinct := fun _ _ h => absurd h.1 List.not_mem_nil
    released := fun _ h => absurd h List.not_mem_nil }
  dMem := fun _ _ hget => nomatch hget
  backup := fun _ _ hget => nomatch hget

variable {state : SleepMode}

theorem Inv.exitMemoryPool (h : state.Inv) {allocations : List Ptr}
    (hawake : ∀ ptr ∈ allocations, ptr ∉ state.asleep) {memory : Memory}
    (hexit : exitMemoryPool allocations state.memory = .ok memory) :
    Sound (· ∈ state.asleep) state.slept memory := by
  unfold Allocator.exitMemoryPool at hexit
  cases htags : state.memory.1.oldTags with
  | nil =>
      rw [htags] at hexit
      cases hexit
  | cons oldTag oldTags =>
      rw [htags] at hexit
      obtain ⟨released, hreleased, hexit⟩ := bind_eq_ok.mp hexit
      cases hexit
      have hsound : Sound (· ∈ state.asleep) state.slept released :=
        foldlM_invariant h (fun ptr hmem memory next hmemory hstep =>
          hmemory.releaseOne (hawake ptr hmem) hstep) hreleased
      exact ⟨hsound.device, hsound.dMem, hsound.backup⟩

theorem Inv.sleep (h : state.Inv) (hawake : ∀ ptr ∈ state.live, ptr ∉ state.asleep)
    (offloadTags : Option (List Tag)) :
    ∃ memory, sleep offloadTags state.memory = .ok memory ∧
      (state.fallAsleep offloadTags memory).Inv := by
  obtain ⟨memory, hmemory, hsound⟩ := Sound.sleep h hawake offloadTags
  refine ⟨memory, hmemory, hsound.congr (fun ptr _ => Iff.rfl) fun ptr _ hlive => ?_⟩
  exact (if_neg (hawake ptr hlive)).symm

theorem Inv.wakeUp (h : state.Inv) {tags : Option (List Tag)}
    (hasleep : ∀ ptr ∈ state.live, Sound.Covered tags state.memory ptr → ptr ∈ state.asleep) :
    ∃ memory, wakeUp fresh tags state.memory = .ok memory ∧
      Sound (· ∈ state.asleep.filter fun ptr => ¬Sound.Covered tags state.memory ptr)
        state.slept memory ∧
      ∀ ptr, Sound.Covered tags state.memory ptr → ∀ contents,
        state.slept ptr = some contents → memory.2.contents ptr = some contents := by
  have hcovered : ∀ ptr, Sound.Covered tags state.memory ptr → ptr ∈ state.asleep := by
    intro ptr hptr
    obtain ⟨data, hget, -⟩ := id hptr
    exact hasleep ptr (Dict.mem_keys_of_get? hget) hptr
  obtain ⟨memory, hmemory, hsound, hrestored⟩ := Sound.wakeUp h hcovered
  refine ⟨memory, hmemory, hsound.congr (fun ptr _ => ?_) (fun _ _ _ => rfl), hrestored⟩
  simp [List.mem_filter]

theorem Inv.write (h : state.Inv) {ptr : Ptr} {contents : Contents} {device : Device}
    (hwrite : state.memory.2.write ptr contents = some device) :
    Sound (· ∈ state.asleep) state.slept (state.memory.1, device) := by
  have hmapped : ptr ∈ state.memory.2.mapped.keys := by
    rw [Dict.mem_keys_iff]
    obtain ⟨held, hheld, -⟩ := Option.map_eq_some_iff.mp hwrite
    exact ⟨held, hheld⟩
  obtain ⟨next, hnext, hsound, -⟩ := h.device.write ((h.device.mapped ptr).mp hmapped) contents
  cases hwrite.symm.trans hnext
  exact ⟨hsound, h.dMem, h.backup⟩

theorem Inv.step (h : state.Inv) {event : Event} (hsmooth : event.Smooth state)
    {next : SleepMode} (hnext : (sleepMode fresh).step state event = .ok next) : next.Inv := by
  obtain ⟨hallowed, hsmooth⟩ := hsmooth
  cases event with
  | malloc handle =>
      cases hnext
      refine (Sound.malloc h hallowed).congr (fun ptr _ => ?_) (fun _ _ _ => rfl)
      simp [List.mem_filter]
  | free ptr =>
      cases hnext
      exact Sound.free h hsmooth
  | enterMemoryPool tag =>
      cases hnext
      exact ⟨h.device, h.dMem, h.backup⟩
  | exitMemoryPool allocations =>
      obtain ⟨memory, hmemory, hnext⟩ := bind_eq_ok.mp hnext
      cases hnext
      exact h.exitMemoryPool hsmooth hmemory
  | sleep offloadTags =>
      obtain ⟨memory, hmemory, hnext⟩ := bind_eq_ok.mp hnext
      obtain ⟨slept, hslept, hinv⟩ := h.sleep hsmooth offloadTags
      cases hmemory.symm.trans hslept
      cases hnext
      exact hinv
  | wakeUp tags =>
      obtain ⟨memory, hmemory, hnext⟩ := bind_eq_ok.mp hnext
      obtain ⟨woken, hwoken, hsound, -⟩ := @Inv.wakeUp fresh _ h _ hsmooth
      cases hmemory.symm.trans hwoken
      cases hnext
      exact hsound
  | write ptr contents =>
      simp only [sleepMode] at hnext
      cases hwrite : state.memory.2.write ptr contents with
      | none =>
          rw [hwrite] at hnext
          cases hnext
      | some device =>
          rw [hwrite] at hnext
          cases hnext
          exact h.write hwrite

/-- What the claim of a safe allocator asks of a state: no faulty call so far, and the
allocations are mapped unless they are asleep. -/
structure Safe (state : SleepMode) : Prop where
  noFaults : state.memory.2.faults = []
  mapped : ∀ ptr, ptr ∈ state.memory.2.mapped.keys ↔ ptr ∈ state.live ∧ ptr ∉ state.asleep

/-- A `wake_up` that returns, with what was offloaded back in place. -/
def Restores (fresh : Nat → Contents) (state : SleepMode) (tags : Option (List Tag)) : Prop :=
  ∃ next, (sleepMode fresh).step state (.wakeUp tags) = .ok next ∧
    ∀ ptr, Sound.Covered tags state.memory ptr → ∀ contents,
      state.slept ptr = some contents → next.contents ptr = some contents

end SleepMode

/-- In runs in which no allocation is put to sleep twice, woken up while awake or freed
while asleep, every call on the device is in order, `sleep` and `wake_up` return, and
`wake_up` brings back the bytes of what was offloaded. -/
theorem sleep_mode_safe (fresh : Nat → Contents) {state : SleepMode}
    (run : (sleepMode fresh).Run Event.Smooth .empty state) :
    state.Safe ∧
    (∀ offloadTags, (Event.sleep offloadTags).Smooth state →
      ∃ next, (sleepMode fresh).step state (.sleep offloadTags) = .ok next) ∧
    ∀ tags, (Event.wakeUp tags).Smooth state → state.Restores fresh tags := by
  have h : state.Inv := run.invariant SleepMode.Inv.empty
    (fun _ _ _ hinv hsmooth hnext => hinv.step hsmooth hnext)
  refine ⟨⟨h.device.noFaults, h.device.mapped⟩, ?_, ?_⟩
  · rintro offloadTags ⟨-, hawake⟩
    obtain ⟨memory, hmemory, -⟩ := h.sleep hawake offloadTags
    exact ⟨state.fallAsleep offloadTags memory, bind_eq_ok.mpr ⟨memory, hmemory, rfl⟩⟩
  · rintro tags ⟨-, hasleep⟩
    obtain ⟨memory, hmemory, -, hrestored⟩ := @SleepMode.Inv.wakeUp fresh _ h _ hasleep
    exact ⟨_, bind_eq_ok.mpr ⟨memory, hmemory, rfl⟩, hrestored⟩

namespace Samples

/-- Newly mapped memory holds zeros. -/
def zeros (_ : Nat) : Contents := [0, 0]

/-- Weights and a cache, each allocated in its own pool. -/
def load : List Event :=
  [.enterMemoryPool (some "weights"), .malloc ⟨2, 64⟩, .exitMemoryPool [],
    .enterMemoryPool (some "kv_cache"), .malloc ⟨2, 128⟩, .exitMemoryPool [], .write 64 [7, 9]]

end Samples

open Samples in
/-- The weights are offloaded and come back. -/
theorem sleep_mode_safe_weights : ∃ state, (sleepMode zeros).Run Event.Smooth .empty state ∧
    state.Safe ∧ state.live = [64, 128] ∧ state.slept 64 = some [7, 9] ∧
    state.contents 64 = none ∧
    ∃ next, (sleepMode zeros).step state (.wakeUp none) = .ok next ∧
      next.contents 64 = some [7, 9] := by
  obtain ⟨state, run, htest⟩ := Machine.exists_of_leadsTo (sleepMode zeros) Event.Smooth .empty
    (load ++ [.sleep (some ["weights"])])
    (fun state => decide (state.live = [64, 128] ∧ state.slept 64 = some [7, 9] ∧
      state.contents 64 = none ∧ (Event.wakeUp none).Smooth state ∧
        Sound.Covered none state.memory 64))
    (by decide +kernel)
  obtain ⟨hlive, hslept, hgone, hsmooth, hcovered⟩ := of_decide_eq_true htest
  obtain ⟨hsafe, -, hrestores⟩ := sleep_mode_safe zeros run
  obtain ⟨next, hnext, hcontents⟩ := hrestores none hsmooth
  exact ⟨state, run, hsafe, hlive, hslept, hgone, next, hnext, hcontents 64 hcovered _ hslept⟩

open Samples in
/-- `wake_up` of the weights and then of everything maps the weights a second time. -/
theorem full_wake_up_maps_twice : ∃ state, (sleepMode zeros).Run Event.Allowed .empty state ∧
    ¬state.Safe := by
  obtain ⟨state, run, htest⟩ := Machine.exists_of_leadsTo (sleepMode zeros) Event.Allowed .empty
    (load ++ [.sleep (some ["weights"]), .wakeUp (some ["weights"]), .wakeUp none])
    (fun state => decide (state.memory.2.faults = [.mapsMapped 64]))
    (by decide +kernel)
  refine ⟨state, run, fun hsafe => ?_⟩
  have hfaults := hsafe.noFaults
  rw [of_decide_eq_true htest] at hfaults
  cases hfaults

end VllmMlu.Allocator
