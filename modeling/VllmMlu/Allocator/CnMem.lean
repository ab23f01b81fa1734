import VllmMlu.Library.Dict
import VllmMlu.Library.Machine

/-! The sleep mode allocator: its table of allocations, and the device memory that
its driver calls map and unmap. -/
namespace VllmMlu.Allocator

open Library

abbrev Ptr := Nat

abbrev Tag := String

abbrev Contents := List UInt8

/-! ### The device -/

/-- What the claim of a safe allocator excludes. -/
inductive Fault where
  | mapsMapped (ptr : Ptr)
  | unmapsUnmapped (ptr : Ptr)
  | releasesReleased (memHandle : Nat)
deriving DecidableEq, Repr

structure Device where
  /-- The physical memory mapped at an address, and what is in it. -/
  mapped : Dict Ptr (Nat × Contents)
  /-- The variable `*p_memHandle` that belongs to an address. -/
  memHandles : Dict Ptr Nat
  released : List Nat
  /-- The handle that `cnMemCreate` returns next. -/
  nextHandle : Nat
  faults : List Fault

namespace Device

def empty : Device where
  mapped := .empty
  memHandles := .empty
  released := []
  nextHandle := 0
  faults := []

def contents (device : Device) (ptr : Ptr) : Option Contents :=
  (device.mapped.get? ptr).map Prod.snd

/-- `create_and_map`: where the address is mapped, the driver refuses the second
mapping and the function returns. Newly mapped memory holds anything. -/
def createAndMap (fresh : Nat → Contents) (device : Device) (ptr : Ptr) : Device :=
  let created := { device with
    memHandles := device.memHandles.set ptr device.nextHandle
    nextHandle := device.nextHandle + 1 }
  match device.mapped.get? ptr with
  | some _ => { created with faults := .mapsMapped ptr :: device.faults }
  | none =>
      { created with
        mapped := device.mapped.set ptr (device.nextHandle, fresh device.nextHandle) }

/-- `unmap_and_release`: where the address is not mapped, the function returns
before the release. -/
def unmapAndRelease (device : Device) (ptr : Ptr) : Device :=
  match device.mapped.get? ptr with
  | none => { device with faults := .unmapsUnmapped ptr :: device.faults }
  | some _ =>
      let unmapped := { device with mapped := device.mapped.pop ptr }
      match device.memHandles.get? ptr with
      | none => unmapped
      | some memHandle =>
          if memHandle ∈ device.released then
            { unmapped with faults := .releasesReleased memHandle :: device.faults }
          else
            { unmapped with released := memHandle :: device.released }

/-- Overwrite mapped memory. -/
def write (device : Device) (ptr : Ptr) (contents : Contents) : Option Device :=
  (device.mapped.get? ptr).map fun held =>
    { device with mapped := device.mapped.set ptr (held.1, contents) }

end Device

/-! ### The allocator -/

structure Handle where
  alignedSize : Nat
  dMem : Ptr
deriving DecidableEq, Repr

structure AllocationData where
  handle : Handle
  tag : Tag
  cpuBackupTensor : Option Contents
deriving DecidableEq, Repr

inductive AllocatorError where
  | keyError (ptr : Ptr)
  /-- A copy from or to memory that is not mapped. -/
  | systemError
  /-- A context is left that was not entered. -/
  | noContext
deriving DecidableEq, Repr

structure CnMemAllocator where
  pointerToData : Dict Ptr AllocationData
  currentTag : Tag
  /-- The tags that the open `use_memory_pool` contexts restore, innermost first. -/
  oldTags : List Tag

namespace CnMemAllocator

def defaultTag : Tag := "default"

def empty : CnMemAllocator where
  pointerToData := .empty
  currentTag := defaultTag
  oldTags := []

def pythonMallocCallback (allocator : CnMemAllocator) (handle : Handle) : CnMemAllocator :=
  { allocator with
    pointerToData := allocator.pointerToData.set handle.dMem
      { handle, tag := allocator.currentTag, cpuBackupTensor := none } }

def pythonFreeCallback (allocator : CnMemAllocator) (ptr : Ptr) :
    Except AllocatorError (CnMemAllocator × Handle) :=
  match allocator.pointerToData.get? ptr with
  | none => throw (.keyError ptr)
  | some data =>
      return ({ allocator with pointerToData := allocator.pointerToData.pop ptr }, data.handle)

end CnMemAllocator

/-- The allocator and the device it works on. -/
abbrev Memory := CnMemAllocator × Device

/-- `my_malloc`, with the address that the driver reserves. -/
def myMalloc (fresh : Nat → Contents) (memory : Memory) (handle : Handle) : Memory :=
  (memory.1.pythonMallocCallback handle, memory.2.createAndMap fresh handle.dMem)

/-- `my_free`, which returns at once where the callback raises. -/
def myFree (memory : Memory) (ptr : Ptr) : Memory :=
  match memory.1.pythonFreeCallback ptr with
  | .error _ => memory
  | .ok (allocator, handle) => (allocator, memory.2.unmapAndRelease handle.dMem)

/-- The loop of `sleep`, for one allocation. -/
def sleepOne (offloadTags : List Tag) (memory : Memory) (entry : Ptr × AllocationData) :
    Except AllocatorError Memory := do
  let (allocator, device) := memory
  let (ptr, data) := entry
  let allocator ←
    if data.tag ∈ offloadTags then
      match device.contents ptr with
      | none => throw .systemError
      | some contents =>
          pure { allocator with
            pointerToData :=
              allocator.pointerToData.set ptr { data with cpuBackupTensor := some contents } }
    else
      pure allocator
  return (allocator, device.unmapAndRelease data.handle.dMem)

/-- `offload_tags` is the default tag where none are given. -/
def sleep (offloadTags : Option (List Tag)) (memory : Memory) : Except AllocatorError Memory :=
  memory.1.pointerToData.entries.foldlM
    (sleepOne (offloadTags.getD [CnMemAllocator.defaultTag])) memory

/-- `tags is None or data.tag in tags`. -/
def covers (tags : Option (List Tag)) (tag : Tag) : Bool :=
  match tags with
  | none => true
  | some tags => decide (tag ∈ tags)

/-- The loop of `wake_up`, for one allocation. -/
def wakeOne (fresh : Nat → Contents) (tags : Option (List Tag)) (memory : Memory)
    (entry : Ptr × AllocationData) : Except AllocatorError Memory :=
  let (allocator, device) := memory
  let (ptr, data) := entry
  if covers tags data.tag then
    let device := device.createAndMap fresh data.handle.dMem
    match data.cpuBackupTensor with
    | none => return (allocator, device)
    | some backup =>
        match device.write ptr backup with
        | none => throw .systemError
        | some device =>
            return ({ allocator with
              pointerToData :=
                allocator.pointerToData.set ptr { data with cpuBackupTensor := none } }, device)
  else
    return memory

def wakeUp (fresh : Nat → Contents) (tags : Option (List Tag)) (memory : Memory) :
    Except AllocatorError Memory :=
  memory.1.pointerToData.entries.foldlM (wakeOne fresh tags) memory

/-- The tag is the default one where none is given. -/
def enterMemoryPool (tag : Option Tag) (memory : Memory) : Memory :=
  ({ memory.1 with
    currentTag := tag.getD CnMemAllocator.defaultTag
    oldTags := memory.1.currentTag :: memory.1.oldTags }, memory.2)

/-- The end of the context, for one allocation of the snapshot that is not in use. -/
def releaseOne (memory : Memory) (address : Ptr) : Except AllocatorError Memory := do
  let (allocator, handle) ← memory.1.pythonFreeCallback address
  return (allocator, memory.2.unmapAndRelease handle.dMem)

/-- `allocations` are the addresses with `allocated_size` 0 in the pool's snapshot. -/
def exitMemoryPool (allocations : List Ptr) (memory : Memory) : Except AllocatorError Memory := do
  match memory.1.oldTags with
  | [] => throw .noContext
  | oldTag :: oldTags =>
      let (allocator, device) ← allocations.foldlM releaseOne memory
      return ({ allocator with currentTag := oldTag, oldTags }, device)

end VllmMlu.Allocator
