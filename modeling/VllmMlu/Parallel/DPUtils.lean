import VllmMlu.Library.Rows
import VllmMlu.Library.Spmd
import VllmMlu.Parallel.DPMetadata

/-! The collectives of the parallel groups, and the code that every rank runs
around the attention and the experts of a layer. -/
namespace VllmMlu.Parallel

open Library

/-- Data parallel rank and rank within the tensor parallel group. -/
abbrev Rank (dpSize tpSize : Nat) := Fin dpSize × Fin tpSize

inductive Group where
  | tp
  | dp
  | world
deriving DecidableEq, Repr

inductive Collective where
  | allReduce (group : Group)
  | reduceScatter (group : Group)
  | allGather (group : Group)
deriving DecidableEq, Repr

variable {dpSize tpSize : Nat} {α : Type}

/-- The group of a rank, in the order of the ranks in it. -/
def Group.members : Group → Rank dpSize tpSize → List (Rank dpSize tpSize)
  | .tp, rank => (List.finRange tpSize).map fun tpRank => (rank.1, tpRank)
  | .dp, rank => (List.finRange dpSize).map fun dpRank => (dpRank, rank.2)
  | .world, _ => (List.finRange dpSize).flatMap fun dpRank =>
      (List.finRange tpSize).map fun tpRank => (dpRank, tpRank)

def Group.position : Group → Rank dpSize tpSize → Nat
  | .tp, rank => rank.2
  | .dp, rank => rank.1
  | .world, rank => rank.1 * tpSize + rank.2

/-- The ranks of a group bring tensors with the same number of rows. -/
def Group.SameRows (group : Group) (inputs : Rank dpSize tpSize → List α) : Prop :=
  ∀ rank, ∀ other ∈ group.members rank, (inputs other).length = (inputs rank).length

instance (group : Group) (inputs : Rank dpSize tpSize → List α) :
    Decidable (group.SameRows inputs) :=
  inferInstanceAs (Decidable (∀ _, _))

def Collective.exchange [AddCommMonoid α] :
    Collective → (Rank dpSize tpSize → List α) → Option (Rank dpSize tpSize → List α)
  | .allReduce group, inputs =>
      if group.SameRows inputs then
        some fun rank => Rows.sum ((group.members rank).map inputs)
      else
        none
  | .reduceScatter group, inputs =>
      if group.SameRows inputs ∧
          ∀ rank, (group.members rank).length ∣ (inputs rank).length then
        some fun rank =>
          Rows.chunk ((inputs rank).length / (group.members rank).length) (group.position rank)
            (Rows.sum ((group.members rank).map inputs))
      else
        none
  | .allGather group, inputs =>
      if group.SameRows inputs then
        some fun rank => ((group.members rank).map inputs).flatten
      else
        none

/-- What one rank runs on tensors with rows in `α`. -/
abbrev Comm (α Result : Type) := Program Collective (List α) Result

def tensorModelParallelAllReduce (input : List α) (group : Group := .tp) : Comm α (List α) :=
  .collective (.allReduce group) input .done

def tensorModelParallelReduceScatter (input : List α) (group : Group := .tp) :
    Comm α (List α) :=
  .collective (.reduceScatter group) input .done

def tensorModelParallelAllGather (input : List α) (group : Group) : Comm α (List α) :=
  .collective (.allGather group) input .done

/-- The rows of each entry of the list, `paddingToTokenNum` rows apart. -/
def dpGroupTensors (hiddenStates : List α) (paddingToTokenNum : Nat) :
    Nat → List Nat → List (List α)
  | _, [] => []
  | offset, tokenNum :: rest =>
      if tokenNum ≠ 0 then
        Rows.slice offset tokenNum hiddenStates ::
          dpGroupTensors hiddenStates paddingToTokenNum (offset + paddingToTokenNum) rest
      else
        dpGroupTensors hiddenStates paddingToTokenNum (offset + paddingToTokenNum) rest

/-- `torch.cat` raises on an empty list. -/
def removePaddingsAfterAllGather (hiddenStates : List α) (paddingToTokenNum : Nat)
    (tokenNumList : List Nat) : Option (List α) :=
  match dpGroupTensors hiddenStates paddingToTokenNum 0 tokenNumList with
  | [] => none
  | [only] => some only
  | tensors => some tensors.flatten

section Code

variable [AddCommMonoid α]

def tensorModelParallelAllGatherDp (groupNumTokens : List Nat) (rank : Nat)
    (hiddenStates : List α) (group : Group) : Comm α (List α) := do
  if groupNumTokens.all fun num => some num == groupNumTokens.head? then
    tensorModelParallelAllGather hiddenStates group
  else
    let maxNumTokens ← .ofOption groupNumTokens.max?
    let ownNumTokens ← .ofOption groupNumTokens[rank]?
    let numPadding : Int := maxNumTokens - ownNumTokens
    let padded := if numPadding > 0 then Rows.pad hiddenStates numPadding else hiddenStates
    let gathered ← tensorModelParallelAllGather padded group
    .ofOption (removePaddingsAfterAllGather gathered maxNumTokens groupNumTokens)

/-- The branch taken without a `tp_group` of the caller's own. -/
def processPostAttentionCommunication (rank : Rank dpSize tpSize) (hiddenStates : List α)
    (dpParams : MLUDPMetadata) : Comm α (List α) := do
  if dpParams.prefillPadToTokenNum ≠ -1 then
    let padNum := dpParams.prefillPadToTokenNum - dpParams.tokenNum
    let padded := if padNum ≠ 0 then Rows.pad hiddenStates padNum else hiddenStates
    let scattered ← tensorModelParallelReduceScatter padded
    let splitList ← .ofOption dpParams.attnTokenSplitListReduceScatter
    let gathered ← tensorModelParallelAllGatherDp splitList (Group.world.position rank)
      scattered .world
    .ofOption (removePaddingsAfterAllGather gathered dpParams.prefillPadToTokenNum.toNat
      dpParams.tokenSplitList)
  else
    let reduced ← tensorModelParallelAllReduce hiddenStates
    tensorModelParallelAllGatherDp dpParams.tokenSplitList (Group.dp.position rank) reduced .dp

end Code

/-! ### What the collectives and the removal of padding compute -/

theorem length_members_tp (rank : Rank dpSize tpSize) :
    (Group.tp.members rank).length = tpSize := by
  simp [Group.members]

theorem length_members_world (rank : Rank dpSize tpSize) :
    (Group.world.members rank).length = dpSize * tpSize := by
  simp [Group.members, List.length_flatMap]

/-- A list of equal entries takes the gather without padding. -/
theorem all_eq_head?_replicate (count size : Nat) :
    (List.replicate count size).all
      (fun num => some num == (List.replicate count size).head?) = true := by
  rw [List.all_eq_true]
  intro num hmem
  obtain ⟨hpos, rfl⟩ := List.mem_replicate.mp hmem
  simp [List.head?_replicate, hpos]

theorem sameRows_tp {inputs : Rank dpSize tpSize → List α} {rows : Fin dpSize → Nat}
    (h : ∀ rank, (inputs rank).length = rows rank.1) : Group.tp.SameRows inputs := by
  intro rank other hmem
  simp only [Group.members, List.mem_map] at hmem
  obtain ⟨tpRank, _, rfl⟩ := hmem
  rw [h, h]

theorem sameRows_of_const {group : Group} {inputs : Rank dpSize tpSize → List α} {rows : Nat}
    (h : ∀ rank, (inputs rank).length = rows) : group.SameRows inputs := by
  intro rank other _
  rw [h, h]

/-- The sum of the tensor parallel partials of one data parallel rank. -/
def tpSum [AddCommMonoid α] (inputs : Rank dpSize tpSize → List α) (dpRank : Fin dpSize) :
    List α :=
  Rows.sum ((List.finRange tpSize).map fun tpRank => inputs (dpRank, tpRank))

theorem length_tpSum [AddCommMonoid α] {inputs : Rank dpSize tpSize → List α}
    (rows : Fin dpSize → Nat) (hpos : 0 < tpSize)
    (h : ∀ rank, (inputs rank).length = rows rank.1) (dpRank : Fin dpSize) :
    (tpSum inputs dpRank).length = rows dpRank := by
  apply Rows.length_sum
  · simp [List.finRange_eq_nil_iff]
    omega
  · intro part hmem
    obtain ⟨tpRank, _, rfl⟩ := List.mem_map.mp hmem
    exact h (dpRank, tpRank)

end VllmMlu.Parallel
