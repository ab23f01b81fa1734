import VllmMlu.Library.Cuts
import VllmMlu.Library.Grouping

/-! The ranks that the ray executor gives to its workers. -/
namespace VllmMlu.Executor
open VllmMlu.Library

/-- A created ray actor, on a node. -/
structure RayWorkerWrapper (α ν : Type) where
  nodeIp : α
  nodeId : ν
deriving DecidableEq

structure RayWorkerMetaData (α ν : Type) where
  worker : RayWorkerWrapper α ν
  createdRank : Nat
  ip : α
deriving DecidableEq

/-- The metadata once `adjusted_rank` is set. -/
structure RankedWorker (α ν : Type) extends RayWorkerMetaData α ν where
  adjustedRank : Nat
deriving DecidableEq

/-- The arguments of `init_worker` that depend on the rank. -/
structure InitWorkerKwargs where
  localRank : Nat
  rank : Nat
  isDriverWorker : Bool
deriving DecidableEq

inductive ExecutorError where
  /-- Every node should have a unique IP address. -/
  | nodesAndIps (numNodes numIps : Nat)
  | indexError
deriving DecidableEq

variable {α ν : Type} [LinearOrder α] [DecidableEq ν]

/-- `worker_metadata`, with the addresses filled in. -/
def workerMetadata (workers : List (RayWorkerWrapper α ν)) : List (RayWorkerMetaData α ν) :=
  workers.zipIdx.map fun (worker, rank) => ⟨worker, rank, worker.nodeIp⟩

def ipCounts (workerIps : List α) : Dict α Nat := workerIps.foldl Dict.tally .empty

def sortByDriverThenWorkerIp (driverIp : α) (counts : Dict α Nat)
    (item : RayWorkerMetaData α ν) : ℕ ×ₗ ℕ ×ₗ α :=
  toLex (if item.ip = driverIp then 0 else 1, toLex ((counts.get? item.ip).getD 0, item.ip))

def sortedWorkerMetadata (driverIp : α) (metadata : List (RayWorkerMetaData α ν)) :
    List (RayWorkerMetaData α ν) :=
  let key := sortByDriverThenWorkerIp driverIp (ipCounts (metadata.map (·.ip)))
  metadata.insertionSort fun item other => key item ≤ key other

def rankedWorkers (driverIp : α) (workers : List (RayWorkerWrapper α ν)) :
    List (RankedWorker α ν) :=
  (sortedWorkerMetadata driverIp (workerMetadata workers)).zipIdx.map fun (item, i) =>
    { item with adjustedRank := i }

def rerankMapping (ranked : List (RankedWorker α ν)) : Dict Nat Nat :=
  .ofEntries (ranked.map fun item => (item.createdRank, item.adjustedRank))

/-- Node id to the ranks of its workers. -/
def nodeWorkers (nodeIds : List ν) : Dict ν (List Nat) := nodeIds.zipIdx.foldl Dict.push .empty

def allKwargs (tensorParallelSize : Nat) (nodeIds : List ν) : List InitWorkerKwargs :=
  nodeIds.zipIdx.map fun (nodeId, rank) =>
    { localRank := (((nodeWorkers nodeIds).get? nodeId).getD []).idxOf rank
      rank := rank
      isDriverWorker := rank % tensorParallelSize = 0 }

/-- What a worker does with the arguments of all workers, after its `rpc_rank` was adjusted. -/
def initWorker (adjustRank : Dict Nat Nat → Nat → Nat) (mapping : Dict Nat Nat)
    (kwargs : List InitWorkerKwargs) (item : RankedWorker α ν) :
    Except ExecutorError (RankedWorker α ν × InitWorkerKwargs) :=
  match kwargs[adjustRank mapping item.createdRank]? with
  | some own => .ok (item, own)
  | none => .error .indexError

/-- Each worker, in the order of `self.workers`, with what its `init_worker` is given. -/
def initWorkersRay (adjustRank : Dict Nat Nat → Nat → Nat) (tensorParallelSize : Nat)
    (driverIp : α) (workers : List (RayWorkerWrapper α ν)) :
    Except ExecutorError (List (RankedWorker α ν × InitWorkerKwargs)) :=
  let ranked := rankedWorkers driverIp workers
  let nodeIds := ranked.map (·.worker.nodeId)
  let numNodes := (nodeWorkers nodeIds).keys.length
  let numIps := (workers.map (·.nodeIp) ++ [driverIp]).toFinset.card
  if numNodes ≠ numIps then .error (.nodesAndIps numNodes numIps)
  else ranked.mapM
    (initWorker adjustRank (rerankMapping ranked) (allKwargs tensorParallelSize nodeIds))

/-- A worker whose rank is in the mapping takes the new rank. -/
def AdjustsRank (adjustRank : Dict Nat Nat → Nat → Nat) : Prop :=
  ∀ mapping rank new, mapping.get? rank = some new → adjustRank mapping rank = new

/-- The created workers, with one node for each address. -/
structure Cluster (α ν : Type) where
  workers : List (RayWorkerWrapper α ν)
  oneNode : ∀ worker ∈ workers, ∀ other ∈ workers,
    worker.nodeIp = other.nodeIp ↔ worker.nodeId = other.nodeId

/-- The workers of the driver's node come first, those of one node side by side. -/
structure Reranked (driverIp : α) (workers : List (RayWorkerWrapper α ν))
    (ranked : List (RankedWorker α ν)) : Prop where
  perm : (ranked.map (·.toRayWorkerMetaData)).Perm (workerMetadata workers)
  driverFirst : ranked.Pairwise fun item later => later.ip = driverIp → item.ip = driverIp
  contiguous : ∀ before item between last after,
    ranked = before ++ item :: (between ++ last :: after) → item.ip = last.ip →
    ∀ other ∈ between, other.ip = item.ip
  ranks : ranked.map (·.adjustedRank) = List.range workers.length

/-- Each worker is initialised with its adjusted rank, and with a device of its own on its node,
in the order of the ranks. -/
structure Initialised (workers : List (RayWorkerWrapper α ν)) (ranked : List (RankedWorker α ν))
    (inits : List (RankedWorker α ν × InitWorkerKwargs)) : Prop where
  order : inits.map Prod.fst = ranked
  ranks : ∀ init ∈ inits, init.2.rank = init.1.adjustedRank
  localRanks : ∀ nodeId,
    (inits.filter fun init => init.1.worker.nodeId = nodeId).map (·.2.localRank) =
      List.range (workers.countP fun worker => worker.nodeId = nodeId)

section Sorting

variable {driverIp : α} {counts : Dict α Nat} {item other : RayWorkerMetaData α ν}

omit [DecidableEq ν] in
theorem driver_of_key_le (hle : sortByDriverThenWorkerIp driverIp counts item ≤
    sortByDriverThenWorkerIp driverIp counts other) (hdriver : other.ip = driverIp) :
    item.ip = driverIp := by
  unfold sortByDriverThenWorkerIp at hle
  rw [Prod.Lex.toLex_le_toLex, if_pos hdriver] at hle
  by_contra hne
  rw [if_neg hne] at hle
  rcases hle with hlt | ⟨heq, -⟩
  · exact absurd hlt (by omega)
  · exact absurd heq (by omega)

omit [DecidableEq ν] in
theorem key_eq_of_ip_eq (heq : item.ip = other.ip) :
    sortByDriverThenWorkerIp driverIp counts item =
      sortByDriverThenWorkerIp driverIp counts other := by
  rw [sortByDriverThenWorkerIp, sortByDriverThenWorkerIp, heq]

omit [DecidableEq ν] in
theorem ip_eq_of_key_eq (heq : sortByDriverThenWorkerIp driverIp counts item =
    sortByDriverThenWorkerIp driverIp counts other) : item.ip = other.ip := by
  have hinner := (Prod.ext_iff.mp (toLex.injective heq)).2
  exact (Prod.ext_iff.mp (toLex.injective hinner)).2

omit [DecidableEq ν] in
theorem sortedWorkerMetadata_perm (driverIp : α) (metadata : List (RayWorkerMetaData α ν)) :
    (sortedWorkerMetadata driverIp metadata).Perm metadata :=
  List.perm_insertionSort _ metadata

omit [DecidableEq ν] in
theorem sortedWorkerMetadata_pairwise (driverIp : α) (metadata : List (RayWorkerMetaData α ν)) :
    (sortedWorkerMetadata driverIp metadata).Pairwise fun item other =>
      sortByDriverThenWorkerIp driverIp (ipCounts (metadata.map (·.ip))) item ≤
        sortByDriverThenWorkerIp driverIp (ipCounts (metadata.map (·.ip))) other := by
  generalize hkey : sortByDriverThenWorkerIp driverIp (ipCounts (metadata.map (·.ip))) = key
  have : Std.Total fun item other : RayWorkerMetaData α ν => key item ≤ key other :=
    ⟨fun item other => le_total (key item) (key other)⟩
  have : IsTrans _ fun item other : RayWorkerMetaData α ν => key item ≤ key other :=
    ⟨fun _ _ _ => le_trans⟩
  unfold sortedWorkerMetadata
  rw [hkey]
  exact List.pairwise_insertionSort _ metadata

end Sorting

section Ranks

variable (driverIp : α) (workers : List (RayWorkerWrapper α ν))

omit [DecidableEq ν] in
theorem ranked_metadata : (rankedWorkers driverIp workers).map (·.toRayWorkerMetaData) =
    sortedWorkerMetadata driverIp (workerMetadata workers) := by
  rw [rankedWorkers, List.map_map]
  exact List.zipIdx_map_fst 0 _

omit [DecidableEq ν] in
theorem ranked_perm : ((rankedWorkers driverIp workers).map (·.toRayWorkerMetaData)).Perm
    (workerMetadata workers) := by
  rw [ranked_metadata]
  exact sortedWorkerMetadata_perm driverIp _

omit [DecidableEq ν] in
theorem ranked_length : (rankedWorkers driverIp workers).length = workers.length := by
  rw [rankedWorkers, List.length_map, List.length_zipIdx,
    (sortedWorkerMetadata_perm driverIp _).length_eq, workerMetadata, List.length_map,
    List.length_zipIdx]

omit [DecidableEq ν] in
theorem ranked_adjustedRank :
    (rankedWorkers driverIp workers).map (·.adjustedRank) = List.range workers.length := by
  have hsnd : (rankedWorkers driverIp workers).map (·.adjustedRank) =
      (sortedWorkerMetadata driverIp (workerMetadata workers)).zipIdx.map Prod.snd := by
    rw [rankedWorkers, List.map_map]
    rfl
  rw [hsnd, List.zipIdx_map_snd, List.range_eq_range',
    (sortedWorkerMetadata_perm driverIp _).length_eq, workerMetadata, List.length_map,
    List.length_zipIdx]

omit [DecidableEq ν] in
theorem ranked_createdRank_nodup :
    ((rankedWorkers driverIp workers).map (·.createdRank)).Nodup := by
  have hperm := (ranked_perm driverIp workers).map (·.createdRank)
  rw [List.map_map] at hperm
  have hcreated : (workerMetadata workers).map (·.createdRank) = List.range' 0 workers.length := by
    rw [workerMetadata, List.map_map]
    exact List.zipIdx_map_snd 0 workers
  rw [hcreated] at hperm
  exact hperm.nodup_iff.mpr List.nodup_range'

omit [DecidableEq ν] in
theorem ranked_worker_perm : ((rankedWorkers driverIp workers).map (·.worker)).Perm workers := by
  have hperm := (ranked_perm driverIp workers).map (·.worker)
  rw [List.map_map] at hperm
  have hcreated : (workerMetadata workers).map (·.worker) = workers := by
    rw [workerMetadata, List.map_map]
    exact List.zipIdx_map_fst 0 workers
  rwa [hcreated] at hperm

omit [DecidableEq ν] in
theorem ranked_ip_eq {item : RankedWorker α ν} (hmem : item ∈ rankedWorkers driverIp workers) :
    item.worker ∈ workers ∧ item.ip = item.worker.nodeIp := by
  have hcreated := (ranked_perm driverIp workers).mem_iff.mp (List.mem_map_of_mem hmem)
  obtain ⟨⟨worker, rank⟩, hworker, heq⟩ := List.mem_map.mp hcreated
  rw [← heq]
  exact ⟨(List.mem_zipIdx' hworker).2 ▸ List.getElem_mem _, rfl⟩

omit [DecidableEq ν] in
theorem rankedWorkers_reranked : Reranked driverIp workers (rankedWorkers driverIp workers) := by
  have hsorted := sortedWorkerMetadata_pairwise driverIp (workerMetadata workers)
  rw [← ranked_metadata, List.pairwise_map] at hsorted
  refine ⟨ranked_perm driverIp workers, ?_, ?_, ranked_adjustedRank driverIp workers⟩
  · exact hsorted.imp fun hle hdriver => driver_of_key_le hle hdriver
  · intro before item between last after hsplit heq other hmem
    rw [hsplit, List.pairwise_append, List.pairwise_cons, List.pairwise_append] at hsorted
    have hfirst := hsorted.2.1.1 other (List.mem_append_left _ hmem)
    have hsecond := hsorted.2.1.2.2.2 other hmem last List.mem_cons_self
    rw [← key_eq_of_ip_eq heq] at hsecond
    exact ip_eq_of_key_eq (le_antisymm hsecond hfirst)

end Ranks

section Nodes

/-- Two labellings that tell the same elements apart use the same number of labels. -/
theorem card_labels_eq {ω β γ : Type} [DecidableEq β] [DecidableEq γ] {items : List ω}
    {first : ω → β} {second : ω → γ} (hiff : ∀ item ∈ items, ∀ other ∈ items,
      first item = first other ↔ second item = second other) :
    (items.map first).toFinset.card = (items.map second).toFinset.card := by
  induction items with
  | nil => rfl
  | cons head rest ih =>
      have hrest := ih fun item hmem other hother =>
        hiff item (List.mem_cons_of_mem _ hmem) other (List.mem_cons_of_mem _ hother)
      have hseen : first head ∈ (rest.map first).toFinset ↔
          second head ∈ (rest.map second).toFinset := by
        simp only [List.mem_toFinset, List.mem_map]
        constructor
        · rintro ⟨other, hmem, heq⟩
          exact ⟨other, hmem, (hiff other (List.mem_cons_of_mem _ hmem) head
            List.mem_cons_self).mp heq⟩
        · rintro ⟨other, hmem, heq⟩
          exact ⟨other, hmem, (hiff other (List.mem_cons_of_mem _ hmem) head
            List.mem_cons_self).mpr heq⟩
      rw [List.map_cons, List.map_cons, List.toFinset_cons, List.toFinset_cons,
        Finset.card_insert_eq_ite, Finset.card_insert_eq_ite, hrest]
      simp only [hseen]

theorem nodeWorkers_keys_length (nodeIds : List ν) :
    (nodeWorkers nodeIds).keys.length = nodeIds.toFinset.card := by
  rw [← List.toFinset_card_of_nodup (nodeWorkers nodeIds).keys_nodup]
  congr 1
  ext nodeId
  rw [List.mem_toFinset, nodeWorkers, Dict.mem_keys_foldl_push, List.zipIdx_map_fst,
    List.mem_toFinset]
  simp

theorem nodeWorkers_get (nodeIds : List ν) (nodeId : ν) :
    ((nodeWorkers nodeIds).get? nodeId).getD [] =
      (nodeIds.zipIdx.filter (·.1 = nodeId)).map Prod.snd := by
  rw [nodeWorkers, Dict.getD_foldl_push]
  rfl

/-- There is a node for each address of a worker. -/
theorem numNodes_eq (cluster : Cluster α ν) (driverIp : α) :
    (nodeWorkers ((rankedWorkers driverIp cluster.workers).map (·.worker.nodeId))).keys.length =
      (cluster.workers.map (·.nodeIp)).toFinset.card := by
  have hnodes : ((rankedWorkers driverIp cluster.workers).map (·.worker.nodeId)).toFinset =
      (cluster.workers.map (·.nodeId)).toFinset := by
    apply List.toFinset_eq_of_perm
    have hperm := (ranked_worker_perm driverIp cluster.workers).map (·.nodeId)
    rwa [List.map_map] at hperm
  rw [nodeWorkers_keys_length, hnodes, ← card_labels_eq cluster.oneNode]

end Nodes

section Initialise

variable {driverIp : α} {workers : List (RayWorkerWrapper α ν)}

omit [LinearOrder α] in
theorem allKwargs_getElem? (tensorParallelSize : Nat) {nodeIds : List ν} {rank : Nat} {nodeId : ν}
    (hrank : nodeIds[rank]? = some nodeId) :
    (allKwargs tensorParallelSize nodeIds)[rank]? = some
      { localRank := ((nodeIds.zipIdx.filter (·.1 = nodeId)).map Prod.snd).idxOf rank
        rank := rank
        isDriverWorker := rank % tensorParallelSize = 0 } := by
  rw [allKwargs, List.getElem?_map, List.getElem?_zipIdx, hrank]
  simp [nodeWorkers_get]

/-- The arguments with the adjusted rank of a worker. -/
def ownKwargs (tensorParallelSize : Nat) (nodeIds : List ν) (item : RankedWorker α ν) :
    InitWorkerKwargs where
  localRank :=
    ((nodeIds.zipIdx.filter (·.1 = item.worker.nodeId)).map Prod.snd).idxOf item.adjustedRank
  rank := item.adjustedRank
  isDriverWorker := item.adjustedRank % tensorParallelSize = 0

omit [DecidableEq ν] in
theorem ranked_getElem? {item : RankedWorker α ν}
    (hmem : item ∈ rankedWorkers driverIp workers) :
    (rankedWorkers driverIp workers)[item.adjustedRank]? = some item := by
  unfold rankedWorkers at hmem ⊢
  obtain ⟨⟨data, rank⟩, hdata, rfl⟩ := List.mem_map.mp hmem
  rw [List.getElem?_map, List.getElem?_zipIdx, (List.mem_zipIdx_iff_getElem?.mp hdata)]
  simp

theorem initWorker_own {adjustRank : Dict Nat Nat → Nat → Nat} (hadjust : AdjustsRank adjustRank)
    (tensorParallelSize : Nat) {item : RankedWorker α ν}
    (hmem : item ∈ rankedWorkers driverIp workers) :
    initWorker adjustRank (rerankMapping (rankedWorkers driverIp workers))
      (allKwargs tensorParallelSize
        ((rankedWorkers driverIp workers).map (·.worker.nodeId))) item =
    .ok (item, ownKwargs tensorParallelSize
      ((rankedWorkers driverIp workers).map (·.worker.nodeId)) item) := by
  have hrank : adjustRank (rerankMapping (rankedWorkers driverIp workers)) item.createdRank =
      item.adjustedRank := by
    apply hadjust
    apply Dict.get?_ofEntries
    · rw [List.map_map]
      exact ranked_createdRank_nodup driverIp workers
    · exact List.mem_map_of_mem (f := fun item : RankedWorker α ν =>
        (item.createdRank, item.adjustedRank)) hmem
  have hnode : ((rankedWorkers driverIp workers).map (·.worker.nodeId))[item.adjustedRank]? =
      some item.worker.nodeId := by
    rw [List.getElem?_map, ranked_getElem? hmem]
    rfl
  rw [initWorker, hrank, allKwargs_getElem? tensorParallelSize hnode]
  rfl

/-- The ranks of the workers of a node, in order. -/
theorem node_ranks (nodeId : ν) :
    (((rankedWorkers driverIp workers).map (·.worker.nodeId)).zipIdx.filter (·.1 = nodeId)).map
        Prod.snd =
      ((rankedWorkers driverIp workers).filter (·.worker.nodeId = nodeId)).map
        (·.adjustedRank) := by
  have hranks : (rankedWorkers driverIp workers).zipIdx.map Prod.snd =
      (rankedWorkers driverIp workers).map (·.adjustedRank) := by
    rw [ranked_adjustedRank, List.zipIdx_map_snd, ranked_length, List.range_eq_range']
  have hzip : ((rankedWorkers driverIp workers).map (·.worker.nodeId)).zipIdx =
      (rankedWorkers driverIp workers).map fun item => (item.worker.nodeId, item.adjustedRank) := by
    apply List.ext_getElem
    · simp
    · intro i hi hranked
      have hi' : i < (rankedWorkers driverIp workers).length := by simpa using hranked
      have hrank := List.getElem_map (fun item : RankedWorker α ν => item.adjustedRank)
        (l := rankedWorkers driverIp workers) (i := i) (h := by simpa using hi')
      simp only [ranked_adjustedRank, List.getElem_range] at hrank
      simp [← hrank]
  rw [hzip, List.filter_map, List.map_map]
  rfl

theorem node_ranks_nodup (nodeId : ν) :
    (((rankedWorkers driverIp workers).filter (·.worker.nodeId = nodeId)).map
      (·.adjustedRank)).Nodup := by
  have hall : ((rankedWorkers driverIp workers).map (·.adjustedRank)).Nodup := by
    rw [ranked_adjustedRank]
    exact List.nodup_range
  exact hall.sublist (List.filter_sublist.map _)

theorem node_localRanks (tensorParallelSize : Nat) (nodeId : ν) :
    ((rankedWorkers driverIp workers).filter (·.worker.nodeId = nodeId)).map
        (fun item => (ownKwargs tensorParallelSize
          ((rankedWorkers driverIp workers).map (·.worker.nodeId)) item).localRank) =
      List.range (workers.countP fun worker => worker.nodeId = nodeId) := by
  have hcount : (((rankedWorkers driverIp workers).filter (·.worker.nodeId = nodeId)).map
      (·.adjustedRank)).length = workers.countP fun worker => worker.nodeId = nodeId := by
    rw [List.length_map, ← List.countP_eq_length_filter,
      ← (ranked_worker_perm driverIp workers).countP_eq, List.countP_map]
    rfl
  rw [← hcount, ← map_idxOf_self (node_ranks_nodup nodeId), List.map_map]
  apply List.map_congr_left
  intro item hmem
  obtain ⟨-, hnode⟩ := List.mem_filter.mp hmem
  rw [ownKwargs, of_decide_eq_true hnode, node_ranks]
  rfl

/-- Every worker is initialised as soon as the nodes and the addresses are as many. -/
theorem initWorkersRay_of_eq {adjustRank : Dict Nat Nat → Nat → Nat}
    (hadjust : AdjustsRank adjustRank) (tensorParallelSize : Nat)
    (heq : (nodeWorkers ((rankedWorkers driverIp workers).map (·.worker.nodeId))).keys.length =
      (workers.map (·.nodeIp) ++ [driverIp]).toFinset.card) :
    ∃ inits, initWorkersRay adjustRank tensorParallelSize driverIp workers = .ok inits ∧
      Initialised workers (rankedWorkers driverIp workers) inits := by
  refine ⟨(rankedWorkers driverIp workers).map fun item => (item, ownKwargs tensorParallelSize
    ((rankedWorkers driverIp workers).map (·.worker.nodeId)) item), ?_, ?_, ?_, ?_⟩
  · unfold initWorkersRay
    dsimp only
    rw [if_neg (not_not.mpr heq)]
    exact Cuts.mapM_ok_eq_map fun item hmem => initWorker_own hadjust tensorParallelSize hmem
  · rw [List.map_map]
    exact List.map_id _
  · intro init hinit
    obtain ⟨item, -, rfl⟩ := List.mem_map.mp hinit
    rfl
  · intro nodeId
    rw [List.filter_map, List.map_map]
    exact node_localRanks tensorParallelSize nodeId

end Initialise

/-- The workers are re-ranked by their nodes, and are initialised with these ranks exactly if the
driver's node has a worker; else the addresses are one more than the nodes. -/
theorem ray_ranks {adjustRank : Dict Nat Nat → Nat → Nat} (hadjust : AdjustsRank adjustRank)
    (tensorParallelSize : Nat) (driverIp : α) (cluster : Cluster α ν) :
    Reranked driverIp cluster.workers (rankedWorkers driverIp cluster.workers) ∧
      (driverIp ∈ cluster.workers.map (·.nodeIp) →
        ∃ inits, initWorkersRay adjustRank tensorParallelSize driverIp cluster.workers =
            .ok inits ∧
          Initialised cluster.workers (rankedWorkers driverIp cluster.workers) inits) ∧
      (driverIp ∉ cluster.workers.map (·.nodeIp) →
        ∃ numNodes, initWorkersRay adjustRank tensorParallelSize driverIp cluster.workers =
          .error (.nodesAndIps numNodes (numNodes + 1))) := by
  have hnodes := numNodes_eq cluster driverIp
  have hips : (cluster.workers.map (·.nodeIp) ++ [driverIp]).toFinset =
      insert driverIp (cluster.workers.map (·.nodeIp)).toFinset := by
    ext ip
    simp [or_comm]
  refine ⟨rankedWorkers_reranked driverIp cluster.workers, ?_, ?_⟩
  · intro hdriver
    apply initWorkersRay_of_eq hadjust tensorParallelSize
    rw [hnodes, hips, Finset.insert_eq_of_mem (List.mem_toFinset.mpr hdriver)]
  · intro hdriver
    rw [← List.mem_toFinset] at hdriver
    refine ⟨(cluster.workers.map (·.nodeIp)).toFinset.card, ?_⟩
    unfold initWorkersRay
    dsimp only
    rw [hnodes, hips, Finset.card_insert_of_notMem hdriver, if_pos (Nat.succ_ne_self _).symm]

namespace Samples

/-- Two workers of the node at address 5, created around one at address 3. -/
def twoNodes : Cluster Nat Nat where
  workers := [⟨5, 50⟩, ⟨3, 30⟩, ⟨5, 50⟩]
  oneNode := by decide

/-- `adjust_rank` of a worker. -/
def adjustRank (mapping : Dict Nat Nat) (rank : Nat) : Nat := (mapping.get? rank).getD rank

theorem adjustRank_adjusts : AdjustsRank adjustRank := by
  intro mapping rank new hnew
  rw [adjustRank, hnew]
  rfl

end Samples

open Samples in
theorem ray_ranks_two_nodes : ∃ inits, initWorkersRay adjustRank 2 5 twoNodes.workers = .ok inits ∧
    Initialised twoNodes.workers (rankedWorkers 5 twoNodes.workers) inits :=
  (ray_ranks adjustRank_adjusts 2 5 twoNodes).2.1 (by decide)

open Samples in
/-- No worker is initialised if the driver's node, at address 4, has none. -/
theorem driver_node_without_worker :
    ¬∃ inits, initWorkersRay adjustRank 2 4 twoNodes.workers = .ok inits := by
  have herror : initWorkersRay adjustRank 2 4 twoNodes.workers = .error (.nodesAndIps 2 3) := by
    decide +kernel
  rintro ⟨inits, hok⟩
  rw [herror] at hok
  cases hok

end VllmMlu.Executor
