import VllmMlu.Sched.Consistency

/-! The inference mode of a batch, and the requests to which the packed query rows
belong: by `np.repeat` over the scheduled tokens, and by the view of the decode
path, which gives every request equally many rows. -/
namespace VllmMlu.Worker
open VllmMlu.Sched

inductive MLUInferMode where
  | chunked
  | prefillOnly
  | decodeOnly
deriving DecidableEq, Repr

namespace MLUInferMode

def build (maxQueryLen : Nat) (maxComputedTokens : Int) (uniformDecodeQueryLen : Nat) :
    MLUInferMode :=
  if maxQueryLen ≤ uniformDecodeQueryLen then .decodeOnly
  else if maxComputedTokens = 0 then .prefillOnly
  else .chunked

def isPrefillOnly (mode : MLUInferMode) : Bool := mode == .prefillOnly

def isDecodeOnly (mode : MLUInferMode) : Bool := mode == .decodeOnly

theorem build_eq_decodeOnly {maxQueryLen uniformDecodeQueryLen : Nat} {maxComputedTokens : Int} :
    build maxQueryLen maxComputedTokens uniformDecodeQueryLen = .decodeOnly ↔
      maxQueryLen ≤ uniformDecodeQueryLen := by
  unfold build
  split
  · rename_i hle
    exact iff_of_true rfl hle
  · rename_i hlt
    split
    · exact iff_of_false nofun hlt
    · exact iff_of_false nofun hlt

theorem maxComputedTokens_of_prefillOnly {maxQueryLen uniformDecodeQueryLen : Nat}
    {maxComputedTokens : Int}
    (hmode : build maxQueryLen maxComputedTokens uniformDecodeQueryLen = .prefillOnly) :
    maxComputedTokens = 0 := by
  unfold build at hmode
  split at hmode
  · cases hmode
  · split at hmode
    · assumption
    · cases hmode

end MLUInferMode

theorem foldl_max_le_iff (nums : List Nat) (start bound : Nat) :
    nums.foldl max start ≤ bound ↔ start ≤ bound ∧ ∀ num ∈ nums, num ≤ bound := by
  induction nums generalizing start with
  | nil => simp
  | cons num rest ih =>
      rw [List.foldl_cons, ih]
      simp only [List.mem_cons, forall_eq_or_imp, max_le_iff]
      tauto

/-- `np.repeat(arange[:num_reqs], num_scheduled_tokens)` from the row `first` on. -/
def reqIndices (first : Nat) : List Nat → List Nat
  | [] => []
  | numTokens :: rest => List.replicate numTokens first ++ reqIndices (first + 1) rest

/-- The request of each row of `query.view(batch_size, -1, heads, dim)`. -/
def viewIndices (batchSize rows : Nat) : Option (List Nat) :=
  if batchSize ≠ 0 ∧ batchSize ∣ rows then
    some ((List.range rows).map (· / (rows / batchSize)))
  else
    none

/-- What the decode path needs of a batch that it is chosen for. -/
def DecodePathRight (numSpecTokens : Nat) (maxComputedTokens : Int)
    (numScheduledTokens : List Nat) : Prop :=
  ∀ maxQueryLen, numScheduledTokens.max? = some maxQueryLen →
    MLUInferMode.build maxQueryLen maxComputedTokens (1 + numSpecTokens) = .decodeOnly →
      (∀ left ∈ numScheduledTokens, ∀ right ∈ numScheduledTokens, left = right) ∧
      viewIndices numScheduledTokens.length numScheduledTokens.sum =
        some (reqIndices 0 numScheduledTokens)

theorem le_of_mem_reqIndices {lens : List Nat} {first owner : Nat}
    (h : owner ∈ reqIndices first lens) : first ≤ owner := by
  induction lens generalizing first with
  | nil => cases h
  | cons numTokens rest ih =>
      rw [reqIndices, List.mem_append] at h
      rcases h with hhere | hlater
      · exact Nat.le_of_eq (List.eq_of_mem_replicate hhere).symm
      · exact Nat.le_of_succ_le (ih hlater)

theorem count_reqIndices {lens : List Nat} (first : Nat) {index : Nat} (h : index < lens.length) :
    (reqIndices first lens).count (first + index) = lens[index] := by
  induction lens generalizing first index with
  | nil => simp at h
  | cons numTokens rest ih =>
      rw [reqIndices, List.count_append, List.count_replicate]
      cases index with
      | zero =>
          have hlater : first ∉ reqIndices (first + 1) rest := fun hmem =>
            absurd (le_of_mem_reqIndices hmem) (by omega)
          simp [List.count_eq_zero_of_not_mem hlater]
      | succ index =>
          have hrest := @ih (first + 1) index (by simpa using h)
          rw [show first + (index + 1) = first + 1 + index by omega, hrest]
          simp
          omega

/-- Equally many rows for every request: the row number divided by their number. -/
theorem reqIndices_replicate (first count numTokens : Nat) :
    reqIndices first (List.replicate count numTokens) =
      (List.range (count * numTokens)).map fun row => first + row / numTokens := by
  induction count generalizing first with
  | zero => simp [reqIndices]
  | succ count ih =>
      rw [List.replicate_succ, reqIndices, ih, Nat.succ_mul,
        Nat.add_comm (count * numTokens) numTokens, List.range_add, List.map_append, List.map_map]
      congr 1
      · symm
        rw [List.eq_replicate_iff]
        refine ⟨by simp, ?_⟩
        intro owner hmem
        obtain ⟨row, hrow, rfl⟩ := List.mem_map.mp hmem
        rw [Nat.div_eq_of_lt (List.mem_range.mp hrow), Nat.add_zero]
      · apply List.map_congr_left
        intro row hmem
        have hpos : 0 < numTokens := by
          rcases Nat.eq_zero_or_pos numTokens with hzero | hpos
          · simp [hzero] at hmem
          · exact hpos
        simp only [Function.comp_apply]
        rw [Nat.add_div_left _ hpos]
        omega

/-- The view finds the owner of every row exactly when all requests have equally
many rows. -/
theorem viewIndices_eq_reqIndices {lens : List Nat} (hne : lens ≠ []) :
    viewIndices lens.length lens.sum = some (reqIndices 0 lens) ↔
      ∀ left ∈ lens, ∀ right ∈ lens, left = right := by
  have hlength : lens.length ≠ 0 := by simpa using hne
  constructor
  · intro hview
    unfold viewIndices at hview
    split at hview
    · rename_i hdvd
      obtain ⟨-, numTokens, hsum⟩ := hdvd
      rw [hsum, Nat.mul_div_cancel_left _ (Nat.pos_of_ne_zero hlength)] at hview
      have hrows := reqIndices_replicate 0 lens.length numTokens
      simp only [Nat.zero_add] at hrows
      have hsame : reqIndices 0 (List.replicate lens.length numTokens) = reqIndices 0 lens :=
        hrows.trans (Option.some.inj hview)
      have hall : ∀ len ∈ lens, len = numTokens := by
        intro len hmem
        obtain ⟨index, hindex, rfl⟩ := List.mem_iff_getElem.mp hmem
        have hcount := count_reqIndices 0 hindex
        rw [← hsame, count_reqIndices 0 (by simpa using hindex)] at hcount
        simpa using hcount.symm
      intro left hleft right hright
      rw [hall left hleft, hall right hright]
    · cases hview
  · intro hequal
    obtain ⟨numTokens, hmem⟩ := List.exists_mem_of_ne_nil lens hne
    have hreplicate : lens = List.replicate lens.length numTokens :=
      List.eq_replicate_iff.mpr ⟨rfl, fun len hlen => hequal len hlen numTokens hmem⟩
    have hsum : lens.sum = lens.length * numTokens := by
      rw [hreplicate, List.sum_replicate, List.length_replicate, smul_eq_mul]
    have hrows := reqIndices_replicate 0 lens.length numTokens
    rw [← hreplicate] at hrows
    rw [viewIndices, if_pos ⟨hlength, numTokens, hsum⟩, hsum,
      Nat.mul_div_cancel_left _ (Nat.pos_of_ne_zero hlength), hrows]
    simp only [Nat.zero_add]

/-- `[num_scheduled_tokens[i] for i in req_ids]`, in the order of the batch. -/
def tokensOf (output : SchedulerOutput) : List Nat :=
  output.numScheduledTokens.values.map Int.toNat

namespace Samples
open Sched.Samples

/-- Three tokens, as many as a decode step with two drafts has. -/
def decodeSized : Request := { requestId := 0, promptTokenIds := [5, 6, 7], maxTokens := 1 }

def oneToken : Request := { requestId := 1, promptTokenIds := [8], maxTokens := 1 }

end Samples

end VllmMlu.Worker
