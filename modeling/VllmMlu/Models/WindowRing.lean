import VllmMlu.Models.WindowSlots

/-! The caches of a deepseek_v4 model over prefills and single-token decode steps. The
slots of a window form a ring: position `p` is kept at column `p % window_size`. -/
namespace VllmMlu.Models
open VllmMlu.Library Rows Paged Cuts
open VllmMlu.Worker

variable {ρ : Type}

/-- What the cache of the window and the caches of the compressed groups hold, next to the
slots that the prefill of each request was given. -/
structure CacheState (ρ : Type) where
  seqLen : ρ → Nat := fun _ => 0
  prefillLen : ρ → Nat := fun _ => 0
  prefillSlots : ρ → List Int := fun _ => []
  window : Int → Option (ρ × Nat) := fun _ => none
  groups : Nat × Nat → Int → Option (ρ × Nat) := fun _ _ => none

namespace CacheState

def inferMode (state : CacheState ρ) (scheduled : List (ρ × Nat)) : MLUInferMode :=
  .build ((scheduled.map fun entry => entry.2).foldl max 0)
    ((scheduled.map fun entry => state.seqLen entry.1).foldl max 0 : Nat) 1

def metadata (tables : ρ → List Int) (state : CacheState ρ) (scheduled : List (ρ × Nat)) :
    CommonMetadata :=
  packed (state.inferMode scheduled)
    (scheduled.map fun entry => state.seqLen entry.1 + entry.2)
    (scheduled.map fun entry => entry.2) (scheduled.map fun entry => tables entry.1)

/-- The request and the position of each query row. -/
def tokenRows (state : CacheState ρ) (scheduled : List (ρ × Nat)) : List (ρ × Nat) :=
  scheduled.flatMap fun entry =>
    (List.range entry.2).map fun offset => (entry.1, state.seqLen entry.1 + offset)

/-- The compressed groups that a step writes: those of the whole prompt, or the one that
the token of a decode step completes. -/
def groupRows (state : CacheState ρ) (scheduled : List (ρ × Nat)) (compressRatio : Nat)
    (slots : List Int) : List ((ρ × Nat) × Int) :=
  if (state.inferMode scheduled).isPrefillOnly then
    (scheduled.flatMap fun entry =>
      (List.range (entry.2 / compressRatio)).map fun group => (entry.1, group)).zip slots
  else
    (scheduled.zip slots).filterMap fun (entry, slot) =>
      if compressRatio ∣ state.seqLen entry.1 + 1 then
        some ((entry.1, state.seqLen entry.1 / compressRatio), slot)
      else none

def numTokens [DecidableEq ρ] (scheduled : List (ρ × Nat)) (owner : ρ) : Nat :=
  (scheduled.lookup owner).getD 0

def record [DecidableEq ρ] (state : CacheState ρ) (scheduled : List (ρ × Nat)) (windowSlotMapping : List Int)
    (compressorSlotMapping : Dict (Nat × Nat) (List Int)) : CacheState ρ :=
  let rows := (state.tokenRows scheduled).zip windowSlotMapping
  { seqLen := fun owner => state.seqLen owner + numTokens scheduled owner
    prefillLen := fun owner =>
      if state.seqLen owner = 0 then numTokens scheduled owner else state.prefillLen owner
    prefillSlots := fun owner =>
      if state.seqLen owner = 0 then
        (rows.filter fun row => row.1.1 = owner).map fun row => row.2
      else state.prefillSlots owner
    window := write state.window rows
    groups := fun key =>
      match compressorSlotMapping.get? key with
      | some slots => write (state.groups key) (state.groupRows scheduled key.2 slots)
      | none => state.groups key }

end CacheState

/-- A step of the model over the requests of a batch and their numbers of tokens. -/
def ringMachine [DecidableEq ρ] (cfg : DeepseekV4Config) (tables : ρ → List Int) :
    Machine (CacheState ρ) (List (ρ × Nat)) TensorError where
  step := fun state scheduled => do
    let (windowSlotMapping, compressorSlotMapping) ←
      updateForwardArgs cfg (state.metadata tables scheduled)
    return state.record scheduled (windowSlotMapping.getD []) compressorSlotMapping

/-- A batch of prefills or a batch of single-token decodes, whose block tables have the
columns that it reads. -/
structure RingStep (cfg : DeepseekV4Config) (tables : ρ → List Int) (state : CacheState ρ)
    (scheduled : List (ρ × Nat)) : Prop where
  nodup : (scheduled.map fun entry => entry.1).Nodup
  alike : (∀ entry ∈ scheduled, state.seqLen entry.1 = 0 ∧ 0 < entry.2) ∨
    ∀ entry ∈ scheduled, 0 < state.seqLen entry.1 ∧ entry.2 = 1
  wide : ∀ entry ∈ scheduled, ∀ column ∈ columnsUsed cfg.windowSize (state.inferMode scheduled)
    (state.seqLen entry.1 + entry.2) entry.2, column < (tables entry.1).length

theorem isPrefillOnly_build {maxQueryLen maxComputedTokens : Nat} :
    (MLUInferMode.build maxQueryLen maxComputedTokens 1).isPrefillOnly = true ↔
      1 < maxQueryLen ∧ maxComputedTokens = 0 := by
  unfold MLUInferMode.build MLUInferMode.isPrefillOnly
  split
  · simp
    omega
  split
  · simp
    omega
  · simp
    omega

theorem CacheState.isPrefillOnly_iff (state : CacheState ρ) (scheduled : List (ρ × Nat)) :
    (state.inferMode scheduled).isPrefillOnly = true ↔
      (∃ entry ∈ scheduled, 1 < entry.2) ∧ ∀ entry ∈ scheduled, state.seqLen entry.1 = 0 := by
  rw [CacheState.inferMode, isPrefillOnly_build, ← not_le, ← Nat.le_zero, foldl_max_le_iff,
    foldl_max_le_iff]
  simp only [List.forall_mem_map, Nat.zero_le, true_and, not_forall, not_le, Nat.le_zero,
    exists_prop]

section Step

variable {cfg : DeepseekV4Config} {tables : ρ → List Int} {state : CacheState ρ}
  {scheduled : List (ρ × Nat)}

/-- A batch of prefills of one token each takes the path of the decodes. -/
theorem RingStep.cases (step : RingStep cfg tables state scheduled) :
    ((state.inferMode scheduled).isPrefillOnly = true ∧
        ∀ entry ∈ scheduled, state.seqLen entry.1 = 0) ∨
      ((state.inferMode scheduled).isPrefillOnly = false ∧ ∀ entry ∈ scheduled, entry.2 = 1) := by
  cases hmode : (state.inferMode scheduled).isPrefillOnly with
  | true => exact .inl ⟨rfl, ((state.isPrefillOnly_iff scheduled).mp hmode).2⟩
  | false =>
      refine .inr ⟨rfl, ?_⟩
      intro entry hmem
      rcases step.alike with hprefill | hdecode
      · by_contra hne
        have hlong : (state.inferMode scheduled).isPrefillOnly = true := by
          apply (state.isPrefillOnly_iff scheduled).mpr
          have := hprefill entry hmem
          exact ⟨⟨entry, hmem, by omega⟩, fun other hother => (hprefill other hother).1⟩
        rw [hmode] at hlong
        cases hlong
      · exact (hdecode entry hmem).2

/-- What `update_forward_args` returns for a step: the slots of every request by itself. -/
structure Mapped (cfg : DeepseekV4Config) (tables : ρ → List Int) (state : CacheState ρ)
    (scheduled : List (ρ × Nat)) (window : List Int)
    (mapping : Dict (Nat × Nat) (List Int)) : Prop where
  returns : updateForwardArgs cfg (state.metadata tables scheduled) = .ok (some window, mapping)
  prefill : (state.inferMode scheduled).isPrefillOnly = true →
    window = (scheduled.flatMap fun entry =>
      windowSlots cfg.windowSize entry.2 (tables entry.1)) ∧
    ∀ pair ∈ compressorPairs, mapping.get? pair = some (scheduled.flatMap fun entry =>
      slice pair.1 (entry.2 / pair.2) (tables entry.1))
  decode : (state.inferMode scheduled).isPrefillOnly = false →
    window = (scheduled.map fun entry =>
      (tables entry.1).getD (state.seqLen entry.1 % cfg.windowSize) 0) ∧
    ∀ pair ∈ compressorPairs, mapping.get? pair = some (scheduled.map fun entry =>
      (tables entry.1).getD (pair.1 + state.seqLen entry.1 / pair.2) 0)

theorem RingStep.wide_prefill (step : RingStep cfg tables state scheduled)
    (hfresh : ∀ entry ∈ scheduled, state.seqLen entry.1 = 0) :
    ∀ entry ∈ scheduled, ∀ column ∈ columnsUsed cfg.windowSize (state.inferMode scheduled)
      entry.2 entry.2, column < (tables entry.1).length := by
  intro entry hmem
  have hwide := step.wide entry hmem
  rwa [hfresh entry hmem, Nat.zero_add] at hwide

theorem RingStep.groups_le (step : RingStep cfg tables state scheduled)
    (hmode : (state.inferMode scheduled).isPrefillOnly = true)
    (hfresh : ∀ entry ∈ scheduled, state.seqLen entry.1 = 0) {pair : Nat × Nat}
    (hpair : pair ∈ compressorPairs) (entry : ρ × Nat) (hmem : entry ∈ scheduled) :
    entry.2 / pair.2 ≤ (tables entry.1).length - pair.1 :=
  groups_le_of_columns hmode (step.wide_prefill hfresh) hpair entry hmem

theorem RingStep.mapped_prefill (step : RingStep cfg tables state scheduled)
    (hpos : 0 < cfg.windowSize) (hratios : cfg.compressRatios.toFinset = {0, 4, 128})
    (hmode : (state.inferMode scheduled).isPrefillOnly = true)
    (hfresh : ∀ entry ∈ scheduled, state.seqLen entry.1 = 0) :
    ∃ window mapping, Mapped cfg tables state scheduled window mapping := by
  have hseq : (scheduled.map fun entry => state.seqLen entry.1 + entry.2) =
      scheduled.map fun entry => entry.2 := by
    apply List.map_congr_left
    intro entry hmem
    rw [hfresh entry hmem, Nat.zero_add]
  obtain ⟨mapping, hreturns, hget⟩ :=
    updateForwardArgs_prefill hpos hratios hmode (step.wide_prefill hfresh)
  refine ⟨_, mapping, ?_, fun _ => ⟨rfl, hget⟩, fun hfalse => ?_⟩
  · rw [CacheState.metadata, hseq]
    exact hreturns
  · rw [hmode] at hfalse
    cases hfalse

theorem RingStep.mapped_decode (step : RingStep cfg tables state scheduled)
    (hpos : 0 < cfg.windowSize) (hratios : cfg.compressRatios.toFinset = {0, 4, 128})
    (hmode : (state.inferMode scheduled).isPrefillOnly = false)
    (hone : ∀ entry ∈ scheduled, entry.2 = 1) :
    ∃ window mapping, Mapped cfg tables state scheduled window mapping := by
  have hpositive : ∀ entry ∈ scheduled, 0 < state.seqLen entry.1 + entry.2 := by
    intro entry hmem
    rw [hone entry hmem]
    exact Nat.succ_pos _
  obtain ⟨mapping, hreturns, hget⟩ := updateForwardArgs_decode hpos hratios hmode hpositive
    (fun entry _ => Nat.le_add_left _ _) step.wide
  refine ⟨_, mapping, hreturns, fun htrue => ?_, fun _ => ⟨?_, fun pair hpair => ?_⟩⟩
  · rw [hmode] at htrue
    cases htrue
  · apply List.map_congr_left
    intro entry hmem
    rw [hone entry hmem, Nat.add_sub_cancel]
  · rw [hget pair hpair]
    simp only [Nat.add_sub_cancel]

theorem RingStep.mapped (step : RingStep cfg tables state scheduled) (hpos : 0 < cfg.windowSize)
    (hratios : cfg.compressRatios.toFinset = {0, 4, 128}) :
    ∃ window mapping, Mapped cfg tables state scheduled window mapping := by
  rcases step.cases with ⟨hmode, hfresh⟩ | ⟨hmode, hone⟩
  · exact step.mapped_prefill hpos hratios hmode hfresh
  · exact step.mapped_decode hpos hratios hmode hone

variable {window : List Int} {mapping : Dict (Nat × Nat) (List Int)}

/-- The query rows of a step next to their window slots. -/
theorem Mapped.windowRows (mapped : Mapped cfg tables state scheduled window mapping)
    (step : RingStep cfg tables state scheduled) (hpos : 0 < cfg.windowSize) :
    (state.tokenRows scheduled).zip window = scheduled.flatMap fun entry =>
      (List.range entry.2).map fun offset =>
        ((entry.1, state.seqLen entry.1 + offset),
          if offset + cfg.windowSize < entry.2 then -1
          else (tables entry.1).getD ((state.seqLen entry.1 + offset) % cfg.windowSize) 0) := by
  rcases step.cases with ⟨hmode, hfresh⟩ | ⟨hmode, hone⟩
  · rw [(mapped.prefill hmode).1, CacheState.tokenRows, zip_flatMap (by simp)]
    apply List.flatMap_congr
    intro entry hmem
    rw [windowSlots, List.zip_map', hfresh entry hmem]
    simp
  · rw [(mapped.decode hmode).1, CacheState.tokenRows, List.map_eq_flatMap,
      zip_flatMap fun entry hmem => by simp [hone entry hmem]]
    apply List.flatMap_congr
    intro entry hmem
    simp [hone entry hmem, hpos.ne']

/-- The rows of a step are those of the groups that it completes. -/
theorem Mapped.mem_groupRows (mapped : Mapped cfg tables state scheduled window mapping)
    (step : RingStep cfg tables state scheduled) {pair : Nat × Nat} (hpair : pair ∈ compressorPairs)
    {slots : List Int} (hslots : mapping.get? pair = some slots) {owner : ρ} {group : Nat}
    {slot : Int} :
    ((owner, group), slot) ∈ state.groupRows scheduled pair.2 slots ↔
      ∃ entry ∈ scheduled, owner = entry.1 ∧ state.seqLen owner / pair.2 ≤ group ∧
        group < (state.seqLen owner + entry.2) / pair.2 ∧
          slot = (tables owner).getD (pair.1 + group) 0 := by
  rcases step.cases with ⟨hmode, hfresh⟩ | ⟨hmode, hone⟩
  · have hget := (mapped.prefill hmode).2 pair hpair
    rw [hslots] at hget
    cases hget
    have hrows : state.groupRows scheduled pair.2 (scheduled.flatMap fun entry =>
          slice pair.1 (entry.2 / pair.2) (tables entry.1)) =
        scheduled.flatMap fun entry => (List.range (entry.2 / pair.2)).map fun group =>
          ((entry.1, group), (tables entry.1).getD (pair.1 + group) 0) := by
      rw [CacheState.groupRows, if_pos hmode, zip_flatMap]
      · apply List.flatMap_congr
        intro entry hmem
        rw [slice_eq_map (step.groups_le hmode hfresh hpair entry hmem), List.zip_map']
      · intro entry hmem
        have := step.groups_le hmode hfresh hpair entry hmem
        simp [this]
    rw [hrows, List.mem_flatMap]
    constructor
    · rintro ⟨entry, hmem, hrow⟩
      obtain ⟨j, hj, heq⟩ := List.mem_map.mp hrow
      cases heq
      rw [List.mem_range] at hj
      exact ⟨entry, hmem, rfl, by simp [hfresh entry hmem], by simpa [hfresh entry hmem] using hj,
        rfl⟩
    · rintro ⟨entry, hmem, rfl, _, hlt, rfl⟩
      rw [hfresh entry hmem, Nat.zero_add] at hlt
      exact ⟨entry, hmem, List.mem_map.mpr ⟨group, List.mem_range.mpr hlt, rfl⟩⟩
  · have hget := (mapped.decode hmode).2 pair hpair
    rw [hslots] at hget
    cases hget
    have hzip : scheduled.zip (scheduled.map fun entry =>
          (tables entry.1).getD (pair.1 + state.seqLen entry.1 / pair.2) 0) =
        scheduled.map fun entry =>
          (entry, (tables entry.1).getD (pair.1 + state.seqLen entry.1 / pair.2) 0) := by
      simpa using List.zip_map' (f := id) (g := fun entry : ρ × Nat =>
        (tables entry.1).getD (pair.1 + state.seqLen entry.1 / pair.2) 0) (l := scheduled)
    rw [CacheState.groupRows, if_neg (by simp [hmode]), hzip, List.filterMap_map,
      List.mem_filterMap]
    constructor
    · rintro ⟨entry, hmem, hrow⟩
      simp only [Function.comp_apply] at hrow
      split at hrow
      · rename_i hdvd
        cases hrow
        refine ⟨entry, hmem, rfl, le_rfl, ?_, rfl⟩
        rw [hone entry hmem, Nat.succ_div_of_dvd hdvd]
        exact Nat.lt_succ_self _
      · cases hrow
    · rintro ⟨entry, hmem, rfl, hle, hlt, rfl⟩
      rw [hone entry hmem, Nat.succ_div] at hlt
      split at hlt
      · rename_i hdvd
        have hgroup : group = state.seqLen entry.1 / pair.2 := by omega
        refine ⟨entry, hmem, ?_⟩
        simp only [Function.comp_apply, if_pos hdvd, hgroup]
      · omega

end Step

section Kept

variable {cfg : DeepseekV4Config} {tables : ρ → List Int} {state : CacheState ρ}
  {scheduled : List (ρ × Nat)}

/-- The last window of each request and all its complete groups are in the caches, and the
tokens before the last window of its prefill have had no slot. -/
structure Kept (cfg : DeepseekV4Config) (tables : ρ → List Int) (state : CacheState ρ) : Prop where
  window : ∀ owner p, p < state.seqLen owner → state.seqLen owner ≤ p + cfg.windowSize →
    Holds tables state.window (owner, p % cfg.windowSize) (owner, p)
  skipped : ∀ owner, (state.prefillSlots owner).length = state.prefillLen owner ∧
    ∀ p, p + cfg.windowSize < state.prefillLen owner →
      (state.prefillSlots owner)[p]? = some (-1)
  groups : ∀ pair ∈ compressorPairs, ∀ owner group, group < state.seqLen owner / pair.2 →
    Holds tables (state.groups pair) (owner, pair.1 + group) (owner, group)

variable {window : List Int} {mapping : Dict (Nat × Nat) (List Int)}

/-- A column that a step reads for the token at a position of the window. -/
theorem RingStep.window_lt (step : RingStep cfg tables state scheduled) (hpos : 0 < cfg.windowSize)
    {entry : ρ × Nat} (hmem : entry ∈ scheduled) {p : Nat} (hfirst : state.seqLen entry.1 ≤ p)
    (hlast : p < state.seqLen entry.1 + entry.2) :
    p % cfg.windowSize < (tables entry.1).length := by
  have hwide := step.wide entry hmem (p % cfg.windowSize)
  have hlt := Nat.mod_lt p hpos
  have hle := Nat.mod_le p cfg.windowSize
  rcases step.cases with ⟨hmode, hfresh⟩ | ⟨hmode, hone⟩
  · simp only [columnsUsed, hmode, if_true, List.mem_append, List.mem_range] at hwide
    exact hwide (.inl (by omega))
  · have hentry := hone entry hmem
    have hp : state.seqLen entry.1 + entry.2 - 1 = p := by omega
    simp only [columnsUsed, hmode, Bool.false_eq_true, if_false, List.mem_cons, hp] at hwide
    exact hwide (.inl trivial)

theorem Mapped.mem_windowRows (mapped : Mapped cfg tables state scheduled window mapping)
    (step : RingStep cfg tables state scheduled) (hpos : 0 < cfg.windowSize) {owner : ρ} {p : Nat}
    {slot : Int} :
    ((owner, p), slot) ∈ (state.tokenRows scheduled).zip window ↔
      ∃ entry ∈ scheduled, owner = entry.1 ∧ state.seqLen owner ≤ p ∧
        p < state.seqLen owner + entry.2 ∧
          slot = if p + cfg.windowSize < state.seqLen owner + entry.2 then -1
            else (tables owner).getD (p % cfg.windowSize) 0 := by
  rw [mapped.windowRows step hpos, List.mem_flatMap]
  constructor
  · rintro ⟨entry, hmem, hrow⟩
    obtain ⟨offset, hoffset, heq⟩ := List.mem_map.mp hrow
    cases heq
    rw [List.mem_range] at hoffset
    refine ⟨entry, hmem, rfl, Nat.le_add_right _ _, by omega, ?_⟩
    simp only [Nat.add_assoc, Nat.add_lt_add_iff_left]
  · rintro ⟨entry, hmem, rfl, hfirst, hlast, rfl⟩
    refine ⟨entry, hmem, List.mem_map.mpr
      ⟨p - state.seqLen entry.1, List.mem_range.mpr (by omega), ?_⟩⟩
    rw [Nat.add_sub_cancel' hfirst]
    congr 1
    apply if_congr _ rfl rfl
    omega

/-- A column that a step reads for a group that it completes. -/
theorem RingStep.group_lt (step : RingStep cfg tables state scheduled) {pair : Nat × Nat}
    (hpair : pair ∈ compressorPairs) {entry : ρ × Nat} (hmem : entry ∈ scheduled) {group : Nat}
    (hfirst : state.seqLen entry.1 / pair.2 ≤ group)
    (hlast : group < (state.seqLen entry.1 + entry.2) / pair.2) :
    pair.1 + group < (tables entry.1).length := by
  rcases step.cases with ⟨hmode, hfresh⟩ | ⟨hmode, hone⟩
  · have hle := step.groups_le hmode hfresh hpair entry hmem
    rw [hfresh entry hmem, Nat.zero_add] at hlast
    omega
  · have hwide := step.wide entry hmem (pair.1 + group)
    have hgroup : (state.seqLen entry.1 + entry.2 - entry.2) / pair.2 = group := by
      rw [hone entry hmem, Nat.succ_div] at hlast
      rw [Nat.add_sub_cancel]
      split at hlast <;> omega
    simp only [columnsUsed, hmode, Bool.false_eq_true, if_false, List.mem_cons, List.mem_map]
      at hwide
    exact hwide (.inr ⟨pair, hpair, by rw [hgroup]⟩)

theorem getD_nonneg (distinct : Distinct tables) (owner : ρ) (column : Nat) :
    0 ≤ (tables owner).getD column 0 := by
  by_cases hcolumn : column < (tables owner).length
  · rw [List.getD_eq_getElem _ _ hcolumn]
    exact distinct.nonneg owner _ (List.getElem_mem hcolumn)
  · rw [List.getD_eq_default _ _ (by omega)]

variable [DecidableEq ρ]

theorem numTokens_of_mem {entry : ρ × Nat}
    (hnodup : (scheduled.map fun entry => entry.1).Nodup) (hmem : entry ∈ scheduled) :
    CacheState.numTokens scheduled entry.1 = entry.2 := by
  unfold CacheState.numTokens
  induction scheduled with
  | nil => cases hmem
  | cons head rest ih =>
      obtain ⟨owner, num⟩ := head
      rw [List.map_cons, List.nodup_cons] at hnodup
      rw [List.lookup_cons]
      rcases List.mem_cons.mp hmem with rfl | hrest
      · simp
      · have hne : entry.1 ≠ owner := by
          rintro rfl
          exact hnodup.1 (List.mem_map_of_mem (f := fun entry => entry.1) hrest)
        simp only [beq_eq_false_iff_ne.mpr hne]
        exact ih hnodup.2 hrest

theorem numTokens_pos {owner : ρ} (h : 0 < CacheState.numTokens scheduled owner) :
    ∃ entry ∈ scheduled, entry.1 = owner := by
  unfold CacheState.numTokens at h
  induction scheduled with
  | nil => simp at h
  | cons head rest ih =>
      rw [List.lookup_cons] at h
      cases heq : owner == head.1 with
      | true => exact ⟨head, List.mem_cons_self, (beq_iff_eq.mp heq).symm⟩
      | false =>
          rw [heq] at h
          obtain ⟨entry, hmem, hentry⟩ := ih h
          exact ⟨entry, List.mem_cons_of_mem _ hmem, hentry⟩

theorem Mapped.keeps_window (mapped : Mapped cfg tables state scheduled window mapping)
    (step : RingStep cfg tables state scheduled) (hpos : 0 < cfg.windowSize)
    (distinct : Distinct tables) (kept : Kept cfg tables state) (owner : ρ) (p : Nat)
    (hp : p < state.seqLen owner + CacheState.numTokens scheduled owner)
    (hlive : state.seqLen owner + CacheState.numTokens scheduled owner ≤ p + cfg.windowSize) :
    Holds tables (write state.window ((state.tokenRows scheduled).zip window))
      (owner, p % cfg.windowSize) (owner, p) := by
  refine holds_of_write (fun p => p % cfg.windowSize) (fun num p => num ≤ p + cfg.windowSize)
    state.seqLen (fun owner => state.seqLen owner + CacheState.numTokens scheduled owner)
    distinct ?_ ?_ ?_ ?_ ?_ kept.window owner p hp hlive
  · rintro ⟨other, q⟩ slot hrow hnonneg
    obtain ⟨entry, hmem, rfl, hfirst, hlast, rfl⟩ := (mapped.mem_windowRows step hpos).mp hrow
    split at hnonneg
    · omega
    · rename_i hkept
      have hcolumn := step.window_lt hpos hmem hfirst hlast
      simp only [if_neg hkept, List.getD_eq_getElem _ _ hcolumn]
      exact List.getElem?_eq_getElem hcolumn
  · intro num left right hleft hright hleftLive hrightLive heq
    -- Two positions of one window are less than its size apart.
    apply Nat.ModEq.eq_of_abs_lt heq
    rw [abs_lt]
    omega
  · intro other q _ hq
    omega
  · intro other q slot hrow hnonneg
    obtain ⟨entry, hmem, rfl, hfirst, hlast, rfl⟩ := (mapped.mem_windowRows step hpos).mp hrow
    rw [numTokens_of_mem step.nodup hmem]
    refine ⟨hfirst, hlast, ?_⟩
    by_contra hold
    rw [if_pos (by omega)] at hnonneg
    omega
  · intro other q hfirst hlast hq
    have hsome : 0 < CacheState.numTokens scheduled other := by omega
    obtain ⟨entry, hmem, rfl⟩ := numTokens_pos hsome
    rw [numTokens_of_mem step.nodup hmem] at hlast hq
    refine ⟨_, (mapped.mem_windowRows step hpos).mpr ⟨entry, hmem, rfl, hfirst, hlast, rfl⟩, ?_⟩
    rw [if_neg (by omega)]
    exact getD_nonneg distinct _ _

theorem Mapped.keeps_groups (mapped : Mapped cfg tables state scheduled window mapping)
    (step : RingStep cfg tables state scheduled) (distinct : Distinct tables)
    (kept : Kept cfg tables state) {pair : Nat × Nat} (hpair : pair ∈ compressorPairs)
    {slots : List Int} (hslots : mapping.get? pair = some slots) (owner : ρ) (group : Nat)
    (hgroup : group < (state.seqLen owner + CacheState.numTokens scheduled owner) / pair.2) :
    Holds tables (write (state.groups pair) (state.groupRows scheduled pair.2 slots))
      (owner, pair.1 + group) (owner, group) := by
  refine holds_of_write (pair.1 + ·) (fun _ _ => True) (fun owner => state.seqLen owner / pair.2)
    (fun owner => (state.seqLen owner + CacheState.numTokens scheduled owner) / pair.2)
    distinct ?_ ?_ ?_ ?_ ?_ (fun owner group hlt _ => kept.groups pair hpair owner group hlt)
    owner group hgroup trivial
  · rintro ⟨other, j⟩ slot hrow _
    obtain ⟨entry, hmem, rfl, hfirst, hlast, rfl⟩ :=
      (mapped.mem_groupRows step hpair hslots).mp hrow
    have hcolumn := step.group_lt hpair hmem hfirst hlast
    simp only [List.getD_eq_getElem _ _ hcolumn]
    exact List.getElem?_eq_getElem hcolumn
  · intro _ left right _ _ _ _ heq
    simpa using heq
  · intros
    trivial
  · intro other j slot hrow _
    obtain ⟨entry, hmem, rfl, hfirst, hlast, rfl⟩ :=
      (mapped.mem_groupRows step hpair hslots).mp hrow
    rw [numTokens_of_mem step.nodup hmem]
    exact ⟨hfirst, hlast, trivial⟩
  · intro other j hfirst hlast _
    have hsome : 0 < CacheState.numTokens scheduled other := by
      by_contra hzero
      have hnone : CacheState.numTokens scheduled other = 0 := by omega
      rw [hnone, Nat.add_zero] at hlast
      omega
    obtain ⟨entry, hmem, rfl⟩ := numTokens_pos hsome
    rw [numTokens_of_mem step.nodup hmem] at hlast
    exact ⟨_, (mapped.mem_groupRows step hpair hslots).mpr
      ⟨entry, hmem, rfl, hfirst, hlast, rfl⟩, getD_nonneg distinct _ _⟩

/-- The rows of one request among those of a batch. -/
theorem filter_owner {segment : ρ × Nat → List ((ρ × Nat) × Int)}
    (hown : ∀ entry, ∀ row ∈ segment entry, row.1.1 = entry.1)
    (hnodup : (scheduled.map fun entry => entry.1).Nodup) {entry : ρ × Nat}
    (hmem : entry ∈ scheduled) :
    ((scheduled.flatMap segment).filter fun row => row.1.1 = entry.1) = segment entry := by
  induction scheduled with
  | nil => cases hmem
  | cons head rest ih =>
      rw [List.map_cons, List.nodup_cons] at hnodup
      rw [List.flatMap_cons, List.filter_append]
      rcases List.mem_cons.mp hmem with rfl | hrest
      · have hself : (segment entry).filter (fun row => row.1.1 = entry.1) = segment entry := by
          apply List.filter_eq_self.mpr
          intro row hrow
          simp [hown entry row hrow]
        have hothers : (rest.flatMap segment).filter (fun row => row.1.1 = entry.1) = [] := by
          apply List.filter_eq_nil_iff.mpr
          intro row hrow
          obtain ⟨other, hother, hrow⟩ := List.mem_flatMap.mp hrow
          rw [hown other row hrow, decide_eq_true_eq]
          intro heq
          exact hnodup.1 (List.mem_map.mpr ⟨other, hother, heq⟩)
        rw [hself, hothers, List.append_nil]
      · have hhead : (segment head).filter (fun row => row.1.1 = entry.1) = [] := by
          apply List.filter_eq_nil_iff.mpr
          intro row hrow
          rw [hown head row hrow, decide_eq_true_eq]
          intro heq
          exact hnodup.1 (List.mem_map.mpr ⟨entry, hrest, heq.symm⟩)
        rw [hhead, List.nil_append, ih hnodup.2 hrest]

theorem Mapped.keeps_skipped (mapped : Mapped cfg tables state scheduled window mapping)
    (step : RingStep cfg tables state scheduled) (hpos : 0 < cfg.windowSize) (owner : ρ)
    (hfresh : state.seqLen owner = 0) :
    ((((state.tokenRows scheduled).zip window).filter fun row => row.1.1 = owner).map
        fun row => row.2).length = CacheState.numTokens scheduled owner ∧
      ∀ p, p + cfg.windowSize < CacheState.numTokens scheduled owner →
        ((((state.tokenRows scheduled).zip window).filter fun row => row.1.1 = owner).map
          fun row => row.2)[p]? = some (-1) := by
  by_cases hsome : 0 < CacheState.numTokens scheduled owner
  · obtain ⟨entry, hmem, rfl⟩ := numTokens_pos hsome
    rw [numTokens_of_mem step.nodup hmem, mapped.windowRows step hpos,
      filter_owner (by simp) step.nodup hmem]
    constructor
    · simp
    · intro p hp
      rw [List.map_map, List.getElem?_map, List.getElem?_range (by omega)]
      simp [hp]
  · have hnone : ((state.tokenRows scheduled).zip window).filter
        (fun row => row.1.1 = owner) = [] := by
      apply List.filter_eq_nil_iff.mpr
      rintro ⟨⟨other, p⟩, slot⟩ hrow
      obtain ⟨entry, hmem, rfl, hfirst, hlast, _⟩ := (mapped.mem_windowRows step hpos).mp hrow
      rw [decide_eq_true_eq]
      rintro rfl
      rw [numTokens_of_mem step.nodup hmem] at hsome
      omega
    rw [hnone]
    simp only [List.map_nil, List.length_nil]
    exact ⟨by omega, fun p hp => by omega⟩

theorem Mapped.keeps (mapped : Mapped cfg tables state scheduled window mapping)
    (step : RingStep cfg tables state scheduled) (hpos : 0 < cfg.windowSize)
    (distinct : Distinct tables) (kept : Kept cfg tables state) :
    Kept cfg tables (state.record scheduled window mapping) where
  window := fun owner p hp hlive => mapped.keeps_window step hpos distinct kept owner p hp hlive
  skipped := by
    intro owner
    simp only [CacheState.record]
    split
    · rename_i hfresh
      exact mapped.keeps_skipped step hpos owner hfresh
    · exact kept.skipped owner
  groups := by
    intro pair hpair owner group hgroup
    have hget : ∃ slots, mapping.get? pair = some slots := by
      rcases step.cases with ⟨hmode, _⟩ | ⟨hmode, _⟩
      · exact ⟨_, (mapped.prefill hmode).2 pair hpair⟩
      · exact ⟨_, (mapped.decode hmode).2 pair hpair⟩
    obtain ⟨slots, hslots⟩ := hget
    simp only [CacheState.record, hslots]
    exact mapped.keeps_groups step distinct kept hpair hslots owner group hgroup

theorem Mapped.step_eq (mapped : Mapped cfg tables state scheduled window mapping) :
    (ringMachine cfg tables).step state scheduled =
      .ok (state.record scheduled window mapping) := by
  change (updateForwardArgs cfg (state.metadata tables scheduled) >>= _) = _
  rw [mapped.returns]
  rfl

/-- Over prefills and single-token decode steps, the last positions of each request within
the window stand at their columns of the ring, the prefill gives no slot to the tokens
before its last window, and each complete group stands at its column whether the prefill or
a decode step completed it; no step raises. -/
theorem window_ring_kept (hpos : 0 < cfg.windowSize)
    (hratios : cfg.compressRatios.toFinset = {0, 4, 128}) (distinct : Distinct tables)
    (run : (ringMachine cfg tables).Run (RingStep cfg tables) {} state) :
    (∀ owner p, p < state.seqLen owner → state.seqLen owner ≤ p + cfg.windowSize →
      ∃ slot, (tables owner)[p % cfg.windowSize]? = some slot ∧
        state.window slot = some (owner, p)) ∧
    (∀ owner, (state.prefillSlots owner).length = state.prefillLen owner ∧
      ∀ p, p + cfg.windowSize < state.prefillLen owner →
        (state.prefillSlots owner)[p]? = some (-1)) ∧
    (∀ windowOffset compressRatio, (windowOffset, compressRatio) ∈ compressorPairs →
      ∀ owner group, (group + 1) * compressRatio ≤ state.seqLen owner →
        ∃ slot, (tables owner)[windowOffset + group]? = some slot ∧
          state.groups (windowOffset, compressRatio) slot = some (owner, group)) ∧
    ∀ scheduled, RingStep cfg tables state scheduled →
      ∃ next, (ringMachine cfg tables).step state scheduled = .ok next := by
  have hstart : Kept cfg tables ({} : CacheState ρ) := {
    window := fun owner p hp _ => absurd hp (Nat.not_lt_zero p)
    skipped := fun owner => ⟨rfl, fun p hp => absurd hp (Nat.not_lt_zero _)⟩
    groups := fun pair _ owner group hgroup => by simp at hgroup }
  have kept : Kept cfg tables state := by
    apply Machine.Run.invariant hstart _ run
    intro state scheduled next hkept step hnext
    obtain ⟨window, mapping, mapped⟩ := step.mapped hpos hratios
    rw [mapped.step_eq] at hnext
    cases hnext
    exact mapped.keeps step hpos distinct hkept
  refine ⟨kept.window, kept.skipped, ?_, ?_⟩
  · intro windowOffset compressRatio hpair owner group hgroup
    apply kept.groups _ hpair owner group
    have hratio : 0 < compressRatio := by
      fin_cases hpair <;> decide
    exact (Nat.le_div_iff_mul_le hratio).mpr hgroup
  · intro scheduled step
    obtain ⟨window, mapping, mapped⟩ := step.mapped hpos hratios
    exact ⟨_, mapped.step_eq⟩

end Kept

/-- One request with a block table of 135 slots. -/
def soleTable (owner : Nat) : List Int :=
  if owner = 0 then (List.range 135).map Int.ofNat else []

theorem distinct_soleTable : Distinct soleTable := by
  constructor
  · intro owner slot hmem
    unfold soleTable at hmem
    split at hmem
    · obtain ⟨_, _, rfl⟩ := List.mem_map.mp hmem
      exact Int.natCast_nonneg _
    · cases hmem
  · intro owner column other otherColumn slot hslot hother
    unfold soleTable at hslot hother
    split at hslot <;> split at hother
    · rename_i howner hother'
      obtain ⟨_, hcolumn⟩ := List.getElem?_eq_some_iff.mp hslot
      obtain ⟨_, hotherColumn⟩ := List.getElem?_eq_some_iff.mp hother
      rw [List.getElem_map, List.getElem_range] at hcolumn hotherColumn
      have : column = otherColumn := Int.ofNat.inj (hcolumn.trans hotherColumn.symm)
      rw [howner, hother', this]
    · cases hother
    · cases hslot
    · cases hslot

/-- A prompt of five tokens in a ring of four, and one decode step. -/
theorem window_ring_kept_six : ∃ state : CacheState Nat,
    (ringMachine ⟨4, [0, 4, 128]⟩ soleTable).Run (RingStep ⟨4, [0, 4, 128]⟩ soleTable) {} state ∧
      state.seqLen 0 = 6 ∧ state.window 1 = some (0, 5) ∧
        state.groups (128, 4) 128 = some (0, 0) := by
  have hratios : [0, 4, 128].toFinset = {0, 4, 128} := by decide
  have hprefill : RingStep ⟨4, [0, 4, 128]⟩ soleTable {} [(0, 5)] :=
    ⟨by decide, .inl (by decide), by decide +kernel⟩
  obtain ⟨window, mapping, mapped⟩ := hprefill.mapped (by decide) hratios
  have hdecode : RingStep ⟨4, [0, 4, 128]⟩ soleTable
      (CacheState.record {} [(0, 5)] window mapping) [(0, 1)] :=
    { nodup := by decide
      alike := by
        refine .inr fun entry hmem => ?_
        obtain rfl := List.mem_singleton.mp hmem
        exact ⟨Nat.succ_pos 4, rfl⟩
      wide := by
        intro entry hmem
        obtain rfl := List.mem_singleton.mp hmem
        change ∀ column ∈ columnsUsed 4 .decodeOnly 6 1, column < 135
        decide }
  obtain ⟨_, _, next⟩ := hdecode.mapped (by decide) hratios
  have run := (Machine.Run.refl.step hprefill mapped.step_eq).step hdecode next.step_eq
  obtain ⟨hwindow, _, hgroups, _⟩ := window_ring_kept (by decide) hratios distinct_soleTable run
  obtain ⟨slot, hslot, hheld⟩ := hwindow 0 5 (Nat.lt_succ_self 5) (Nat.le_of_ble_eq_true rfl)
  obtain ⟨groupSlot, hgroup, hgroupHeld⟩ := hgroups 128 4 (by decide) 0 0
    (Nat.le_of_ble_eq_true rfl)
  cases hslot
  cases hgroup
  exact ⟨_, run, rfl, hheld, hgroupHeld⟩

end VllmMlu.Models
