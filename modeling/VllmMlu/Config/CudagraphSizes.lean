import VllmMlu.Library.Ascending

/-! `_set_cudagraph_sizes`: the token counts for which graphs are captured, from the compilation
config, `MLU_GRAPH_CAPTURE_LIST` or a default. `none` is an exception. -/
namespace VllmMlu.Config
open Library Library.Ascending

/-- `MLU_GRAPH_CAPTURE_LIST` in its two syntaxes: the fields between the separators, `none` where
`int` fails. A field cannot hold a minus sign. -/
inductive GraphCaptureList where
  | dashed (fields : List (Option Nat))
  | commas (fields : List (Option Nat))

structure VllmConfig where
  /-- `_has_set_capture_list`. -/
  hasSetCaptureList : Bool
  hasModelConfig : Bool
  enforceEager : Bool
  /-- `cudagraph_mode` is `NONE`. -/
  cudagraphModeNone : Bool
  maxCudagraphCaptureSize : Option Int
  cudagraphCaptureSizes : Option (List Int)
  maxNumSeqs : Int
  maxNumBatchedTokens : Int
  numSpeculativeTokens : Option Nat
  tensorParallelSize : Nat
  enableSequenceParallelism : Bool
deriving DecidableEq

/-- What vLLM adds: `post_init_cudagraph_sizes` may raise, and leaves the sizes in ascending
order. -/
structure VllmHooks where
  updateSizesForSequenceParallelism : List Int → List Int
  postInitCudagraphSizes : List Int → Int → Option (List Int)
  post_init_sorts : ∀ sizes most final,
    postInitCudagraphSizes sizes most = some final → final = sorted sizes

namespace VllmConfig

def usesGraphs (config : VllmConfig) : Bool :=
  config.hasModelConfig && !config.enforceEager && !config.cudagraphModeNone

/-- `1 + K`. -/
def queryLen (config : VllmConfig) : Nat := 1 + config.numSpeculativeTokens.getD 0

def usesSequenceParallelism (config : VllmConfig) : Bool :=
  decide (1 < config.tensorParallelSize) && config.enableSequenceParallelism

end VllmConfig

/-- The initial `max_cudagraph_capture_size`. -/
def initialMaxSize (config : VllmConfig) : Option Int :=
  let most := min config.maxNumBatchedTokens
    (config.maxCudagraphCaptureSize.getD (min (config.maxNumSeqs * 2) 512))
  if 1 ≤ most then some most else none

def defaultSizes (most : Int) : List Int :=
  [1, 2, 4].filter (· ≤ most) ++
    (if 8 ≤ most then rangeStep 8 (min (most + 1) 256) 8 else []) ++
    (if 256 ≤ most then rangeStep 256 (most + 1) 16 else [])

def configSizes (config : VllmConfig) (most : Int) : Option (List Int) :=
  match config.cudagraphCaptureSizes with
  | some sizes =>
      if sizes.length = 0 then none
      else some (sorted (sizes.dedup.filter (· ≤ config.maxNumBatchedTokens)))
  | none => some (defaultSizes most)

def GraphCaptureList.sizes : GraphCaptureList → Option (List Int)
  | .dashed [start, stop, step] => do
      let start ← start
      let stop ← stop
      let step ← step
      if step = 0 then none else some (sortedSet ([1, 2, 4] ++ rangeStep start stop step))
  | .dashed _ => none
  | .commas fields => (fields.mapM id).map fun sizes => sizes.map fun size : Nat => (size : Int)

/-- The sizes as listed, where the environment overrides the config. -/
def listedSizes (captureList : Option GraphCaptureList) (config : VllmConfig) (most : Int) :
    Option (List Int) := do
  let sizes ← configSizes config most
  match captureList with
  | some list => list.sizes
  | none => some sizes

/-- The listed sizes, in tokens: `K` draft tokens for each request. -/
def scaleSizes (config : VllmConfig) (sizes : List Int) : List Int :=
  let scaled : List Int := if 0 < config.numSpeculativeTokens.getD 0 then
    sizes.map fun size => size * config.queryLen else sizes
  scaled.filter (· ≤ config.maxNumBatchedTokens)

def setCudagraphSizes (hooks : VllmHooks) (captureList : Option GraphCaptureList)
    (config : VllmConfig) : Option VllmConfig :=
  if config.hasSetCaptureList then some config
  else if config.usesGraphs then do
    let most ← initialMaxSize config
    let listed ← listedSizes captureList config most
    let sizes := scaleSizes config listed
    let sizes := if config.usesSequenceParallelism then
      hooks.updateSizesForSequenceParallelism sizes else sizes
    let validMaxSize := sizes.getLast?.getD 0
    if config.maxCudagraphCaptureSize.isSome &&
        config.maxCudagraphCaptureSize != some validMaxSize &&
        config.cudagraphCaptureSizes.isSome then none
    else do
      let final ← hooks.postInitCudagraphSizes sizes validMaxSize
      some { config with
        maxCudagraphCaptureSize := some validMaxSize
        cudagraphCaptureSizes := some final
        hasSetCaptureList := true }
  else do
    let final ← hooks.postInitCudagraphSizes [] 0
    some { config with
      maxCudagraphCaptureSize := some 0
      cudagraphCaptureSizes := some final
      hasSetCaptureList := true }

/-! ### The final sizes -/

/-- What the sizes have to be for the code that rounds token counts up to them. -/
structure GraphSizes (unit limit : Int) (sizes : List Int) (most : Int) : Prop where
  ascending : sizes.SortedLT
  positive : ∀ size ∈ sizes, 0 < size
  multiple : ∀ size ∈ sizes, unit ∣ size
  le_limit : ∀ size ∈ sizes, size ≤ limit
  le_most : ∀ size ∈ sizes, size ≤ most
  most_mem : most ∈ sizes ∨ sizes = [] ∧ most = 0
  round_up : ∀ num, 0 < num → num ≤ most → ∃ size ∈ sizes, num ≤ size ∧ unit ∣ size ∧
    ∀ other ∈ sizes, num ≤ other → size ≤ other

def VllmConfig.SizesRight (config : VllmConfig) : Prop :=
  ∃ sizes most, config.cudagraphCaptureSizes = some sizes ∧
    config.maxCudagraphCaptureSize = some most ∧
    GraphSizes config.queryLen config.maxNumBatchedTokens sizes most

/-- The condition on the source of the sizes. -/
def VllmConfig.SourceRight (config : VllmConfig) : Option GraphCaptureList → Prop
  | some (.dashed fields) => ∀ start stop step, fields = [some start, some stop, some step] →
      0 < start ∨ stop = 0
  | some (.commas fields) =>
      let kept := (fields.reduceOption).filter fun size : Nat =>
        (size * config.queryLen : Int) ≤ config.maxNumBatchedTokens
      kept.Nodup ∧ (∀ size ∈ kept, 0 < size) ∧
        ∀ last ∈ kept.getLast?, ∀ size ∈ kept, size ≤ last
  | none => ∀ sizes, config.cudagraphCaptureSizes = some sizes → ∀ size ∈ sizes, 0 < size

section Scaling

variable {config : VllmConfig} {listed : List Int}

theorem queryLen_pos : (0 : Int) < config.queryLen := by
  rw [VllmConfig.queryLen]
  omega

theorem scaleSizes_eq : scaleSizes config listed =
    (listed.map fun size => size * (config.queryLen : Int)).filter
      (· ≤ config.maxNumBatchedTokens) := by
  rw [scaleSizes]
  split
  case isTrue => rfl
  case isFalse hzero =>
    have hone : (config.queryLen : Int) = 1 := by
      rw [VllmConfig.queryLen]
      omega
    simp [hone]

theorem mem_scaleSizes {size : Int} : size ∈ scaleSizes config listed ↔
    ∃ num ∈ listed, num * config.queryLen = size ∧ size ≤ config.maxNumBatchedTokens := by
  rw [scaleSizes_eq, List.mem_filter, List.mem_map]
  simp only [decide_eq_true_eq]
  constructor
  · intro ⟨⟨num, hnum, heq⟩, hle⟩
    exact ⟨num, hnum, heq, hle⟩
  · intro ⟨num, hnum, heq, hle⟩
    exact ⟨⟨num, hnum, heq⟩, hle⟩

theorem sortedLT_scaleSizes (h : listed.SortedLT) : (scaleSizes config listed).SortedLT := by
  rw [scaleSizes_eq]
  apply List.Pairwise.sortedLT
  apply List.Pairwise.filter
  rw [List.pairwise_map]
  exact h.pairwise.imp fun hlt => Int.mul_lt_mul_of_pos_right hlt queryLen_pos

/-- No size that is not positive is over the limit. -/
theorem positive_scaleSizes_iff (hlimit : 0 ≤ config.maxNumBatchedTokens) :
    (∀ size ∈ scaleSizes config listed, 0 < size) ↔ ∀ num ∈ listed, 0 < num := by
  constructor
  · intro h num hnum
    by_contra hneg
    have hmul : num * config.queryLen ≤ 0 :=
      Int.mul_nonpos_of_nonpos_of_nonneg (Int.not_lt.mp hneg) queryLen_pos.le
    have hpos := h _ (mem_scaleSizes.mpr ⟨num, hnum, rfl, hmul.trans hlimit⟩)
    exact absurd hpos (Int.not_lt.mpr hmul)
  · intro h size hsize
    obtain ⟨num, hnum, rfl, -⟩ := mem_scaleSizes.mp hsize
    exact Int.mul_pos (h num hnum) queryLen_pos

end Scaling

/-- What sorting leaves to the list: no duplicates, positive sizes, and the largest one last. -/
theorem graphSizes_sorted_iff {unit limit : Int} {sizes : List Int}
    (hmultiple : ∀ size ∈ sizes, unit ∣ size) (hlimit : ∀ size ∈ sizes, size ≤ limit) :
    GraphSizes unit limit (sorted sizes) (sizes.getLast?.getD 0) ↔
      sizes.Nodup ∧ (∀ size ∈ sizes, 0 < size) ∧
        ∀ last ∈ sizes.getLast?, ∀ size ∈ sizes, size ≤ last := by
  constructor
  · intro h
    refine ⟨sortedLT_sorted_iff.mp h.ascending,
      fun size hsize => h.positive size (mem_sorted.mpr hsize), fun last hlast size hsize => ?_⟩
    have hle := h.le_most size (mem_sorted.mpr hsize)
    rwa [Option.mem_def.mp hlast, Option.getD_some] at hle
  · intro ⟨hnodup, hpositive, hlast⟩
    cases hend : sizes.getLast? with
    | none =>
        rw [List.getLast?_eq_none_iff] at hend
        subst hend
        refine ⟨sortedLT_sorted_iff.mpr hnodup, nofun, nofun, nofun, nofun, .inr ⟨rfl, rfl⟩, ?_⟩
        intro num hpos hle
        exact absurd (hpos.trans_le hle) (Int.lt_irrefl 0)
    | some last =>
        have hmem : last ∈ sizes := List.mem_of_getLast? hend
        refine ⟨sortedLT_sorted_iff.mpr hnodup,
          fun size hsize => hpositive size (mem_sorted.mp hsize),
          fun size hsize => hmultiple size (mem_sorted.mp hsize),
          fun size hsize => hlimit size (mem_sorted.mp hsize),
          fun size hsize => hlast last hend size (mem_sorted.mp hsize),
          .inl (mem_sorted.mpr hmem), ?_⟩
        intro num _ hle
        obtain ⟨least, hleast, hreach, hall⟩ := exists_round_up (mem_sorted.mpr hmem) hle
        exact ⟨least, hleast, hreach, hmultiple least (mem_sorted.mp hleast), hall⟩

/-- The condition of `graphSizes_sorted_iff`. -/
def AscendsToLast (sizes : List Int) : Prop :=
  sizes.Nodup ∧ (∀ size ∈ sizes, 0 < size) ∧
    ∀ last ∈ sizes.getLast?, ∀ size ∈ sizes, size ≤ last

section Sources

variable {config : VllmConfig} {listed : List Int}

theorem ascendsToLast_of_sortedLT (hlimit : 0 ≤ config.maxNumBatchedTokens)
    (h : listed.SortedLT) :
    AscendsToLast (scaleSizes config listed) ↔ ∀ num ∈ listed, 0 < num := by
  have hscaled := @sortedLT_scaleSizes config _ h
  rw [← positive_scaleSizes_iff hlimit]
  constructor
  · exact fun hright => hright.2.1
  · exact fun hpositive => ⟨hscaled.nodup, hpositive, fun last hlast size hsize =>
      le_getLast hscaled (Option.mem_def.mp hlast) hsize⟩

theorem mem_small_bounds {most size : Int} (h : size ∈ [1, 2, 4].filter (· ≤ most)) :
    0 < size ∧ size < 8 := by
  have hmem := List.mem_of_mem_filter h
  simp only [List.mem_cons, List.not_mem_nil, or_false] at hmem
  omega

theorem mem_medium_bounds {most size : Int}
    (h : size ∈ if 8 ≤ most then rangeStep 8 (min (most + 1) 256) 8 else []) :
    8 ≤ size ∧ size < 256 := by
  split at h
  · have hbounds := mem_rangeStep_bounds (by decide) h
    omega
  · cases h

theorem mem_large_bounds {most size : Int}
    (h : size ∈ if 256 ≤ most then rangeStep 256 (most + 1) 16 else []) : 256 ≤ size := by
  split at h
  · exact (mem_rangeStep_bounds (by decide) h).1
  · cases h

theorem positive_defaultSizes {most size : Int} (h : size ∈ defaultSizes most) : 0 < size := by
  rw [defaultSizes, List.mem_append, List.mem_append] at h
  rcases h with (hsmall | hmedium) | hlarge
  · exact (mem_small_bounds hsmall).1
  · have hbounds := mem_medium_bounds hmedium
    omega
  · have hbounds := mem_large_bounds hlarge
    omega

theorem sortedLT_defaultSizes (most : Int) : (defaultSizes most).SortedLT := by
  apply List.Pairwise.sortedLT
  rw [defaultSizes, List.pairwise_append, List.pairwise_append]
  refine ⟨⟨?_, ?_, ?_⟩, ?_, ?_⟩
  · exact List.Pairwise.filter _ (by decide)
  · split
    · exact (sortedLT_rangeStep _ _ (by decide)).pairwise
    · exact .nil
  · intro small hsmall medium hmedium
    exact (mem_small_bounds hsmall).2.trans_le (mem_medium_bounds hmedium).1
  · split
    · exact (sortedLT_rangeStep _ _ (by decide)).pairwise
    · exact .nil
  · intro front hfront large hlarge
    have hbounds := mem_large_bounds hlarge
    rcases List.mem_append.mp hfront with hsmall | hmedium
    · have hfew := mem_small_bounds hsmall
      omega
    · have hsome := mem_medium_bounds hmedium
      omega

theorem sortedLT_configSizes {most : Int} (h : configSizes config most = some listed) :
    listed.SortedLT := by
  rw [configSizes] at h
  split at h
  case h_1 sizes hsizes =>
    split at h
    · cases h
    · cases h
      exact sortedLT_sorted_iff.mpr (sizes.nodup_dedup.filter _)
  case h_2 =>
    cases h
    exact sortedLT_defaultSizes most

/-- A size of the config that is not positive is never over the limit. -/
theorem positive_configSizes_iff {most : Int} (hlimit : 0 ≤ config.maxNumBatchedTokens)
    (h : configSizes config most = some listed) :
    (∀ num ∈ listed, 0 < num) ↔ config.SourceRight none := by
  rw [configSizes] at h
  rw [VllmConfig.SourceRight]
  split at h
  case h_1 sizes hsizes =>
    split at h
    · cases h
    · cases h
      constructor
      · intro hpositive other hother num hnum
        rw [hsizes, Option.some.injEq] at hother
        subst hother
        by_contra hneg
        have hmem : num ∈ sorted (sizes.dedup.filter (· ≤ config.maxNumBatchedTokens)) := by
          rw [mem_sorted, List.mem_filter, List.mem_dedup]
          exact ⟨hnum, by simpa using (Int.not_lt.mp hneg).trans hlimit⟩
        exact hneg (hpositive num hmem)
      · intro hpositive num hnum
        rw [mem_sorted, List.mem_filter, List.mem_dedup] at hnum
        exact hpositive sizes hsizes num hnum.1
  case h_2 hnone =>
    cases h
    constructor
    · intro _ sizes hsizes
      rw [hnone] at hsizes
      cases hsizes
    · exact fun _ num hnum => positive_defaultSizes hnum

/-- The dashed list holds 0 when its range starts there. -/
theorem positive_dashed_iff {start stop step : Nat} (hstep : 0 < step) :
    (∀ num ∈ sortedSet ([1, 2, 4] ++ rangeStep start stop step), 0 < num) ↔
      0 < start ∨ stop = 0 := by
  constructor
  · intro hpositive
    by_contra hzero
    have hmem : (start : Int) ∈ rangeStep start stop step :=
      start_mem_rangeStep hstep (by omega)
    have hpos := hpositive start (mem_sortedSet.mpr (List.mem_append_right _ hmem))
    omega
  · intro hcond num hnum
    rw [mem_sortedSet, List.mem_append] at hnum
    rcases hnum with hsmall | hrange
    · simp only [List.mem_cons, List.not_mem_nil, or_false] at hsmall
      omega
    · have hbounds := mem_rangeStep_bounds hstep hrange
      omega

theorem reduceOption_of_mapM {fields : List (Option Nat)} {nums : List Nat}
    (h : fields.mapM id = some nums) : fields.reduceOption = nums := by
  induction fields generalizing nums with
  | nil =>
      cases h
      rfl
  | cons field rest ih =>
      cases field with
      | none => cases h
      | some num =>
          rw [List.mapM_cons] at h
          cases hrest : rest.mapM id with
          | none =>
              rw [hrest] at h
              cases h
          | some others =>
              rw [hrest] at h
              cases h
              rw [List.reduceOption_cons_of_some, ih hrest]

/-- The comma list is only scaled and cut. -/
theorem ascendsToLast_commas {fields : List (Option Nat)} {nums : List Nat}
    (h : fields.mapM id = some nums) :
    AscendsToLast (scaleSizes config (nums.map fun num : Nat => (num : Int))) ↔
      config.SourceRight (some (.commas fields)) := by
  have hq := @queryLen_pos config
  have hmono : ∀ num other : Nat,
      (num : Int) * config.queryLen ≤ other * config.queryLen ↔ num ≤ other := by
    intro num other
    rw [Int.mul_le_mul_right hq]
    exact Int.ofNat_le
  have hinj : ∀ num other : Nat,
      (num : Int) * config.queryLen = other * config.queryLen → num = other := by
    intro num other heq
    exact Nat.le_antisymm ((hmono _ _).mp heq.le) ((hmono _ _).mp heq.ge)
  have hpos : ∀ num : Nat, 0 < (num : Int) * config.queryLen ↔ 0 < num := by
    intro num
    rw [mul_pos_iff_of_pos_right hq]
    exact Int.natCast_pos
  rw [VllmConfig.SourceRight, reduceOption_of_mapM h, scaleSizes_eq, List.map_map, List.filter_map,
    AscendsToLast]
  simp only [List.mem_map, List.getLast?_map, Option.mem_def, Option.map_eq_some_iff,
    forall_exists_index, and_imp, forall_apply_eq_imp_iff₂, Function.comp_apply, hpos, hmono]
  exact and_congr (List.nodup_map_iff fun num other heq => hinj num other heq) Iff.rfl

theorem dashed_of_sizes {fields : List (Option Nat)}
    (h : (GraphCaptureList.dashed fields).sizes = some listed) :
    ∃ start stop step : Nat, fields = [some start, some stop, some step] ∧ 0 < step ∧
      listed = sortedSet ([1, 2, 4] ++ rangeStep start stop step) := by
  match fields, h with
  | [some start, some stop, some step], h =>
      change (if step = 0 then none else _) = some listed at h
      split at h
      · cases h
      case isFalse hstep =>
        cases h
        exact ⟨start, stop, step, rfl, Nat.pos_of_ne_zero hstep, rfl⟩
  | [none, _, _], h => cases h
  | [some _, none, _], h => cases h
  | [some _, some _, none], h => cases h

/-- The sources that can fail: the config by a size that is not positive, the dashed list by a
range from 0, the comma list by duplicates, 0, or a last size that is not the largest. -/
theorem ascendsToLast_iff {captureList : Option GraphCaptureList} {most : Int}
    (hlimit : 0 ≤ config.maxNumBatchedTokens)
    (h : listedSizes captureList config most = some listed) :
    AscendsToLast (scaleSizes config listed) ↔ config.SourceRight captureList := by
  obtain ⟨sizes, hsizes, hlisted⟩ := Option.bind_eq_some_iff.mp h
  cases captureList with
  | none =>
      cases hlisted
      rw [ascendsToLast_of_sortedLT hlimit (sortedLT_configSizes hsizes),
        positive_configSizes_iff hlimit hsizes]
  | some list =>
      cases list with
      | commas fields =>
          obtain ⟨nums, hnums, rfl⟩ := Option.map_eq_some_iff.mp hlisted
          exact ascendsToLast_commas hnums
      | dashed fields =>
          obtain ⟨start, stop, step, rfl, hstep, rfl⟩ := dashed_of_sizes hlisted
          rw [ascendsToLast_of_sortedLT hlimit (sortedLT_sortedSet _), positive_dashed_iff hstep]
          constructor
          · intro hcond first last stride heq
            cases heq
            exact hcond
          · exact fun hcond => hcond start stop step rfl

end Sources

theorem zero_le_limit {config : VllmConfig} {most : Int}
    (h : initialMaxSize config = some most) : 0 ≤ config.maxNumBatchedTokens := by
  rw [initialMaxSize] at h
  split at h
  case isTrue hle =>
    have hlimit := hle.trans (min_le_left _ _)
    omega
  case isFalse => cases h

theorem dvd_of_mem_scaleSizes {config : VllmConfig} {listed : List Int} {size : Int}
    (h : size ∈ scaleSizes config listed) : (config.queryLen : Int) ∣ size := by
  obtain ⟨num, -, rfl, -⟩ := mem_scaleSizes.mp h
  exact Dvd.intro_left num rfl

theorem le_of_mem_scaleSizes {config : VllmConfig} {listed : List Int} {size : Int}
    (h : size ∈ scaleSizes config listed) : size ≤ config.maxNumBatchedTokens := by
  obtain ⟨num, -, -, hle⟩ := mem_scaleSizes.mp h
  exact hle

/-- The final sizes suit the code that rounds up to them exactly if their source is right. -/
theorem graph_sizes_right_iff {hooks : VllmHooks} {captureList : Option GraphCaptureList}
    {config final : VllmConfig} (hfirst : config.hasSetCaptureList = false)
    (hplain : config.usesSequenceParallelism = false)
    (h : setCudagraphSizes hooks captureList config = some final) :
    final.SizesRight ↔ (config.usesGraphs → config.SourceRight captureList) := by
  rw [setCudagraphSizes, if_neg (by rw [hfirst]; exact Bool.false_ne_true)] at h
  split at h
  case isTrue hgraphs =>
    obtain ⟨most, hmost, h⟩ := Option.bind_eq_some_iff.mp h
    obtain ⟨listed, hlisted, h⟩ := Option.bind_eq_some_iff.mp h
    simp only [hplain, Bool.false_eq_true, if_false] at h
    split at h
    · cases h
    obtain ⟨sizes, hsizes, h⟩ := Option.bind_eq_some_iff.mp h
    cases h
    rw [hooks.post_init_sorts _ _ _ hsizes]
    have hlimit : 0 ≤ config.maxNumBatchedTokens := zero_le_limit hmost
    rw [← ascendsToLast_iff hlimit hlisted, AscendsToLast, ← graphSizes_sorted_iff
      (fun _ hsize => dvd_of_mem_scaleSizes hsize) fun _ hsize => le_of_mem_scaleSizes hsize]
    constructor
    · intro ⟨sizes', most', hsizes', hmost', hright⟩ _
      cases hsizes'
      cases hmost'
      exact hright
    · intro hright
      exact ⟨_, _, rfl, rfl, hright hgraphs⟩
  case isFalse hnone =>
    obtain ⟨sizes, hsizes, h⟩ := Option.bind_eq_some_iff.mp h
    cases h
    refine iff_of_true ⟨_, _, rfl, rfl, ?_⟩ fun hgraphs => absurd hgraphs hnone
    rw [hooks.post_init_sorts _ _ _ hsizes]
    exact (@graphSizes_sorted_iff _ _ [] nofun nofun).mpr ⟨.nil, nofun, nofun⟩

/-- `post_init_cudagraph_sizes` with its assertion on the largest size. -/
def assertingHooks : VllmHooks where
  updateSizesForSequenceParallelism := id
  postInitCudagraphSizes sizes most :=
    if sizes = [] ∨ (sorted sizes).getLast? = some most then some (sorted sizes) else none
  post_init_sorts sizes most final h := by
    split at h
    · exact (Option.some.inj h).symm
    · cases h

/-- One draft token, and the sizes 4 and 2 in the compilation config. -/
def pairConfig : VllmConfig where
  hasSetCaptureList := false
  hasModelConfig := true
  enforceEager := false
  cudagraphModeNone := false
  maxCudagraphCaptureSize := none
  cudagraphCaptureSizes := some [4, 2]
  maxNumSeqs := 8
  maxNumBatchedTokens := 64
  numSpeculativeTokens := some 1
  tensorParallelSize := 1
  enableSequenceParallelism := false

theorem graph_sizes_right_iff_pair : ∃ final,
    setCudagraphSizes assertingHooks none pairConfig = some final ∧ final.SizesRight := by
  refine ⟨{ pairConfig with
    maxCudagraphCaptureSize := some 8
    cudagraphCaptureSizes := some [4, 8]
    hasSetCaptureList := true }, by decide, ?_⟩
  refine (@graph_sizes_right_iff assertingHooks none pairConfig _ rfl rfl (by decide)).mpr ?_
  intro _ sizes hsizes
  cases hsizes
  decide

/-- `MLU_GRAPH_CAPTURE_LIST=1,2,2,4` keeps the size 2 twice. -/
theorem comma_list_keeps_duplicate : ∃ final,
    setCudagraphSizes assertingHooks (some (.commas [some 1, some 2, some 2, some 4])) pairConfig =
      some final ∧ final.cudagraphCaptureSizes = some [2, 4, 4, 8] ∧ ¬ final.SizesRight := by
  refine ⟨{ pairConfig with
    maxCudagraphCaptureSize := some 8
    cudagraphCaptureSizes := some [2, 4, 4, 8]
    hasSetCaptureList := true }, by decide, rfl, ?_⟩
  intro ⟨sizes, most, hsizes, _, hright⟩
  cases hsizes
  exact absurd hright.ascending.nodup (by decide)

end VllmMlu.Config
