import Mathlib.Algebra.Field.Defs
import Mathlib.Algebra.Order.Field.Basic
import Mathlib.Analysis.SpecialFunctions.Exp
import Mathlib.Analysis.SpecialFunctions.Log.Basic
import Mathlib.Order.WithBot
import VllmMlu.Sample.RejectionSampler

/-! The sampler of the last token of every request: greedy requests get the largest logit, random
ones draw from probabilities that two paths compute. -/
namespace VllmMlu.Sample.MluSampler

/-- The logits of a request; `⊥` is minus infinity. -/
abbrev Row (F : Type) := List (WithBot F)

inductive LogprobsMode where
  | rawLogprobs
  | rawLogits
  | processedLogprobs
  | processedLogits
deriving DecidableEq, Repr

section Model

variable {F P : Type} [Field F] [LinearOrder F] [Field P] {n : Nat}

/-- `_SAMPLING_EPS`. -/
def samplingEps : F := 1 / 100000

/-- `logits.div_(temperature)` of one row. -/
def scale (temperature : F) (row : Row F) : Row F := row.map (WithBot.map (· / temperature))

/-- `softmax(dim=-1)` of one row, with `exp` of minus infinity zero. -/
def softmax (exp : F → P) (row : Row F) : List P :=
  let weights := row.map fun logit => WithBot.recBotCoe 0 exp logit
  weights.map (· / weights.sum)

/-- `SamplingMetadata`, of which `temperature` may be missing in an all-greedy batch. -/
structure SamplingMetadata (F : Type) [Field F] [LinearOrder F] (n : Nat) where
  temperature : Option (Fin n → F)
  allGreedy : Bool
  allRandom : Bool
  topK : Option (Fin n → Nat)
  topP : Option (Fin n → F)
  maxNumLogprobs : Option Nat
  /-- What each processor does to the row of a request. -/
  argmaxInvariant : List (Fin n → Row F → Row F)
  allGreedy_iff : allGreedy = true ↔ ∀ temps ∈ temperature, ∀ i, temps i < samplingEps
  allRandom_iff : allRandom = true ↔ ∃ temps ∈ temperature, ∀ i, ¬temps i < samplingEps
  pos : 0 < n

/-- What is returned as processed logprobs. -/
inductive Processed (F P : Type) (n : Nat) where
  | logits (rows : Fin n → Row F)
  | logprobs (rows : Fin n → List P)

/-- A token, or a draw from probabilities. -/
inductive Sampled (P : Type) where
  | token (id : Nat)
  | drawn (probs : List P)

/-- The code outside: exponential and logprobs, vLLM's mask by top-k and top-p, and the two
operators that use it. -/
structure Operators (F P : Type) [Field F] [LinearOrder F] [Field P] where
  exp : F → P
  computeLogprobs : Row F → List P
  mask : Option Nat → Option F → Row F → Row F
  applyTopkpV2 : ∀ {n : Nat}, (Fin n → Row F) → (Fin n → F) → Option (Fin n → Nat) →
    Option (Fin n → F) → Fin n → Row F
  topkToppSampler : ∀ {n : Nat}, (Fin n → Row F) → Option (Fin n → Nat) → Option (Fin n → F) →
    (Fin n → List P) × Option (Processed F P n)
  applyTopkpV2_eq : ∀ {n : Nat} (logits : Fin n → Row F) (temps : Fin n → F)
    (topK : Option (Fin n → Nat)) (topP : Option (Fin n → F)) (i : Fin n), 0 < temps i →
      applyTopkpV2 logits temps topK topP i =
        mask (topK.map (· i)) (topP.map (· i)) (scale (temps i) (logits i))
  topkToppSampler_eq : ∀ {n : Nat} (logits : Fin n → Row F) (topK : Option (Fin n → Nat))
    (topP : Option (Fin n → F)) (i : Fin n),
      (topkToppSampler logits topK topP).1 i =
        softmax exp (mask (topK.map (· i)) (topP.map (· i)) (logits i))

/-- `apply_temperature`, which leaves greedy rows undivided. -/
def applyTemperature (logits : Fin n → Row F) (temps : Fin n → F) (allRandom : Bool) (i : Fin n) :
    Row F :=
  let temp := if allRandom = false ∧ temps i < samplingEps then 1 else temps i
  scale temp (logits i)

def processedOf (ops : Operators F P) (mode : LogprobsMode) (logits : Fin n → Row F) :
    Option (Processed F P n) :=
  match mode with
  | .processedLogits => some (.logits logits)
  | .processedLogprobs => some (.logprobs fun i => ops.computeLogprobs (logits i))
  | _ => none

namespace SamplingMetadata

variable (metadata : SamplingMetadata F n)

def useTmo : Bool := metadata.topK.isSome || metadata.topP.isSome

/-- All processors, in order, on the row of a request. -/
def process (i : Fin n) (row : Row F) : Row F :=
  metadata.argmaxInvariant.foldl (fun row processor => processor i row) row

/-- The random samples of a batch: the probabilities that each request draws from. -/
def randomSample (ops : Operators F P) (mode : LogprobsMode) (logits : Fin n → Row F)
    (temps : Fin n → F) : (Fin n → List P) × Option (Processed F P n) :=
  if metadata.useTmo then
    let logitsOut := ops.applyTopkpV2 logits temps metadata.topK metadata.topP
    (fun i => softmax ops.exp (logitsOut i), processedOf ops mode logits)
  else
    let logits := applyTemperature logits temps metadata.allRandom
    let logits := fun i => metadata.process i (logits i)
    ops.topkToppSampler logits metadata.topK metadata.topP

def sample (ops : Operators F P) (logprobsMode : LogprobsMode) (override : Option LogprobsMode)
    (logits : Fin n → Row F) :
    Except SamplerError ((Fin n → Sampled P) × Option (Processed F P n)) :=
  let mode := override.getD logprobsMode
  if metadata.allGreedy && metadata.allRandom then throw .assertionError
  else if metadata.allGreedy then
    let processed := if metadata.maxNumLogprobs.isSome then processedOf ops mode logits else none
    pure (fun i => .token (argmax (logits i)), processed)
  else match metadata.temperature with
    | none => throw .assertionError
    | some temps =>
      let (randomSampled, processed) := metadata.randomSample ops mode logits temps
      if metadata.allRandom then pure (fun i => .drawn (randomSampled i), processed)
      else
        let sampled := fun i => if temps i < samplingEps then Sampled.token (argmax (logits i))
          else .drawn (randomSampled i)
        pure (sampled, processed)

end SamplingMetadata

/-- The probabilities of the tokens of a vocabulary. -/
def Sampled.probs (vocabSize : Nat) : Sampled P → List P
  | .token id => (List.range vocabSize).map fun i => if i = id then 1 else 0
  | .drawn probs => probs

end Model

theorem scale_scale {F : Type} [Field F] {temperature : F} (h : temperature ≠ 0) (row : Row F) :
    scale temperature (scale temperature⁻¹ row) = row := by
  have hvalue : ∀ value : F, value / temperature⁻¹ / temperature = value := by
    intro value
    rw [div_inv_eq_mul, mul_div_cancel_right₀ value h]
  rw [scale, scale, List.map_map]
  apply List.map_id''
  intro logit
  cases logit with
  | bot => rfl
  | coe value => exact congrArg WithBot.some (hvalue value)

section Paths

variable {F P : Type} [Field F] [LinearOrder F] [Field P] {n : Nat}
  {metadata : SamplingMetadata F n} {ops : Operators F P} {temps : Fin n → F}

namespace SamplingMetadata

/-- Top-k and top-p of a request. -/
def maskRow (metadata : SamplingMetadata F n) (ops : Operators F P) (i : Fin n) (row : Row F) :
    Row F :=
  ops.mask (metadata.topK.map (· i)) (metadata.topP.map (· i)) row

/-- The stage between temperature and mask on the path that is taken. -/
def processTaken (metadata : SamplingMetadata F n) (i : Fin n) (row : Row F) : Row F :=
  if metadata.useTmo then row else metadata.process i row

theorem randomSample_eq (mode : LogprobsMode) (logits : Fin n → Row F) {i : Fin n}
    (hpos : 0 < temps i) (hrandom : ¬temps i < samplingEps) :
    (metadata.randomSample ops mode logits temps).1 i =
      softmax ops.exp (metadata.maskRow ops i
        (metadata.processTaken i (scale (temps i) (logits i)))) := by
  rw [randomSample, processTaken]
  by_cases htmo : metadata.useTmo = true
  · rw [if_pos htmo, if_pos htmo]
    exact congrArg (softmax ops.exp) (ops.applyTopkpV2_eq logits temps _ _ i hpos)
  · rw [if_neg htmo, if_neg htmo]
    have htemp : applyTemperature logits temps metadata.allRandom i =
        scale (temps i) (logits i) := by
      rw [applyTemperature, if_neg fun hboth => hrandom hboth.2]
    dsimp only
    rw [ops.topkToppSampler_eq, htemp]
    rfl

theorem not_all_both (metadata : SamplingMetadata F n) :
    ¬(metadata.allGreedy && metadata.allRandom) = true := by
  intro hboth
  rw [Bool.and_eq_true] at hboth
  obtain ⟨temps, hmem, hrandom⟩ := metadata.allRandom_iff.mp hboth.2
  have hgreedy := metadata.allGreedy_iff.mp hboth.1 temps hmem ⟨0, metadata.pos⟩
  exact hrandom _ hgreedy

/-- What the sampler returns for every request, by its temperature. -/
theorem sample_returns (mode : LogprobsMode) (override : Option LogprobsMode)
    (logits : Fin n → Row F) :
    ∃ result processed, metadata.sample ops mode override logits = .ok (result, processed) ∧
      (∀ i, (∀ temps ∈ metadata.temperature, temps i < samplingEps) →
        result i = .token (argmax (logits i))) ∧
      ∀ temps ∈ metadata.temperature, ∀ i, ¬temps i < samplingEps →
        result i = .drawn ((metadata.randomSample ops (override.getD mode) logits temps).1 i) := by
  rw [sample, if_neg metadata.not_all_both]
  by_cases hgreedy : metadata.allGreedy = true
  · rw [if_pos hgreedy]
    refine ⟨_, _, rfl, fun i _ => rfl, fun temps hmem i hrandom => ?_⟩
    exact absurd (metadata.allGreedy_iff.mp hgreedy temps hmem i) hrandom
  · rw [if_neg hgreedy]
    cases htemps : metadata.temperature with
    | none => exact absurd (metadata.allGreedy_iff.mpr (by simp [htemps])) hgreedy
    | some temps =>
        dsimp only
        by_cases hrandom : metadata.allRandom = true
        · rw [if_pos hrandom]
          obtain ⟨_, hmem, hnone⟩ := metadata.allRandom_iff.mp hrandom
          cases htemps.symm.trans hmem
          refine ⟨_, _, rfl, fun i hlow => absurd (hlow temps rfl) (hnone i), ?_⟩
          rintro _ ⟨⟩ i _
          rfl
        · rw [if_neg hrandom]
          refine ⟨_, _, rfl, fun i hlow => if_pos (hlow temps rfl), ?_⟩
          rintro _ ⟨⟩ i hhigh
          exact if_neg hhigh

/-- Temperature, all processors, then top-k and top-p of the request itself. -/
def plain (metadata : SamplingMetadata F n) (ops : Operators F P) (temps : Fin n → F)
    (logits : Fin n → Row F) (i : Fin n) : List P :=
  softmax ops.exp (metadata.maskRow ops i (metadata.process i (scale (temps i) (logits i))))

/-- For all logits: a request above the threshold draws from the plain pipeline, and the others
get their largest logit. -/
def EqualsPlain (metadata : SamplingMetadata F n) (ops : Operators F P) : Prop :=
  ∀ mode override logits, ∃ result processed,
    metadata.sample ops mode override logits = .ok (result, processed) ∧
      (∀ temps ∈ metadata.temperature, ∀ i, samplingEps < temps i →
        (result i).probs (logits i).length = metadata.plain ops temps logits i) ∧
      ∀ i, (∀ temps ∈ metadata.temperature, temps i ≤ samplingEps) →
        (result i).probs (logits i).length =
          (Sampled.token (argmax (logits i))).probs (logits i).length

/-- On the fast path the processors change nothing that top-k and top-p leave, and a request
exactly at the threshold keeps its largest logit only. -/
structure Harmless (metadata : SamplingMetadata F n) (ops : Operators F P) : Prop where
  above : metadata.useTmo = true → ∀ temps ∈ metadata.temperature, ∀ i, samplingEps < temps i →
    ∀ row, softmax ops.exp (metadata.maskRow ops i (metadata.process i row)) =
      softmax ops.exp (metadata.maskRow ops i row)
  threshold : ∀ temps ∈ metadata.temperature, ∀ i, temps i = samplingEps → ∀ row,
    softmax ops.exp (metadata.maskRow ops i (metadata.processTaken i (scale samplingEps row))) =
      (Sampled.token (argmax row)).probs row.length

end SamplingMetadata

variable [IsStrictOrderedRing F]

theorem samplingEps_pos : (0 : F) < samplingEps := by
  rw [samplingEps]
  positivity

/-- The sampler equals the plain pipeline exactly when the fast path drops no processor that
matters and no request at the threshold has a second token. -/
theorem equalsPlain_iff (metadata : SamplingMetadata F n) (ops : Operators F P) :
    metadata.EqualsPlain ops ↔ metadata.Harmless ops := by
  constructor
  · intro hplain
    constructor
    case above =>
      intro htmo temps hmem i habove row
      have hpos : 0 < temps i := samplingEps_pos.trans habove
      obtain ⟨result, _, hsample, hrandom, -⟩ :=
        hplain .rawLogprobs none fun _ => scale (temps i)⁻¹ row
      obtain ⟨drawn, _, hreturns, -, hdrawn⟩ := @SamplingMetadata.sample_returns _ _ _ _ _ _
        metadata ops .rawLogprobs none fun _ => scale (temps i)⁻¹ row
      cases hsample.symm.trans hreturns
      have heq := hrandom temps hmem i habove
      rw [hdrawn temps hmem i habove.not_gt, Sampled.probs,
        SamplingMetadata.randomSample_eq _ _ hpos habove.not_gt, SamplingMetadata.processTaken,
        if_pos htmo, SamplingMetadata.plain, scale_scale hpos.ne'] at heq
      exact heq.symm
    case threshold =>
      intro temps hmem i hequal row
      have hpos : 0 < temps i := hequal ▸ samplingEps_pos
      obtain ⟨result, _, hsample, -, hgreedy⟩ := hplain .rawLogprobs none fun _ => row
      obtain ⟨drawn, _, hreturns, -, hdrawn⟩ := @SamplingMetadata.sample_returns _ _ _ _ _ _
        metadata ops .rawLogprobs none fun _ => row
      cases hsample.symm.trans hreturns
      have heq := hgreedy i fun other hother => by
        cases hmem.symm.trans hother
        exact hequal.le
      rw [hdrawn temps hmem i hequal.not_lt, Sampled.probs,
        SamplingMetadata.randomSample_eq _ _ hpos hequal.not_lt, hequal] at heq
      exact heq
  · intro hharmless mode override logits
    obtain ⟨result, processed, hreturns, htoken, hdrawn⟩ := @SamplingMetadata.sample_returns
      _ _ _ _ _ _ metadata ops mode override logits
    refine ⟨result, processed, hreturns, fun temps hmem i habove => ?_, fun i hlow => ?_⟩
    · have hpos : 0 < temps i := samplingEps_pos.trans habove
      rw [hdrawn temps hmem i habove.not_gt, Sampled.probs,
        SamplingMetadata.randomSample_eq _ _ hpos habove.not_gt, SamplingMetadata.processTaken,
        SamplingMetadata.plain]
      by_cases htmo : metadata.useTmo = true
      · rw [if_pos htmo, hharmless.above htmo temps hmem i habove]
      · rw [if_neg htmo]
    · by_cases hbelow : ∀ temps ∈ metadata.temperature, temps i < samplingEps
      · rw [htoken i hbelow]
      · push Not at hbelow
        obtain ⟨temps, hmem, hge⟩ := hbelow
        have hequal : temps i = samplingEps := le_antisymm (hlow temps hmem) hge
        have hpos : 0 < temps i := hequal ▸ samplingEps_pos
        rw [hdrawn temps hmem i hge.not_gt, Sampled.probs,
          SamplingMetadata.randomSample_eq _ _ hpos hge.not_gt, hequal]
        exact hharmless.threshold temps hmem i hequal (logits i)

end Paths

/-! A request with `min_p` next to one with `top_k`. -/

/-- The mask of a request that sets no top-p: logits with fewer than `k` larger ones stay. -/
noncomputable def topKMask (k : Option Nat) (row : Row ℝ) : Row ℝ :=
  match k with
  | none => row
  | some k => row.map fun logit => if row.countP (fun other => logit < other) < k then logit else ⊥

noncomputable def operators : Operators ℝ ℝ where
  exp := Real.exp
  computeLogprobs row := (softmax Real.exp row).map Real.log
  mask k _ row := topKMask k row
  applyTopkpV2 logits temps topK _ i := topKMask (topK.map (· i)) (scale (temps i) (logits i))
  topkToppSampler logits topK _ :=
    (fun i => softmax Real.exp (topKMask (topK.map (· i)) (logits i)), none)
  applyTopkpV2_eq _ _ _ _ _ _ := rfl
  topkToppSampler_eq _ _ _ _ := rfl

/-- The `min_p` processor: tokens far less likely than the best one get minus infinity. -/
noncomputable def minP (bounds : Fin 2 → ℝ) (i : Fin 2) (row : Row ℝ) : Row ℝ :=
  let probs := softmax Real.exp row
  List.zipWith (fun logit prob => if prob < bounds i * probs.foldr max 0 then ⊥ else logit) row
    probs

/-- The first request has `min_p` and no top-k, the second has a top-k of one. -/
noncomputable def twoUsers : SamplingMetadata ℝ 2 where
  temperature := some fun _ => 1
  allGreedy := false
  allRandom := true
  topK := some ![2, 1]
  topP := none
  maxNumLogprobs := none
  argmaxInvariant := [minP ![1 / 2, 0]]
  allGreedy_iff := by
    simp only [Bool.false_eq_true, false_iff]
    intro hlow
    have hfirst := hlow _ rfl 0
    norm_num [samplingEps] at hfirst
  allRandom_iff := by
    simp only [true_iff]
    refine ⟨_, rfl, fun i => ?_⟩
    norm_num [samplingEps]
  pos := Nat.two_pos

theorem equalsPlain_two_users : twoUsers.EqualsPlain operators ↔ twoUsers.Harmless operators :=
  equalsPlain_iff twoUsers operators

theorem exp_neg_two_lt : Real.exp (-2) < 1 / 2 := by
  have hlarge := Real.add_one_le_exp (2 : ℝ)
  rw [Real.exp_neg, inv_lt_comm₀ (Real.exp_pos 2) (by norm_num)]
  linarith

/-- The logits of both requests. -/
noncomputable def twoLogits : Row ℝ := [((0 : ℝ) : WithBot ℝ), ((-2 : ℝ) : WithBot ℝ)]

theorem scale_twoLogits : scale 1 twoLogits = twoLogits := by
  simp [scale, twoLogits]

theorem softmax_twoLogits : softmax Real.exp twoLogits =
    [1 / (1 + Real.exp (-2)), Real.exp (-2) / (1 + Real.exp (-2))] := by
  change [Real.exp 0 / (Real.exp 0 + (Real.exp (-2) + 0)),
    Real.exp (-2) / (Real.exp 0 + (Real.exp (-2) + 0))] = _
  rw [Real.exp_zero, add_zero]

theorem topKMask_two (first second : WithBot ℝ) :
    topKMask (some 2) [first, second] = [first, second] := by
  refine (List.map_congr_left fun logit hmem => ?_).trans (List.map_id _)
  have hself : ∃ other ∈ [first, second], decide (logit < other) = false :=
    ⟨logit, hmem, decide_eq_false (lt_irrefl logit)⟩
  exact if_pos (List.countP_lt_length_iff.mpr hself)

theorem minP_twoLogits : minP ![1 / 2, 0] 0 twoLogits = [((0 : ℝ) : WithBot ℝ), ⊥] := by
  have hpos := Real.exp_pos (-2)
  have hlt := exp_neg_two_lt
  have htotal : 0 < 1 + Real.exp (-2) := by linarith
  have hle : Real.exp (-2) / (1 + Real.exp (-2)) ≤ 1 / (1 + Real.exp (-2)) := by
    gcongr
    linarith
  have hnonneg : 0 ≤ Real.exp (-2) / (1 + Real.exp (-2)) := by positivity
  have htop : [1 / (1 + Real.exp (-2)), Real.exp (-2) / (1 + Real.exp (-2))].foldr max 0 =
      1 / (1 + Real.exp (-2)) := by
    rw [List.foldr_cons, List.foldr_cons, List.foldr_nil, max_eq_left hnonneg,
      max_eq_left hle]
  have hfirst : ¬1 / (1 + Real.exp (-2)) < 1 / 2 * (1 / (1 + Real.exp (-2))) := by
    rw [not_lt]
    have hinv : 0 < 1 / (1 + Real.exp (-2)) := by positivity
    linarith
  have hsecond : Real.exp (-2) / (1 + Real.exp (-2)) < 1 / 2 * (1 / (1 + Real.exp (-2))) := by
    rw [mul_one_div]
    gcongr
  simp only [minP, softmax_twoLogits, htop]
  rw [twoLogits, List.zipWith_cons_cons, List.zipWith_cons_cons, List.zipWith_nil_left]
  exact congrArg₂ (fun first second => [first, second]) (if_neg hfirst) (if_pos hsecond)

/-- With the fast path the second token keeps its probability, although `min_p` removes it. -/
theorem min_p_dropped : ¬twoUsers.EqualsPlain operators := by
  intro hplain
  obtain ⟨result, _, hsample, hrandom, -⟩ := hplain .rawLogprobs none fun _ => twoLogits
  obtain ⟨drawn, _, hreturns, -, hdrawn⟩ := @SamplingMetadata.sample_returns _ _ _ _ _ _
    twoUsers operators .rawLogprobs none fun _ => twoLogits
  cases hsample.symm.trans hreturns
  have hone : samplingEps < (1 : ℝ) := by norm_num [samplingEps]
  have heq := hrandom _ rfl 0 hone
  rw [hdrawn _ rfl 0 hone.not_gt, Sampled.probs,
    SamplingMetadata.randomSample_eq _ _ one_pos hone.not_gt] at heq
  have hdraws : softmax Real.exp (topKMask (some 2) (scale 1 twoLogits)) =
      softmax Real.exp (topKMask (some 2) (minP ![1 / 2, 0] 0 (scale 1 twoLogits))) := heq
  rw [scale_twoLogits, minP_twoLogits, topKMask_two,
    show topKMask (some 2) twoLogits = twoLogits from topKMask_two _ _, softmax_twoLogits] at hdraws
  have hsecond : Real.exp (-2) / (1 + Real.exp (-2)) = 0 / (Real.exp 0 + (0 + 0)) :=
    congrArg (fun probs => probs.getD 1 0) hdraws
  have hpos : 0 < Real.exp (-2) / (1 + Real.exp (-2)) := by positivity
  rw [hsecond, zero_div] at hpos
  exact lt_irrefl _ hpos

end VllmMlu.Sample.MluSampler
