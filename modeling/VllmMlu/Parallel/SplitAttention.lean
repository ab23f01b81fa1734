import VllmMlu.Library.VarlenAttention
import VllmMlu.Parallel.Partition
import VllmMlu.Worker.FlashMLA

/-! What the prefill attention of the parts of a batch computes, next to that of the batch. -/
namespace VllmMlu.Parallel

open Library Library.VarlenAttention

variable {Slot : Type}

/-- The arguments of `mlu_ops.flash_attention`. -/
structure FlashAttentionArgs where
  cuSeqLensQ : List Nat
  cuSeqLensKv : List Nat
  maxSeqLenQ : Nat
  maxSeqLenKv : Nat
  /-- The number of rows of `q` and `out`. -/
  numPrefillQueryTokens : Nat
  /-- The number of rows of `k` and `v`. -/
  numPrefillKvTokens : Nat
deriving DecidableEq

/-- `FlashMLAImpl.forward` with `only_prefill`; its caller may hand in the start locations of
the keys. -/
def flashMLAForward (metadata : AttnMetadata Slot) (cuSeqLensKv : Option (List Nat)) :
    Option FlashAttentionArgs := do
  let prefill ← metadata.layer.prefill
  return {
    cuSeqLensQ := prefill.queryStartLoc
    cuSeqLensKv := cuSeqLensKv.getD metadata.common.queryStartLoc
    maxSeqLenQ := prefill.maxQueryLen
    maxSeqLenKv := prefill.maxSeqLen
    numPrefillQueryTokens := metadata.common.numPrefillQueryTokens
    numPrefillKvTokens := metadata.common.numPrefillKvTokens }

/-- A part of the sequence brings start locations of its own for the keys. -/
def prefillArgs (metadata : AttnMetadata Slot) : Option FlashAttentionArgs :=
  flashMLAForward metadata (metadata.layer.prefill.bind PrefillMetadata.cuSeqlensKv)

def FlashAttentionArgs.Attends (args : FlashAttentionArgs) (row col : Nat) : Prop :=
  row < args.numPrefillQueryTokens ∧ col < args.numPrefillKvTokens ∧
    VarlenAttention.Attends args.cuSeqLensQ args.cuSeqLensKv row col

/-- The rows and the maxima are enough for all sequences. -/
structure FlashAttentionArgs.Covers (args : FlashAttentionArgs) : Prop where
  queryTokens : ∀ loc ∈ args.cuSeqLensQ, loc ≤ args.numPrefillQueryTokens
  kvTokens : ∀ loc ∈ args.cuSeqLensKv, loc ≤ args.numPrefillKvTokens
  maxQuery : ∀ i start stop : Nat, args.cuSeqLensQ[i]? = some start →
    args.cuSeqLensQ[i + 1]? = some stop → stop ≤ start + args.maxSeqLenQ
  maxKv : ∀ i start stop : Nat, args.cuSeqLensKv[i]? = some start →
    args.cuSeqLensKv[i + 1]? = some stop → stop ≤ start + args.maxSeqLenKv

/-- The token of the batch in the first row that `split_input` hands to the part `i`. -/
def firstToken (parts : List (AttnMetadata Slot)) (i : Nat) : Nat :=
  ((parts.map (·.layer.numActualTokens)).take i).sum

/-- The token of the batch in the first row of the keys: a part of the sequence gets the keys
of the parts before it as well. -/
def firstKey (seqPartsToSplit : Nat) (parts : List (AttnMetadata Slot)) (i : Nat) : Nat :=
  if 1 < seqPartsToSplit then 0 else firstToken parts i

/-- The rows of a part, the first of which is `token`, attend to what they attend to in the
whole batch. -/
structure AttendsAsUnsplit (lens : List Nat) (token key tokens : Nat)
    (args : FlashAttentionArgs) : Prop where
  covers : args.Covers
  keys : ∀ row k, (∃ col, key + col = k ∧ args.Attends row col) ↔
    row < tokens ∧ Causal lens (token + row) k

/-- The parts have all tokens of the batch, and each of them attends to the same keys. -/
def SplitAttention (batch : PrefillBatch Slot) (bsPartsToSplit seqPartsToSplit : Nat) : Prop :=
  ∃ parts, splitAttnMetadata (some batch.attnMetadata) bsPartsToSplit seqPartsToSplit =
      some (parts.map some) ∧
    (parts.map (·.layer.numActualTokens)).sum = batch.lens.sum ∧
    ∀ (i : Nat) (part : AttnMetadata Slot), parts[i]? = some part →
      ∃ args, prefillArgs part = some args ∧
        AttendsAsUnsplit batch.lens (firstToken parts i) (firstKey seqPartsToSplit parts i)
          part.layer.numActualTokens args

/-! ### Whole requests -/

/-- The arguments for requests without computed tokens. -/
def requestArgs (own : List Nat) : FlashAttentionArgs where
  cuSeqLensQ := Cuts.startLocs own
  cuSeqLensKv := Cuts.startLocs own
  maxSeqLenQ := own.max?.getD 0
  maxSeqLenKv := own.max?.getD 0
  numPrefillQueryTokens := own.sum
  numPrefillKvTokens := own.sum

theorem le_of_mem_startLocs {lens : List Nat} {loc : Nat} (h : loc ∈ Cuts.startLocs lens) :
    loc ≤ lens.sum := by
  obtain ⟨i, hi⟩ := List.getElem?_of_mem h
  have hlt := (List.getElem?_eq_some_iff.mp hi).1
  rw [Cuts.length_startLocs] at hlt
  rw [Cuts.getElem?_startLocs (by omega), Option.some.injEq] at hi
  have hle : (lens.take i).sum ≤ (lens.take lens.length).sum :=
    List.monotone_sum_take lens (by omega)
  rwa [hi, List.take_length] at hle

theorem stop_le_startLocs {lens : List Nat} {i start stop : Nat}
    (hstart : (Cuts.startLocs lens)[i]? = some start)
    (hstop : (Cuts.startLocs lens)[i + 1]? = some stop) :
    stop ≤ start + lens.max?.getD 0 := by
  have hi : i < lens.length := by
    have hlt := (List.getElem?_eq_some_iff.mp hstop).1
    rw [Cuts.length_startLocs] at hlt
    omega
  rw [Cuts.getElem?_startLocs (by omega), Option.some.injEq] at hstart hstop
  rw [List.sum_take_succ _ _ hi, hstart] at hstop
  have hle := Cuts.le_max?_getD (List.getElem_mem hi)
  omega

theorem requestArgs_attends (own : List Nat) {row col : Nat} :
    (requestArgs own).Attends row col ↔ Causal own row col := by
  constructor
  · exact fun h => attends_startLocs.mp h.2.2
  · intro h
    have hrow := h.lt
    obtain ⟨i, len, hi, hstart, hle, hlt⟩ := id h
    exact ⟨hrow, by change col < own.sum; omega, attends_startLocs.mpr h⟩

theorem requestArgs_attendsAsUnsplit (front own back : List Nat) :
    AttendsAsUnsplit (front ++ (own ++ back)) front.sum front.sum own.sum (requestArgs own) where
  covers := {
    queryTokens := fun _ => le_of_mem_startLocs
    kvTokens := fun _ => le_of_mem_startLocs
    maxQuery := fun _ _ _ => stop_le_startLocs
    maxKv := fun _ _ _ => stop_le_startLocs }
  keys := by
    intro row k
    rw [causal_append_left]
    simp only [requestArgs_attends]
    constructor
    · rintro ⟨col, hk, hcausal⟩
      obtain ⟨hlt, hwhole⟩ := causal_append_right.mpr hcausal
      exact ⟨hlt, col, hk, hwhole⟩
    · rintro ⟨hlt, col, hk, hwhole⟩
      exact ⟨col, hk, causal_append_right.mp ⟨hlt, hwhole⟩⟩

section PrefillBatch

variable {batch : PrefillBatch Slot}

theorem PrefillBatch.prefillArgs_attnMetadata (hdecodes : batch.numDecodes = 0) :
    prefillArgs batch.attnMetadata = some (requestArgs batch.lens) := by
  have hpos := batch.length_pos
  simp [prefillArgs, flashMLAForward, PrefillBatch.attnMetadata, hdecodes, hpos, requestArgs]

theorem PrefillBatch.OwnPart.prefillArgs {own : List Nat} {part : AttnMetadata Slot}
    (h : batch.OwnPart own part) : prefillArgs part = some (requestArgs own) := by
  obtain ⟨start, slotStart, hslice, rfl⟩ := h
  have hlens : batch.attnMetadata.common.seqLens = batch.lens := rfl
  simp [Parallel.prefillArgs, flashMLAForward, AttnMetadata.forRequests, requestArgs, hlens,
    hslice]

/-- A batch that is not split. -/
theorem splitAttention_one (hdecodes : batch.numDecodes = 0) : SplitAttention batch 1 1 := by
  refine ⟨[batch.attnMetadata], rfl, by simp [PrefillBatch.attnMetadata], ?_⟩
  intro i part hpart
  cases i with
  | zero =>
      cases hpart
      refine ⟨_, PrefillBatch.prefillArgs_attnMetadata hdecodes, ?_⟩
      have hwhole := requestArgs_attendsAsUnsplit [] batch.lens []
      rwa [List.append_nil] at hwhole
  | succ i => cases hpart

theorem splitAttention_batch (hdecodes : batch.numDecodes = 0) {parts : Nat} (hparts : 1 < parts) :
    SplitAttention batch parts 1 := by
  obtain ⟨metadataParts, hsplit, hpartsOf, hown⟩ :=
    batch.splitBatch (hdecodes ▸ batch.length_pos) hparts
  rw [hdecodes, Nat.sub_zero] at hpartsOf hown
  have hsum : (dataNums batch.lens.length parts).sum = batch.lens.length :=
    sum_dataNums (by omega)
  refine ⟨metadataParts, hsplit, ?_, ?_⟩
  · rw [hpartsOf.layerTokens, sum_map_sum_splitLengths, hsum, List.take_length]
  · intro i part hpart
    obtain ⟨own, hgroup, howned⟩ := Cuts.getElem?_of_forall₂ hown.flip hpart
    refine ⟨_, PrefillBatch.OwnPart.prefillArgs howned, ?_⟩
    have hflatten : ((dataNums batch.lens.length parts).splitLengths batch.lens).flatten =
        batch.lens := List.flatten_splitLengths _ _ (by omega)
    obtain ⟨hi, hget⟩ := List.getElem?_eq_some_iff.mp hgroup
    have hlens : batch.lens =
        (((dataNums batch.lens.length parts).splitLengths batch.lens).take i).flatten ++
          (own ++ (((dataNums batch.lens.length parts).splitLengths batch.lens).drop
            (i + 1)).flatten) := by
      conv_lhs => rw [← hflatten, ← List.take_append_drop i
        ((dataNums batch.lens.length parts).splitLengths batch.lens), List.flatten_append,
        List.drop_eq_getElem_cons hi, List.flatten_cons, hget]
    have hfirst : firstToken metadataParts i =
        (((dataNums batch.lens.length parts).splitLengths batch.lens).take i).flatten.sum := by
      rw [firstToken, hpartsOf.layerTokens, ← List.map_take, List.sum_flatten]
    have htokens : part.layer.numActualTokens = own.sum := by
      obtain ⟨start, slotStart, -, rfl⟩ := howned
      rfl
    rw [firstKey, if_neg (Nat.lt_irrefl 1), hfirst, htokens]
    conv in AttendsAsUnsplit batch.lens => rw [hlens]
    exact requestArgs_attendsAsUnsplit _ _ _

/-- The tokens of the only request behind the first `context`. -/
theorem tokenArgs_attendsAsUnsplit {len context tokens maxSeqLen : Nat}
    (hlen : context + tokens ≤ len) (hmax : len ≤ maxSeqLen) :
    AttendsAsUnsplit [len] context 0 tokens
      ⟨[0, tokens], [0, context + tokens], tokens, maxSeqLen, tokens, context + tokens⟩ where
  covers := {
    queryTokens := by simp
    kvTokens := by simp
    maxQuery := by
      intro i start stop hstart hstop
      cases i with
      | zero =>
          cases hstop
          exact Nat.le_add_left _ _
      | succ i => simp at hstop
    maxKv := by
      intro i start stop hstart hstop
      cases i with
      | zero =>
          cases hstop
          change context + tokens ≤ start + maxSeqLen
          omega
      | succ i => simp at hstop }
  keys := by
    intro row k
    simp only [FlashAttentionArgs.Attends, attends_one, causal_one, Nat.zero_add, exists_eq_left]
    omega

theorem splitAttention_sequence {len : Nat} (hlens : batch.lens = [len])
    (hdecodes : batch.numDecodes = 0) {parts : Nat} (hparts : 1 < parts) :
    SplitAttention batch 1 parts := by
  obtain ⟨prefill, hprefill, -⟩ := batch.exists_prefill (hdecodes ▸ batch.length_pos)
  have hmax : prefill.maxSeqLen = len := by
    simp only [PrefillBatch.attnMetadata, hlens, hdecodes] at hprefill
    cases hprefill
    rfl
  have hsum : (dataNums len parts).sum = len := sum_dataNums (by omega)
  have hpartsOf := batch.partsOf_tokenParts prefill (dataNums len parts)
  refine ⟨_, batch.splitSequence hlens hdecodes hprefill hparts, ?_, ?_⟩
  · rw [hpartsOf.layerTokens, hsum, hlens, List.sum_singleton]
  · intro i part hpart
    rw [PrefillBatch.tokenParts, List.getElem?_map, Option.map_eq_some_iff] at hpart
    obtain ⟨⟨offset, tokens⟩, hzip, rfl⟩ := hpart
    obtain ⟨hoffset, htokens⟩ := List.getElem?_zip_eq_some.mp hzip
    have hi := (List.getElem?_eq_some_iff.mp htokens).1
    have hend := Packed.sum_take_add_le htokens hi
    rw [List.take_length, hsum] at hend
    rw [List.getElem?_dropLast, if_pos (by simpa using hi), Cuts.getElem?_startLocs (by omega),
      Option.some.injEq] at hoffset
    subst hoffset
    refine ⟨_, rfl, ?_⟩
    rw [firstToken, hpartsOf.layerTokens, firstKey, if_pos hparts, hlens]
    exact tokenArgs_attendsAsUnsplit hend hmax.ge

/-- Requests that count as decodes are left out by the prefills' start locations. -/
theorem numDecodes_of_splitAttention_one (h : SplitAttention batch 1 1) :
    batch.numDecodes = 0 := by
  by_contra hdecodes
  obtain ⟨parts, hsplit, -, hkeys⟩ := h
  have hparts : parts = [batch.attnMetadata] := by
    apply List.map_injective_iff.mpr (Option.some_injective _)
    exact (Option.some.inj hsplit).symm
  subst hparts
  obtain ⟨args, hargs, -, hrows⟩ := hkeys 0 _ rfl
  have hrest : (batch.lens.drop batch.numDecodes).sum < batch.lens.sum := by
    obtain ⟨count, hcount⟩ := Nat.exists_eq_succ_of_ne_zero hdecodes
    cases hlens : batch.lens with
    | nil => exact absurd hlens batch.lens_ne_nil
    | cons first rest =>
        have hsplit := List.sum_take_add_sum_drop rest count
        have hpos := batch.lens_pos first (by simp [hlens])
        rw [hcount, List.drop_succ_cons, List.sum_cons]
        omega
  obtain ⟨col, -, hattends⟩ := (hrows (batch.lens.drop batch.numDecodes).sum _).mpr
    ⟨hrest, causal_self (by simpa [firstToken] using hrest)⟩
  rcases Nat.lt_or_ge batch.numDecodes batch.lens.length with hlt | hge
  · simp [prefillArgs, flashMLAForward, PrefillBatch.attnMetadata, hlt] at hargs
    subst hargs
    exact absurd hattends.2.2.row_lt (Nat.lt_irrefl _)
  · simp [prefillArgs, flashMLAForward, PrefillBatch.attnMetadata, Nat.not_lt.mpr hge] at hargs

theorem numDecodes_of_splitAttention_batch {parts : Nat} (hparts : 1 < parts)
    (h : SplitAttention batch parts 1) : batch.numDecodes = 0 := by
  by_contra hdecodes
  obtain ⟨metadataParts, hsplit, htokens, -⟩ := h
  exact absurd htokens (PrefillBatch.tokens_lt_of_splitBatch hdecodes hparts hsplit).ne

theorem numDecodes_of_splitAttention_sequence {parts : Nat} (hparts : 1 < parts)
    (h : SplitAttention batch 1 parts) : batch.numDecodes = 0 := by
  by_contra hdecodes
  obtain ⟨_, hsplit, -⟩ := h
  rw [batch.splitSequence_eq_none hdecodes hparts] at hsplit
  cases hsplit

end PrefillBatch

/-- The attention of the parts is that of the whole batch exactly if no request of the batch
counts as a decode. -/
theorem split_attention_iff (batch : PrefillBatch Slot) {bsPartsToSplit seqPartsToSplit : Nat}
    (hplan : 0 < bsPartsToSplit ∧ seqPartsToSplit = 1 ∨
      bsPartsToSplit = 1 ∧ 0 < seqPartsToSplit ∧ batch.lens.length = 1) :
    SplitAttention batch bsPartsToSplit seqPartsToSplit ↔ batch.numDecodes = 0 := by
  rcases hplan with ⟨hparts, rfl⟩ | ⟨rfl, hparts, hone⟩
  · rcases Nat.lt_or_eq_of_le (Nat.succ_le_of_lt hparts) with hmany | rfl
    · exact ⟨numDecodes_of_splitAttention_batch hmany, fun h => splitAttention_batch h hmany⟩
    · exact ⟨numDecodes_of_splitAttention_one, splitAttention_one⟩
  · obtain ⟨len, hlens⟩ := List.length_eq_one_iff.mp hone
    rcases Nat.lt_or_eq_of_le (Nat.succ_le_of_lt hparts) with hmany | rfl
    · exact ⟨numDecodes_of_splitAttention_sequence hmany,
        fun h => splitAttention_sequence hlens h hmany⟩
    · exact ⟨numDecodes_of_splitAttention_one, splitAttention_one⟩

theorem split_attention_iff_two :
    SplitAttention twoPrefills 2 1 ↔ twoPrefills.numDecodes = 0 :=
  split_attention_iff twoPrefills (by decide)

/-- A prompt of one token in front of a prompt of three. -/
def shortPromptFirst : PrefillBatch Nat where
  lens := [1, 3]
  slots := [0, 1, 2, 3]
  numDecodes := 1
  lens_ne_nil := by decide
  lens_pos := by decide
  length_slots := by decide
  numDecodes_le := by decide

/-- Without draft tokens the short prompt counts as a decode; the plan still makes two parts,
but only one request is handed out. -/
theorem short_prompt_hides_request :
    Worker.splitDecodesAndPrefills 1 shortPromptFirst.lens = (shortPromptFirst.numDecodes, 1) ∧
      attnMccPlan (some shortPromptFirst.attnMetadata) none 2 = some (2, 1) ∧
      ¬SplitAttention shortPromptFirst 2 1 := by
  refine ⟨by decide, by decide, ?_⟩
  intro h
  have hzero := numDecodes_of_splitAttention_batch (by decide) h
  cases hzero

end VllmMlu.Parallel
