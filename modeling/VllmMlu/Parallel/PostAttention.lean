import VllmMlu.Parallel.DPUtils
import VllmMlu.Library.Cuts

/-! The two ways through `process_post_attention_communication` hand every rank
the same rows: the attention outputs of all data parallel ranks, in order. -/
namespace VllmMlu.Parallel

open Library

variable {dpSize tpSize : Nat} {α : Type}

section Paddings

theorem dpGroupTensors_flatten {paddingToTokenNum : Nat} (front : List α)
    {blocks : List (Nat × List α)} (hlength : ∀ block ∈ blocks, block.2.length = paddingToTokenNum)
    (hfits : ∀ block ∈ blocks, block.1 ≤ paddingToTokenNum) :
    (dpGroupTensors (front ++ (blocks.map Prod.snd).flatten) paddingToTokenNum front.length
      (blocks.map Prod.fst)).flatten = (blocks.map fun block => block.2.take block.1).flatten := by
  induction blocks generalizing front with
  | nil => rfl
  | cons block rest ih =>
      have hblock := hlength block List.mem_cons_self
      have hle := hfits block List.mem_cons_self
      have htail := @ih (front ++ block.2)
        (fun other hmem => hlength other (List.mem_cons_of_mem _ hmem))
        (fun other hmem => hfits other (List.mem_cons_of_mem _ hmem))
      rw [List.length_append, hblock, List.append_assoc] at htail
      simp only [List.map_cons, List.flatten_cons, dpGroupTensors]
      split
      · rw [List.flatten_cons, htail, Rows.slice_append_of_ge (Nat.le_refl _), Nat.sub_self,
          Rows.slice_append_of_le (by omega)]
        simp [Rows.slice]
      · rename_i hzero
        rw [htail, Decidable.not_not.mp hzero, List.take_zero, List.nil_append]

theorem dpGroupTensors_ne_nil (hiddenStates : List α) (paddingToTokenNum offset : Nat)
    {tokenNumList : List Nat} (h : ∃ num ∈ tokenNumList, num ≠ 0) :
    dpGroupTensors hiddenStates paddingToTokenNum offset tokenNumList ≠ [] := by
  induction tokenNumList generalizing offset with
  | nil => simp at h
  | cons num rest ih =>
      unfold dpGroupTensors
      split
      · exact List.cons_ne_nil _ _
      · rename_i hzero
        apply ih
        simp only [List.mem_cons, exists_eq_or_imp] at h
        exact h.resolve_left hzero

/-- The first rows of every block, where not every block is all padding. -/
theorem removePaddings_flatten (paddingToTokenNum : Nat) (blocks : List (Nat × List α))
    (hlength : ∀ block ∈ blocks, block.2.length = paddingToTokenNum)
    (hfits : ∀ block ∈ blocks, block.1 ≤ paddingToTokenNum) (hsome : ∃ block ∈ blocks, block.1 ≠ 0) :
    removePaddingsAfterAllGather (blocks.map Prod.snd).flatten paddingToTokenNum
      (blocks.map Prod.fst) = some (blocks.map fun block => block.2.take block.1).flatten := by
  have hflatten := dpGroupTensors_flatten [] hlength hfits
  have hne := dpGroupTensors_ne_nil (blocks.map Prod.snd).flatten paddingToTokenNum 0
    (show ∃ num ∈ blocks.map Prod.fst, num ≠ 0 by simpa using hsome)
  rw [List.nil_append, List.length_nil] at hflatten
  rw [← hflatten]
  unfold removePaddingsAfterAllGather
  split
  · rename_i hnil
    exact absurd hnil hne
  · rename_i only honly
    rw [honly, List.flatten_singleton]
  · rfl

end Paddings

section Rules

variable [AddCommMonoid α] (lead : Rank dpSize tpSize) {inputs : Rank dpSize tpSize → List α}

theorem run_allReduce_tp {rows : Fin dpSize → Nat}
    (h : ∀ rank, (inputs rank).length = rows rank.1) :
    Program.run Collective.exchange lead (fun rank => tensorModelParallelAllReduce (inputs rank)) =
      some fun rank => tpSum inputs rank.1 := by
  simp only [tensorModelParallelAllReduce, Program.run_collective, Collective.exchange]
  rw [if_pos (sameRows_tp h), Option.bind_some, Program.run_done]
  simp [Group.members, tpSum, Function.comp_def]

theorem run_reduceScatter_tp (rows : Fin dpSize → Nat)
    (h : ∀ rank, (inputs rank).length = rows rank.1) (hdvd : ∀ dpRank, tpSize ∣ rows dpRank) :
    Program.run Collective.exchange lead
        (fun rank => tensorModelParallelReduceScatter (inputs rank)) =
      some fun rank => Rows.chunk (rows rank.1 / tpSize) rank.2 (tpSum inputs rank.1) := by
  simp only [tensorModelParallelReduceScatter, Program.run_collective, Collective.exchange]
  rw [if_pos ⟨sameRows_tp h, fun rank => by rw [length_members_tp, h]; exact hdvd rank.1⟩,
    Option.bind_some, Program.run_done]
  simp [Group.members, Group.position, tpSum, Function.comp_def, h]

theorem run_allGather_world {rows : Nat} (h : ∀ rank, (inputs rank).length = rows) :
    Program.run Collective.exchange lead
        (fun rank => tensorModelParallelAllGather (inputs rank) .world) =
      some fun _ => ((List.finRange dpSize).map fun dpRank =>
        ((List.finRange tpSize).map fun tpRank => inputs (dpRank, tpRank)).flatten).flatten := by
  simp only [tensorModelParallelAllGather, Program.run_collective, Collective.exchange]
  rw [if_pos (sameRows_of_const h), Option.bind_some, Program.run_done]
  congr 1
  funext rank
  rw [Group.members, List.map_flatMap, List.flatMap_def, List.flatten_flatten, List.map_map]
  simp only [List.map_map, Function.comp_def]

theorem run_allGather_dp {rows : Nat} (h : ∀ rank, (inputs rank).length = rows) :
    Program.run Collective.exchange lead
        (fun rank => tensorModelParallelAllGather (inputs rank) .dp) =
      some fun rank => ((List.finRange dpSize).map fun dpRank => inputs (dpRank, rank.2)).flatten := by
  simp only [tensorModelParallelAllGather, Program.run_collective, Collective.exchange]
  rw [if_pos (sameRows_of_const h), Option.bind_some, Program.run_done]
  simp [Group.members, Function.comp_def]

/-- Gathering the chunks of every data parallel rank's rows gathers the rows. -/
theorem run_allGather_world_chunks {blocks : Fin dpSize → List α} {size : Nat}
    (h : ∀ dpRank, (blocks dpRank).length = tpSize * size) :
    Program.run Collective.exchange lead (fun rank : Rank dpSize tpSize =>
        tensorModelParallelAllGather (Rows.chunk size rank.2 (blocks rank.1)) .world) =
      some fun _ => ((List.finRange dpSize).map blocks).flatten := by
  have hrows : ∀ rank : Rank dpSize tpSize,
      (Rows.chunk size rank.2 (blocks rank.1)).length = size :=
    fun rank => Rows.length_chunk rank.2.isLt (h rank.1)
  rw [run_allGather_world lead hrows]
  simp only [Rows.flatten_chunks (h _)]

/-- The gather over the data parallel ranks, padded where their rows differ in number. -/
theorem run_allGatherDp_dp {blocks : Fin dpSize → List α}
    (hsome : ∃ dpRank, blocks dpRank ≠ []) :
    Program.run Collective.exchange lead (fun rank : Rank dpSize tpSize =>
        tensorModelParallelAllGatherDp ((List.finRange dpSize).map fun dpRank =>
          (blocks dpRank).length) (Group.dp.position rank) (blocks rank.1) .dp) =
      some fun _ => ((List.finRange dpSize).map blocks).flatten := by
  set tokens := (List.finRange dpSize).map fun dpRank => (blocks dpRank).length with htokens
  have hmem : ∀ dpRank, (blocks dpRank).length ∈ tokens := fun dpRank =>
    List.mem_map.mpr ⟨dpRank, List.mem_finRange _, rfl⟩
  by_cases hequal : tokens.all (fun num => some num == tokens.head?)
  · have hrows : ∀ rank : Rank dpSize tpSize, (blocks rank.1).length = (blocks lead.1).length := by
      intro rank
      have hall := List.all_eq_true.mp hequal
      have hfirst := hall _ (hmem rank.1)
      have hlead := hall _ (hmem lead.1)
      rw [beq_iff_eq] at hfirst hlead
      rw [← hlead] at hfirst
      exact Option.some.inj hfirst
    simp only [tensorModelParallelAllGatherDp, if_pos hequal]
    exact run_allGather_dp lead hrows
  · obtain ⟨most, hmost, -, hle⟩ := Cuts.exists_max? (List.ne_nil_of_mem (hmem lead.1))
    have hown : ∀ rank : Rank dpSize tpSize,
        tokens[Group.dp.position rank]? = some (blocks rank.1).length := by
      intro rank
      simp [htokens, Group.position]
    let padded : Fin dpSize → List α := fun dpRank =>
      if (most : Int) - (blocks dpRank).length > 0 then
        Rows.pad (blocks dpRank) (most - (blocks dpRank).length)
      else
        blocks dpRank
    have hlength : ∀ dpRank, (padded dpRank).length = most := by
      intro dpRank
      have hblock := hle _ (hmem dpRank)
      simp only [padded]
      split
      · rw [Rows.length_pad (by omega)]
        omega
      · omega
    have htake : ∀ dpRank, (padded dpRank).take (blocks dpRank).length = blocks dpRank := by
      intro dpRank
      simp only [padded]
      split
      · exact Rows.take_pad (by omega)
      · exact List.take_length
    have hgather := run_allGather_dp lead
      (show ∀ rank : Rank dpSize tpSize, (padded rank.1).length = most from
        fun rank => hlength rank.1)
    have hremove := removePaddings_flatten most
      ((List.finRange dpSize).map fun dpRank => ((blocks dpRank).length, padded dpRank))
      (by simp [hlength]) (by simpa using fun dpRank => hle _ (hmem dpRank))
      (by simpa using hsome)
    simp only [List.map_map, Function.comp_def, htake] at hremove
    simp only [tensorModelParallelAllGatherDp, if_neg hequal, hmost, hown, Program.ofOption,
      Program.done_bind]
    rw [Program.run_bind _ _ hgather]
    simp only [← htokens] at hremove
    simp only [hremove, Program.run_done]

/-- The gather over all cards of equally many rows on each. -/
theorem run_allGatherDp_world {blocks : Fin dpSize → List α} {size : Nat}
    (h : ∀ dpRank, (blocks dpRank).length = tpSize * size) :
    Program.run Collective.exchange lead (fun rank : Rank dpSize tpSize =>
        tensorModelParallelAllGatherDp (List.replicate (dpSize * tpSize) size)
          (Group.world.position rank) (Rows.chunk size rank.2 (blocks rank.1)) .world) =
      some fun _ => ((List.finRange dpSize).map blocks).flatten := by
  simp only [tensorModelParallelAllGatherDp, all_eq_head?_replicate, if_true]
  exact run_allGather_world_chunks lead h

end Rules

section Branches

variable [AddCommMonoid α] (lead : Rank dpSize tpSize) {partials : Rank dpSize tpSize → List α}
  {tokens : Fin dpSize → Nat}

theorem tpSize_pos (lead : Rank dpSize tpSize) : 0 < tpSize := Fin.pos lead.2

/-- All-reduce, then gather over the data parallel ranks. -/
theorem run_plain {params : Rank dpSize tpSize → MLUDPMetadata}
    (hrows : ∀ rank, (partials rank).length = tokens rank.1) (hsome : ∃ dpRank, tokens dpRank ≠ 0)
    (hplain : ∀ rank, (params rank).prefillPadToTokenNum = -1)
    (hsplit : ∀ rank, (params rank).tokenSplitList = (List.finRange dpSize).map tokens) :
    Program.run Collective.exchange lead (fun rank =>
        processPostAttentionCommunication rank (partials rank) (params rank)) =
      some fun _ => ((List.finRange dpSize).map (tpSum partials)).flatten := by
  have hlength := length_tpSum _ (tpSize_pos lead) hrows
  have hne : ∃ dpRank, tpSum partials dpRank ≠ [] := by
    obtain ⟨dpRank, hrank⟩ := hsome
    refine ⟨dpRank, fun hnil => hrank ?_⟩
    rw [← hlength, hnil, List.length_nil]
  simp only [processPostAttentionCommunication, hplain, ne_eq, not_true_eq_false, if_false]
  rw [Program.run_bind _ _ (run_allReduce_tp lead hrows)]
  have htokens : tokens = fun dpRank => (tpSum partials dpRank).length :=
    funext fun dpRank => (hlength dpRank).symm
  simp only [hsplit, htokens]
  exact run_allGatherDp_dp lead hne

/-- Pad, reduce-scatter, gather over all cards, and remove the padding. -/
theorem run_padded {params : Rank dpSize tpSize → MLUDPMetadata} {pad : Nat}
    (hrows : ∀ rank, (partials rank).length = tokens rank.1) (hsome : ∃ dpRank, tokens dpRank ≠ 0)
    (hdvd : tpSize ∣ pad) (hfits : ∀ dpRank, tokens dpRank ≤ pad)
    (hpad : ∀ rank, (params rank).prefillPadToTokenNum = pad)
    (htoken : ∀ rank, (params rank).tokenNum = tokens rank.1)
    (hattn : ∀ rank, (params rank).attnTokenSplitListReduceScatter =
      some (List.replicate (dpSize * tpSize) (pad / tpSize)))
    (hsplit : ∀ rank, (params rank).tokenSplitList = (List.finRange dpSize).map tokens) :
    Program.run Collective.exchange lead (fun rank =>
        processPostAttentionCommunication rank (partials rank) (params rank)) =
      some fun _ => ((List.finRange dpSize).map (tpSum partials)).flatten := by
  let padded : Rank dpSize tpSize → List α := fun rank =>
    if (pad : Int) - tokens rank.1 ≠ 0 then
      Rows.pad (partials rank) (pad - tokens rank.1)
    else
      partials rank
  have hlength : ∀ rank, (padded rank).length = pad := by
    intro rank
    have hle := hfits rank.1
    have hown := hrows rank
    simp only [padded]
    split
    · rw [Rows.length_pad (by omega)]
      omega
    · omega
  have htake : ∀ rank, (padded rank).take (tokens rank.1) = partials rank := by
    intro rank
    have hle := hfits rank.1
    have hown := hrows rank
    rw [← hown]
    simp only [padded]
    split
    · exact Rows.take_pad (by omega)
    · exact List.take_length
  have hsum : ∀ dpRank, (tpSum padded dpRank).take (tokens dpRank) = tpSum partials dpRank := by
    intro dpRank
    rw [tpSum, Rows.take_sum, List.map_map]
    simp only [Function.comp_def, htake (dpRank, _), tpSum]
  have hblock : ∀ dpRank, (tpSum padded dpRank).length = tpSize * (pad / tpSize) := by
    intro dpRank
    rw [length_tpSum (fun _ => pad) (tpSize_pos lead) hlength, Nat.mul_div_cancel' hdvd]
  have hscatter := run_reduceScatter_tp lead (fun _ => pad) hlength (fun _ => hdvd)
  have hgather := run_allGatherDp_world lead hblock
  have hremove := removePaddings_flatten pad
    ((List.finRange dpSize).map fun dpRank => (tokens dpRank, tpSum padded dpRank))
    (by simp [hblock, Nat.mul_div_cancel' hdvd]) (by simpa using hfits) (by simpa using hsome)
  simp only [List.map_map, Function.comp_def, hsum] at hremove
  have hne : (pad : Int) ≠ -1 := by omega
  simp only [processPostAttentionCommunication, hpad, htoken, hattn, hsplit, if_pos hne]
  rw [Program.run_bind _ _ hscatter]
  simp only [Program.ofOption, Program.done_bind]
  rw [Program.run_bind _ _ hgather]
  simp only [Int.toNat_natCast, hremove, Program.run_done]

end Branches

section Agreement

variable [AddCommMonoid α]

/-- One rank's communication after attention, with the metadata it computes. -/
def postAttention (dpTokenNums : List Nat) (dpIsPrefill : List Bool)
    (prefillDispatchUseRSAG : Bool) (lists : SplitLists) (rank : Rank dpSize tpSize)
    (hiddenStates : List α) : Comm α (List α) := do
  let dpParams ← .ofOption (MLUDPMetadata.makeOot rank.1 dpSize tpSize dpTokenNums dpIsPrefill
    prefillDispatchUseRSAG lists)
  processPostAttentionCommunication rank hiddenStates dpParams

/-- Whatever branch the metadata selects, every rank ends with the attention
outputs of all data parallel ranks in order. -/
theorem run_postAttention (lead : Rank dpSize tpSize) {partials : Rank dpSize tpSize → List α}
    {tokens : Fin dpSize → Nat} (hrows : ∀ rank, (partials rank).length = tokens rank.1)
    (hsome : ∃ dpRank, tokens dpRank ≠ 0) (dpIsPrefill : List Bool) (useRSAG : Bool)
    (lists : SplitLists) :
    Program.run Collective.exchange lead (fun rank =>
        postAttention ((List.finRange dpSize).map tokens) dpIsPrefill useRSAG lists rank
          (partials rank)) =
      some fun _ => ((List.finRange dpSize).map (tpSum partials)).flatten := by
  have hown : ∀ dpRank : Fin dpSize,
      ((List.finRange dpSize).map tokens)[dpRank.val]? = some (tokens dpRank) := by
    intro dpRank
    simp
  have hmem : ∀ dpRank, tokens dpRank ∈ (List.finRange dpSize).map tokens := fun dpRank =>
    List.mem_map.mpr ⟨dpRank, List.mem_finRange _, rfl⟩
  simp only [postAttention]
  cases hlayer : layerCanUseReduceScatter tpSize ((List.finRange dpSize).map tokens) with
  | true =>
      obtain ⟨first, hfirst⟩ : ∃ first, ((List.finRange dpSize).map tokens).head? = some first :=
        Option.isSome_iff_exists.mp (List.isSome_head?.mpr (List.ne_nil_of_mem (hmem lead.1)))
      simp only [MLUDPMetadata.makeOot_layer (hown _) hfirst hlayer, Program.ofOption,
        Program.done_bind]
      exact run_plain lead hrows hsome (fun _ => rfl) (fun _ => rfl)
  | false =>
      cases hpad : useRSAG && dpIsPrefill.all id with
      | true =>
          obtain ⟨most, hmost, -, hlens⟩ :=
            Cuts.exists_max? (List.ne_nil_of_mem (hmem lead.1))
          have hle := fun dpRank => hlens _ (hmem dpRank)
          have hfits := fun dpRank =>
            Nat.le_trans (hle dpRank) (le_padToMultiple (tpSize_pos lead) most)
          simp only [MLUDPMetadata.makeOot_padded (hown _) hmost hlayer hpad, Program.ofOption,
            Program.done_bind]
          exact run_padded lead hrows hsome (dvd_padToMultiple tpSize most) hfits (fun _ => rfl)
            (fun _ => rfl) (fun _ => rfl) (fun _ => rfl)
      | false =>
          simp only [MLUDPMetadata.makeOot_plain (hown _) hlayer hpad, Program.ofOption,
            Program.done_bind]
          exact run_plain lead hrows hsome (fun _ => rfl) (fun _ => rfl)

/-- The padded reduce-scatter and all-gather agree with all-reduce and all-gather. -/
theorem post_attention_paths_agree (lead : Rank dpSize tpSize)
    (partials : Rank dpSize tpSize → List α) (tokens : Fin dpSize → Nat)
    (hrows : ∀ rank, (partials rank).length = tokens rank.1)
    (hsome : ∃ dpRank, tokens dpRank ≠ 0) (dpIsPrefill : List Bool) (lists : SplitLists) :
    let padded := Program.run Collective.exchange lead fun rank =>
      postAttention ((List.finRange dpSize).map tokens) dpIsPrefill true lists rank (partials rank)
    let plain := Program.run Collective.exchange lead fun rank =>
      postAttention ((List.finRange dpSize).map tokens) dpIsPrefill false lists rank (partials rank)
    padded = plain ∧
      plain = some fun _ => ((List.finRange dpSize).map (tpSum partials)).flatten := by
  have hpadded := run_postAttention lead hrows hsome dpIsPrefill true lists
  have hplain := run_postAttention lead hrows hsome dpIsPrefill false lists
  exact ⟨hpadded.trans hplain.symm, hplain⟩

end Agreement

/-- Uneven ranks, one of them without tokens. -/
def unevenTokens : Fin 3 → Nat := ![3, 0, 2]

def unevenPartials (rank : Rank 3 2) : List Int :=
  List.replicate (unevenTokens rank.1) (10 * rank.1 + rank.2)

theorem post_attention_paths_agree_uneven :
    (Program.run Collective.exchange (0, 0) fun rank =>
        postAttention [3, 0, 2] [true, true, true] true {} rank (unevenPartials rank)) =
      some fun _ => [1, 1, 1, 41, 41] := by
  obtain ⟨hpadded, hplain⟩ := post_attention_paths_agree (0, 0) unevenPartials unevenTokens
    (fun _ => List.length_replicate) ⟨0, by decide⟩ [true, true, true] {}
  exact hpadded.trans (hplain.trans (by decide))

end VllmMlu.Parallel
