import VllmMlu.Library.Dict
import VllmMlu.Library.Swaps

/-! Entries moved to their destinations by swaps that follow one cycle of a map after the
other, where the map is updated while it is followed. -/
namespace VllmMlu.Library.Cycles

open Swaps

variable {α : Type}

/-- `plan.get(place, place)`. -/
def destination (plan : Dict Nat Nat) (place : Nat) : Nat := (plan.get? place).getD place

/-- `while src != dst`: the entry at `src` goes to `dst`, whose own one goes on from `src`. -/
def followCycle (src : Nat) : Nat → Nat → Dict Nat Nat → List α → Option (Dict Nat Nat × List α)
  | 0, dst, plan, xs => if src = dst then some (plan, xs) else none
  | fuel + 1, dst, plan, xs =>
      if src = dst then some (plan, xs)
      else followCycle src fuel (destination plan dst) (plan.set dst dst) (swapAt xs src dst)

/-- One cycle after the other. -/
def followPlan (fuel : Nat) (srcs : List Nat) (plan : Dict Nat Nat) (xs : List α) :
    Option (Dict Nat Nat × List α) :=
  srcs.foldlM (fun state src =>
    followCycle src fuel (destination state.1 src) state.1 state.2) (plan, xs)

theorem destination_set (plan : Dict Nat Nat) (dst place : Nat) :
    destination (plan.set dst dst) place = if place = dst then dst else destination plan place := by
  unfold destination
  rw [Dict.get?_set]
  split <;> rfl

/-- Moving the entries by `move` gives `goal`, and only the entries at `places` still move. -/
structure Pending (goal : Nat → Option α) (places : Finset Nat) (move : Equiv.Perm Nat)
    (xs : List α) : Prop where
  inside : ∀ i, move i ≠ i → i ∈ places
  short : ∀ i ∈ places, i < xs.length
  goal_eq : ∀ i, goal (move i) = xs[i]?

/-- How many entries still move. -/
def numPending (places : Finset Nat) (move : Equiv.Perm Nat) : Nat :=
  (places.filter fun i => move i ≠ i).card

namespace Pending

variable {goal : Nat → Option α} {places : Finset Nat} {move : Equiv.Perm Nat} {xs : List α}
  {src : Nat}

/-- The place that an entry goes to moves, too. -/
theorem move_move_ne (move : Equiv.Perm Nat) (hne : move src ≠ src) :
    move (move src) ≠ move src := fun heq => hne (move.injective heq)

/-- A swap brings one entry to its place. -/
theorem swap (hpending : Pending goal places move xs) (hne : move src ≠ src) :
    Pending goal places (move * Equiv.swap src (move src)) (swapAt xs src (move src)) ∧
      numPending places (move * Equiv.swap src (move src)) < numPending places move := by
  have hsrc := hpending.inside src hne
  have hdst := hpending.inside (move src) (move_move_ne move hne)
  have hmoves : ∀ i, (move * Equiv.swap src (move src)) i ≠ i → move i ≠ i ∧ i ≠ move src := by
    intro i hi
    rw [Equiv.Perm.mul_apply] at hi
    rcases eq_or_ne i src with rfl | hisrc
    · exact ⟨hne, hne.symm⟩
    · rcases eq_or_ne i (move src) with rfl | hidst
      · rw [Equiv.swap_apply_right] at hi
        exact absurd rfl hi
      · rw [Equiv.swap_apply_of_ne_of_ne hisrc hidst] at hi
        exact ⟨hi, hidst⟩
  refine ⟨⟨fun i hi => hpending.inside i (hmoves i hi).1, fun i hi => ?_, fun i => ?_⟩, ?_⟩
  · rw [length_swapAt]
    exact hpending.short i hi
  · rw [getElem?_swapAt (hpending.short src hsrc) (hpending.short _ hdst), Equiv.Perm.mul_apply,
      hpending.goal_eq, Equiv.swap_apply_def]
    split_ifs with hisrc hidst hidst
    · rw [hidst] at hisrc
      exact absurd hisrc hne
    · rfl
    · rfl
    · rfl
  · apply Finset.card_lt_card
    rw [Finset.ssubset_iff_of_subset]
    · refine ⟨move src, Finset.mem_filter.mpr ⟨hdst, move_move_ne move hne⟩, fun hmem => ?_⟩
      exact (hmoves _ (Finset.mem_filter.mp hmem).2).2 rfl
    · intro i hmem
      rw [Finset.mem_filter] at hmem ⊢
      exact ⟨hmem.1, (hmoves i hmem.2).1⟩

end Pending

/-- The map tells where the entries go that are not done, and the others stay. -/
structure Follows (plan : Dict Nat Nat) (done : Finset Nat) (move : Equiv.Perm Nat) : Prop where
  next : ∀ i ∉ done, destination plan i = move i
  stay : ∀ i ∈ done, move i = i

variable {goal : Nat → Option α} {places done : Finset Nat} {move : Equiv.Perm Nat} {xs : List α}

theorem Follows.close {plan : Dict Nat Nat} {src : Nat}
    (hnext : ∀ i, i ≠ src → i ∉ done → destination plan i = move i)
    (hstay : ∀ i ∈ done, move i = i) (hclosed : move src = src) :
    Follows plan (insert src done) move := by
  constructor
  · intro i hi
    rw [Finset.mem_insert, not_or] at hi
    exact hnext i hi.1 hi.2
  · intro i hi
    rcases Finset.mem_insert.mp hi with rfl | hi
    · exact hclosed
    · exact hstay i hi

/-- Following one cycle closes it, whether or not the map still says so at its start. -/
theorem followCycle_returns {src fuel : Nat} {plan : Dict Nat Nat}
    (hpending : Pending goal places move xs) (hfuel : numPending places move ≤ fuel)
    (hnext : ∀ i, i ≠ src → i ∉ done → destination plan i = move i)
    (hstay : ∀ i ∈ done, move i = i) :
    ∃ next rows rest, followCycle src fuel (move src) plan xs = some (next, rows) ∧
      Pending goal places rest rows ∧ numPending places rest ≤ numPending places move ∧
      Follows next (insert src done) rest ∧ rows.Perm xs := by
  induction fuel generalizing move plan xs with
  | zero =>
      have hclosed : move src = src := by
        by_contra hne
        have hmem : src ∈ places.filter fun i => move i ≠ i :=
          Finset.mem_filter.mpr ⟨hpending.inside src hne, hne⟩
        have hpos := Finset.card_pos.mpr ⟨src, hmem⟩
        unfold numPending at hfuel
        omega
      exact ⟨plan, xs, move, by rw [followCycle, if_pos hclosed.symm], hpending, le_refl _,
        .close hnext hstay hclosed, .refl _⟩
  | succ fuel ih =>
      by_cases hclosed : move src = src
      · exact ⟨plan, xs, move, by rw [followCycle, if_pos hclosed.symm], hpending, le_refl _,
          .close hnext hstay hclosed, .refl _⟩
      · obtain ⟨hswapped, hless⟩ := hpending.swap hclosed
        have hagain := Pending.move_move_ne move hclosed
        have hundone : move src ∉ done := fun hin => hagain (hstay _ hin)
        have hsrc : (move * Equiv.swap src (move src)) src = destination plan (move src) := by
          rw [Equiv.Perm.mul_apply, Equiv.swap_apply_left, hnext _ hclosed hundone]
        have hother : ∀ i, i ≠ src → i ≠ move src →
            (move * Equiv.swap src (move src)) i = move i := fun i hisrc hidst => by
          rw [Equiv.Perm.mul_apply, Equiv.swap_apply_of_ne_of_ne hisrc hidst]
        obtain ⟨next, rows, rest, hfollow, hrest, hcount, hfollows, hperm⟩ := @ih
          (move * Equiv.swap src (move src)) (swapAt xs src (move src))
          (plan.set (move src) (move src)) hswapped (by omega)
          (by
            intro i hisrc hidone
            rw [destination_set]
            split
            · rename_i heq
              rw [heq, Equiv.Perm.mul_apply, Equiv.swap_apply_right]
            · rename_i hne
              rw [hother i hisrc hne, hnext i hisrc hidone])
          (by
            intro i hi
            have hisrc : i ≠ src := fun heq => hclosed (heq ▸ hstay i hi)
            rw [hother i hisrc fun heq => hundone (heq ▸ hi), hstay i hi])
        refine ⟨next, rows, rest, ?_, hrest, by omega, hfollows,
          hperm.trans (swapAt_perm xs src (move src))⟩
        rw [followCycle, if_neg (Ne.symm hclosed), ← hsrc]
        exact hfollow

/-- Following the cycles of all places brings every entry to its destination. -/
theorem followPlan_returns {srcs : List Nat} {fuel : Nat} {plan : Dict Nat Nat}
    (hpending : Pending goal places move xs) (hfuel : numPending places move ≤ fuel)
    (hnodup : srcs.Nodup) (hfresh : ∀ src ∈ srcs, src ∉ done) (hfollows : Follows plan done move) :
    ∃ next rows rest, followPlan fuel srcs plan xs = some (next, rows) ∧
      Pending goal places rest rows ∧ Follows next (done ∪ srcs.toFinset) rest ∧
      rows.Perm xs := by
  induction srcs generalizing done move plan xs with
  | nil => exact ⟨plan, xs, move, rfl, hpending, by simpa using hfollows, .refl _⟩
  | cons src srcs ih =>
      rw [List.nodup_cons] at hnodup
      obtain ⟨middle, between, rest, hcycle, hrest, hcount, hmiddle, hperm⟩ :=
        @followCycle_returns _ goal places done move xs src fuel plan hpending hfuel
          (fun i _ hi => hfollows.next i hi) hfollows.stay
      have hother : ∀ other ∈ srcs, other ∉ insert src done := by
        intro other hmem hin
        rcases Finset.mem_insert.mp hin with rfl | hin
        · exact hnodup.1 hmem
        · exact hfresh other (List.mem_cons_of_mem _ hmem) hin
      obtain ⟨next, rows, last, hplan, hlast, hnext, hrows⟩ :=
        ih hrest (by omega) hnodup.2 hother hmiddle
      refine ⟨next, rows, last, ?_, hlast, ?_, hrows.trans hperm⟩
      · rw [← hfollows.next src (hfresh src List.mem_cons_self)] at hcycle
        rw [followPlan, List.foldlM_cons, hcycle]
        exact hplan
      · rwa [List.toFinset_cons, Finset.union_insert, ← Finset.insert_union]

/-- When all places are done, the entries are where they belong. -/
theorem goal_reached {rest : Equiv.Perm Nat} {rows : List α} {plan : Dict Nat Nat}
    (hpending : Pending goal places rest rows) (hfollows : Follows plan done rest)
    (hall : places ⊆ done) (i : Nat) : rows[i]? = goal i := by
  have hstay : rest i = i := by
    by_contra hne
    exact hne (hfollows.stay i (hall (hpending.inside i hne)))
  rw [← hpending.goal_eq, hstay]

/-! The map of a permutation of places. -/

/-- `{src: dst for src, dst in zip(srcs, dests)}`. -/
def planOf (srcs dests : List Nat) : Dict Nat Nat :=
  (srcs.zip dests).foldl (fun plan pair => plan.set pair.1 pair.2) .empty

theorem entries_foldl_set {pairs : List (Nat × Nat)} {plan : Dict Nat Nat}
    (hnodup : (plan.keys ++ pairs.map Prod.fst).Nodup) :
    (pairs.foldl (fun plan pair => plan.set pair.1 pair.2) plan).entries =
      plan.entries ++ pairs := by
  induction pairs generalizing plan with
  | nil => simp
  | cons pair rest ih =>
      rw [List.map_cons, List.nodup_middle, List.nodup_cons, List.mem_append, not_or] at hnodup
      have hentries := Dict.entries_set_of_not_mem plan pair.1 pair.2 hnodup.1.1
      rw [List.foldl_cons, ih, hentries, List.append_assoc]
      · rfl
      · rw [Dict.keys_set_of_not_mem _ _ _ hnodup.1.1, List.append_assoc, List.singleton_append,
          List.nodup_middle, List.nodup_cons, List.mem_append, not_or]
        exact hnodup

theorem planOf_entries {srcs dests : List Nat} (hnodup : srcs.Nodup)
    (hlength : srcs.length = dests.length) : (planOf srcs dests).entries = srcs.zip dests := by
  rw [planOf, entries_foldl_set]
  · rfl
  · rw [Dict.keys_empty, List.nil_append, List.map_fst_zip hlength.le]
    exact hnodup

theorem planOf_keys {srcs dests : List Nat} (hnodup : srcs.Nodup)
    (hlength : srcs.length = dests.length) : (planOf srcs dests).keys = srcs := by
  rw [Dict.keys, planOf_entries hnodup hlength, List.map_fst_zip hlength.le]

theorem destination_planOf {srcs dests : List Nat} (hnodup : srcs.Nodup)
    (hlength : srcs.length = dests.length) {src dst : Nat} (hmem : (src, dst) ∈ srcs.zip dests) :
    destination (planOf srcs dests) src = dst := by
  rw [← planOf_entries hnodup hlength, ← Dict.get?_eq_some_iff] at hmem
  rw [destination, hmem, Option.getD_some]

theorem destination_of_not_mem {srcs dests : List Nat} (hnodup : srcs.Nodup)
    (hlength : srcs.length = dests.length) {src : Nat} (hmem : src ∉ srcs) :
    destination (planOf srcs dests) src = src := by
  rw [← planOf_keys hnodup hlength, ← Dict.get?_eq_none_iff] at hmem
  rw [destination, hmem, Option.getD_none]

theorem mem_zip_swap {srcs dests : List Nat} {src dst : Nat} (h : (src, dst) ∈ srcs.zip dests) :
    (dst, src) ∈ dests.zip srcs := by
  rw [← List.zip_swap]
  exact List.mem_map.mpr ⟨_, h, rfl⟩

theorem destination_inverse {srcs dests : List Nat} (hsrcs : srcs.Nodup) (hperm : srcs.Perm dests)
    (place : Nat) : destination (planOf dests srcs) (destination (planOf srcs dests) place) =
      place := by
  have hdests := hperm.nodup_iff.mp hsrcs
  by_cases hmem : place ∈ srcs
  · obtain ⟨k, hk, rfl⟩ := List.mem_iff_getElem.mp hmem
    have hk' : k < dests.length := hperm.length_eq ▸ hk
    have hzip : (srcs[k], dests[k]) ∈ srcs.zip dests := by
      rw [← List.getElem_zip (h := by rw [List.length_zip]; omega)]
      exact List.getElem_mem _
    rw [destination_planOf hsrcs hperm.length_eq hzip,
      destination_planOf hdests hperm.length_eq.symm (mem_zip_swap hzip)]
  · rw [destination_of_not_mem hsrcs hperm.length_eq hmem,
      destination_of_not_mem hdests hperm.length_eq.symm fun hin => hmem (hperm.mem_iff.mpr hin)]

/-- The permutation that moves each source to its destination. -/
def moveOf {srcs dests : List Nat} (hsrcs : srcs.Nodup) (hperm : srcs.Perm dests) :
    Equiv.Perm Nat where
  toFun := destination (planOf srcs dests)
  invFun := destination (planOf dests srcs)
  left_inv := destination_inverse hsrcs hperm
  right_inv := destination_inverse (hperm.nodup_iff.mp hsrcs) hperm.symm

/-- Following the map of a permutation of places brings every entry to its destination. -/
theorem followPlan_planOf {srcs dests : List Nat} (hsrcs : srcs.Nodup) (hperm : srcs.Perm dests)
    {xs : List α} (hshort : ∀ src ∈ srcs, src < xs.length) {fuel : Nat}
    (hfuel : srcs.length ≤ fuel) :
    ∃ next rows, followPlan fuel (planOf srcs dests).keys (planOf srcs dests) xs =
        some (next, rows) ∧ rows.Perm xs ∧ (∀ i ∉ srcs, rows[i]? = xs[i]?) ∧
      ∀ pair ∈ srcs.zip dests, rows[pair.2]? = xs[pair.1]? := by
  have hmove : ∀ i, moveOf hsrcs hperm i ≠ i → i ∈ srcs.toFinset := by
    intro i hi
    by_contra hmem
    rw [List.mem_toFinset] at hmem
    exact hi (destination_of_not_mem hsrcs hperm.length_eq hmem)
  have hpending : Pending (fun i => xs[(moveOf hsrcs hperm).symm i]?) srcs.toFinset
      (moveOf hsrcs hperm) xs :=
    ⟨hmove, fun i hi => hshort i (List.mem_toFinset.mp hi), fun i => by
      rw [Equiv.symm_apply_apply]⟩
  have hcount : numPending srcs.toFinset (moveOf hsrcs hperm) ≤ fuel :=
    ((Finset.card_filter_le _ _).trans (List.toFinset_card_le srcs)).trans hfuel
  rw [planOf_keys hsrcs hperm.length_eq]
  obtain ⟨next, rows, rest, hplan, hrest, hfollows, hrows⟩ := @followPlan_returns _ _ _ ∅ _ _ srcs
    fuel (planOf srcs dests) hpending hcount hsrcs (fun _ _ => Finset.notMem_empty _)
    ⟨fun _ _ => rfl, fun i hi => absurd hi (Finset.notMem_empty i)⟩
  have hgoal := goal_reached hrest hfollows (by rw [Finset.empty_union])
  refine ⟨next, rows, hplan, hrows, fun i hi => ?_, fun pair hmem => ?_⟩
  · rw [hgoal]
    change xs[destination (planOf dests srcs) i]? = _
    rw [destination_of_not_mem (hperm.nodup_iff.mp hsrcs) hperm.length_eq.symm fun hin =>
      hi (hperm.mem_iff.mpr hin)]
  · rw [hgoal]
    change xs[destination (planOf dests srcs) pair.2]? = _
    rw [destination_planOf (hperm.nodup_iff.mp hsrcs) hperm.length_eq.symm (mem_zip_swap hmem)]

/-! Places whose keys differ from the wanted ones. -/

/-- `np.where(keys != wanted)[0]`. -/
def differing (keys wanted : List Nat) : List Nat :=
  (List.range keys.length).filter fun i => keys.getD i 0 ≠ wanted.getD i 0

/-- The places in the stable order of their keys. -/
def byKey (keys : List Nat) (places : List Nat) : List Nat :=
  places.insertionSort fun i j => keys.getD i 0 ≤ keys.getD j 0

theorem map_getD_range (xs : List Nat) : (List.range xs.length).map (xs.getD · 0) = xs := by
  apply List.ext_getElem
  · simp
  · intro i hi hlt
    simp [hlt]

theorem nodup_differing (keys wanted : List Nat) : (differing keys wanted).Nodup :=
  List.nodup_range.filter _

theorem eq_of_differing_nil {keys wanted : List Nat} (hlength : keys.length = wanted.length)
    (h : differing keys wanted = []) : keys = wanted := by
  rw [differing, List.filter_eq_nil_iff] at h
  apply List.ext_getElem hlength
  intro i hi hlt
  simpa [hi, hlt] using h i (List.mem_range.mpr hi)

theorem byKey_perm (keys places : List Nat) : (byKey keys places).Perm places :=
  List.perm_insertionSort _ _

/-- Two arrangements of the same keys have the same keys where they differ. -/
theorem differing_perm {keys wanted : List Nat} (hperm : keys.Perm wanted) :
    ((differing keys wanted).map (keys.getD · 0)).Perm
      ((differing keys wanted).map (wanted.getD · 0)) := by
  have hsplit := List.filter_append_perm (fun i => keys.getD i 0 ≠ wanted.getD i 0)
    (List.range keys.length)
  have hkeys := hsplit.map (keys.getD · 0)
  have hwanted := hsplit.map (wanted.getD · 0)
  rw [List.map_append, map_getD_range] at hkeys
  rw [hperm.length_eq, List.map_append, map_getD_range, ← hperm.length_eq] at hwanted
  have hrest : ((List.range keys.length).filter
      fun i => !decide (keys.getD i 0 ≠ wanted.getD i 0)).map (keys.getD · 0) =
        ((List.range keys.length).filter
          fun i => !decide (keys.getD i 0 ≠ wanted.getD i 0)).map (wanted.getD · 0) := by
    apply List.map_congr_left
    intro i hmem
    simpa using (List.mem_filter.mp hmem).2
  rw [hrest] at hkeys
  exact (List.perm_append_right_iff _).mp ((hkeys.trans hperm).trans hwanted.symm)

/-- In the order of their keys the differing places have the wanted keys, one by one. -/
theorem byKey_eq_wanted {keys wanted : List Nat} (hperm : keys.Perm wanted)
    (hsorted : wanted.Pairwise (· ≤ ·)) :
    (byKey keys (differing keys wanted)).map (keys.getD · 0) =
      (differing keys wanted).map (wanted.getD · 0) := by
  have hmap : (byKey keys (differing keys wanted)).map (keys.getD · 0) =
      ((differing keys wanted).map (keys.getD · 0)).insertionSort (· ≤ ·) :=
    List.map_insertionSort _ _ _ _ fun _ _ _ _ => Iff.rfl
  have hwanted : ((differing keys wanted).map (wanted.getD · 0)).Pairwise (· ≤ ·) := by
    have hmono := map_getD_range wanted ▸ hsorted
    rw [← hperm.length_eq] at hmono
    exact hmono.sublist (List.filter_sublist.map _)
  rw [hmap]
  refine List.Perm.eq_of_pairwise' (r := (· ≤ ·)) (List.pairwise_insertionSort _ _) hwanted ?_
  exact (List.perm_insertionSort _ _).trans (differing_perm hperm)

/-- Moving the entries from the differing places in the order of their keys to the differing
places gives every entry the wanted key. -/
theorem followPlan_sorts {key : α → Nat} {xs : List α} {wanted : List Nat}
    (hperm : (xs.map key).Perm wanted) (hsorted : wanted.Pairwise (· ≤ ·)) {fuel : Nat}
    (hfuel : xs.length ≤ fuel) :
    ∃ next rows, followPlan fuel
        (planOf (byKey (xs.map key) (differing (xs.map key) wanted))
          (differing (xs.map key) wanted)).keys
        (planOf (byKey (xs.map key) (differing (xs.map key) wanted))
          (differing (xs.map key) wanted)) xs = some (next, rows) ∧
      rows.Perm xs ∧ rows.map key = wanted := by
  have hbyKey := byKey_perm (xs.map key) (differing (xs.map key) wanted)
  have hnodup := hbyKey.nodup_iff.mpr (nodup_differing _ _)
  have hshort : ∀ i ∈ byKey (xs.map key) (differing (xs.map key) wanted), i < xs.length := by
    intro i hi
    have hrange := (List.mem_filter.mp (hbyKey.mem_iff.mp hi)).1
    rwa [List.mem_range, List.length_map] at hrange
  have hcount : (byKey (xs.map key) (differing (xs.map key) wanted)).length ≤ fuel := by
    have hle := List.length_filter_le (fun i => decide ((xs.map key).getD i 0 ≠ wanted.getD i 0))
      (List.range (xs.map key).length)
    rw [List.length_range, List.length_map] at hle
    rw [hbyKey.length_eq, differing, List.length_map]
    omega
  obtain ⟨next, rows, hplan, hrows, hkept, hmoved⟩ :=
    followPlan_planOf hnodup hbyKey hshort hcount
  refine ⟨next, rows, hplan, hrows, ?_⟩
  have hlength : wanted.length = xs.length := by rw [← hperm.length_eq, List.length_map]
  -- Every place gets the entry of a place whose key is the wanted one.
  have hfrom : ∀ i < xs.length, ∃ j, rows[i]? = xs[j]? ∧ j < xs.length ∧
      (xs.map key).getD j 0 = wanted.getD i 0 := by
    intro i hi
    by_cases hdiffers : i ∈ differing (xs.map key) wanted
    · obtain ⟨k, hk, rfl⟩ := List.mem_iff_getElem.mp hdiffers
      have hk' : k < (byKey (xs.map key) (differing (xs.map key) wanted)).length :=
        hbyKey.length_eq ▸ hk
      refine ⟨(byKey (xs.map key) (differing (xs.map key) wanted))[k], ?_,
        hshort _ (List.getElem_mem hk'), ?_⟩
      · refine hmoved (_, _) ?_
        rw [← List.getElem_zip (h := by rw [List.length_zip]; omega)]
        exact List.getElem_mem _
      · have hentry := congrArg (·[k]?) (byKey_eq_wanted hperm hsorted)
        simpa [List.getElem?_eq_getElem hk, List.getElem?_eq_getElem hk'] using hentry
    · refine ⟨i, hkept i fun hin => hdiffers (hbyKey.mem_iff.mp hin), hi, ?_⟩
      by_contra hne
      exact hdiffers (List.mem_filter.mpr ⟨by simpa using hi, by simpa using hne⟩)
  apply List.ext_getElem
  · rw [List.length_map, hrows.length_eq, hlength]
  · intro i hi hlt
    obtain ⟨j, hrow, hj, hkey⟩ := hfrom i (hlength ▸ hlt)
    rw [List.length_map] at hi
    rw [List.getElem?_eq_getElem hi, List.getElem?_eq_getElem hj, Option.some.injEq] at hrow
    rw [List.getElem_map, hrow]
    simpa [hj, hlt] using hkey

end VllmMlu.Library.Cycles
