import Mathlib

/-! A causal model that keeps an entry for each token in a cache: sequences of tokens, each run
behind those whose entries are in the cache already. -/
namespace VllmMlu.Library

/-- The entry and the hidden state of a token come from the entries before it. -/
structure CausalModel (τ κ η : Type) where
  entry : List κ → τ → κ
  hidden : List κ → τ → η

namespace CausalModel

variable {τ κ η σ : Type} (model : CausalModel τ κ η)

def run (entries : List κ) : List τ → List (κ × η)
  | [] => []
  | token :: rest =>
      (model.entry entries token, model.hidden entries token) ::
        run (entries ++ [model.entry entries token]) rest

def entries (tokens : List τ) : List κ := (model.run [] tokens).map Prod.fst

def hiddens (tokens : List τ) : List η := (model.run [] tokens).map Prod.snd

/-- The hidden state of the last token, which the next one is sampled from. -/
def lastHidden (tokens : List τ) : Option η := (model.hiddens tokens).getLast?

@[simp] theorem length_run (before : List κ) (tokens : List τ) :
    (model.run before tokens).length = tokens.length := by
  induction tokens generalizing before with
  | nil => rfl
  | cons token rest ih => simp [run, ih]

theorem run_append (before : List κ) (front back : List τ) :
    model.run before (front ++ back) =
      model.run before front ++
        model.run (before ++ (model.run before front).map Prod.fst) back := by
  induction front generalizing before with
  | nil => simp [run]
  | cons token rest ih => simp [run, ih]

@[simp] theorem length_entries (tokens : List τ) :
    (model.entries tokens).length = tokens.length := by
  simp [entries]

@[simp] theorem length_hiddens (tokens : List τ) :
    (model.hiddens tokens).length = tokens.length := by
  simp [hiddens]

theorem entries_append (front back : List τ) :
    model.entries (front ++ back) =
      model.entries front ++ (model.run (model.entries front) back).map Prod.fst := by
  simp [entries, run_append]

theorem hiddens_append (front back : List τ) :
    model.hiddens (front ++ back) =
      model.hiddens front ++ (model.run (model.entries front) back).map Prod.snd := by
  simp [hiddens, entries, run_append]

theorem drop_hiddens_append (front back : List τ) :
    (model.hiddens (front ++ back)).drop front.length =
      (model.run (model.entries front) back).map Prod.snd := by
  rw [hiddens_append, ← model.length_hiddens front, List.drop_left]

theorem entries_take (tokens : List τ) (count : Nat) :
    model.entries (tokens.take count) = (model.entries tokens).take count := by
  conv_rhs => rw [← List.take_append_drop count tokens, entries_append]
  rcases Nat.le_total count tokens.length with hle | hle
  · rw [List.take_append_of_le_length (by simp [hle])]
    simp [hle]
  · simp [List.take_of_length_le, List.drop_of_length_le, hle, run]

theorem hiddens_take (tokens : List τ) (count : Nat) :
    model.hiddens (tokens.take count) = (model.hiddens tokens).take count := by
  conv_rhs => rw [← List.take_append_drop count tokens, hiddens_append]
  rcases Nat.le_total count tokens.length with hle | hle
  · rw [List.take_append_of_le_length (by simp [hle])]
    simp [hle]
  · simp [List.take_of_length_le, List.drop_of_length_le, hle, run]

/-- The entries of the first tokens do not depend on the tokens after them. -/
theorem getElem?_entries_of_take {left right : List τ} {count pos : Nat}
    (hsame : left.take count = right.take count) (hpos : pos < count) :
    (model.entries left)[pos]? = (model.entries right)[pos]? := by
  rw [← List.getElem?_take_of_lt hpos, ← entries_take, hsame, entries_take,
    List.getElem?_take_of_lt hpos]

theorem getElem?_hiddens {tokens : List τ} {pos : Nat} (hpos : pos < tokens.length) :
    (model.hiddens tokens)[pos]? = model.lastHidden (tokens.take (pos + 1)) := by
  rw [lastHidden, hiddens_take, List.getLast?_eq_getElem?, List.length_take,
    length_hiddens, Nat.min_eq_left hpos, Nat.succ_sub_one,
    List.getElem?_take_of_lt (Nat.lt_succ_self pos)]

/-! ### The cache -/

/-- The slots of the first positions hold the entries of their tokens. -/
def Held (cache : σ → Option κ) (slots : Nat → σ) (tokens : List τ) (count : Nat) : Prop :=
  ∀ pos < count, cache (slots pos) = (model.entries tokens)[pos]?

variable {model}

theorem Held.mono {cache : σ → Option κ} {slots : Nat → σ} {tokens : List τ} {count fewer : Nat}
    (held : model.Held cache slots tokens count) (hle : fewer ≤ count) :
    model.Held cache slots tokens fewer :=
  fun pos hpos => held pos (Nat.lt_of_lt_of_le hpos hle)

/-- A cache that agrees on the slots holds what the other one holds. -/
theorem Held.congr {cache other : σ → Option κ} {slots otherSlots : Nat → σ}
    {tokens otherTokens : List τ} {count : Nat} (held : model.Held cache slots tokens count)
    (hcache : ∀ pos < count, other (otherSlots pos) = cache (slots pos))
    (htokens : tokens.take count = otherTokens.take count) :
    model.Held other otherSlots otherTokens count := by
  intro pos hpos
  rw [hcache pos hpos, held pos hpos]
  exact model.getElem?_entries_of_take htokens hpos

/-- Tokens that are run behind others, whose entries are in the cache. -/
structure Segment (τ σ : Type) where
  cached : List τ
  fresh : List τ
  slots : Nat → σ

namespace Segment

variable (segment other : Segment τ σ)

def tokens : List τ := segment.cached ++ segment.fresh

/-- The entry of a fresh token goes to the slot. -/
def Writes (slot : σ) : Prop :=
  ∃ pos, segment.cached.length ≤ pos ∧ pos < segment.tokens.length ∧ segment.slots pos = slot

/-- No entry goes to a slot of the other segment. -/
def Avoids : Prop := ∀ pos < other.tokens.length, ¬segment.Writes (other.slots pos)

@[simp] theorem length_tokens :
    segment.tokens.length = segment.cached.length + segment.fresh.length := List.length_append

end Segment

/-- The segments do not write over each other or themselves. -/
structure Apart (segments : List (Segment τ σ)) : Prop where
  injective : ∀ segment ∈ segments, ∀ pos other, pos < segment.tokens.length →
    other < segment.tokens.length → segment.slots pos = segment.slots other → pos = other
  avoids : segments.Pairwise fun left right => left.Avoids right ∧ right.Avoids left

variable (model)

/-- The entries of the cached tokens are in the cache. -/
def Ready (cache : σ → Option κ) (segments : List (Segment τ σ)) : Prop :=
  ∀ segment ∈ segments, model.Held cache segment.slots segment.cached segment.cached.length

/-- What a run of the model over segments leaves in the cache, and its hidden states. -/
structure Advances (segments : List (Segment τ σ)) (cache next : σ → Option κ)
    (hiddens : List η) : Prop where
  held : ∀ segment ∈ segments,
    model.Held next segment.slots segment.tokens segment.tokens.length
  kept : ∀ slot, (∀ segment ∈ segments, ¬segment.Writes slot) → next slot = cache slot
  hiddens_eq : hiddens =
    segments.flatMap fun segment => (model.hiddens segment.tokens).drop segment.cached.length

/-! ### Token by token -/

theorem filterMap_getElem?_range (values : List κ) :
    (List.range values.length).filterMap (fun pos => values[pos]?) = values := by
  induction values using List.reverseRecOn with
  | nil => rfl
  | append_singleton front last ih =>
      have hfront : (List.range front.length).filterMap (fun pos => (front ++ [last])[pos]?) =
          (List.range front.length).filterMap fun pos => front[pos]? := by
        apply List.filterMap_congr
        intro pos hmem
        rw [List.getElem?_append_left (List.mem_range.mp hmem)]
      rw [List.length_append, List.length_singleton, List.range_succ, List.filterMap_append,
        hfront, ih]
      simp

theorem filterMap_range_of_held {model : CausalModel τ κ η} {cache : σ → Option κ}
    {slots : Nat → σ} {tokens : List τ}
    (held : model.Held cache slots tokens tokens.length) :
    (List.range tokens.length).filterMap (fun pos => cache (slots pos)) = model.entries tokens := by
  calc (List.range tokens.length).filterMap (fun pos => cache (slots pos))
      = (List.range tokens.length).filterMap (fun pos => (model.entries tokens)[pos]?) := by
        apply List.filterMap_congr
        intro pos hmem
        exact held pos (List.mem_range.mp hmem)
    _ = model.entries tokens := by
        rw [← model.length_entries tokens]
        exact filterMap_getElem?_range _

section TokenByToken

variable [DecidableEq σ]

/-- Run the tokens from position `start` on, each over the entries in the slots before it. -/
def runTokens (slots : Nat → σ) : Nat → List τ → (σ → Option κ) → (σ → Option κ) × List η
  | _, [], cache => (cache, [])
  | start, token :: rest, cache =>
      let entries := (List.range start).filterMap fun pos => cache (slots pos)
      let (next, hiddens) := runTokens slots (start + 1) rest
        (Function.update cache (slots start) (some (model.entry entries token)))
      (next, model.hidden entries token :: hiddens)

def runSegments : List (Segment τ σ) → (σ → Option κ) → (σ → Option κ) × List η
  | [], cache => (cache, [])
  | segment :: rest, cache =>
      let (cache, hiddens) :=
        model.runTokens segment.slots segment.cached.length segment.fresh cache
      let (cache, others) := runSegments rest cache
      (cache, hiddens ++ others)

variable {model} {cache : σ → Option κ} {slots : Nat → σ}

theorem runTokens_kept {start : Nat} {tokens : List τ} {slot : σ}
    (hslot : ∀ pos, start ≤ pos → pos < start + tokens.length → slots pos ≠ slot) :
    (model.runTokens slots start tokens cache).1 slot = cache slot := by
  induction tokens generalizing start cache with
  | nil => rfl
  | cons token rest ih =>
      simp only [List.length_cons] at hslot
      rw [runTokens]
      dsimp only
      rw [ih fun pos hstart hend => hslot pos (by omega) (by omega), Function.update_of_ne]
      exact (hslot start le_rfl (by omega)).symm

/-- The first fresh token joins the cached ones. -/
theorem Held.update {cached : List τ} {token : τ}
    (held : model.Held cache slots cached cached.length)
    (hne : ∀ pos < cached.length, slots pos ≠ slots cached.length) :
    model.Held (Function.update cache (slots cached.length)
        (some (model.entry (model.entries cached) token)))
      slots (cached ++ [token]) (cached ++ [token]).length := by
  intro pos hpos
  rw [List.length_append, List.length_singleton] at hpos
  have hentries : model.entries (cached ++ [token]) =
      model.entries cached ++ [model.entry (model.entries cached) token] := by
    rw [entries_append]
    rfl
  rcases Nat.lt_succ_iff_lt_or_eq.mp hpos with hlt | rfl
  · rw [Function.update_of_ne (hne pos hlt), held pos hlt, hentries,
      List.getElem?_append_left (by simpa using hlt)]
  · rw [Function.update_self, hentries]
    simp

theorem runTokens_advances {cached fresh : List τ}
    (held : model.Held cache slots cached cached.length)
    (hinjective : ∀ pos other, pos < cached.length + fresh.length →
      other < cached.length + fresh.length → slots pos = slots other → pos = other) :
    model.Held (model.runTokens slots cached.length fresh cache).1 slots (cached ++ fresh)
        (cached ++ fresh).length ∧
      (model.runTokens slots cached.length fresh cache).2 =
        (model.run (model.entries cached) fresh).map Prod.snd := by
  induction fresh generalizing cached cache with
  | nil =>
      rw [List.append_nil]
      exact ⟨held, rfl⟩
  | cons token rest ih =>
      simp only [List.length_cons] at hinjective
      have hnext : model.Held (Function.update cache (slots cached.length)
          (some (model.entry (model.entries cached) token)))
          slots (cached ++ [token]) (cached ++ [token]).length :=
        held.update fun pos hlt heq => by
          have := hinjective pos cached.length (by omega) (by omega) heq
          omega
      have hentries : model.entries (cached ++ [token]) =
          model.entries cached ++ [model.entry (model.entries cached) token] := by
        rw [entries_append]
        rfl
      obtain ⟨hheld, hhiddens⟩ := ih hnext fun pos other hpos hother => by
        rw [List.length_append, List.length_singleton] at hpos hother
        exact hinjective pos other (by omega) (by omega)
      rw [List.length_append, List.length_singleton] at hheld hhiddens
      rw [runTokens, filterMap_range_of_held held]
      dsimp only
      rw [run, List.map_cons, hhiddens, hentries]
      refine ⟨?_, rfl⟩
      simpa using hheld

theorem runSegments_kept {segments : List (Segment τ σ)} {slot : σ}
    (hslot : ∀ segment ∈ segments, ¬segment.Writes slot) :
    (model.runSegments segments cache).1 slot = cache slot := by
  induction segments generalizing cache with
  | nil => rfl
  | cons segment rest ih =>
      rw [runSegments]
      dsimp only
      rw [ih fun other hmem => hslot other (List.mem_cons_of_mem _ hmem)]
      apply runTokens_kept
      intro pos hstart hend heq
      exact hslot segment List.mem_cons_self ⟨pos, hstart, by simpa using hend, heq⟩

/-- Of the cached tokens a run takes no more than their number. -/
theorem runSegments_congr {segments others : List (Segment τ σ)}
    (h : List.Forall₂ (fun segment other => segment.cached.length = other.cached.length ∧
      segment.fresh = other.fresh ∧ segment.slots = other.slots) segments others)
    (cache : σ → Option κ) :
    model.runSegments segments cache = model.runSegments others cache := by
  induction h generalizing cache with
  | nil => rfl
  | cons hhead _ ih =>
      obtain ⟨hcached, hfresh, hslots⟩ := hhead
      rw [runSegments, runSegments, hcached, hfresh, hslots]
      dsimp only
      rw [ih]

/-- Run token by token, the model advances over the segments. -/
theorem runSegments_advances {segments : List (Segment τ σ)} (apart : Apart segments)
    (ready : model.Ready cache segments) :
    model.Advances segments cache (model.runSegments segments cache).1
      (model.runSegments segments cache).2 := by
  induction segments generalizing cache with
  | nil => exact ⟨by simp, fun _ _ => rfl, rfl⟩
  | cons segment rest ih =>
      obtain ⟨hapart, havoids⟩ := List.pairwise_cons.mp apart.avoids
      have hrest : Apart rest :=
        ⟨fun other hmem => apart.injective other (List.mem_cons_of_mem _ hmem), havoids⟩
      obtain ⟨hheld, hhiddens⟩ := runTokens_advances (ready segment List.mem_cons_self)
        fun pos other hpos hother =>
          apart.injective segment List.mem_cons_self pos other (by simpa using hpos)
            (by simpa using hother)
      have hready : model.Ready
          (model.runTokens segment.slots segment.cached.length segment.fresh cache).1 rest := by
        intro other hmem
        apply (ready other (List.mem_cons_of_mem _ hmem)).congr _ rfl
        intro pos hpos
        apply runTokens_kept
        intro written hstart hend heq
        have hother : pos < other.tokens.length := by
          rw [Segment.length_tokens]
          omega
        exact (hapart other hmem).1 pos hother ⟨written, hstart, by simpa using hend, heq⟩
      have hadvances := ih hrest hready
      rw [runSegments]
      dsimp only
      refine ⟨?_, ?_, ?_⟩
      · intro other hmem
        rcases List.mem_cons.mp hmem with rfl | hmem
        · apply hheld.congr _ rfl
          intro pos hpos
          apply hadvances.kept
          intro later hlater
          exact (hapart later hlater).2 pos (by simpa using hpos)
        · exact hadvances.held other hmem
      · intro slot hslot
        rw [hadvances.kept slot fun other hmem => hslot other (List.mem_cons_of_mem _ hmem)]
        apply runTokens_kept
        intro pos hstart hend heq
        exact hslot segment List.mem_cons_self ⟨pos, hstart, by simpa using hend, heq⟩
      · rw [List.flatMap_cons, hhiddens, hadvances.hiddens_eq, Segment.tokens,
          drop_hiddens_append]

end TokenByToken

end CausalModel

end VllmMlu.Library
