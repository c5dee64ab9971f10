import EvNode.Properties.Hooked

/-!
# What the syncer remembers of the blocks it read from DA

`Tracked` ties the tracking maps to the history of recorded blocks: a transaction of a recorded
block is still seen, unless a block that contains it was recorded at a DA height that has been
pruned. Every reachable state of a running syncer is tracked (`tracked_reachable`).
-/

namespace EvNode

open Crash Proc

variable {Tx : Type}

namespace ForcedInclusion

/-! ## Pruning -/

/-- `s'` is `s` with the heights in `P` pruned. -/
structure Pruned (P : Nat → Prop) (s s' : ForcedInclusion Tx) : Prop where
  seen_subset : s'.seenBlockTxs ⊆ s.seenBlockTxs
  kept : ∀ x ∈ s.seenBlockTxs, x ∈ s'.seenBlockTxs ∨ ∃ h, P h ∧ x ∈ s.seenBlockTxsByHeight h
  listed : ∀ h x, x ∈ s'.seenBlockTxsByHeight h → x ∈ s.seenBlockTxsByHeight h
  bytes : ∀ h, ¬ P h → s'.daBlockBytes h = s.daBlockBytes h
  verified_eq : s'.verified = s.verified
  lookups_eq : s'.lookups = s.lookups

theorem pruned_pruneHeight (s : ForcedInclusion Tx) (h : Nat) :
    Pruned (· = h) s (s.pruneHeight h) where
  seen_subset := Finset.sdiff_subset
  kept x hx := by
    by_cases hl : x ∈ s.seenBlockTxsByHeight h
    · exact .inr ⟨h, rfl, hl⟩
    · exact .inl (Finset.mem_sdiff.mpr ⟨hx, fun hm => hl (List.mem_toFinset.mp hm)⟩)
  listed h' x hx := by
    by_cases he : h' = h
    · subst he
      simp [pruneHeight] at hx
    · simpa [pruneHeight, Function.update_of_ne he] using hx
  bytes h' he := Function.update_of_ne he _ _
  verified_eq := rfl
  lookups_eq := rfl

theorem Pruned.refl (P : Nat → Prop) (s : ForcedInclusion Tx) : Pruned P s s :=
  ⟨fun _ h => h, fun _ h => .inl h, fun _ _ h => h, fun _ _ => rfl, rfl, rfl⟩

theorem Pruned.trans {P Q R : Nat → Prop} {s s1 s2 : ForcedInclusion Tx} (h : Pruned P s s1)
    (h' : Pruned Q s1 s2) (hP : ∀ x, P x → R x) (hQ : ∀ x, Q x → R x) : Pruned R s s2 where
  seen_subset := h'.seen_subset.trans h.seen_subset
  kept x hx := by
    rcases h.kept x hx with hx1 | ⟨k, hk, hl⟩
    · rcases h'.kept x hx1 with hx2 | ⟨k, hk, hl⟩
      · exact .inl hx2
      · exact .inr ⟨k, hQ k hk, h.listed k x hl⟩
    · exact .inr ⟨k, hP k hk, hl⟩
  listed k x hx := h.listed k x (h'.listed k x hx)
  bytes k hk := by
    rw [h'.bytes k fun hq => hk (hQ k hq), h.bytes k fun hp => hk (hP k hp)]
  verified_eq := h'.verified_eq.trans h.verified_eq
  lookups_eq := h'.lookups_eq.trans h.lookups_eq

theorem pruned_foldl (l : List Nat) (s : ForcedInclusion Tx) :
    Pruned (· ∈ l) s (l.foldl pruneHeight s) := by
  induction l generalizing s with
  | nil => exact .refl _ s
  | cons h l ih =>
    refine (pruned_pruneHeight s h).trans (ih (s.pruneHeight h)) ?_ ?_
    · rintro x rfl
      exact List.mem_cons_self
    · exact fun x hx => List.mem_cons_of_mem _ hx

variable {e start epochEnd maxGas missing : Nat} {recorded s' : ForcedInclusion Tx}
  {r : ForcedInclusionRetriever} {env : VerifyEnv Tx}

/-- A checked epoch prunes nothing above its end, and is the last one checked. -/
theorem epochChecked_of_lt {s : ForcedInclusion Tx} (h : s.lastCheckedEpochEnd < e) :
    Pruned (· ≤ e) s (s.epochChecked e) ∧ (s.epochChecked e).lastCheckedEpochEnd = e := by
  unfold epochChecked
  rw [if_pos h]
  have hp := pruned_foldl (List.range' s.lastCheckedEpochEnd (e + 1 - s.lastCheckedEpochEnd)) s
  refine ⟨⟨hp.seen_subset, fun x hx => ?_, hp.listed, fun k hk => hp.bytes k fun hm => hk ?_,
    hp.verified_eq, hp.lookups_eq⟩, rfl⟩
  · rcases hp.kept x hx with hx' | ⟨k, hk, hl⟩
    · exact .inl hx'
    · rw [List.mem_range'_1] at hk
      exact .inr ⟨k, by omega, hl⟩
  · rw [List.mem_range'_1] at hm
    omega

theorem epochChecked_of_le {s : ForcedInclusion Tx} (h : e ≤ s.lastCheckedEpochEnd) :
    s.epochChecked e = s := by
  unfold epochChecked
  rw [if_neg (Nat.not_lt.mpr h)]

@[simp] theorem epochChecked_lookups (s : ForcedInclusion Tx) (e : Nat) :
    (s.epochChecked e).lookups = s.lookups := by
  rcases Nat.lt_or_ge s.lastCheckedEpochEnd e with hlt | hge
  · exact (epochChecked_of_lt hlt).1.lookups_eq
  · rw [epochChecked_of_le hge]

@[simp] theorem epochChecked_verified (s : ForcedInclusion Tx) (e : Nat) :
    (s.epochChecked e).verified = s.verified := by
  rcases Nat.lt_or_ge s.lastCheckedEpochEnd e with hlt | hge
  · exact (epochChecked_of_lt hlt).1.verified_eq
  · rw [epochChecked_of_le hge]

/-! ## Where the loop is -/

/-- The last checked epoch end is an epoch end, or 0 when there is none. -/
def Aligned (genesis : Genesis) (s : ForcedInclusion Tx) : Prop :=
  s.lastCheckedEpochEnd = 0 ∨ genesis.IsEpochEnd s.lastCheckedEpochEnd

/-- The loop starts with an epoch that ends behind the last checked one. -/
theorem Aligned.startEpochEnd {genesis : Genesis} {s : ForcedInclusion Tx}
    (h : s.Aligned genesis) :
    genesis.IsEpochEnd (s.startEpochEnd genesis) ∧
      (0 < s.lastCheckedEpochEnd →
        s.startEpochEnd genesis = s.lastCheckedEpochEnd + genesis.daEpochForcedInclusion) := by
  unfold ForcedInclusion.startEpochEnd
  dsimp only
  rcases h with h0 | hend
  · rw [if_pos (.inl h0)]
    exact ⟨genesis.isEpochEnd_first, fun hpos => by omega⟩
  · by_cases hz : s.lastCheckedEpochEnd = 0
    · rw [if_pos (.inl hz)]
      exact ⟨genesis.isEpochEnd_first, fun hpos => by omega⟩
    · have hle := hend.first_le
      rw [if_neg (by omega)]
      exact ⟨hend.next, fun _ => rfl⟩

/-- An epoch behind the last checked one is not before the start of the loop. -/
theorem Aligned.startEpochEnd_le {genesis : Genesis} {s : ForcedInclusion Tx}
    (h : s.Aligned genesis) (he : genesis.IsEpochEnd e)
    (hlt : 0 < s.lastCheckedEpochEnd → s.lastCheckedEpochEnd < e) :
    s.startEpochEnd genesis ≤ e := by
  rcases Nat.eq_zero_or_pos s.lastCheckedEpochEnd with h0 | hpos
  · simp only [ForcedInclusion.startEpochEnd, h0, true_or, if_true]
    exact he.first_le
  · rw [h.startEpochEnd.2 hpos]
    rcases h with h0 | hend
    · omega
    · exact hend.add_le_of_lt he (hlt hpos)

/-- The loop is at the epoch `epochEnd`, in the state `s`: the epochs before it are checked. -/
structure LoopAt (genesis : Genesis) (start : Nat) (recorded : ForcedInclusion Tx)
    (epochEnd : Nat) (s : ForcedInclusion Tx) : Prop where
  isEnd : genesis.IsEpochEnd epochEnd
  start_le : start ≤ epochEnd
  last : 0 < s.lastCheckedEpochEnd →
    s.lastCheckedEpochEnd + genesis.daEpochForcedInclusion = epochEnd
  aligned : s.Aligned genesis
  passed : ∀ e, genesis.IsEpochEnd e → start ≤ e → e < epochEnd → e ≤ s.lastCheckedEpochEnd
  verified_eq : s.verified = recorded.verified
  seen_subset : s.seenBlockTxs ⊆ recorded.seenBlockTxs
  bytes : ∀ h, epochEnd < h + genesis.daEpochForcedInclusion →
    s.daBlockBytes h = recorded.daBlockBytes h

theorem LoopAt.init {genesis : Genesis} {s : ForcedInclusion Tx} (h : s.Aligned genesis) :
    LoopAt genesis (s.startEpochEnd genesis) s (s.startEpochEnd genesis) s where
  isEnd := h.startEpochEnd.1
  start_le := Nat.le_refl _
  last hpos := (h.startEpochEnd.2 hpos).symm
  aligned := h
  passed e _ hle hlt := by omega
  verified_eq := rfl
  seen_subset := fun _ hx => hx
  bytes _ _ := rfl

/-- The last checked epoch ends before the epoch of the loop, unless both ends are 0. -/
theorem LoopAt.last_lt {genesis : Genesis} {s : ForcedInclusion Tx}
    (h : LoopAt genesis start recorded epochEnd s) :
    s.lastCheckedEpochEnd < epochEnd ∨ (s.lastCheckedEpochEnd = 0 ∧ epochEnd = 0) := by
  have hpos := genesis.daEpochForcedInclusion_pos
  have hlast := h.last
  omega

/-- Once its epoch is checked, the loop is at the next one. -/
theorem LoopAt.next {genesis : Genesis} {s : ForcedInclusion Tx}
    (h : LoopAt genesis start recorded epochEnd s) :
    LoopAt genesis start recorded (epochEnd + genesis.daEpochForcedInclusion)
      (s.epochChecked epochEnd) := by
  have hsize := genesis.daEpochForcedInclusion_pos
  -- an end behind all those before `epochEnd` is `epochEnd` itself
  have hpassed : ∀ e, genesis.IsEpochEnd e → e < epochEnd + genesis.daEpochForcedInclusion →
      e ≤ epochEnd := by
    intro e he hlt
    by_contra hgt
    have := h.isEnd.add_le_of_lt he (by omega)
    omega
  rcases h.last_lt with hlt | ⟨h0, he0⟩
  · obtain ⟨hp, hlast⟩ := epochChecked_of_lt hlt
    refine ⟨h.isEnd.next, by have := h.start_le; omega, fun _ => by rw [hlast],
      .inr (by rw [hlast]; exact h.isEnd), fun e he hs hlt' => ?_,
      hp.verified_eq.trans h.verified_eq, hp.seen_subset.trans h.seen_subset, fun k hk => ?_⟩
    · rw [hlast]
      exact hpassed e he hlt'
    · rw [hp.bytes k (by omega)]
      exact h.bytes k (by omega)
  · rw [epochChecked_of_le (by omega)]
    refine ⟨h.isEnd.next, by have := h.start_le; omega, fun hpos => by omega, h.aligned,
      fun e he hs hlt' => ?_, h.verified_eq, h.seen_subset, fun k hk => h.bytes k (by omega)⟩
    have := hpassed e he hlt'
    omega

theorem LoopAt.looked {genesis : Genesis} {s : ForcedInclusion Tx}
    (h : LoopAt genesis start recorded epochEnd s) (l : List (Lookup Tx)) :
    LoopAt genesis start recorded epochEnd (s.looked l) :=
  ⟨h.isEnd, h.start_le, h.last, h.aligned, h.passed, h.verified_eq, h.seen_subset, h.bytes⟩

theorem graceBoundary_congr {genesis : Genesis} {s : ForcedInclusion Tx}
    (h : ∀ k, e < k + genesis.daEpochForcedInclusion → s.daBlockBytes k = s'.daBlockBytes k) :
    s.graceBoundary genesis e = s'.graceBoundary genesis e := by
  have hpos := genesis.daEpochForcedInclusion_pos
  unfold graceBoundary gracePeriodForEpoch
  have hmap : ∀ n, (List.range' (e - (genesis.daEpochForcedInclusion - 1)) n).map s.daBlockBytes =
      (List.range' (e - (genesis.daEpochForcedInclusion - 1)) n).map s'.daBlockBytes := by
    intro n
    refine List.map_congr_left fun k hk => h k ?_
    rw [List.mem_range'_1] at hk
    omega
  simp only [hmap]

/-- The grace boundary of the epoch of the loop is what it was before the loop. -/
theorem LoopAt.graceBoundary_eq {genesis : Genesis}
    {s : ForcedInclusion Tx} (h : LoopAt genesis start recorded epochEnd s) :
    s.graceBoundary genesis epochEnd = recorded.graceBoundary genesis epochEnd :=
  graceBoundary_congr h.bytes

variable [Transaction Tx]

theorem LoopAt.turn {genesis : Genesis} {s : ForcedInclusion Tx}
    (h : LoopAt genesis start recorded epochEnd s)
    (hc : CheckCase r env maxGas epochEnd s (.ok missing, s')) :
    LoopAt genesis start recorded (epochEnd + genesis.daEpochForcedInclusion) s' := by
  cases hc with
  | empty _ _ _ => exact h.next
  | checked _ _ _ _ _ => exact (h.looked _).next

theorem CheckCase.lookups_append {s : ForcedInclusion Tx}
    (h : CheckCase r env maxGas epochEnd s (.ok missing, s')) :
    ∃ l, s'.lookups = s.lookups ++ l := by
  cases h with
  | empty _ _ _ => exact ⟨[], by simp⟩
  | checked event statuses _ _ _ =>
    exact ⟨s.epochLookups epochEnd event.txs statuses, by simp [ForcedInclusion.looked]⟩

theorem mem_epochLookups {s : ForcedInclusion Tx} {t : Tx} {txs : List Tx}
    {statuses : List FilterStatus} (h : (t, FilterStatus.ok) ∈ txs.zip statuses) :
    ⟨e, t, decide (Transaction.hash t ∈ s.seenBlockTxs)⟩ ∈ s.epochLookups e txs statuses :=
  List.mem_map.mpr ⟨(t, .ok), List.mem_filter.mpr ⟨h, by simp⟩, rfl⟩

/-! ## The history of recorded blocks -/

def blockHashes (b : Nat × List Tx) : List Nat := b.2.map Transaction.hash

/-- The maps against the history. -/
structure Tracked (genesis : Genesis) (s : ForcedInclusion Tx) : Prop where
  aligned : s.Aligned genesis
  listed : ∀ h x, x ∈ s.seenBlockTxsByHeight h → ∃ b ∈ s.verified, b.1 = h ∧ x ∈ blockHashes b
  kept : ∀ b ∈ s.verified, ∀ x ∈ blockHashes b, x ∈ s.seenBlockTxs ∨
    (0 < s.lastCheckedEpochEnd ∧
      ∃ b' ∈ s.verified, b'.1 ≤ s.lastCheckedEpochEnd ∧ x ∈ blockHashes b')
  seen : ∀ x ∈ s.seenBlockTxs, ∃ b ∈ s.verified, x ∈ blockHashes b

variable {genesis : Genesis} {s : ForcedInclusion Tx}

theorem Tracked.recordBlock (h : s.Tracked genesis) (daHeight : Nat) (txs : List Tx) :
    (s.recordBlock daHeight txs).Tracked genesis where
  aligned := h.aligned
  listed k x hx := by
    by_cases hk : k = daHeight
    · subst hk
      refine ⟨(k, txs), List.mem_append_right _ List.mem_cons_self, rfl, ?_⟩
      simpa [ForcedInclusion.recordBlock, blockHashes] using hx
    · have hx' : x ∈ s.seenBlockTxsByHeight k := by
        simpa [ForcedInclusion.recordBlock, Function.update_of_ne hk] using hx
      obtain ⟨b, hb, he, hl⟩ := h.listed k x hx'
      exact ⟨b, List.mem_append_left _ hb, he, hl⟩
  kept b hb x hx := by
    rcases List.mem_append.mp hb with hb | hb
    · rcases h.kept b hb x hx with hs | ⟨hpos, b', hb', hle, hl⟩
      · exact .inl (Finset.mem_union_left _ hs)
      · exact .inr ⟨hpos, b', List.mem_append_left _ hb', hle, hl⟩
    · rw [List.mem_singleton.mp hb] at hx
      exact .inl (Finset.mem_union_right _ (List.mem_toFinset.mpr hx))
  seen x hx := by
    rcases Finset.mem_union.mp hx with hx | hx
    · obtain ⟨b, hb, hl⟩ := h.seen x hx
      exact ⟨b, List.mem_append_left _ hb, hl⟩
    · exact ⟨_, List.mem_append_right _ List.mem_cons_self, List.mem_toFinset.mp hx⟩

theorem Tracked.epochChecked (h : s.Tracked genesis) (he : genesis.IsEpochEnd e) :
    (s.epochChecked e).Tracked genesis := by
  by_cases hlt : s.lastCheckedEpochEnd < e
  · obtain ⟨hp, hlast⟩ := epochChecked_of_lt hlt
    refine ⟨.inr (by rw [hlast]; exact he), fun k x hx => ?_, fun b hb x hx => ?_, fun x hx => ?_⟩
    · rw [hp.verified_eq]
      exact h.listed k x (hp.listed k x hx)
    · rw [hp.verified_eq] at hb ⊢
      rw [hlast]
      rcases h.kept b hb x hx with hs | ⟨_, b', hb', hle, hl⟩
      · rcases hp.kept x hs with hs' | ⟨k, hk, hl⟩
        · exact .inl hs'
        · obtain ⟨b', hb', rfl, hl'⟩ := h.listed k x hl
          exact .inr ⟨by omega, b', hb', hk, hl'⟩
      · exact .inr ⟨by omega, b', hb', by omega, hl⟩
    · rw [hp.verified_eq]
      exact h.seen x (hp.seen_subset hx)
  · rw [epochChecked_of_le (Nat.not_lt.mp hlt)]
    exact h

theorem Tracked.looked (h : s.Tracked genesis) (l : List (Lookup Tx)) :
    (s.looked l).Tracked genesis :=
  ⟨h.aligned, h.listed, h.kept, h.seen⟩

theorem Tracked.initial (h : e = 0 ∨ genesis.IsEpochEnd e) :
    (ForcedInclusion.initial e : ForcedInclusion Tx).Tracked genesis where
  aligned := h
  listed _ _ hx := by cases hx
  kept _ hb := by cases hb
  seen _ hx := by cases hx

theorem Tracked.turn (h : s.Tracked genesis)
    (he : genesis.IsEpochEnd epochEnd)
    (hc : CheckCase r env maxGas epochEnd s (.ok missing, s')) : s'.Tracked genesis := by
  cases hc with
  | empty _ _ _ => exact h.epochChecked he
  | checked _ _ _ _ _ => exact (h.looked _).epochChecked he

/-- What the check of an epoch keeps, a verification keeps. -/
theorem verify_invariant {P : ForcedInclusion Tx → Prop} {daHeight : Nat} {txs : List Tx}
    (haligned : ∀ {s}, P s → s.Aligned genesis) (hlooked : ∀ {s} l, P s → P (s.looked l))
    (hchecked : ∀ {s e}, genesis.IsEpochEnd e → P s → P (s.epochChecked e))
    (hrec : P (s.recordBlock daHeight txs)) (r : ForcedInclusionRetriever) (env : VerifyEnv Tx)
    (lastDAHeight : Nat) :
    P (verifyForcedInclusionTxs genesis (some r) env lastDAHeight daHeight txs s).2 := by
  have hc : VerifyCase genesis r env lastDAHeight daHeight
      (fun _ epochEnd _ s' => P s' ∧ genesis.IsEpochEnd epochEnd) (s.recordBlock daHeight txs)
      (verifyForcedInclusionTxs genesis (some r) env lastDAHeight daHeight txs s) := by
    refine verify_cases (fun _ _ _ _ _ _ _ hI _ hcheck => ⟨?_, hI.2.next⟩)
      fun _ => ⟨hrec, (haligned hrec).startEpochEnd.1⟩
    cases hcheck with
    | empty _ _ _ => exact hchecked hI.2 hI.1
    | checked _ _ _ _ _ => exact hchecked hI.2 (hlooked _ hI.1)
  generalize verifyForcedInclusionTxs genesis (some r) env lastDAHeight daHeight txs s = p at hc ⊢
  cases hc with
  | early _ | noInfo _ => exact hrec
  | notConfigured _ _ _ _ _ h | failed _ _ _ _ _ _ _ h _ _ _ _ | passed _ _ _ _ _ h _
  | accused _ _ _ _ _ _ h _ _ => exact h.1

theorem Tracked.verify (h : s.Tracked genesis) (fi : Option ForcedInclusionRetriever)
    (env : VerifyEnv Tx) (lastDAHeight daHeight : Nat) (txs : List Tx) :
    (verifyForcedInclusionTxs genesis fi env lastDAHeight daHeight txs s).2.Tracked genesis := by
  cases fi with
  | none => exact h
  | some r =>
    exact verify_invariant (fun h => h.aligned) (fun l h => h.looked l)
      (fun he h => h.epochChecked he) (h.recordBlock daHeight txs) r env lastDAHeight

end ForcedInclusion

/-! ## Starting -/

/-- The DA height of the stored state, that of genesis when there is none. -/
def Store.stateDAHeight (genesis : Genesis) (s : Store Tx) : Nat :=
  (s.getState.map State.daHeight).getD genesis.daStartHeight

namespace Syncer

/-- The installed epoch end is an epoch end that the DA height has reached. -/
theorem initialCheckedEpochEnd_spec (genesis : Genesis) (daHeight : Nat) :
    initialCheckedEpochEnd genesis daHeight = 0 ∨
      (genesis.IsEpochEnd (initialCheckedEpochEnd genesis daHeight) ∧
        initialCheckedEpochEnd genesis daHeight ≤ daHeight) := by
  unfold initialCheckedEpochEnd
  dsimp only
  split
  · next h =>
    right
    have hpos := genesis.daEpochForcedInclusion_pos
    have hdiv := Nat.div_mul_le_self
      (daHeight - (genesis.daStartHeight + genesis.daEpochForcedInclusion - 1))
      genesis.daEpochForcedInclusion
    refine ⟨⟨(daHeight - (genesis.daStartHeight + genesis.daEpochForcedInclusion - 1)) /
      genesis.daEpochForcedInclusion, ?_⟩, by omega⟩
    rw [Nat.succ_mul]
    omega
  · exact .inl rfl

theorem wp_onStore {α : Type} (p : Proc (Store Tx) Err α) (s : Syncer Tx) :
    wp (onStore p) (fun _ s' => ∃ store, s' = { s with store := store })
      (fun _ s' => ∃ store, s' = { s with store := store })
      (fun s' => ∃ store, s' = { s with store := store }) s := by
  unfold onStore
  rw [wp_zoom]
  unfold wp
  rcases p s.store with ⟨r, store⟩
  cases r <;> exact ⟨store, rfl⟩

theorem wp_loadState_daHeight (cfg : SyncerConfig Tx) (env : StartEnv) (s : Syncer Tx) :
    wp (loadState cfg env)
      (fun state s' => s' = s ∧ state.daHeight = s.store.stateDAHeight cfg.genesis)
      (fun _ _ => True) (fun _ => True) s := by
  unfold loadState
  rw [wp_bind, wp_get]
  have hd : s.store.stateDAHeight cfg.genesis =
    (s.store.getState.map State.daHeight).getD cfg.genesis.daStartHeight := rfl
  cases hst : s.store.getState with
  | some state =>
    rw [hst] at hd
    refine ⟨rfl, ?_⟩
    rw [hd]
    split <;> rfl
  | none =>
    rw [hst] at hd
    dsimp only
    rw [wp_bind, wp_io]
    exact ⟨fun _ => ⟨rfl, hd.symm⟩, fun _ => trivial, fun _ => trivial⟩

/-- A syncer that has started has seen nothing, and takes the epochs that the stored DA height has
reached as checked. -/
theorem start_forced (cfg : SyncerConfig Tx) (env : StartEnv) (s : Syncer Tx) :
    wp (start cfg env)
      (fun _ s' => s'.forced =
        .initial (initialCheckedEpochEnd cfg.genesis (s.store.stateDAHeight cfg.genesis)))
      (fun _ _ => True) (fun _ => True) s := by
  unfold start initializeState
  rw [wp_bind, wp_modify, wp_bind, wp_bind]
  refine wp_mono (wp_loadState_daHeight cfg env _) ?_ (fun _ _ _ => trivial) (fun _ _ => trivial)
  rintro state s1 ⟨rfl, hd⟩
  rw [wp_bind, wp_require]
  refine ⟨fun _ => ?_, fun _ => trivial⟩
  rw [wp_bind]
  refine wp_mono (wp_onStore _ _) ?_ (fun _ _ _ => trivial) (fun _ _ => trivial)
  rintro _ s2 ⟨store, rfl⟩
  rw [wp_bind, wp_modify, wp_mapError]
  refine wp_mono (wp_onStore _ _) ?_ (fun _ _ _ => trivial) (fun _ _ => trivial)
  rintro _ s3 ⟨store, rfl⟩
  rw [wp_modify]
  show ForcedInclusion.initial (initialCheckedEpochEnd cfg.genesis state.daHeight) = _
  rw [hd]
  rfl

/-! ## One step

`step_forced`: apart from a start, the tracking changes only by the check of a block from DA. -/

variable {event : DAHeightEvent Tx} {s' : Syncer Tx} {cfg : SyncerConfig Tx} {env : SyncEnv Tx}
  {l : Live (Syncer Tx)}

theorem AfterTry.forced {s : Syncer Tx} (h : AfterTry event s s') :
    s'.forced = s.forced := by
  cases h <;> rfl

theorem Buffered.forced {s : Syncer Tx} (h : Buffered s s') : s'.forced = s.forced := by
  obtain ⟨_, _, _, rfl⟩ := h
  rfl

variable [Transaction Tx]

/-- The check an event gets when the process loop handles it, if it gets one: it is for the next
block, comes from DA and passes validation. -/
def verificationOf (cfg : SyncerConfig Tx) (env : SyncEnv Tx) (event : DAHeightEvent Tx)
    (s : Syncer Tx) : Option (Exit Err Unit × ForcedInclusion Tx) :=
  if event.header.header.height = s.store.height + 1 ∧
      s.cache.isHeaderSeen (headerHash cfg event) = false ∧ env.cancelled = false ∧
      event.source = .da then
    match withLastDataHash cfg s.store event with
    | none => none
    | some event' =>
      match (validateBlock cfg env.now s.lastState event'.data event'.header
        s.lastHeaderHashErrCount).1 with
      | .error _ => none
      | .ok () => some (verification cfg env event s)
  else none

/-- The check that one operation makes, if it makes one. -/
def verificationIn (cfg : SyncerConfig Tx) (l : Live (Syncer Tx)) :
    Op Tx → Option (Exit Err Unit × ForcedInclusion Tx)
  | .processNext env =>
    if l.up then
      match l.state.heightInCh with
      | [] => none
      | event :: _ => verificationOf cfg env event l.state
    else none
  | _ => none

/-- The check of an operation, if it makes one, meets `P` in its event and its environment. -/
def EachCheck (P : DAHeightEvent Tx → VerifyEnv Tx → Prop) (l : Live (Syncer Tx)) : Op Tx → Prop
  | .processNext env => ∀ event rest, l.state.heightInCh = event :: rest → event.source = .da →
    P event env.verify
  | _ => True

theorem verification_withLastDataHash
    {event' : DAHeightEvent Tx} {store : Store Tx} {s : Syncer Tx}
    (h : withLastDataHash cfg store event = some event') :
    verification cfg env event' s = verification cfg env event s := by
  obtain ⟨_, hda, hsrc, htxs⟩ := withLastDataHash_header cfg h
  unfold verification
  rw [hda, hsrc, htxs]

theorem verification_of_not_da (cfg : SyncerConfig Tx) (env : SyncEnv Tx) (h : event.source ≠ .da) (s : Syncer Tx) :
    verification cfg env event s = (.ok (), s.forced) := by
  unfold verification
  rw [if_neg h]

theorem TrySyncCase.forced
    {state : State} {s : Syncer Tx} {r : Exit Err Unit}
    (h : TrySyncCase cfg env event state s (r, s')) :
    ((env.cancelled = true ∨ ∃ e, (validateBlock cfg env.now state event.data event.header
        s.lastHeaderHashErrCount).1 = .error e) ∧ s'.forced = s.forced) ∨
      (env.cancelled = false ∧ (validateBlock cfg env.now state event.data event.header
        s.lastHeaderHashErrCount).1 = .ok () ∧ s'.forced = (verification cfg env event s).2) := by
  cases h with
  | cancelled hcan => exact .inl ⟨.inl hcan, rfl⟩
  | invalid e _ hv => exact .inl ⟨.inr ⟨e, by rw [hv]⟩, rfl⟩
  | malicious _ _ hcan hv _ _ | unapplied _ hcan hv _ | uncommitted _ _ hcan hv _ _ =>
    exact .inr ⟨hcan, by rw [hv], rfl⟩
  | synced _ hcan hv _ => exact .inr ⟨hcan, by rw [hv], rfl⟩

theorem EventCase.forced
    {s : Syncer Tx} {r : Exit Err Unit} (h : EventCase cfg env event s (r, s')) :
    s'.forced = ((verificationOf cfg env event s).map Prod.snd).getD s.forced := by
  have hnone : verificationOf cfg env event s = none →
      s.forced = ((verificationOf cfg env event s).map Prod.snd).getD s.forced := by
    intro hn
    rw [hn]
    rfl
  cases h with
  | dropped h =>
    refine hnone ?_
    unfold verificationOf
    split
    · next hif =>
      rcases h with h | h | h
      · omega
      · rw [h] at hif
        exact absurd hif.2.1 (by simp)
      · rw [h]
    · rfl
  | waits hlt =>
    refine hnone ?_
    unfold verificationOf
    rw [if_neg fun hif => by omega]
  | tried event' r s1 hnext hseen hev htry r' s' _ _ hafter =>
    rw [hafter.forced]
    obtain ⟨_, _, hsrc, _⟩ := withLastDataHash_header cfg hev
    by_cases hda : event.source = .da
    · rcases htry.forced with ⟨hbad, hf⟩ | ⟨hcan, hv, hf⟩
      · rw [hf]
        refine hnone ?_
        unfold verificationOf
        split
        · next hif =>
          rcases hbad with hcan | ⟨e, he⟩
          · rw [hcan] at hif
            exact absurd hif.2.2.1 (by simp)
          · rw [hev]
            dsimp only
            rw [he]
        · rfl
      · rw [hf, verification_withLastDataHash hev]
        unfold verificationOf
        rw [if_pos ⟨hnext, hseen, hcan, hda⟩, hev]
        dsimp only
        rw [hv]
        rfl
    · have hver := verification_of_not_da cfg env (hsrc ▸ hda : event'.source ≠ .da) s
      have hf : s1.forced = s.forced := by
        rcases htry.forced with ⟨_, hf⟩ | ⟨_, _, hf⟩
        · exact hf
        · rw [hf, hver]
      rw [hf]
      refine hnone ?_
      unfold verificationOf
      rw [if_neg fun hif => hda hif.2.2.2]

omit [Transaction Tx] in
theorem call_forced {p : Proc (Syncer Tx) Err Unit}
    (h : (p l.state).2.forced = l.state.forced) : (l.call p).state.forced = l.state.forced := by
  cases hup : l.up with
  | true =>
    rw [Live.call_up hup]
    exact h
  | false =>
    unfold Live.call
    rw [if_neg (by simp [hup])]

/-- **One step.** -/
theorem step_forced (cfg : SyncerConfig Tx) (l : Live (Syncer Tx)) (op : Op Tx)
    (hstart : ∀ env, op ≠ .start env) :
    (step cfg l op).state.forced =
      ((verificationIn cfg l op).map Prod.snd).getD l.state.forced := by
  cases op with
  | start env => exact absurd rfl (hstart env)
  | crash => rfl
  | pipeEvent done event => exact call_forced (buffered_pipeEvent cfg done event l.state).forced
  | processHeight height header data =>
    exact call_forced (buffered_processHeight cfg height header data l.state).forced
  | processPendingEvents => exact call_forced (buffered_sendPending _ _ l.state).forced
  | headerDAIncluded hash daHeight height | dataDAIncluded hash daHeight height =>
    exact call_forced rfl
  | deleteHeight height => exact call_forced rfl
  | recoverFromRaft env raft =>
    refine call_forced ?_
    by_cases hnext : l.state.lastState.lastBlockHeight + 1 = raft.height
    · rw [recoverFromRaft_next hnext]
      have hc := trySync_cases cfg env ⟨raft.header, raft.data, 0, .raft⟩ l.state.lastState l.state
      generalize trySyncNextBlockWithState cfg env ⟨raft.header, raft.data, 0, .raft⟩
        l.state.lastState l.state = q at hc ⊢
      obtain ⟨r, s'⟩ := q
      rcases hc.forced with ⟨_, hf⟩ | ⟨_, _, hf⟩
      · exact hf
      · rw [verification_of_not_da cfg env (by simp)] at hf
        exact hf
    · rw [recoverFromRaft_of_ne hnext]
  | processNext env =>
    show (l.call (Syncer.processNext cfg env)).state.forced =
      ((if l.up then _ else none : Option (Exit Err Unit × ForcedInclusion Tx)).map Prod.snd).getD _
    cases hup : l.up with
    | false =>
      unfold Live.call
      rw [if_neg (by simp [hup])]
      rfl
    | true =>
      rw [Live.call_up hup]
      unfold Syncer.processNext
      rw [get_bind_run]
      cases hch : l.state.heightInCh with
      | nil => rfl
      | cons event rest =>
        dsimp only
        rw [modify_bind_run]
        have hc := processHeightEvent_cases cfg env event { l.state with heightInCh := rest }
        generalize processHeightEvent cfg env event { l.state with heightInCh := rest } = q at hc ⊢
        obtain ⟨r, s'⟩ := q
        rw [hc.forced]
        rfl

/-! ## Runs -/

/-- What a start establishes and every check keeps holds of the tracking of a running process. -/
theorem holds_forced_step {I : ForcedInclusion Tx → Prop} {op : Op Tx} (h : l.Holds (fun s => I s.forced) fun _ => True)
    (hstart : ∀ env, op = .start env → I (.initial
      (initialCheckedEpochEnd cfg.genesis (l.state.store.stateDAHeight cfg.genesis))))
    (hver : I l.state.forced → ∀ v, verificationIn cfg l op = some v → I v.2) :
    (step cfg l op).Holds (fun s => I s.forced) fun _ => True := by
  by_cases hop : ∃ env, op = .start env
  · obtain ⟨env, rfl⟩ := hop
    refine h.boot fun _ => wp_mono (start_forced cfg env l.state) (fun _ s' hs' => ?_)
      (fun _ _ _ => trivial) (fun _ _ => trivial)
    rw [hs']
    exact hstart env rfl
  · have hne : ∀ env, op ≠ .start env := fun env he => hop ⟨env, he⟩
    refine ⟨fun hup => ?_, fun _ => trivial⟩
    have hl : l.up = true := by
      cases op with
      | start env => exact absurd rfl (hne env)
      | crash => cases hup
      | _ => exact Live.up_of_call hup
    show I (step cfg l op).state.forced
    rw [step_forced cfg l op hne]
    cases hv : verificationIn cfg l op with
    | none => exact h.1 hl
    | some v => exact hver (h.1 hl) v hv

/-- The verification of an operation is that of the event at the head of the channel. -/
theorem verificationIn_eq_some {op : Op Tx}
    {v : Exit Err Unit × ForcedInclusion Tx} (h : verificationIn cfg l op = some v) :
    ∃ env event rest, op = .processNext env ∧ l.up = true ∧ l.state.heightInCh = event :: rest ∧
      event.source = .da ∧ v = ForcedInclusion.verifyForcedInclusionTxs cfg.genesis cfg.fiRetriever
        env.verify l.state.lastState.daHeight event.daHeight event.data.txs l.state.forced := by
  cases op with
  | processNext env =>
    unfold verificationIn at h
    dsimp only at h
    cases hup : l.up with
    | false =>
      rw [if_neg (by simp [hup])] at h
      cases h
    | true =>
      rw [if_pos hup] at h
      cases hch : l.state.heightInCh with
      | nil =>
        rw [hch] at h
        cases h
      | cons event rest =>
        rw [hch] at h
        dsimp only at h
        unfold verificationOf at h
        split at h
        · next hif =>
          cases hev : withLastDataHash cfg l.state.store event with
          | none =>
            rw [hev] at h
            cases h
          | some event' =>
            rw [hev] at h
            dsimp only at h
            split at h
            · cases h
            · cases h
              refine ⟨env, event, rest, rfl, rfl, rfl, hif.2.2.2, ?_⟩
              unfold verification
              rw [if_pos hif.2.2.2]
        · cases h
  | _ => cases h

/-- The state is tracked whatever the process does. -/
theorem tracked_step (cfg : SyncerConfig Tx) (l : Live (Syncer Tx)) (op : Op Tx)
    (h : l.Holds (fun s => s.forced.Tracked cfg.genesis) fun _ => True) :
    (step cfg l op).Holds (fun s => s.forced.Tracked cfg.genesis) fun _ => True := by
  refine holds_forced_step h (fun _ _ => ?_) fun hs v hv => ?_
  · exact .initial ((initialCheckedEpochEnd_spec _ _).imp_right And.left)
  · obtain ⟨env, event, rest, _, _, _, _, rfl⟩ := verificationIn_eq_some hv
    exact hs.verify _ _ _ _ _

/-- **Every state of a running syncer is tracked.** -/
theorem tracked_reachable (cfg : SyncerConfig Tx) (s0 : Syncer Tx) (ops : List (Op Tx))
    (hup : (Run.exec (step cfg) ⟨false, s0⟩ ops).up = true) :
    (Run.exec (step cfg) ⟨false, s0⟩ ops).state.forced.Tracked cfg.genesis := by
  have h0 : (⟨false, s0⟩ : Live (Syncer Tx)).Holds (fun s => s.forced.Tracked cfg.genesis)
    fun _ => True := ⟨fun hf => (by cases hf), fun _ => trivial⟩
  exact (Run.invariant_all _ (tracked_step cfg) ops _ h0).1 hup

end Syncer

end EvNode
