import EvNode.Properties.PrunedStore

/-!
# Pruning keeps what is needed

Without rollbacks the heights only grow, so the bounds a tick works with stay good while it prunes:
the markers keep away from the last `keepRecent` blocks and from what is not DA-included
(`Bounded`). `pruning_safe` collects what follows.

The bounds are computed with `uint64`. With the largest `keepRecent` the sum `keepRecent + 1` is 0,
and the metadata mode prunes the state of the last block (`keep_recent_overflow`).
-/

namespace EvNode

open KeyValue DefaultStore

variable {Tx : Type}

namespace PruningNode

/-- Commits are in order, the DA-included height grows, and there is no rollback. -/
def Growing (n : PruningNode Tx) : Op Tx → Prop
  | .setDAIncluded height => daIncluded n.store ≤ height
  | .rollback _ _ => False
  | op => Next n.store op

instance (n : PruningNode Tx) (op : Op Tx) : Decidable (n.Growing op) := by
  induction op using Op.casesOn <;> dsimp only [Growing] <;> infer_instance

variable {n : PruningNode Tx} {op : Op Tx} {s s' u : DefaultStore Tx} {height : Nat}

theorem Growing.next (h : n.Growing op) : Next n.store op := by
  cases op with
  | commit header data signature state => exact h
  | _ => trivial

variable (cfg : PruningConfig)

def BlocksFree (s : DefaultStore Tx) (height : Nat) : Prop :=
  height = 0 ∨ (height + cfg.keepRecent ≤ s.height ∧
    (cfg.daEnabled = true → height + cfg.keepRecent ≤ daIncluded s))

def StatesFree (s : DefaultStore Tx) (height : Nat) : Prop :=
  height = 0 ∨ height + cfg.keepRecent + 1 ≤ s.height

/-- A loop prunes only what is free. -/
def PhaseFree (s : DefaultStore Tx) : PrunePhase → Prop
  | .idle => True
  | .blocks _ stop => BlocksFree cfg s stop
  | .states _ stop => StatesFree cfg s stop

/-- The markers and the loop of the pruner keep to what is free. -/
structure Bounded (n : PruningNode Tx) : Prop where
  blockMarker : BlocksFree cfg n.store (blockMarker n.store)
  stateMarker : StatesFree cfg n.store (stateMarker n.store)
  phase : PhaseFree cfg n.store n.phase

variable {cfg}

theorem BlocksFree.mono (h : BlocksFree cfg s height)
    (hheight : s.height ≤ s'.height) (hda : daIncluded s ≤ daIncluded s') :
    BlocksFree cfg s' height := by
  rcases h with h | ⟨hstore, hincluded⟩
  · exact .inl h
  · exact .inr ⟨by omega, fun he => le_trans (hincluded he) hda⟩

theorem StatesFree.mono (h : StatesFree cfg s height)
    (hheight : s.height ≤ s'.height) : StatesFree cfg s' height := by
  rcases h with h | h
  · exact .inl h
  · exact .inr (by omega)

theorem BlocksFree.le {height' : Nat} (h : BlocksFree cfg s height)
    (hle : height' ≤ height) : BlocksFree cfg s height' := by
  rcases h with h | ⟨hstore, hincluded⟩
  · exact .inl (by omega)
  · exact .inr ⟨by omega, fun he => le_trans (by omega) (hincluded he)⟩

theorem StatesFree.le {height' : Nat} (h : StatesFree cfg s height)
    (hle : height' ≤ height) : StatesFree cfg s height' := by
  rcases h with h | h
  · exact .inl (by omega)
  · exact .inr (by omega)

theorem PhaseFree.mono {phase : PrunePhase} (h : PhaseFree cfg s phase)
    (hheight : s.height ≤ s'.height) (hda : daIncluded s ≤ daIncluded s') :
    PhaseFree cfg s' phase := by
  cases phase with
  | idle => trivial
  | blocks start stop => exact BlocksFree.mono h hheight hda
  | states start stop => exact StatesFree.mono h hheight

theorem Bounded.mono {n' : PruningNode Tx} (hn : Bounded cfg n) (hphase : n'.phase = n.phase)
    (hheight : n.store.height ≤ n'.store.height)
    (hda : daIncluded n.store ≤ daIncluded n'.store)
    (hblock : PruningNode.blockMarker n'.store = PruningNode.blockMarker n.store)
    (hstate : PruningNode.stateMarker n'.store = PruningNode.stateMarker n.store) :
    Bounded cfg n' := by
  refine ⟨?_, ?_, ?_⟩
  · rw [hblock]
    exact hn.blockMarker.mono hheight hda
  · rw [hstate]
    exact hn.stateMarker.mono hheight
  · rw [hphase]
    exact hn.phase.mono hheight hda

/-! ## Ticks -/

/-- The markers as the pruner reads them. -/
theorem lastPrunedHeight_eq {key : Bytes}
    (h : lastPrunedHeight key s = some height) : s.getLastPrunedHeight key = height := by
  unfold lastPrunedHeight at h
  unfold DefaultStore.getLastPrunedHeight
  split at h
  · next hnone =>
    cases h
    rw [hnone]
  · cases h
  · next height' hsome =>
    cases h
    rw [hsome]
  · cases h

/-- The loop that `pruneStates` starts goes no further than asked. -/
theorem phase_pruneStates {upTo : Nat} (h : StatesFree cfg s upTo) :
    PhaseFree cfg s (pruneStates cfg upTo s) := by
  unfold pruneStates
  split
  · trivial
  · split
    · trivial
    · exact StatesFree.le h (min_le_right _ _)

theorem phase_pruneMetadata (hkeep : cfg.keepRecent + 1 < 2 ^ 64) (s : DefaultStore Tx) :
    PhaseFree cfg s (pruneMetadata cfg s) := by
  unfold pruneMetadata
  split
  · trivial
  · next hgt =>
    refine phase_pruneStates (.inr ?_)
    have hpos := cfg.keepRecent_pos
    simp only [uint64Add, Nat.mod_eq_of_lt hkeep] at hgt
    simp only [uint64Sub]
    split <;> split <;> omega

theorem phase_pruneBlocks (hs : BlocksFree cfg s (blockMarker s)) :
    PhaseFree cfg s (pruneBlocks cfg s) := by
  unfold pruneBlocks
  split
  · trivial
  · next upper hupper =>
    split
    · trivial
    · next hgt =>
      split
      · trivial
      · next lastPruned hlast =>
        have hmarker : blockMarker s = lastPruned := lastPrunedHeight_eq hlast
        rw [hmarker] at hs
        have htarget : BlocksFree cfg s (upper - cfg.keepRecent) := by
          right
          unfold upperBound at hupper
          split at hupper
          · next hda =>
            split at hupper
            · next included hincluded =>
              cases hupper
              have heq : daIncluded s = included := by simp only [daIncluded, hincluded]
              omega
            · cases hupper
          · next hda =>
            cases hupper
            exact ⟨by omega, fun he => absurd he hda⟩
        simp only
        rcases max_choice (min (uint64Add lastPruned (pruneBudget cfg)) (upper - cfg.keepRecent))
          lastPruned with hmax | hmax
        · rw [hmax]
          exact htarget.le (min_le_right _ _)
        · rw [hmax]
          exact hs

theorem Bounded.tick (hkeep : cfg.keepRecent + 1 < 2 ^ 64)
    (hn : Bounded cfg n) : Bounded cfg (n.tick cfg) := by
  unfold PruningNode.tick
  split
  · refine ⟨hn.blockMarker, hn.stateMarker, ?_⟩
    cases n.mode with
    | metadata => exact phase_pruneMetadata hkeep n.store
    | all => exact phase_pruneBlocks hn.blockMarker
  · exact hn

/-! ## Chunks -/

variable {blobHash : SignedHeader → Bytes}

theorem Bounded.chunk (hn : Bounded cfg n) :
    Bounded cfg (n.chunk cfg blobHash) := by
  have hphase := hn.phase
  unfold PruningNode.chunk
  cases hp : n.phase with
  | idle => exact hn
  | blocks start stop =>
    rw [hp] at hphase
    have hstop : BlocksFree cfg n.store stop := hphase
    dsimp only
    split
    · generalize hstop' : min (uint64Add start maxPruneChunk) stop = stop'
      have hle : stop' ≤ stop := hstop' ▸ min_le_right _ _
      by_cases hskip : stop' ≤ n.store.getLastPrunedHeight lastPrunedBlockHeightKey
      · rw [DefaultStore.pruneBlocks_of_le blobHash hskip]
        exact ⟨hn.blockMarker, hn.stateMarker, hstop⟩
      · have heffect := DefaultStore.pruneBlocks_effect blobHash (not_le.mp hskip)
        have hheight := le_of_eq heffect.height_eq.symm
        obtain ⟨hstate, hda⟩ := markers_pruneBlocks heffect
        refine ⟨?_, ?_, ?_⟩
        · have hmarker : PruningNode.blockMarker (n.store.pruneBlocks blobHash stop') = stop' :=
            heffect.marker
          rw [hmarker]
          exact (hstop.le hle).mono hheight (le_of_eq hda.symm)
        · rw [hstate]
          exact hn.stateMarker.mono hheight
        · exact hstop.mono hheight (le_of_eq hda.symm)
    · split
      · exact ⟨hn.blockMarker, hn.stateMarker, trivial⟩
      · next hne =>
        have hfree : StatesFree cfg n.store (stop - 1) := by
          rcases hstop with h | ⟨h, -⟩
          · exact absurd h hne
          · exact .inr (by omega)
        exact ⟨hn.blockMarker, hn.stateMarker, phase_pruneStates hfree⟩
  | states start stop =>
    rw [hp] at hphase
    have hstop : StatesFree cfg n.store stop := hphase
    dsimp only
    split
    · generalize hstop' : min (uint64Add start maxPruneChunk) stop = stop'
      have hle : stop' ≤ stop := hstop' ▸ min_le_right _ _
      by_cases hskip : stop' ≤ n.store.getLastPrunedHeight lastPrunedStateHeightKey
      · rw [DefaultStore.pruneStates_of_le blobHash hskip]
        exact ⟨hn.blockMarker, hn.stateMarker, hstop⟩
      · have heffect := DefaultStore.pruneStates_effect blobHash (not_le.mp hskip)
        have hheight := le_of_eq heffect.height_eq.symm
        obtain ⟨hblock, hda⟩ := markers_pruneStates heffect
        refine ⟨?_, ?_, ?_⟩
        · rw [hblock]
          exact hn.blockMarker.mono hheight (le_of_eq hda.symm)
        · have hmarker : PruningNode.stateMarker (n.store.pruneStates blobHash stop') = stop' :=
            heffect.marker
          rw [hmarker]
          exact (hstop.le hle).mono hheight
        · exact hstop.mono hheight
    · exact ⟨hn.blockMarker, hn.stateMarker, trivial⟩

theorem Bounded.step (hkeep : cfg.keepRecent + 1 < 2 ^ 64)
    (hn : Bounded cfg n) (hop : n.Growing op) :
    Bounded cfg (n.step cfg blobHash op) := by
  cases op with
  | tick => exact hn.tick hkeep
  | chunk => exact hn.chunk
  | restart mode => exact ⟨hn.blockMarker, hn.stateMarker, trivial⟩
  | commit header data signature state =>
    have heq : (n.step cfg blobHash (.commit header data signature state)).store =
        n.store.commitBlock blobHash header data signature state := rfl
    refine hn.mono rfl ?_ ?_ ?_ ?_ <;> rw [heq, commitBlock_eq data signature state hop.1]
    · exact Nat.le_succ _
    · exact le_refl _
    · rfl
    · rfl
  | setDAIncluded height =>
    have hne : ∀ key, metaKey key ≠ metaKey daIncludedHeightKey →
        (n.store.setMetadata blobHash daIncludedHeightKey (.height height)).metadata (metaKey key) =
          n.store.metadata (metaKey key) := fun key hkey => apply_of_ne hkey
    have hset : daIncluded (n.store.setMetadata blobHash daIncludedHeightKey (.height height)) =
        height := by
      have hread := DefaultStore.getMetadata_put blobHash n.store [] daIncludedHeightKey
        (.height height)
      have hsame : (n.store.setMetadata blobHash daIncludedHeightKey (.height height)).getMetadata
        daIncludedHeightKey = some (.height height) := hread
      simp only [daIncluded, hsame]
    refine hn.mono rfl (le_refl _) ?_ ?_ ?_
    · show daIncluded n.store ≤
        daIncluded (n.store.setMetadata blobHash daIncludedHeightKey (.height height))
      rw [hset]
      exact hop
    · exact blockMarker_congr (hne _ (by decide))
    · exact stateMarker_congr (hne _ (by decide))
  | rollback height aggregator => exact absurd hop not_false

/-! ## Runs -/

/-- A node next to the store the same writes leave without the pruner. -/
structure Tracks (cfg : PruningConfig) (blobHash : SignedHeader → Bytes) (genesis : Genesis)
    (n : PruningNode Tx) (u : DefaultStore Tx) : Prop where
  bounded : Bounded cfg n
  prunes : Prunes u n.store
  unpruned : Unpruned u
  chain : Chain blobHash genesis n.store
  full : Chain blobHash genesis u

variable {genesis : Genesis}

theorem Growing.not_rollback (h : n.Growing op) :
    ∀ height aggregator, op ≠ .rollback height aggregator := by
  rintro height aggregator rfl
  exact h

theorem Bounded.markers_le (hn : Bounded cfg n) :
    PruningNode.blockMarker n.store ≤ n.store.height ∧
      PruningNode.stateMarker n.store ≤ n.store.height := by
  constructor
  · rcases hn.blockMarker with h | ⟨h, -⟩ <;> omega
  · rcases hn.stateMarker with h | h <;> omega

theorem Tracks.next (h : Tracks cfg blobHash genesis n u) (hop : n.Growing op) : Next u op := by
  cases op with
  | commit header data signature state =>
    obtain ⟨hheight, hlast⟩ := hop.next
    exact ⟨h.prunes.height ▸ hheight, h.prunes.height ▸ hlast⟩
  | _ => trivial

theorem Tracks.step (hkeep : cfg.keepRecent + 1 < 2 ^ 64) (h : Tracks cfg blobHash genesis n u) (hop : n.Growing op) :
    Tracks cfg blobHash genesis (n.step cfg blobHash op) (write blobHash u op) := by
  have hnext := h.next hop
  refine ⟨h.bounded.step hkeep hop, ?_, h.unpruned.write hnext hop.not_rollback,
    h.chain.step hop.next, h.full.write hnext⟩
  cases op with
  | commit header data signature state =>
    obtain ⟨hblock, hstate⟩ := h.bounded.markers_le
    exact h.prunes.commit hblock hstate hop.1 hop.2
  | setDAIncluded height => exact h.prunes.setDAIncluded height
  | tick =>
    simp only [PruningNode.step, PruningNode.tick]
    split <;> exact h.prunes
  | chunk => exact h.prunes.chunk
  | restart mode => exact h.prunes
  | rollback height aggregator => exact absurd hop not_false

theorem Tracks.newNode {state : State} (hstate : state.lastBlockHeight = genesis.initialHeight - 1)
    (mode : PruningMode) : Tracks cfg blobHash genesis (newNode genesis state mode)
      (genesisStore genesis state : DefaultStore Tx) := by
  have hunpruned : Unpruned (genesisStore genesis state : DefaultStore Tx) :=
    ⟨rfl, rfl, fun _ _ => rfl⟩
  exact ⟨⟨.inl rfl, .inl rfl, trivial⟩, hunpruned.prunes, hunpruned, Chain.genesisStore hstate,
    Chain.genesisStore hstate⟩

/-- The store that the writes of a run leave without the pruner. -/
def written (blobHash : SignedHeader → Bytes) (genesis : Genesis) (stateRoot : Bytes)
    (ops : List (Op Tx)) : DefaultStore Tx :=
  Run.exec (write blobHash) (genesisStore genesis (Node.genesisState genesis stateRoot)) ops

/-- Both as a run from the first start on leaves them. -/
theorem Tracks.exec (hkeep : cfg.keepRecent + 1 < 2 ^ 64) {stateRoot : Bytes} {mode : PruningMode}
    {ops : List (Op Tx)}
    (hops : Run.Meets (PruningNode.step cfg blobHash) Growing
      (PruningNode.newNode genesis (Node.genesisState genesis stateRoot) mode) ops) :
    Tracks cfg blobHash genesis
      (Run.exec (PruningNode.step cfg blobHash)
        (PruningNode.newNode genesis (Node.genesisState genesis stateRoot) mode) ops)
      (written blobHash genesis stateRoot ops) := by
  refine Run.simulation (Tracks cfg blobHash genesis) ?_ ops _ _ (Tracks.newNode rfl mode) hops
  intro n u op h hop
  exact h.step hkeep hop

/-- The node and the other store with their indexes. -/
structure TracksIndex (cfg : PruningConfig) (blobHash : SignedHeader → Bytes) (genesis : Genesis)
    (H : SignedHeader → Prop) (n : PruningNode Tx) (u : DefaultStore Tx) : Prop
    extends Tracks cfg blobHash genesis n u where
  indexed : Indexed blobHash H n.store
  full_indexed : Indexed blobHash H u

theorem TracksIndex.step {H : SignedHeader → Prop} (hkeep : cfg.keepRecent + 1 < 2 ^ 64)
    (hdistinct : DistinctDigests blobHash H)
    (h : TracksIndex cfg blobHash genesis H n u) (hop : n.Growing op)
    (hmem : ∀ header, committed op = some header → H header) :
    TracksIndex cfg blobHash genesis H (n.step cfg blobHash op) (write blobHash u op) := by
  have hnext := h.next hop
  refine ⟨h.toTracks.step hkeep hop, ?_,
    indexed_write h.full_indexed hdistinct hnext hop.not_rollback hmem⟩
  cases op with
  | tick =>
    simp only [PruningNode.step, PruningNode.tick]
    split <;> exact h.indexed
  | chunk => exact indexed_chunk h.indexed
  | restart mode => exact h.indexed
  | commit header data signature state =>
    exact indexed_write h.indexed hdistinct hop.next hop.not_rollback hmem
  | setDAIncluded height => exact h.indexed.congr rfl rfl
  | rollback height aggregator => exact absurd hop not_false

theorem TracksIndex.exec (hkeep : cfg.keepRecent + 1 < 2 ^ 64) {stateRoot : Bytes}
    {mode : PruningMode} {ops : List (Op Tx)}
    (hdistinct : DistinctDigests blobHash fun header => ∃ op ∈ ops, committed op = some header)
    (hops : Run.Meets (PruningNode.step cfg blobHash) Growing
      (PruningNode.newNode genesis (Node.genesisState genesis stateRoot) mode) ops) :
    TracksIndex cfg blobHash genesis (fun header => ∃ op ∈ ops, committed op = some header)
      (Run.exec (PruningNode.step cfg blobHash)
        (PruningNode.newNode genesis (Node.genesisState genesis stateRoot) mode) ops)
      (written blobHash genesis stateRoot ops) := by
  have hempty : Indexed blobHash (fun header => ∃ op ∈ ops, committed op = some header)
      (genesisStore genesis (Node.genesisState genesis stateRoot) : DefaultStore Tx) :=
    ⟨DefaultStore.indexComplete_empty.congr rfl rfl, fun h b hb => by cases hb⟩
  -- the headers of the run are those of its operations
  have hcond := hops.and (Run.meets_of_forall (fun op (hop : op ∈ ops) => hop) _)
  refine Run.simulation _ ?_ ops _ _ ⟨Tracks.newNode rfl mode, hempty, hempty⟩ hcond
  intro n u op h hop
  exact h.step hkeep hdistinct hop.1 fun header hheader => ⟨op, hop.2, hheader⟩

/-! ## What is retained -/

/-- `h` is one of the last `keepRecent` blocks. -/
def Recent (cfg : PruningConfig) (genesis : Genesis) (s : DefaultStore Tx) (h : Nat) : Prop :=
  genesis.initialHeight ≤ h ∧ h ≤ s.height ∧ s.height < h + cfg.keepRecent

/-- What the pruner must not remove. -/
structure Retained (cfg : PruningConfig) (genesis : Genesis) (s : DefaultStore Tx) : Prop where
  unincluded : cfg.daEnabled = true → ∀ h, genesis.initialHeight ≤ h → h ≤ s.height →
    daIncluded s < h → (s.getBlockData h).isSome
  recent : ∀ h, Recent cfg genesis s h → (s.getBlockData h).isSome
  state : s.getState.isSome
  previous : ∀ h, Recent cfg genesis s h → (s.states.get? (h - 1)).isSome
  replay : ∀ h, Recent cfg genesis s h → ∃ header data prevState,
    s.getBlockData h = some (header, data) ∧
      Store.replayPrevState genesis h header s.toStore = some prevState

theorem Chain.retained (hs : Chain blobHash genesis n.store)
    (hn : Bounded cfg n) : Retained cfg genesis n.store := by
  have hpos := genesis.initialHeight_pos
  have hblock : ∀ h, genesis.initialHeight ≤ h → h ≤ n.store.height →
      PruningNode.blockMarker n.store < h → (n.store.getBlockData h).isSome := by
    intro h hlo hhi hmarker
    simpa [Store.getBlockData] using hs.blocks_some h hlo hhi hmarker
  have hrecent : ∀ h, Recent cfg genesis n.store h → (n.store.getBlockData h).isSome := by
    rintro h ⟨hlo, hhi, hlast⟩
    refine hblock h hlo hhi ?_
    rcases hn.blockMarker with hzero | ⟨hfree, -⟩ <;> omega
  have hprevious : ∀ h, Recent cfg genesis n.store h → (n.store.states.get? (h - 1)).isSome := by
    rintro h ⟨hlo, hhi, hlast⟩
    refine hs.states_some (h - 1) (by omega) (by omega) ?_
    rcases hn.stateMarker with hzero | hfree <;> omega
  refine ⟨?_, hrecent, ?_, hprevious, ?_⟩
  · intro hda h hlo hhi hincluded
    refine hblock h hlo hhi ?_
    rcases hn.blockMarker with hzero | ⟨-, hfree⟩
    · omega
    · have := hfree hda
      omega
  · refine hs.states_some n.store.height hs.height (le_refl _) ?_
    rcases hn.stateMarker with hzero | hfree <;> omega
  · intro h hh
    obtain ⟨⟨header, data⟩, hget⟩ := Option.isSome_iff_exists.mp (hrecent h hh)
    obtain ⟨prev, hprev⟩ := Option.isSome_iff_exists.mp (hprevious h hh)
    unfold Store.replayPrevState
    by_cases hinit : h = genesis.initialHeight
    · exact ⟨header, data, _, hget, if_pos hinit⟩
    · exact ⟨header, data, prev, hget, (if_neg hinit).trans hprev⟩

/--
**Pruning safety.**

After every run of commits, DA inclusion, pruning steps, crashes and changes of the mode, the blocks
that are not DA-included, the last `keepRecent` ones and the states they need are there, and the
store is the one that a single prune of the unpruned store to the same two heights leaves.
-/
theorem pruning_safe (cfg : PruningConfig) (hkeep : cfg.keepRecent + 1 < 2 ^ 64)
    (blobHash : SignedHeader → Bytes) (genesis : Genesis) (stateRoot : Bytes) (mode : PruningMode)
    (ops : List (Op Tx))
    (hops : Run.Meets (PruningNode.step cfg blobHash) Growing
      (newNode genesis (Node.genesisState genesis stateRoot) mode) ops)
    (s once : DefaultStore Tx) (hs : s = reached cfg blobHash genesis stateRoot mode ops)
    (honce : once = ((written blobHash genesis stateRoot ops).pruneBlocks blobHash
      (blockMarker s)).pruneStates blobHash (stateMarker s)) :
    Retained cfg genesis s ∧ Same s once ∧
      (DistinctDigests blobHash (fun header => ∃ op ∈ ops, committed op = some header) →
        ∀ hash, s.index hash = once.index hash) := by
  have htracks := Tracks.exec hkeep hops
  subst hs honce
  refine ⟨htracks.chain.retained htracks.bounded, htracks.prunes.once htracks.unpruned blobHash, ?_⟩
  intro hdistinct hash
  have hindex := TracksIndex.exec hkeep hdistinct hops
  exact htracks.prunes.once_index htracks.unpruned htracks.chain htracks.full hindex.indexed
    hindex.full_indexed hash

namespace PruningRun

def keepTwo : PruningConfig := ⟨2, 10, 1, false, Nat.two_pos, by decide, Nat.one_pos⟩

def keepMost : PruningConfig := ⟨2 ^ 64 - 1, 10, 1, false, by decide, by decide, Nat.one_pos⟩

def first : Genesis := ⟨"chain", 0, 1, [7], 0, 1, Nat.one_pos, Nat.one_pos⟩

def digest (header : SignedHeader) : Bytes := [UInt8.ofNat header.header.height]

def commit (height : Nat) : Op RawTx :=
  .commit ⟨⟨height, 0, "chain", ⟨0, 0⟩, [], [], [], [], [7]⟩, [1], [], [7]⟩
    ⟨"chain", height, 0, [], []⟩ [1]
    { Node.genesisState first [] with lastBlockHeight := height }

/-- Blocks are pruned, the process stops between two chunks and starts with the other mode. -/
def switched : List (Op RawTx) :=
  [commit 1, commit 2, commit 3, commit 4, .tick, .chunk, .restart .metadata, commit 5, .tick,
    .chunk, .chunk]

/-- Two blocks and a tick. -/
def ticked : List (Op RawTx) := [commit 1, commit 2, .tick, .chunk]

end PruningRun

open PruningRun in
theorem pruning_safe_switched :
    blockMarker (reached keepTwo digest first [] .all switched) = 2 ∧
      Retained keepTwo first (reached keepTwo digest first [] .all switched) :=
  ⟨by decide +kernel, (pruning_safe keepTwo (by decide) digest first [] .all switched
    (by decide +kernel) _ _ rfl rfl).1⟩

open PruningRun in
/-- With the largest `keepRecent` the state of the last block is pruned. -/
theorem keep_recent_overflow :
    Run.Meets (PruningNode.step keepMost digest) Growing
      (newNode first (Node.genesisState first []) .metadata) ticked ∧
    (reached keepMost digest first [] .metadata ticked).height = 2 ∧
    (reached keepMost digest first [] .metadata ticked).getState = none := by
  refine ⟨?_, ?_, ?_⟩ <;> decide +kernel

end PruningNode

end EvNode
