import EvNode.Properties.PrunedChain

/-!
# The pruned store and the unpruned one

A store next to the one the same writes would have left without the pruner. The pruned one is the
other without the blocks and the states up to the two markers (`Prunes`). Since that says all of it,
how the pruner got to its markers makes no difference (`Prunes.once`).
-/

namespace EvNode

open KeyValue

variable {Tx : Type}

namespace PruningNode

variable {blobHash : SignedHeader → Bytes} {genesis : Genesis} {u s s' : DefaultStore Tx}

theorem metadata_of_marker {key : Bytes} (h : 0 < s.getLastPrunedHeight key) :
    s.metadata (metaKey key) = some (.height (s.getLastPrunedHeight key)) := by
  unfold DefaultStore.getLastPrunedHeight DefaultStore.getMetadata at h ⊢
  split at h
  · next height heq => rw [heq]
  · exact absurd h (lt_irrefl 0)

/-- What is stored once: the pending block and the DA height of the genesis. -/
def singles (s : DefaultStore Tx) : Option SignedHeader × Option (Data Tx) × Option Nat :=
  (s.pendingHeader, s.pendingData, s.genesisDAHeight)

/-- `s` is `u` without what the pruner has removed. -/
structure Prunes (u s : DefaultStore Tx) : Prop where
  height : s.height = u.height
  blocks : ∀ h, s.blocks.get? h =
    if 0 < h ∧ h ≤ blockMarker s then none else u.blocks.get? h
  states : ∀ h, s.states.get? h =
    if 0 < h ∧ h ≤ stateMarker s then none else u.states.get? h
  block_unset : blockMarker s = 0 → s.metadata (metaKey lastPrunedBlockHeightKey) = none
  state_unset : stateMarker s = 0 → s.metadata (metaKey lastPrunedStateHeightKey) = none
  metadata : ∀ key, key ≠ metaKey lastPrunedBlockHeightKey →
    key ≠ metaKey lastPrunedStateHeightKey → s.metadata key = u.metadata key
  hints : ∀ key, key.length = 4 → u.metadata key = none
  singles : singles s = singles u

/-- The store as far as it can be read, without the hash index. -/
structure Same (s s' : DefaultStore Tx) : Prop where
  height : s'.height = s.height
  blocks : ∀ h, s'.blocks.get? h = s.blocks.get? h
  states : ∀ h, s'.states.get? h = s.states.get? h
  metadata : ∀ key, s'.metadata key = s.metadata key
  singles : singles s' = singles s

/-- A store that was never pruned. -/
structure Unpruned (u : DefaultStore Tx) : Prop where
  block : u.metadata (metaKey lastPrunedBlockHeightKey) = none
  state : u.metadata (metaKey lastPrunedStateHeightKey) = none
  hints : ∀ key, key.length = 4 → u.metadata key = none

theorem Unpruned.markers (hu : Unpruned u) : blockMarker u = 0 ∧ stateMarker u = 0 := by
  constructor
  · simp [blockMarker, DefaultStore.getLastPrunedHeight, DefaultStore.getMetadata, hu.block]
  · simp [stateMarker, DefaultStore.getLastPrunedHeight, DefaultStore.getMetadata, hu.state]

theorem Unpruned.prunes (hu : Unpruned u) : Prunes u u := by
  obtain ⟨hblock, hstate⟩ := hu.markers
  refine ⟨rfl, ?_, ?_, fun _ => hu.block, fun _ => hu.state, fun _ _ _ => rfl, hu.hints, rfl⟩
  · intro h
    rw [hblock, if_neg (by omega)]
  · intro h
    rw [hstate, if_neg (by omega)]

theorem Prunes.block (h : Prunes u s) {x : Nat} {b : Block Tx} (hb : s.blocks.get? x = some b) :
    u.blocks.get? x = some b := by
  rw [h.blocks] at hb
  split at hb
  · cases hb
  · exact hb

theorem marker_eq {key : Bytes} (heq : s'.getLastPrunedHeight key = s.getLastPrunedHeight key)
    (hs : s.getLastPrunedHeight key = 0 → s.metadata (metaKey key) = none)
    (hs' : s'.getLastPrunedHeight key = 0 → s'.metadata (metaKey key) = none) :
    s'.metadata (metaKey key) = s.metadata (metaKey key) := by
  rcases Nat.eq_zero_or_pos (s.getLastPrunedHeight key) with hzero | hpos
  · rw [hs hzero, hs' (heq.trans hzero)]
  · rw [metadata_of_marker hpos, metadata_of_marker (heq ▸ hpos), heq]

/-- The markers determine what is left. -/
theorem Prunes.same (hs : Prunes u s) (hs' : Prunes u s') (hblock : blockMarker s' = blockMarker s)
    (hstate : stateMarker s' = stateMarker s) : Same s s' := by
  refine ⟨hs'.height.trans hs.height.symm, ?_, ?_, ?_, hs'.singles.trans hs.singles.symm⟩
  · intro h
    rw [hs'.blocks, hs.blocks, hblock]
  · intro h
    rw [hs'.states, hs.states, hstate]
  · intro key
    by_cases hb : key = metaKey lastPrunedBlockHeightKey
    · rw [hb]
      exact marker_eq hblock hs.block_unset hs'.block_unset
    by_cases hst : key = metaKey lastPrunedStateHeightKey
    · rw [hst]
      exact marker_eq hstate hs.state_unset hs'.state_unset
    rw [hs'.metadata key hb hst, hs.metadata key hb hst]

/-! ## Pruning -/

theorem singles_commit (blobHash : SignedHeader → Bytes) (s : DefaultStore Tx)
    (batch : List (BatchOp Tx)) : singles (s.commit blobHash batch) = singles s := by
  refine DefaultStore.commit_invariant blobHash (fun s' => singles s' = singles s) ?_ rfl
  intro s' op _ hs'
  cases op <;> exact hs'

theorem singles_pruneBlocks (blobHash : SignedHeader → Bytes) (height : Nat)
    (s : DefaultStore Tx) : singles (s.pruneBlocks blobHash height) = singles s := by
  unfold DefaultStore.pruneBlocks
  dsimp only
  split
  · rfl
  · exact singles_commit ..

theorem singles_pruneStates (blobHash : SignedHeader → Bytes) (height : Nat)
    (s : DefaultStore Tx) : singles (s.pruneStates blobHash height) = singles s := by
  unfold DefaultStore.pruneStates
  dsimp only
  split
  · rfl
  · exact singles_commit ..

/-- A prune moves its own marker forward and leaves the other one. -/
theorem markers_of_pruneBlocks (blobHash : SignedHeader → Bytes) (height : Nat)
    (s : DefaultStore Tx) :
    blockMarker (s.pruneBlocks blobHash height) = max (blockMarker s) height ∧
      stateMarker (s.pruneBlocks blobHash height) = stateMarker s := by
  by_cases hskip : height ≤ s.getLastPrunedHeight lastPrunedBlockHeightKey
  · rw [DefaultStore.pruneBlocks_of_le blobHash hskip]
    exact ⟨(max_eq_left hskip).symm, rfl⟩
  · have heffect := DefaultStore.pruneBlocks_effect blobHash (not_le.mp hskip)
    exact ⟨heffect.marker.trans (max_eq_right (le_of_not_ge hskip)).symm,
      (markers_pruneBlocks heffect).1⟩

theorem markers_of_pruneStates (blobHash : SignedHeader → Bytes) (height : Nat)
    (s : DefaultStore Tx) :
    blockMarker (s.pruneStates blobHash height) = blockMarker s ∧
      stateMarker (s.pruneStates blobHash height) = max (stateMarker s) height := by
  by_cases hskip : height ≤ s.getLastPrunedHeight lastPrunedStateHeightKey
  · rw [DefaultStore.pruneStates_of_le blobHash hskip]
    exact ⟨rfl, (max_eq_left hskip).symm⟩
  · have heffect := DefaultStore.pruneStates_effect blobHash (not_le.mp hskip)
    exact ⟨(markers_pruneStates heffect).1,
      heffect.marker.trans (max_eq_right (le_of_not_ge hskip)).symm⟩

theorem Prunes.pruneBlocks (blobHash : SignedHeader → Bytes) (hs : Prunes u s) (height : Nat) :
    Prunes u (s.pruneBlocks blobHash height) := by
  by_cases hskip : height ≤ s.getLastPrunedHeight lastPrunedBlockHeightKey
  · rw [DefaultStore.pruneBlocks_of_le blobHash hskip]
    exact hs
  have heffect := DefaultStore.pruneBlocks_effect blobHash (not_le.mp hskip)
  have hmarker : blockMarker (s.pruneBlocks blobHash height) = height := heffect.marker
  have hstate := (markers_pruneBlocks heffect).1
  refine ⟨heffect.height_eq.trans hs.height, ?_, ?_, ?_, ?_, ?_, hs.hints,
    (singles_pruneBlocks ..).trans hs.singles⟩
  · intro h
    rw [hmarker]
    by_cases hh : s.getLastPrunedHeight lastPrunedBlockHeightKey < h ∧ h ≤ height
    · rw [heffect.blocks_removed h hh.1 hh.2, if_pos (by omega)]
    · rw [heffect.blocks_kept h (by omega), hs.blocks h]
      have hiff : (0 < h ∧ h ≤ blockMarker s) ↔ (0 < h ∧ h ≤ height) := by
        simp only [blockMarker]
        omega
      simp only [hiff]
  · intro h
    rw [heffect.states_eq, hstate]
    exact hs.states h
  · intro hzero
    omega
  · intro hzero
    rw [hstate] at hzero
    rw [heffect.metadata _ (by decide) (by decide)]
    exact hs.state_unset hzero
  · intro key hb hst
    by_cases hlen : key.length = 4
    · rw [hs.hints key hlen]
      exact heffect.metadata_none key hb ((hs.metadata key hb hst).trans (hs.hints key hlen))
    · rw [heffect.metadata key hlen hb]
      exact hs.metadata key hb hst

theorem Prunes.pruneStates (blobHash : SignedHeader → Bytes) (hs : Prunes u s) (height : Nat) :
    Prunes u (s.pruneStates blobHash height) := by
  by_cases hskip : height ≤ s.getLastPrunedHeight lastPrunedStateHeightKey
  · rw [DefaultStore.pruneStates_of_le blobHash hskip]
    exact hs
  have heffect := DefaultStore.pruneStates_effect blobHash (not_le.mp hskip)
  have hmarker : stateMarker (s.pruneStates blobHash height) = height := heffect.marker
  have hblock := (markers_pruneStates heffect).1
  refine ⟨heffect.height_eq.trans hs.height, ?_, ?_, ?_, ?_, ?_, hs.hints,
    (singles_pruneStates ..).trans hs.singles⟩
  · intro h
    rw [heffect.blocks_eq, hblock]
    exact hs.blocks h
  · intro h
    rw [hmarker]
    by_cases hh : s.getLastPrunedHeight lastPrunedStateHeightKey < h ∧ h ≤ height
    · rw [heffect.states_removed h hh.1 hh.2, if_pos (by omega)]
    · rw [heffect.states_kept h (by omega), hs.states h]
      have hiff : (0 < h ∧ h ≤ stateMarker s) ↔ (0 < h ∧ h ≤ height) := by
        simp only [stateMarker]
        omega
      simp only [hiff]
  · intro hzero
    rw [hblock] at hzero
    rw [heffect.metadata _ (by decide)]
    exact hs.block_unset hzero
  · intro hzero
    omega
  · intro key hb hst
    rw [heffect.metadata key hst]
    exact hs.metadata key hb hst

/-- One prune to the markers leaves the same. -/
theorem Prunes.once (hs : Prunes u s) (hu : Unpruned u) (blobHash : SignedHeader → Bytes) :
    Same s ((u.pruneBlocks blobHash (blockMarker s)).pruneStates blobHash (stateMarker s)) := by
  obtain ⟨hblock, hstate⟩ := hu.markers
  have hone := markers_of_pruneBlocks blobHash (blockMarker s) u
  have htwo := markers_of_pruneStates blobHash (stateMarker s)
    (u.pruneBlocks blobHash (blockMarker s))
  refine hs.same ((hu.prunes.pruneBlocks blobHash _).pruneStates blobHash _) ?_ ?_
  · rw [htwo.1, hone.1, hblock, Nat.zero_max]
  · rw [htwo.2, hone.2, hstate, Nat.zero_max]

/-! ## Writes -/

section
variable {header : SignedHeader} {data : Data Tx} {signature : Bytes} {state : State}

theorem get?_blocks_commitBlock (hheight : header.header.height = s.height + 1) (h : Nat) :
    (s.commitBlock blobHash header data signature state).blocks.get? h =
      if h = s.height + 1 then some ⟨header, data, signature⟩ else s.blocks.get? h := by
  rw [commitBlock_eq data signature state hheight]
  exact OrdMap.get?_put ..

theorem get?_states_commitBlock (hheight : header.header.height = s.height + 1)
    (hlast : state.lastBlockHeight = s.height + 1) (h : Nat) :
    (s.commitBlock blobHash header data signature state).states.get? h =
      if h = s.height + 1 then some state else s.states.get? h := by
  rw [commitBlock_eq data signature state hheight, hlast]
  exact OrdMap.get?_put ..

theorem metadata_commitBlock (hheight : header.header.height = s.height + 1) :
    (s.commitBlock blobHash header data signature state).metadata = s.metadata := by
  rw [commitBlock_eq data signature state hheight]

theorem height_commitBlock (hheight : header.header.height = s.height + 1) :
    (s.commitBlock blobHash header data signature state).height = s.height + 1 := by
  rw [commitBlock_eq data signature state hheight]

theorem singles_commitBlock (hheight : header.header.height = s.height + 1) :
    singles (s.commitBlock blobHash header data signature state) = singles s := by
  rw [commitBlock_eq data signature state hheight]
  rfl

theorem Prunes.commit (hs : Prunes u s) (hblock : blockMarker s ≤ s.height)
    (hstate : stateMarker s ≤ s.height) (hheight : header.header.height = s.height + 1)
    (hlast : state.lastBlockHeight = s.height + 1) :
    Prunes (u.commitBlock blobHash header data signature state)
      (s.commitBlock blobHash header data signature state) := by
  have hu : header.header.height = u.height + 1 := by rw [hheight, hs.height]
  have hulast : state.lastBlockHeight = u.height + 1 := by rw [hlast, hs.height]
  have hmeta : (s.commitBlock blobHash header data signature state).metadata = s.metadata :=
    metadata_commitBlock hheight
  have hmarker := blockMarker_congr (congrFun hmeta _)
  have hmarker' := stateMarker_congr (congrFun hmeta _)
  refine ⟨?_, ?_, ?_, ?_, ?_, ?_, ?_, ?_⟩
  · rw [height_commitBlock hheight, height_commitBlock hu, hs.height]
  · intro h
    rw [get?_blocks_commitBlock hheight, get?_blocks_commitBlock hu, hmarker, ← hs.height]
    by_cases heq : h = s.height + 1
    · rw [if_pos heq, if_pos heq, if_neg (by omega)]
    · rw [if_neg heq, if_neg heq]
      exact hs.blocks h
  · intro h
    rw [get?_states_commitBlock hheight hlast, get?_states_commitBlock hu hulast, hmarker',
      ← hs.height]
    by_cases heq : h = s.height + 1
    · rw [if_pos heq, if_pos heq, if_neg (by omega)]
    · rw [if_neg heq, if_neg heq]
      exact hs.states h
  · rw [hmarker, hmeta]
    exact hs.block_unset
  · rw [hmarker', hmeta]
    exact hs.state_unset
  · rw [hmeta, metadata_commitBlock hu]
    exact hs.metadata
  · rw [metadata_commitBlock hu]
    exact hs.hints
  · rw [singles_commitBlock hheight, singles_commitBlock hu]
    exact hs.singles

end

theorem Prunes.setDAIncluded (hs : Prunes u s) (height : Nat) :
    Prunes (u.setMetadata blobHash daIncludedHeightKey (.height height))
      (s.setMetadata blobHash daIncludedHeightKey (.height height)) := by
  have hne : ∀ (s : DefaultStore Tx) key, key ≠ metaKey daIncludedHeightKey →
      (s.setMetadata blobHash daIncludedHeightKey (.height height)).metadata key =
        s.metadata key := fun s key hkey => apply_of_ne hkey
  have hset : ∀ s : DefaultStore Tx,
      (s.setMetadata blobHash daIncludedHeightKey (.height height)).metadata
        (metaKey daIncludedHeightKey) = some (.height height) :=
    fun s => DefaultStore.getMetadata_put blobHash s [] daIncludedHeightKey (.height height)
  have hblock := blockMarker_congr (hne s (metaKey lastPrunedBlockHeightKey) (by decide))
  have hstate := stateMarker_congr (hne s (metaKey lastPrunedStateHeightKey) (by decide))
  refine ⟨hs.height, ?_, ?_, ?_, ?_, ?_, ?_, hs.singles⟩
  · intro h
    rw [hblock]
    exact hs.blocks h
  · intro h
    rw [hstate]
    exact hs.states h
  · intro hzero
    rw [hne s _ (by decide)]
    exact hs.block_unset (hblock ▸ hzero)
  · intro hzero
    rw [hne s _ (by decide)]
    exact hs.state_unset (hstate ▸ hzero)
  · intro key hb hst
    by_cases hkey : key = metaKey daIncludedHeightKey
    · rw [hkey]
      exact (hset s).trans (hset u).symm
    · rw [hne s key hkey, hne u key hkey]
      exact hs.metadata key hb hst
  · intro key hlen
    rw [hne u key]
    · exact hs.hints key hlen
    · rintro rfl
      exact absurd hlen (by decide)

theorem Unpruned.write (hu : Unpruned u) {op : Op Tx} (hop : Next u op)
    (hroll : ∀ height aggregator, op ≠ .rollback height aggregator) :
    Unpruned (write blobHash u op) := by
  cases op with
  | commit header data signature state =>
    have hmeta : (u.commitBlock blobHash header data signature state).metadata = u.metadata :=
      metadata_commitBlock hop.1
    exact ⟨hmeta ▸ hu.block, hmeta ▸ hu.state, hmeta ▸ hu.hints⟩
  | setDAIncluded height =>
    have hne : ∀ key, key ≠ metaKey daIncludedHeightKey →
        (u.setMetadata blobHash daIncludedHeightKey (.height height)).metadata key =
          u.metadata key := fun key hkey => apply_of_ne hkey
    refine ⟨?_, ?_, ?_⟩
    · exact (hne _ (by decide)).trans hu.block
    · exact (hne _ (by decide)).trans hu.state
    · intro key hlen
      refine (hne key ?_).trans (hu.hints key hlen)
      rintro rfl
      exact absurd hlen (by decide)
  | rollback height aggregator => exact absurd rfl (hroll height aggregator)
  | _ => exact hu

/-! ## The index -/

open DefaultStore (Indexed DistinctDigests)

variable {H : SignedHeader → Prop}

theorem indexed_pruneStates (hs : Indexed blobHash H s) (height : Nat) :
    Indexed blobHash H (s.pruneStates blobHash height) := by
  by_cases hskip : height ≤ s.getLastPrunedHeight lastPrunedStateHeightKey
  · rw [DefaultStore.pruneStates_of_le blobHash hskip]
    exact hs
  · have heffect := DefaultStore.pruneStates_effect blobHash (not_le.mp hskip)
    exact hs.congr heffect.blocks_eq heffect.index_eq

theorem indexed_commit (hs : Indexed blobHash H s) (hdistinct : DistinctDigests blobHash H)
    {header : SignedHeader} (data : Data Tx) (signature : Bytes) (state : State)
    (hheight : header.header.height = s.height + 1) (hmem : H header) :
    Indexed blobHash H (s.commitBlock blobHash header data signature state) := by
  refine (hs.putBlock hdistinct data signature hmem).congr ?_ ?_ <;>
    rw [commitBlock_eq data signature state hheight]
  · simp only [DefaultStore.applyOp, Store.saveBlockData, hheight]
  · simp only [DefaultStore.applyOp, hheight]

def committed : Op Tx → Option SignedHeader
  | .commit header _ _ _ => some header
  | _ => none

theorem indexed_write (hs : Indexed blobHash H s) (hdistinct : DistinctDigests blobHash H)
    {op : Op Tx} (hop : Next s op) (hroll : ∀ height aggregator, op ≠ .rollback height aggregator)
    (hmem : ∀ header, committed op = some header → H header) :
    Indexed blobHash H (write blobHash s op) := by
  cases op with
  | commit header data signature state =>
    exact indexed_commit hs hdistinct data signature state hop.1 (hmem header rfl)
  | setDAIncluded height => exact hs.congr rfl rfl
  | rollback height aggregator => exact absurd rfl (hroll height aggregator)
  | _ => exact hs

theorem indexed_chunk {cfg : PruningConfig} {n : PruningNode Tx}
    (hs : Indexed blobHash H n.store) : Indexed blobHash H (n.chunk cfg blobHash).store := by
  unfold PruningNode.chunk
  split
  · exact hs
  · split
    · dsimp only
      exact hs.pruneBlocks _
    · split <;> exact hs
  · split
    · dsimp only
      exact indexed_pruneStates hs _
    · exact hs

theorem Prunes.chunk {cfg : PruningConfig} {n : PruningNode Tx} (hn : Prunes u n.store) :
    Prunes u (n.chunk cfg blobHash).store := by
  unfold PruningNode.chunk
  split
  · exact hn
  · split
    · dsimp only
      exact hn.pruneBlocks ..
    · split <;> exact hn
  · split
    · dsimp only
      exact hn.pruneStates ..
    · exact hn

/-- The same holds of the index if digests are distinct. -/
theorem Prunes.once_index (hs : Prunes u s) (hu : Unpruned u) (hchain : Chain blobHash genesis s)
    (hfull : Chain blobHash genesis u) (hindexed : Indexed blobHash H s)
    (hindexed' : Indexed blobHash H u) (hash : Bytes) :
    s.index hash =
      ((u.pruneBlocks blobHash (blockMarker s)).pruneStates blobHash (stateMarker s)).index hash :=
  (DefaultStore.index_eq hchain.index hindexed.complete
    ((hfull.pruneBlocks _).pruneStates _).index
    (indexed_pruneStates (hindexed'.pruneBlocks _) _).complete (hs.once hu blobHash).blocks hash).symm

end PruningNode

end EvNode
