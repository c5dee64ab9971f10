import EvNode.Properties.StoreIndex
import EvNode.Store.Pruner

/-!
# A chain that is pruned and rolled back

What holds of the store in every run of commits, pruning steps and rollbacks: nothing is stored above
the height, and above the two markers of the pruner every block and every state is there (`Chain`).
-/

namespace EvNode

open KeyValue

variable {Tx : Type}

namespace PruningNode

def blockMarker (s : DefaultStore Tx) : Nat := s.getLastPrunedHeight lastPrunedBlockHeightKey

def stateMarker (s : DefaultStore Tx) : Nat := s.getLastPrunedHeight lastPrunedStateHeightKey

/-- The DA-included height, 0 before there is one. -/
def daIncluded (s : DefaultStore Tx) : Nat :=
  match s.getMetadata daIncludedHeightKey with
  | some (.height height) => height
  | _ => 0

/-- A committed block is the next one and comes with its state. -/
def Next (s : DefaultStore Tx) : Op Tx → Prop
  | .commit header _ _ state =>
    header.header.height = s.height + 1 ∧ state.lastBlockHeight = s.height + 1
  | _ => True

instance (s : DefaultStore Tx) (op : Op Tx) : Decidable (Next s op) := by
  cases op <;> dsimp only [Next] <;> infer_instance

/-- The stored part of a chain. -/
structure Chain (blobHash : SignedHeader → Bytes) (genesis : Genesis) (s : DefaultStore Tx) :
    Prop where
  height : genesis.initialHeight - 1 ≤ s.height
  blocks_above : ∀ h, s.height < h → s.blocks.get? h = none
  states_above : ∀ h, s.height < h → s.states.get? h = none
  blocks_low : ∀ h, (s.blocks.get? h).isSome → genesis.initialHeight ≤ h
  blocks_some : ∀ h, genesis.initialHeight ≤ h → h ≤ s.height → blockMarker s < h →
    (s.blocks.get? h).isSome
  states_some : ∀ h, genesis.initialHeight - 1 ≤ h → h ≤ s.height → stateMarker s < h ∨ h = 0 →
    (s.states.get? h).isSome
  state_height : ∀ h state, s.states.get? h = some state → state.lastBlockHeight = h
  index : s.IndexSound blobHash

variable {blobHash : SignedHeader → Bytes} {genesis : Genesis} {s s' : DefaultStore Tx}

/-! ## Commits -/

theorem commitBlock_eq {header : SignedHeader} (data : Data Tx) (signature : Bytes) (state : State)
    (hh : header.header.height = s.height + 1) :
    s.commitBlock blobHash header data signature state =
      { s with
        height := s.height + 1
        blocks := s.blocks.put (s.height + 1) ⟨header, data, signature⟩
        states := s.states.put state.lastBlockHeight state
        index := Function.update s.index (blobHash header) (some (s.height + 1)) } := by
  have hgt : ¬s.height + 1 ≤ s.height := by omega
  simp only [DefaultStore.commitBlock, DefaultStore.setHeight, hh, if_neg hgt]
  simp [DefaultStore.applyOp, Store.saveBlockData, Store.updateState, hh]

variable {state : State} {height : Nat} {cfg : PruningConfig}

theorem Chain.commit (hs : Chain blobHash genesis s) {header : SignedHeader} (data : Data Tx)
    (signature : Bytes) (hh : header.header.height = s.height + 1)
    (hstate : state.lastBlockHeight = s.height + 1) :
    Chain blobHash genesis (s.commitBlock blobHash header data signature state) := by
  have hsound : (s.applyOp blobHash (.putBlock header data signature)).IndexSound blobHash := by
    refine hs.index.putBlock data signature fun b hb => ?_
    rw [hh, hs.blocks_above _ (Nat.lt_succ_self _)] at hb
    cases hb
  rw [commitBlock_eq data signature state hh]
  constructor
  · have := hs.height
    simp only
    omega
  · intro h hlt
    simp only at hlt ⊢
    rw [OrdMap.get?_put_ne _ _ (by omega), hs.blocks_above h (by omega)]
  · intro h hlt
    simp only at hlt ⊢
    rw [OrdMap.get?_put_ne _ _ (by omega), hs.states_above h (by omega)]
  · intro h hsome
    simp only [OrdMap.get?_put] at hsome
    split at hsome
    · have := hs.height
      omega
    · exact hs.blocks_low h hsome
  · intro h hlo hhi hmarker
    simp only [OrdMap.get?_put] at hhi ⊢
    split
    · rfl
    · exact hs.blocks_some h hlo (by omega) hmarker
  · intro h hlo hhi hmarker
    simp only [OrdMap.get?_put, hstate] at hhi ⊢
    split
    · rfl
    · exact hs.states_some h hlo (by omega) hmarker
  · intro h st hst
    simp only [OrdMap.get?_put] at hst
    split at hst
    · next heq =>
      cases hst
      exact heq.symm
    · exact hs.state_height h st hst
  · refine hsound.congr ?_ ?_
    · simp only [DefaultStore.applyOp, Store.saveBlockData, hh]
    · simp only [DefaultStore.applyOp, hh]

/-! ## Pruning -/

theorem stateMarker_congr (h : s'.metadata (metaKey lastPrunedStateHeightKey) =
    s.metadata (metaKey lastPrunedStateHeightKey)) : stateMarker s' = stateMarker s := by
  simp only [stateMarker, DefaultStore.getLastPrunedHeight, DefaultStore.getMetadata, h]

theorem blockMarker_congr (h : s'.metadata (metaKey lastPrunedBlockHeightKey) =
    s.metadata (metaKey lastPrunedBlockHeightKey)) : blockMarker s' = blockMarker s := by
  simp only [blockMarker, DefaultStore.getLastPrunedHeight, DefaultStore.getMetadata, h]

theorem daIncluded_congr (h : s'.metadata (metaKey daIncludedHeightKey) =
    s.metadata (metaKey daIncludedHeightKey)) : daIncluded s' = daIncluded s := by
  simp only [daIncluded, DefaultStore.getMetadata, h]

theorem markers_pruneBlocks {lastPruned : Nat}
    (h : DefaultStore.PrunedBlocks blobHash lastPruned height s s') :
    stateMarker s' = stateMarker s ∧ daIncluded s' = daIncluded s :=
  ⟨stateMarker_congr (h.metadata _ (by decide) (by decide)),
    daIncluded_congr (h.metadata _ (by decide) (by decide))⟩

theorem markers_pruneStates {lastPruned : Nat}
    (h : DefaultStore.PrunedStates lastPruned height s s') :
    blockMarker s' = blockMarker s ∧ daIncluded s' = daIncluded s :=
  ⟨blockMarker_congr (h.metadata _ (by decide)), daIncluded_congr (h.metadata _ (by decide))⟩

theorem Chain.pruneBlocks (hs : Chain blobHash genesis s) (height : Nat) :
    Chain blobHash genesis (s.pruneBlocks blobHash height) := by
  by_cases hle : height ≤ s.getLastPrunedHeight lastPrunedBlockHeightKey
  · rw [DefaultStore.pruneBlocks_of_le blobHash hle]
    exact hs
  have heffect := DefaultStore.pruneBlocks_effect blobHash (not_le.mp hle)
  have hmarker : blockMarker (s.pruneBlocks blobHash height) = height := heffect.marker
  have hkept : ∀ h b, (s.pruneBlocks blobHash height).blocks.get? h = some b →
      s.blocks.get? h = some b := by
    intro h b hb
    by_cases hh : s.getLastPrunedHeight lastPrunedBlockHeightKey < h ∧ h ≤ height
    · rw [heffect.blocks_removed h hh.1 hh.2] at hb
      cases hb
    · rwa [heffect.blocks_kept h (by omega)] at hb
  constructor
  · rw [heffect.height_eq]
    exact hs.height
  · intro h hlt
    rw [heffect.height_eq] at hlt
    rw [Option.eq_none_iff_forall_not_mem]
    intro b hb
    have hold := hkept h b hb
    rw [hs.blocks_above h hlt] at hold
    cases hold
  · intro h hlt
    rw [heffect.height_eq] at hlt
    rw [heffect.states_eq]
    exact hs.states_above h hlt
  · intro h hsome
    obtain ⟨b, hb⟩ := Option.isSome_iff_exists.mp hsome
    exact hs.blocks_low h (Option.isSome_of_eq_some (hkept h b hb))
  · intro h hlo hhi hlt
    rw [heffect.height_eq] at hhi
    rw [hmarker] at hlt
    rw [heffect.blocks_kept h (.inr hlt)]
    refine hs.blocks_some h hlo hhi ?_
    exact lt_trans (not_le.mp hle) hlt
  · intro h hlo hhi hlt
    rw [heffect.height_eq] at hhi
    rw [(markers_pruneBlocks heffect).1] at hlt
    rw [heffect.states_eq]
    exact hs.states_some h hlo hhi hlt
  · intro h state hstate
    rw [heffect.states_eq] at hstate
    exact hs.state_height h state hstate
  · exact hs.index.removed heffect.removed

theorem Chain.pruneStates (hs : Chain blobHash genesis s) (height : Nat) :
    Chain blobHash genesis (s.pruneStates blobHash height) := by
  by_cases hle : height ≤ s.getLastPrunedHeight lastPrunedStateHeightKey
  · rw [DefaultStore.pruneStates_of_le blobHash hle]
    exact hs
  have heffect := DefaultStore.pruneStates_effect blobHash (not_le.mp hle)
  have hmarker : stateMarker (s.pruneStates blobHash height) = height := heffect.marker
  have hkept : ∀ h state, (s.pruneStates blobHash height).states.get? h = some state →
      s.states.get? h = some state := by
    intro h state hstate
    by_cases hh : s.getLastPrunedHeight lastPrunedStateHeightKey < h ∧ h ≤ height
    · rw [heffect.states_removed h hh.1 hh.2] at hstate
      cases hstate
    · rwa [heffect.states_kept h (by omega)] at hstate
  constructor
  · rw [heffect.height_eq]
    exact hs.height
  · intro h hlt
    rw [heffect.height_eq] at hlt
    rw [heffect.blocks_eq]
    exact hs.blocks_above h hlt
  · intro h hlt
    rw [heffect.height_eq] at hlt
    rw [Option.eq_none_iff_forall_not_mem]
    intro state hstate
    have hold := hkept h state hstate
    rw [hs.states_above h hlt] at hold
    cases hold
  · intro h hsome
    rw [heffect.blocks_eq] at hsome
    exact hs.blocks_low h hsome
  · intro h hlo hhi hlt
    rw [heffect.height_eq] at hhi
    rw [(markers_pruneStates heffect).1] at hlt
    rw [heffect.blocks_eq]
    exact hs.blocks_some h hlo hhi hlt
  · intro h hlo hhi hlt
    rw [heffect.height_eq] at hhi
    rw [hmarker] at hlt
    have hnot : h ≤ s.getLastPrunedHeight lastPrunedStateHeightKey ∨ height < h := by omega
    rw [heffect.states_kept h hnot]
    refine hs.states_some h hlo hhi ?_
    rcases hlt with hlt | rfl
    · exact .inl (lt_trans (not_le.mp hle) hlt)
    · exact .inr rfl
  · intro h state hstate
    exact hs.state_height h state (hkept h state hstate)
  · exact hs.index.congr heffect.blocks_eq heffect.index_eq

/-! ## Rollback and metadata -/

theorem Chain.rolledBack (hs : Chain blobHash genesis s)
    (hr : DefaultStore.RolledBack blobHash height s s') : Chain blobHash genesis s' := by
  have hblock : blockMarker s' = blockMarker s := blockMarker_congr (hr.metadata _ (by decide))
  have hstate : stateMarker s' = stateMarker s := stateMarker_congr (hr.metadata _ (by decide))
  have hbelow := hr.below
  -- the block right above the new height was stored
  have hlow : genesis.initialHeight ≤ height + 1 := by
    have hheader := hr.headers (height + 1) (Nat.lt_succ_self _) hbelow
    refine hs.blocks_low (height + 1) ?_
    simpa [DefaultStore.getHeader] using hheader
  have habove : ∀ h, height < h → s'.blocks.get? h = none ∧ s'.states.get? h = none := by
    intro h hlt
    by_cases hh : h ≤ s.height
    · exact ⟨hr.blocks_removed h hlt hh, hr.states_removed h hlt hh⟩
    · rw [hr.blocks_kept h (by omega), hr.states_kept h (by omega)]
      exact ⟨hs.blocks_above h (by omega), hs.states_above h (by omega)⟩
  constructor
  · rw [hr.height_eq]
    omega
  · intro h hlt
    rw [hr.height_eq] at hlt
    exact (habove h hlt).1
  · intro h hlt
    rw [hr.height_eq] at hlt
    exact (habove h hlt).2
  · intro h hsome
    by_cases hh : h ≤ height
    · rw [hr.blocks_kept h (.inl hh)] at hsome
      exact hs.blocks_low h hsome
    · rw [(habove h (not_le.mp hh)).1] at hsome
      cases hsome
  · intro h hlo hhi hlt
    rw [hr.height_eq] at hhi
    rw [hblock] at hlt
    rw [hr.blocks_kept h (.inl hhi)]
    exact hs.blocks_some h hlo (by omega) hlt
  · intro h hlo hhi hlt
    rw [hr.height_eq] at hhi
    rw [hstate] at hlt
    rw [hr.states_kept h (.inl hhi)]
    exact hs.states_some h hlo (by omega) hlt
  · intro h state hget
    by_cases hh : h ≤ height
    · rw [hr.states_kept h (.inl hh)] at hget
      exact hs.state_height h state hget
    · rw [(habove h (not_le.mp hh)).2] at hget
      cases hget
  · exact hs.index.removed hr.removed

theorem Chain.setDAIncluded (hs : Chain blobHash genesis s) (height : Nat) :
    Chain blobHash genesis (s.setMetadata blobHash daIncludedHeightKey (.height height)) := by
  have hne : ∀ key, metaKey key ≠ metaKey daIncludedHeightKey →
      (s.setMetadata blobHash daIncludedHeightKey (.height height)).metadata (metaKey key) =
        s.metadata (metaKey key) := fun key hkey => apply_of_ne hkey
  have hblock := blockMarker_congr (hne lastPrunedBlockHeightKey (by decide))
  have hstate := stateMarker_congr (hne lastPrunedStateHeightKey (by decide))
  refine ⟨hs.height, hs.blocks_above, hs.states_above, hs.blocks_low, ?_, ?_, hs.state_height, ?_⟩
  · intro h hlo hhi hlt
    rw [hblock] at hlt
    exact hs.blocks_some h hlo hhi hlt
  · intro h hlo hhi hlt
    rw [hstate] at hlt
    exact hs.states_some h hlo hhi hlt
  · exact hs.index.congr rfl rfl

/-! ## Runs -/

theorem Chain.write (hs : Chain blobHash genesis s) {op : Op Tx} (hop : Next s op) :
    Chain blobHash genesis (write blobHash s op) := by
  cases op with
  | commit header data signature state => exact hs.commit data signature hop.1 hop.2
  | setDAIncluded height => exact hs.setDAIncluded height
  | rollback height aggregator =>
    simp only [PruningNode.write]
    split
    · next s' hok => exact hs.rolledBack (DefaultStore.rollback_ok blobHash hok)
    · exact hs
  | _ => exact hs

theorem Chain.chunk {n : PruningNode Tx}
    (hs : Chain blobHash genesis n.store) : Chain blobHash genesis (n.chunk cfg blobHash).store := by
  unfold PruningNode.chunk
  split
  · exact hs
  · next start stop hphase =>
    split
    · dsimp only
      exact hs.pruneBlocks _
    · split <;> exact hs
  · next start stop hphase =>
    split
    · dsimp only
      exact hs.pruneStates _
    · exact hs

theorem Chain.step {n : PruningNode Tx} (hs : Chain blobHash genesis n.store)
    {op : Op Tx} (hop : Next n.store op) :
    Chain blobHash genesis (n.step cfg blobHash op).store := by
  cases op with
  | tick =>
    simp only [PruningNode.step, PruningNode.tick]
    split <;> exact hs
  | chunk => exact hs.chunk
  | restart mode => exact hs
  | commit header data signature state | setDAIncluded height | rollback height aggregator =>
    exact hs.write hop

theorem Chain.genesisStore
    (hstate : state.lastBlockHeight = genesis.initialHeight - 1) :
    Chain blobHash genesis (genesisStore genesis state : DefaultStore Tx) := by
  refine ⟨le_refl _, fun h _ => rfl, ?_, ?_, ?_, ?_, ?_, ?_⟩
  · intro h hlt
    exact OrdMap.get?_put_ne _ _ (Nat.ne_of_gt hlt)
  · intro h hsome
    cases hsome
  · intro h hlo hhi _
    have hpos := genesis.initialHeight_pos
    have hle : h ≤ genesis.initialHeight - 1 := hhi
    omega
  · intro h hlo hhi _
    have heq : h = genesis.initialHeight - 1 := le_antisymm hhi hlo
    rw [heq]
    exact Option.isSome_of_eq_some (OrdMap.get?_put_self ..)
  · intro h st hst
    simp only [PruningNode.genesisStore, OrdMap.get?_put] at hst
    split at hst
    · next heq =>
      cases hst
      rw [hstate, heq]
    · cases hst
  · exact DefaultStore.indexSound_empty.congr rfl rfl

theorem Chain.exec
    (hstate : state.lastBlockHeight = genesis.initialHeight - 1) (mode : PruningMode)
    (ops : List (Op Tx)) (hops : Run.Meets (PruningNode.step cfg blobHash)
      (fun n => Next n.store) (newNode genesis state mode) ops) :
    Chain blobHash genesis
      (Run.exec (PruningNode.step cfg blobHash) (newNode genesis state mode) ops).store :=
  Run.invariant (fun n => Chain blobHash genesis n.store) (fun _ _ hs hop => hs.step hop) ops _
    (Chain.genesisStore hstate) hops

def reached (cfg : PruningConfig) (blobHash : SignedHeader → Bytes) (genesis : Genesis)
    (stateRoot : Bytes) (mode : PruningMode) (ops : List (Op Tx)) : DefaultStore Tx :=
  (Run.exec (PruningNode.step cfg blobHash)
    (newNode genesis (Node.genesisState genesis stateRoot) mode) ops).store

end PruningNode

end EvNode
