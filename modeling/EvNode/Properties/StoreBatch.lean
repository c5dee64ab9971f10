import EvNode.Executing.Executor
import EvNode.Lib.Run
import EvNode.Store.DefaultStore

/-!
# What a batch leaves behind

Each part of the store sees only its own puts and deletes: `metadata_commit` for the metadata,
`get?_blocks_commit` and `get?_states_commit` for a height the batch leaves alone. The batch of a
block does to the block store what the executor's model says (`toStore_commitBlock`).
`rollback_ok` says what a rollback removes, `pruneBlocks_effect` and `pruneStates_effect` what
pruning removes.
-/

namespace EvNode

open KeyValue CleanPath

variable {Tx : Type}

/-! ## Metadata keys -/

theorem mem_decimal {height : Nat} {b : UInt8} (h : b ∈ decimal height) :
    48 ≤ b.toNat ∧ b.toNat ≤ 57 := by
  obtain ⟨c, hc, rfl⟩ := List.mem_map.mp h
  have hdigit := Nat.isDigit_of_mem_toDigits (by decide) (by decide) hc
  simp only [Char.isDigit, Bool.and_eq_true, decide_eq_true_eq, ge_iff_le, UInt32.le_iff_toNat_le]
    at hdigit
  have hlo : 48 ≤ c.toNat := hdigit.1
  have hhi : c.toNat ≤ 57 := hdigit.2
  simp only [UInt8.toNat_ofNat']
  omega

theorem notMem_decimal (height : Nat) : slash ∉ decimal height ∧ dot ∉ decimal height := by
  constructor
  · intro h
    exact absurd (mem_decimal h).1 (by decide)
  · intro h
    exact absurd (mem_decimal h).1 (by decide)

theorem decimal_ne_nil (height : Nat) : decimal height ≠ [] := by
  simp [decimal, Nat.toDigits_ne_nil]

/-- The key of the DA height of a block: the name of the table, the height, and which part of the
block it is. -/
theorem metaKey_heightToDAHeightKey (height : Nat) {part : Bytes} (hne : part ≠ [])
    (hslash : slash ∉ part) (hdot : dot ∉ part) :
    metaKey (heightToDAHeightKey height ++ slash :: part) =
      [ascii "m", ascii "rhb", decimal height, part] := by
  have htext : heightToDAHeightKey height ++ slash :: part =
      ascii "rhb" ++ slash :: (decimal height ++ slash :: part) := by
    simp [heightToDAHeightKey]
  have hm : push [] (ascii "m") = [ascii "m"] := by decide
  have hrhb : push [ascii "m"] (ascii "rhb") = [ascii "m", ascii "rhb"] := by decide
  obtain ⟨hnoslash, hnodot⟩ := notMem_decimal height
  rw [metaKey, newKey, clean, join_slash (by decide), htext, join_slash (by decide),
    join_slash hnoslash, hm, hrhb, push_of_dot (decimal_ne_nil height) hnodot, join,
    splitOn_of_notMem hslash, List.foldl_cons, List.foldl_nil, push_of_dot hne hdot]
  rfl

/-- The DA heights of blocks are kept apart from the keys without a slash. -/
theorem length_heightToDAHeightHeaderKey (height : Nat) :
    (metaKey (heightToDAHeightHeaderKey height)).length = 4 := by
  rw [heightToDAHeightHeaderKey,
    metaKey_heightToDAHeightKey height (by decide) (by decide) (by decide)]
  rfl

theorem length_heightToDAHeightDataKey (height : Nat) :
    (metaKey (heightToDAHeightDataKey height)).length = 4 := by
  rw [heightToDAHeightDataKey,
    metaKey_heightToDAHeightKey height (by decide) (by decide) (by decide)]
  rfl

/-! ## The parts of a batch -/

namespace BatchOp

def metaWrite : BatchOp Tx → Option (Write Key MetaValue)
  | .putMeta key value => some ⟨metaKey key, some value⟩
  | .deleteMeta key => some ⟨metaKey key, none⟩
  | _ => none

def blockHeight : BatchOp Tx → Option Nat
  | .putBlock header _ _ => some header.header.height
  | .deleteBlock height _ => some height
  | _ => none

def stateHeight : BatchOp Tx → Option Nat
  | .putState state => some state.lastBlockHeight
  | .deleteState height => some height
  | _ => none

def isPut : BatchOp Tx → Bool
  | .putBlock _ _ _ => true
  | .putState _ => true
  | _ => false

end BatchOp

namespace DefaultStore

section
variable (blobHash : SignedHeader → Bytes)

@[simp] theorem commit_nil (s : DefaultStore Tx) : s.commit blobHash [] = s := rfl

@[simp] theorem commit_cons (s : DefaultStore Tx) (op : BatchOp Tx) (batch : List (BatchOp Tx)) :
    s.commit blobHash (op :: batch) = (s.applyOp blobHash op).commit blobHash batch := rfl

theorem commit_append (s : DefaultStore Tx) (batch batch' : List (BatchOp Tx)) :
    s.commit blobHash (batch ++ batch') = (s.commit blobHash batch).commit blobHash batch' :=
  List.foldl_append

theorem metadata_commit : ∀ (batch : List (BatchOp Tx)) (s : DefaultStore Tx),
    (s.commit blobHash batch).metadata = applyAll s.metadata (batch.filterMap BatchOp.metaWrite)
  | [], _ => rfl
  | op :: batch, s => by
    rw [commit_cons, metadata_commit batch]
    cases op <;> rfl

theorem getMetadata_put (s : DefaultStore Tx) (batch : List (BatchOp Tx)) (key : Bytes)
    (value : MetaValue) :
    (s.commit blobHash (batch ++ [.putMeta key value])).getMetadata key = some value := by
  rw [commit_append]
  exact Function.update_self ..

variable {batch : List (BatchOp Tx)} {s : DefaultStore Tx} {op : BatchOp Tx} {height : Nat}
  {aggregator : Bool}

/-- What every operation of a batch keeps, the batch keeps. -/
theorem commit_invariant
    (Inv : DefaultStore Tx → Prop)
    (hstep : ∀ s op, op ∈ batch → Inv s → Inv (s.applyOp blobHash op)) (h : Inv s) :
    Inv (s.commit blobHash batch) :=
  Run.invariant Inv (fun s op hs hop => hstep s op hop hs) batch s h
    (Run.meets_of_forall (fun _ hop => hop) s)

/-- What one operation of a batch brings about and the others keep holds after the batch. -/
theorem commit_brings
    (Goal : DefaultStore Tx → Prop) (hop : op ∈ batch)
    (hbrings : ∀ s, Goal (applyOp blobHash s op))
    (hkeeps : ∀ s op, op ∈ batch → Goal s → Goal (applyOp blobHash s op)) :
    Goal (s.commit blobHash batch) := by
  refine Run.invariant_from (fun _ => True) Goal (fun _ _ _ _ => trivial) ?_ ?_ batch s trivial
    (Run.meets_of_forall (fun _ ho => ho) s) ⟨op, hop, rfl⟩
  · rintro s _ - - rfl
    exact hbrings s
  · intro s o _ ho
    exact hkeeps s o ho

theorem get?_blocks_applyOp
    (h : op.blockHeight ≠ some height) :
    (s.applyOp blobHash op).blocks.get? height = s.blocks.get? height := by
  cases op with
  | putBlock header data signature =>
    simp only [BatchOp.blockHeight, ne_eq, Option.some.injEq] at h
    exact OrdMap.get?_put_ne _ _ (Ne.symm h)
  | deleteBlock height' header =>
    simp only [BatchOp.blockHeight, ne_eq, Option.some.injEq] at h
    simp [applyOp, OrdMap.get?_delete, Ne.symm h]
  | _ => rfl

theorem get?_states_applyOp
    (h : op.stateHeight ≠ some height) :
    (s.applyOp blobHash op).states.get? height = s.states.get? height := by
  cases op with
  | putState state =>
    simp only [BatchOp.stateHeight, ne_eq, Option.some.injEq] at h
    exact OrdMap.get?_put_ne _ _ (Ne.symm h)
  | deleteState height' =>
    simp only [BatchOp.stateHeight, ne_eq, Option.some.injEq] at h
    simp [applyOp, OrdMap.get?_delete, Ne.symm h]
  | _ => rfl

theorem get?_blocks_commit
    (h : ∀ op ∈ batch, op.blockHeight ≠ some height) :
    (s.commit blobHash batch).blocks.get? height = s.blocks.get? height := by
  refine commit_invariant blobHash (fun s' => s'.blocks.get? height = s.blocks.get? height) ?_ rfl
  intro s' op hop hs'
  rw [get?_blocks_applyOp blobHash (h op hop), hs']

theorem get?_states_commit
    (h : ∀ op ∈ batch, op.stateHeight ≠ some height) :
    (s.commit blobHash batch).states.get? height = s.states.get? height := by
  refine commit_invariant blobHash (fun s' => s'.states.get? height = s.states.get? height) ?_ rfl
  intro s' op hop hs'
  rw [get?_states_applyOp blobHash (h op hop), hs']

theorem getHeader_commit
    (h : ∀ op ∈ batch, op.blockHeight ≠ some height) :
    (s.commit blobHash batch).getHeader height = s.getHeader height := by
  rw [getHeader, getHeader, get?_blocks_commit blobHash h]

theorem getBlockData_commit
    (h : ∀ op ∈ batch, op.blockHeight ≠ some height) :
    (s.commit blobHash batch).getBlockData height = s.getBlockData height := by
  rw [Store.getBlockData, Store.getBlockData, get?_blocks_commit blobHash h]

theorem toStore_commitBlock (s : DefaultStore Tx) (header : SignedHeader) (data : Data Tx)
    (signature : Bytes) (state : State) :
    (s.commitBlock blobHash header data signature state).toStore =
      Node.commitBatch header data signature state s.toStore := by
  simp only [commitBlock, setHeight, Node.commitBatch, Store.setHeight, commit_append]
  by_cases h : header.header.height ≤ s.height
  · simp [h, applyOp, Store.saveBlockData]
  · simp [h, applyOp, Store.saveBlockData]

/-! ## Batches that only remove blocks and states -/

theorem get?_blocks_deleted
    {header : SignedHeader} (hput : ∀ op ∈ batch, op.isPut = false)
    (hdel : .deleteBlock height header ∈ batch) :
    (s.commit blobHash batch).blocks.get? height = none := by
  refine commit_brings blobHash (fun s => s.blocks.get? height = none) hdel ?_ ?_
  · intro s
    simp [applyOp, OrdMap.get?_delete]
  · intro s op hop h
    have hop' := hput op hop
    cases op with
    | putBlock => cases hop'
    | deleteBlock => simp [applyOp, OrdMap.get?_delete, h]
    | _ => exact h

theorem get?_states_deleted
    (hput : ∀ op ∈ batch, op.isPut = false) (hdel : .deleteState height ∈ batch) :
    (s.commit blobHash batch).states.get? height = none := by
  refine commit_brings blobHash (fun s => s.states.get? height = none) hdel ?_ ?_
  · intro s
    simp [applyOp, OrdMap.get?_delete]
  · intro s op hop h
    have hop' := hput op hop
    cases op with
    | putState => cases hop'
    | deleteState => simp [applyOp, OrdMap.get?_delete, h]
    | _ => exact h

theorem index_deleted
    {header : SignedHeader} (hput : ∀ op ∈ batch, op.isPut = false)
    (hdel : .deleteBlock height header ∈ batch) :
    (s.commit blobHash batch).index (blobHash header) = none := by
  refine commit_brings blobHash (fun s => s.index (blobHash header) = none) hdel ?_ ?_
  · intro s
    simp [applyOp]
  · intro s op hop h
    have hop' := hput op hop
    cases op with
    | putBlock => cases hop'
    | deleteBlock => simp [applyOp, Function.update_apply, h]
    | _ => exact h

theorem index_commit {hash : Bytes}
    (hput : ∀ op ∈ batch, op.isPut = false)
    (h : ∀ height header, .deleteBlock height header ∈ batch → blobHash header ≠ hash) :
    (s.commit blobHash batch).index hash = s.index hash := by
  refine commit_invariant blobHash (fun s' => s'.index hash = s.index hash) ?_ rfl
  intro s' op hop hs'
  have hop' := hput op hop
  cases op with
  | putBlock => cases hop'
  | deleteBlock height header =>
    exact (Function.update_of_ne (Ne.symm (h height header hop)) ..).trans hs'
  | _ => exact hs'

/-! ## Rollback -/

/-- What `Rollback(height)` leaves of the store. -/
structure RolledBack (height : Nat) (s s' : DefaultStore Tx) : Prop where
  below : height < s.height
  headers : ∀ h, height < h → h ≤ s.height → (s.getHeader h).isSome
  height_eq : s'.height = height
  blocks_kept : ∀ h, h ≤ height ∨ s.height < h → s'.blocks.get? h = s.blocks.get? h
  blocks_removed : ∀ h, height < h → h ≤ s.height → s'.blocks.get? h = none
  states_kept : ∀ h, h ≤ height ∨ s.height < h → s'.states.get? h = s.states.get? h
  states_removed : ∀ h, height < h → h ≤ s.height → s'.states.get? h = none
  index_kept : ∀ hash, (∀ h header, height < h → h ≤ s.height → s.getHeader h = some header →
    blobHash header ≠ hash) → s'.index hash = s.index hash
  index_removed : ∀ h header, height < h → h ≤ s.height → s.getHeader h = some header →
    s'.index (blobHash header) = none
  metadata : ∀ key, key ≠ metaKey daIncludedHeightKey → s'.metadata key = s.metadata key

theorem rollbackBlocks_ok :
    ∀ {current : Nat} {batch : List (BatchOp Tx)}, s.rollbackBlocks height current = .ok batch →
      (∀ h, height < h → h ≤ current → ∃ header, s.getHeader h = some header ∧
        .deleteBlock h header ∈ batch ∧ .deleteState h ∈ batch) ∧
      ∀ op ∈ batch, ∃ h, height < h ∧ h ≤ current ∧
        ((∃ header, s.getHeader h = some header ∧ op = .deleteBlock h header) ∨
          op = .deleteState h)
  | 0, batch, hok => by
    cases hok
    exact ⟨fun h hlo hhi => absurd hlo (by omega), fun op hop => absurd hop List.not_mem_nil⟩
  | current + 1, batch, hok => by
    simp only [rollbackBlocks] at hok
    split at hok
    · next hle =>
      cases hok
      exact ⟨fun h hlo hhi => absurd hlo (by omega), fun op hop => absurd hop List.not_mem_nil⟩
    · next hgt =>
      split at hok
      · cases hok
      · next header hheader =>
        cases hrest : s.rollbackBlocks height current with
        | error e => rw [hrest] at hok; cases hok
        | ok rest =>
          rw [hrest] at hok
          cases hok
          obtain ⟨hall, hops⟩ := rollbackBlocks_ok hrest
          constructor
          · intro h hlo hhi
            by_cases htop : h = current + 1
            · subst htop
              exact ⟨header, hheader, by simp, by simp⟩
            · obtain ⟨header', hget, hblock, hstate⟩ := hall h hlo (by omega)
              exact ⟨header', hget, by simp [hblock], by simp [hstate]⟩
          · intro op hop
            simp only [List.mem_cons] at hop
            rcases hop with rfl | rfl | hop
            · exact ⟨current + 1, by omega, le_refl _, .inl ⟨header, hheader, rfl⟩⟩
            · exact ⟨current + 1, by omega, le_refl _, .inr rfl⟩
            · obtain ⟨h, hlo, hhi, hop⟩ := hops op hop
              exact ⟨h, hlo, by omega, hop⟩

/-- The part of the batch before the blocks writes at most the DA-included height. -/
theorem rollbackIncluded_ok (h : s.rollbackIncluded height aggregator = .ok batch) :
    ∀ op ∈ batch, op = .putMeta daIncludedHeightKey (.height height) := by
  unfold rollbackIncluded at h
  split at h
  · split at h
    · split at h
      · cases h
      · cases h
        simp
    · cases h
      simp
  · cases h
    simp

/-- The operations of the batch of a rollback. -/
structure RollbackOps (height : Nat) (s : DefaultStore Tx) (batch : List (BatchOp Tx)) : Prop where
  below : height < s.height
  kinds : ∀ op ∈ batch, op = .putMeta daIncludedHeightKey (.height height) ∨
    op = .putHeight height ∨ ∃ h, height < h ∧ h ≤ s.height ∧
      ((∃ header, s.getHeader h = some header ∧ op = .deleteBlock h header) ∨ op = .deleteState h)
  deletes : ∀ h, height < h → h ≤ s.height → ∃ header, s.getHeader h = some header ∧
    .deleteBlock h header ∈ batch ∧ .deleteState h ∈ batch
  last : ∃ rest, batch = rest ++ [.putHeight height]

theorem rollbackBatch_ok (h : s.rollbackBatch height aggregator = .ok batch) :
    RollbackOps height s batch := by
  unfold rollbackBatch at h
  split at h
  · cases h
  · next hgt =>
    cases hinc : s.rollbackIncluded height aggregator with
    | error e => rw [hinc] at h; cases h
    | ok included =>
      cases hblocks : s.rollbackBlocks height s.height with
      | error e => rw [hinc, hblocks] at h; cases h
      | ok blocks =>
        rw [hinc, hblocks] at h
        cases h
        obtain ⟨hall, hops⟩ := rollbackBlocks_ok hblocks
        refine ⟨by omega, ?_, ?_, included ++ blocks, rfl⟩
        · intro op hop
          simp only [List.mem_append, List.mem_singleton] at hop
          rcases hop with (hop | hop) | hop
          · exact .inl (rollbackIncluded_ok hinc op hop)
          · exact .inr (.inr (hops op hop))
          · exact .inr (.inl hop)
        · intro h hlo hhi
          obtain ⟨header, hget, hblock, hstate⟩ := hall h hlo hhi
          exact ⟨header, hget, by simp [hblock], by simp [hstate]⟩

theorem RollbackOps.isPut
    (h : RollbackOps height s batch) : ∀ op ∈ batch, op.isPut = false := by
  intro op hop
  rcases h.kinds op hop with rfl | rfl | ⟨h, -, -, ⟨header, -, rfl⟩ | rfl⟩ <;> rfl

theorem RollbackOps.metaWrite
    (h : RollbackOps height s batch) :
    ∀ w ∈ batch.filterMap BatchOp.metaWrite, w.key = metaKey daIncludedHeightKey := by
  intro w hw
  obtain ⟨op, hop, hwrite⟩ := List.mem_filterMap.mp hw
  rcases h.kinds op hop with rfl | rfl | ⟨x, -, -, ⟨header, -, rfl⟩ | rfl⟩ <;> cases hwrite
  rfl

theorem rollback_ok {s' : DefaultStore Tx}
    (h : s.rollback blobHash height aggregator = .ok s') : RolledBack blobHash height s s' := by
  unfold rollback at h
  cases hbatch : s.rollbackBatch height aggregator with
  | error e => rw [hbatch] at h; cases h
  | ok batch =>
    rw [hbatch] at h
    cases h
    have hops := rollbackBatch_ok hbatch
    have hput := hops.isPut
    refine ⟨hops.below, ?_, ?_, ?_, ?_, ?_, ?_, ?_, ?_, ?_⟩
    · intro h hlo hhi
      obtain ⟨header, hget, -⟩ := hops.deletes h hlo hhi
      simp [hget]
    · obtain ⟨rest, rfl⟩ := hops.last
      rw [commit_append]
      rfl
    · intro h hh
      refine get?_blocks_commit blobHash fun op hop => ?_
      rcases hops.kinds op hop with rfl | rfl | ⟨x, hlo, hhi, ⟨header, -, rfl⟩ | rfl⟩ <;>
        simp only [BatchOp.blockHeight, ne_eq, reduceCtorEq, not_false_eq_true, Option.some.injEq]
      omega
    · intro h hlo hhi
      obtain ⟨header, -, hblock, -⟩ := hops.deletes h hlo hhi
      exact get?_blocks_deleted blobHash hput hblock
    · intro h hh
      refine get?_states_commit blobHash fun op hop => ?_
      rcases hops.kinds op hop with rfl | rfl | ⟨x, hlo, hhi, ⟨header, -, rfl⟩ | rfl⟩ <;>
        simp only [BatchOp.stateHeight, ne_eq, reduceCtorEq, not_false_eq_true, Option.some.injEq]
      omega
    · intro h hlo hhi
      obtain ⟨header, -, -, hstate⟩ := hops.deletes h hlo hhi
      exact get?_states_deleted blobHash hput hstate
    · intro hash hne
      refine index_commit blobHash hput fun h header hop => ?_
      rcases hops.kinds _ hop with heq | heq | ⟨x, hlo, hhi, ⟨header', hget, heq⟩ | heq⟩ <;>
        cases heq
      exact hne h header hlo hhi hget
    · intro h header hlo hhi hget
      obtain ⟨header', hget', hblock, -⟩ := hops.deletes h hlo hhi
      rw [hget] at hget'
      cases hget'
      exact index_deleted blobHash hput hblock
    · intro key hkey
      rw [metadata_commit]
      refine applyAll_of_notMem fun hmem => ?_
      obtain ⟨w, hw, rfl⟩ := List.mem_map.mp hmem
      exact hkey (hops.metaWrite w hw)

/-! ## Pruning -/

/-- What `PruneBlocks(height)` leaves of a store that was pruned up to `lastPruned`. -/
structure PrunedBlocks (lastPruned height : Nat) (s s' : DefaultStore Tx) : Prop where
  height_eq : s'.height = s.height
  states_eq : s'.states = s.states
  blocks_kept : ∀ h, h ≤ lastPruned ∨ height < h → s'.blocks.get? h = s.blocks.get? h
  blocks_removed : ∀ h, lastPruned < h → h ≤ height → s'.blocks.get? h = none
  index_kept : ∀ hash, (∀ h header, lastPruned < h → h ≤ height → s.getHeader h = some header →
    blobHash header ≠ hash) → s'.index hash = s.index hash
  index_removed : ∀ h header, lastPruned < h → h ≤ height → s.getHeader h = some header →
    s'.index (blobHash header) = none
  marker : s'.getLastPrunedHeight lastPrunedBlockHeightKey = height
  metadata : ∀ key, key.length ≠ 4 → key ≠ metaKey lastPrunedBlockHeightKey →
    s'.metadata key = s.metadata key
  metadata_none : ∀ key, key ≠ metaKey lastPrunedBlockHeightKey → s.metadata key = none →
    s'.metadata key = none

theorem pruneBlocks_of_le
    (h : height ≤ s.getLastPrunedHeight lastPrunedBlockHeightKey) :
    s.pruneBlocks blobHash height = s := if_pos h

/-- The operations of the batch for a range of heights. -/
theorem mem_pruneBlock {lastPruned : Nat} :
    op ∈ (List.range' (lastPruned + 1) (height - lastPruned)).flatMap s.pruneBlock ↔
      ∃ h header, lastPruned < h ∧ h ≤ height ∧ s.getHeader h = some header ∧
        (op = .deleteBlock h header ∨ op = .deleteMeta (heightToDAHeightHeaderKey h) ∨
          op = .deleteMeta (heightToDAHeightDataKey h)) := by
  rw [List.mem_flatMap]
  constructor
  · rintro ⟨h, hh, hop⟩
    rw [List.mem_range'_1] at hh
    unfold pruneBlock at hop
    split at hop
    · cases hop
    · next header hget =>
      refine ⟨h, header, by omega, by omega, hget, ?_⟩
      simpa using hop
  · rintro ⟨h, header, hlo, hhi, hget, hop⟩
    refine ⟨h, List.mem_range'_1.mpr (by omega), ?_⟩
    simp only [pruneBlock, hget]
    simpa using hop

theorem pruneBlocks_effect
    (hgt : s.getLastPrunedHeight lastPrunedBlockHeightKey < height) :
    PrunedBlocks blobHash (s.getLastPrunedHeight lastPrunedBlockHeightKey) height s
      (s.pruneBlocks blobHash height) := by
  rw [pruneBlocks, if_neg (not_le.mpr hgt)]
  generalize s.getLastPrunedHeight lastPrunedBlockHeightKey = lastPruned at hgt ⊢
  have hkinds : ∀ op ∈ (List.range' (lastPruned + 1) (height - lastPruned)).flatMap s.pruneBlock ++
      [.putMeta lastPrunedBlockHeightKey (.height height)],
      op = .putMeta lastPrunedBlockHeightKey (.height height) ∨
      ∃ h header, lastPruned < h ∧ h ≤ height ∧ s.getHeader h = some header ∧
        (op = .deleteBlock h header ∨ op = .deleteMeta (heightToDAHeightHeaderKey h) ∨
          op = .deleteMeta (heightToDAHeightDataKey h)) := by
    intro op hop
    rw [List.mem_append, List.mem_singleton, mem_pruneBlock] at hop
    exact hop.symm
  have hdel : ∀ h header, lastPruned < h → h ≤ height → s.getHeader h = some header →
      .deleteBlock h header ∈ (List.range' (lastPruned + 1) (height - lastPruned)).flatMap
        s.pruneBlock ++ [.putMeta lastPrunedBlockHeightKey (.height height)] := by
    intro h header hlo hhi hget
    rw [List.mem_append, mem_pruneBlock]
    exact .inl ⟨h, header, hlo, hhi, hget, .inl rfl⟩
  have hput : ∀ op ∈ (List.range' (lastPruned + 1) (height - lastPruned)).flatMap s.pruneBlock ++
      [.putMeta lastPrunedBlockHeightKey (.height height)], op.isPut = false := by
    intro op hop
    rcases hkinds op hop with rfl | ⟨h, header, -, -, -, rfl | rfl | rfl⟩ <;> rfl
  constructor
  · refine commit_invariant blobHash (fun s' => s'.height = s.height) ?_ rfl
    intro s' op hop hs'
    rcases hkinds op hop with rfl | ⟨h, header, -, -, -, rfl | rfl | rfl⟩ <;> exact hs'
  · refine commit_invariant blobHash (fun s' => s'.states = s.states) ?_ rfl
    intro s' op hop hs'
    rcases hkinds op hop with rfl | ⟨h, header, -, -, -, rfl | rfl | rfl⟩ <;> exact hs'
  · intro h hh
    refine get?_blocks_commit blobHash fun op hop => ?_
    rcases hkinds op hop with rfl | ⟨x, header, hlo, hhi, -, rfl | rfl | rfl⟩ <;>
      simp only [BatchOp.blockHeight, ne_eq, reduceCtorEq, not_false_eq_true, Option.some.injEq]
    omega
  · intro h hlo hhi
    cases hget : s.getHeader h with
    | some header => exact get?_blocks_deleted blobHash hput (hdel h header hlo hhi hget)
    | none =>
      -- a height without a header holds no block, and nothing is put
      have hnone : s.blocks.get? h = none := by simpa [getHeader] using hget
      rw [get?_blocks_commit blobHash, hnone]
      intro op hop
      rcases hkinds op hop with rfl | ⟨x, header, -, -, hx, rfl | rfl | rfl⟩ <;>
        simp only [BatchOp.blockHeight, ne_eq, reduceCtorEq, not_false_eq_true, Option.some.injEq]
      rintro rfl
      rw [hget] at hx
      cases hx
  · intro hash hne
    refine index_commit blobHash hput fun h header hop => ?_
    rcases hkinds _ hop with heq | ⟨x, header', hlo, hhi, hget, heq | heq | heq⟩ <;> cases heq
    exact hne h header hlo hhi hget
  · intro h header hlo hhi hget
    exact index_deleted blobHash hput (hdel h header hlo hhi hget)
  · rw [getLastPrunedHeight, getMetadata_put]
  · intro key hlen hkey
    rw [metadata_commit]
    refine applyAll_of_notMem fun hmem => ?_
    obtain ⟨w, hw, rfl⟩ := List.mem_map.mp hmem
    obtain ⟨op, hop, hwrite⟩ := List.mem_filterMap.mp hw
    rcases hkinds op hop with rfl | ⟨x, header, -, -, -, rfl | rfl | rfl⟩ <;>
      simp only [BatchOp.metaWrite, reduceCtorEq, Option.some.injEq] at hwrite <;> subst hwrite
    · exact hkey rfl
    · exact hlen (length_heightToDAHeightHeaderKey x)
    · exact hlen (length_heightToDAHeightDataKey x)
  · intro key hkey hnone
    refine commit_invariant blobHash (fun s' => s'.metadata key = none) ?_ hnone
    intro s' op hop hs'
    rcases hkinds op hop with rfl | ⟨h, header, -, -, -, rfl | rfl | rfl⟩
    · exact (apply_of_ne hkey).trans hs'
    · exact hs'
    · exact apply_delete_none hs' _
    · exact apply_delete_none hs' _

/-- What `PruneStates(height)` leaves of a store whose states were pruned up to `lastPruned`. -/
structure PrunedStates (lastPruned height : Nat) (s s' : DefaultStore Tx) : Prop where
  height_eq : s'.height = s.height
  blocks_eq : s'.blocks = s.blocks
  index_eq : s'.index = s.index
  states_kept : ∀ h, h ≤ lastPruned ∨ height < h → s'.states.get? h = s.states.get? h
  states_removed : ∀ h, lastPruned < h → h ≤ height → s'.states.get? h = none
  marker : s'.getLastPrunedHeight lastPrunedStateHeightKey = height
  metadata : ∀ key, key ≠ metaKey lastPrunedStateHeightKey → s'.metadata key = s.metadata key

theorem pruneStates_of_le
    (h : height ≤ s.getLastPrunedHeight lastPrunedStateHeightKey) :
    s.pruneStates blobHash height = s := if_pos h

theorem pruneStates_effect
    (hgt : s.getLastPrunedHeight lastPrunedStateHeightKey < height) :
    PrunedStates (s.getLastPrunedHeight lastPrunedStateHeightKey) height s
      (s.pruneStates blobHash height) := by
  rw [pruneStates, if_neg (not_le.mpr hgt)]
  generalize s.getLastPrunedHeight lastPrunedStateHeightKey = lastPruned at hgt ⊢
  have hkinds : ∀ op ∈ (List.range' (lastPruned + 1) (height - lastPruned)).map .deleteState ++
      [(.putMeta lastPrunedStateHeightKey (.height height) : BatchOp Tx)],
      op = .putMeta lastPrunedStateHeightKey (.height height) ∨
      ∃ h, lastPruned < h ∧ h ≤ height ∧ op = .deleteState h := by
    intro op hop
    rw [List.mem_append, List.mem_singleton, List.mem_map] at hop
    rcases hop with ⟨h, hh, rfl⟩ | hop
    · rw [List.mem_range'_1] at hh
      exact .inr ⟨h, by omega, by omega, rfl⟩
    · exact .inl hop
  constructor
  · refine commit_invariant blobHash (fun s' => s'.height = s.height) ?_ rfl
    intro s' op hop hs'
    rcases hkinds op hop with rfl | ⟨h, -, -, rfl⟩ <;> exact hs'
  · refine commit_invariant blobHash (fun s' => s'.blocks = s.blocks) ?_ rfl
    intro s' op hop hs'
    rcases hkinds op hop with rfl | ⟨h, -, -, rfl⟩ <;> exact hs'
  · refine commit_invariant blobHash (fun s' => s'.index = s.index) ?_ rfl
    intro s' op hop hs'
    rcases hkinds op hop with rfl | ⟨h, -, -, rfl⟩ <;> exact hs'
  · intro h hh
    refine get?_states_commit blobHash fun op hop => ?_
    rcases hkinds op hop with rfl | ⟨x, hlo, hhi, rfl⟩ <;>
      simp only [BatchOp.stateHeight, ne_eq, reduceCtorEq, not_false_eq_true, Option.some.injEq]
    omega
  · intro h hlo hhi
    have hput : ∀ op ∈ (List.range' (lastPruned + 1) (height - lastPruned)).map .deleteState ++
        [(.putMeta lastPrunedStateHeightKey (.height height) : BatchOp Tx)],
        op.isPut = false := by
      intro op hop
      rcases hkinds op hop with rfl | ⟨x, -, -, rfl⟩ <;> rfl
    refine get?_states_deleted blobHash hput ?_
    rw [List.mem_append, List.mem_map]
    exact .inl ⟨h, List.mem_range'_1.mpr (by omega), rfl⟩
  · rw [getLastPrunedHeight, getMetadata_put]
  · intro key hkey
    rw [metadata_commit]
    refine applyAll_of_notMem fun hmem => ?_
    obtain ⟨w, hw, rfl⟩ := List.mem_map.mp hmem
    obtain ⟨op, hop, hwrite⟩ := List.mem_filterMap.mp hw
    rcases hkinds op hop with rfl | ⟨x, -, -, rfl⟩ <;>
      simp only [BatchOp.metaWrite, reduceCtorEq, Option.some.injEq] at hwrite
    subst hwrite
    exact hkey rfl

end

end DefaultStore

end EvNode
