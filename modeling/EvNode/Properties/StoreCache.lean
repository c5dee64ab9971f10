import EvNode.Properties.StoreBatch
import EvNode.Store.CachedStore

/-!
# Coherence of the cached store

A read through the cache returns what the store below holds as long as no batch writes a block at a
height that is cached (`cached_reads_coherent`). `Rollback` and `PruneBlocks` forget what they
remove. A batch does not: a legacy pending block that was read at its height is still returned there
after the migration has deleted it and the block that was signed is committed
(`legacy_block_cached`).
-/

namespace EvNode

open KeyValue

variable {Tx : Type}

namespace CachedStore

/-- What is cached is what the store holds. -/
structure Coherent (cs : CachedStore Tx) : Prop where
  header : ∀ h header, cs.headerCache h = some header → cs.store.getHeader h = some header
  blockData : ∀ h entry, cs.blockDataCache h = some entry → cs.store.getBlockData h = some entry

/-- The block of this height, if the operation writes one, is in neither cache. -/
def Uncached (cs : CachedStore Tx) (op : BatchOp Tx) : Prop :=
  match op.blockHeight with
  | some h => cs.headerCache h = none ∧ cs.blockDataCache h = none
  | none => True

/-- A batch writes blocks only at heights that are not cached. -/
def SparesCache (cs : CachedStore Tx) : Op Tx → Prop
  | .commit batch => ∀ op ∈ batch, cs.Uncached op
  | _ => True

instance [DecidableEq Tx] (cs : CachedStore Tx) (op : BatchOp Tx) : Decidable (cs.Uncached op) := by
  cases op <;> dsimp only [Uncached, BatchOp.blockHeight] <;> infer_instance

instance [DecidableEq Tx] (cs : CachedStore Tx) (op : Op Tx) :
    Decidable (cs.SparesCache op) := by
  cases op <;> dsimp only [SparesCache] <;> infer_instance

section
variable {cs : CachedStore Tx}

/-! ## Reads -/

theorem Coherent.getHeader_eq (hcs : cs.Coherent) (height : Nat) :
    (cs.getHeader height).1 = cs.store.getHeader height := by
  unfold getHeader
  split
  · next header hcache => exact (hcs.header height header hcache).symm
  · split
    · next hget => exact hget.symm
    · next header hget => exact hget.symm

theorem Coherent.getBlockData_eq (hcs : cs.Coherent) (height : Nat) :
    (cs.getBlockData height).1 = cs.store.getBlockData height := by
  unfold getBlockData
  split
  · next entry hcache => exact (hcs.blockData height entry hcache).symm
  · split
    · next hget => exact hget.symm
    · next header data hget => exact hget.symm

theorem Coherent.cacheHeader (hcs : cs.Coherent) {height : Nat} {header : SignedHeader}
    (hget : cs.store.getHeader height = some header) :
    Coherent { cs with headerCache := Function.update cs.headerCache height (some header) } := by
  refine ⟨fun h x hx => ?_, hcs.blockData⟩
  simp only [Function.update_apply] at hx
  split at hx
  · next heq =>
    cases hx
    exact heq ▸ hget
  · exact hcs.header h x hx

theorem getHeader_of_getBlockData {s : DefaultStore Tx} {height : Nat} {header : SignedHeader}
    {data : Data Tx} (h : s.getBlockData height = some (header, data)) :
    s.getHeader height = some header := by
  unfold Store.getBlockData at h
  unfold DefaultStore.getHeader
  cases hb : s.blocks.get? height with
  | none => simp [hb] at h
  | some b =>
    simp only [hb, Option.map_some, Option.some.injEq, Prod.mk.injEq] at h
    simp [h.1]

theorem Coherent.getHeader (hcs : cs.Coherent) (height : Nat) :
    (cs.getHeader height).2.Coherent := by
  unfold CachedStore.getHeader
  split
  · exact hcs
  · split
    · exact hcs
    · next header hget => exact hcs.cacheHeader hget

theorem Coherent.getBlockData (hcs : cs.Coherent) (height : Nat) :
    (cs.getBlockData height).2.Coherent := by
  unfold CachedStore.getBlockData
  split
  · exact hcs
  · split
    · exact hcs
    · next header data hget =>
      have hheader := hcs.cacheHeader (getHeader_of_getBlockData hget)
      refine ⟨hheader.header, fun h x hx => ?_⟩
      simp only [Function.update_apply] at hx
      split at hx
      · next heq =>
        cases hx
        exact heq ▸ hget
      · exact hcs.blockData h x hx

/-! ## Writes -/

/-- The store may change where nothing is cached. -/
theorem Coherent.of_blocks (hcs : cs.Coherent) {cs' : CachedStore Tx}
    (hheader : ∀ h header, cs'.headerCache h = some header → cs.headerCache h = some header ∧
      cs'.store.blocks.get? h = cs.store.blocks.get? h)
    (hblock : ∀ h entry, cs'.blockDataCache h = some entry → cs.blockDataCache h = some entry ∧
      cs'.store.blocks.get? h = cs.store.blocks.get? h) : cs'.Coherent := by
  constructor
  · intro h header hx
    obtain ⟨hold, hsame⟩ := hheader h header hx
    rw [DefaultStore.getHeader, hsame]
    exact hcs.header h header hold
  · intro h entry hx
    obtain ⟨hold, hsame⟩ := hblock h entry hx
    rw [Store.getBlockData, hsame]
    exact hcs.blockData h entry hold

variable (blobHash : SignedHeader → Bytes)

theorem Coherent.commit (hcs : cs.Coherent) {batch : List (BatchOp Tx)}
    (hspare : ∀ op ∈ batch, cs.Uncached op) : (cs.commit blobHash batch).Coherent := by
  have hkeep : ∀ h, (cs.headerCache h).isSome ∨ (cs.blockDataCache h).isSome →
      (cs.commit blobHash batch).store.blocks.get? h = cs.store.blocks.get? h := by
    intro h hcached
    refine DefaultStore.get?_blocks_commit blobHash fun op hop hh => ?_
    have huncached := hspare op hop
    simp only [Uncached, hh] at huncached
    simp [huncached] at hcached
  refine hcs.of_blocks ?_ ?_
  · intro h header hx
    exact ⟨hx, hkeep h (.inl (Option.isSome_of_eq_some hx))⟩
  · intro h entry hx
    exact ⟨hx, hkeep h (.inr (Option.isSome_of_eq_some hx))⟩

theorem uncached_of_metaWrite {op : BatchOp Tx} (h : op.metaWrite.isSome) : cs.Uncached op := by
  cases op <;> first | exact trivial | cases h

theorem metaWrite_metadataBatch {ops : List AsyncWriteOp} {op : BatchOp Tx}
    (h : op ∈ metadataBatch ops) : op.metaWrite.isSome := by
  simp only [metadataBatch, List.mem_append, List.mem_filterMap, List.mem_map] at h
  rcases h with ⟨w, -, hw⟩ | ⟨w, -, rfl⟩
  · obtain ⟨value, -, rfl⟩ := Option.map_eq_some_iff.mp hw
    rfl
  · rfl

/-- Dropping what is cached in a range of heights in which blocks are removed. -/
theorem Coherent.invalidateRange (hcs : cs.Coherent) {store : DefaultStore Tx} {lo hi : Nat}
    (hkept : ∀ h, ¬(lo ≤ h ∧ h ≤ hi) → store.blocks.get? h = cs.store.blocks.get? h) :
    (CachedStore.invalidateRange lo hi { cs with store := store }).Coherent := by
  refine hcs.of_blocks ?_ ?_
  · intro h header hx
    simp only [CachedStore.invalidateRange] at hx
    split at hx
    · cases hx
    · next hout => exact ⟨hx, hkept h hout⟩
  · intro h entry hx
    simp only [CachedStore.invalidateRange] at hx
    split at hx
    · cases hx
    · next hout => exact ⟨hx, hkept h hout⟩

theorem Coherent.rollback (hcs : cs.Coherent) {cs' : CachedStore Tx} {height : Nat}
    {aggregator : Bool} (h : cs.rollback blobHash height aggregator = .ok cs') : cs'.Coherent := by
  unfold CachedStore.rollback at h
  cases hr : cs.store.rollback blobHash height aggregator with
  | error e => rw [hr] at h; cases h
  | ok store =>
    rw [hr] at h
    cases h
    have hrolled := DefaultStore.rollback_ok blobHash hr
    refine hcs.invalidateRange fun h hout => hrolled.blocks_kept h ?_
    omega

theorem Coherent.pruneBlocks (hcs : cs.Coherent) (height : Nat) :
    (cs.pruneBlocks blobHash height).Coherent := by
  refine hcs.invalidateRange fun h hout => ?_
  by_cases hle : height ≤ cs.store.getLastPrunedHeight lastPrunedBlockHeightKey
  · rw [DefaultStore.pruneBlocks_of_le blobHash hle]
  · refine (DefaultStore.pruneBlocks_effect blobHash (not_le.mp hle)).blocks_kept h ?_
    omega

theorem Coherent.step (hcs : cs.Coherent) {op : Op Tx} (hspare : cs.SparesCache op) :
    (cs.step blobHash op).Coherent := by
  unfold CachedStore.step
  split
  · exact hcs
  · cases op with
    | commit batch => exact hcs.commit blobHash hspare
    | getHeader height => exact hcs.getHeader height
    | getBlockData height => exact hcs.getBlockData height
    | evictHeader height =>
      refine hcs.of_blocks (fun h header hx => ?_) fun h entry hx => ⟨hx, rfl⟩
      simp only [Function.update_apply] at hx
      split at hx
      · cases hx
      · exact ⟨hx, rfl⟩
    | evictBlockData height =>
      refine hcs.of_blocks (fun h header hx => ⟨hx, rfl⟩) fun h entry hx => ?_
      simp only [Function.update_apply] at hx
      split at hx
      · cases hx
      · exact ⟨hx, rfl⟩
    | rollback height aggregator =>
      simp only
      split
      · next cs' hok => exact hcs.rollback blobHash hok
      · exact hcs
    | pruneBlocks height => exact hcs.pruneBlocks blobHash height
    | setMetadata key value =>
      simp only [CachedStore.setMetadata]
      split
      · refine hcs.commit blobHash fun op hop => uncached_of_metaWrite ?_
        simp only [List.mem_singleton] at hop
        subst hop
        rfl
      · exact ⟨hcs.header, hcs.blockData⟩
    | deleteMetadata key =>
      simp only [CachedStore.deleteMetadata]
      split
      · refine hcs.commit blobHash fun op hop => uncached_of_metaWrite ?_
        simp only [List.mem_singleton] at hop
        subst hop
        rfl
      · exact ⟨hcs.header, hcs.blockData⟩
    | receive =>
      simp only [CachedStore.receive]
      split
      · exact hcs
      · exact ⟨hcs.header, hcs.blockData⟩
    | flush range range_perm =>
      have hcommit : (cs.commit blobHash (metadataBatch (range (coalesce cs.window)))).Coherent :=
        hcs.commit blobHash fun op hop => uncached_of_metaWrite (metaWrite_metadataBatch hop)
      exact ⟨hcommit.header, hcommit.blockData⟩
    | stop => exact ⟨hcs.header, hcs.blockData⟩
    | close =>
      simp only [CachedStore.close]
      split
      · refine ⟨fun h header hx => ?_, fun h entry hx => ?_⟩
        · cases hx
        · cases hx
      · exact hcs

theorem Coherent.newCachedStore (store : DefaultStore Tx) : (newCachedStore store).Coherent := by
  refine ⟨fun h header hx => ?_, fun h entry hx => ?_⟩
  · cases hx
  · cases hx

/--
**Reads through the cache are reads of the store.**

In every run in which no batch writes a block at a height that is cached, with any evictions,
rollbacks and prunes.
-/
theorem cached_reads_coherent (store : DefaultStore Tx) (ops : List (Op Tx))
    (hspare : Run.Meets (CachedStore.step blobHash) SparesCache (CachedStore.newCachedStore store) ops)
    (height : Nat) :
    let cs := Run.exec (CachedStore.step blobHash) (CachedStore.newCachedStore store) ops
    (cs.getHeader height).1 = cs.store.getHeader height ∧
      (cs.getBlockData height).1 = cs.store.getBlockData height := by
  have hcs : (Run.exec (CachedStore.step blobHash) (CachedStore.newCachedStore store) ops).Coherent :=
    Run.invariant Coherent (fun cs op hcs hop => hcs.step blobHash hop) ops _
      (Coherent.newCachedStore store) hspare
  exact ⟨hcs.getHeader_eq height, hcs.getBlockData_eq height⟩

end

namespace CacheRun

def header (signature : Bytes) (height : Nat) : SignedHeader :=
  ⟨⟨height, 0, "chain", ⟨0, 0⟩, [], [], [], [], [7]⟩, signature, [], [7]⟩

def data (height : Nat) : Data RawTx := ⟨"chain", height, 0, [], []⟩

/-- The digest of the header bytes, by its two varying parts. -/
def blobHash (header : SignedHeader) : Bytes :=
  UInt8.ofNat header.header.height :: header.signature

def save (signature : Bytes) (height : Nat) : Op RawTx :=
  .commit [.putBlock (header signature height) (data height) signature, .putHeight height]

/-- Two blocks are saved and read; the second is rolled back, which drops it from the cache, and
saved again under another signature. -/
def resaved : List (Op RawTx) :=
  [save [1] 1, save [2] 2, .getBlockData 1, .getHeader 2, .evictHeader 1, .rollback 1 false,
    save [3] 2, .getHeader 2, .pruneBlocks 1]

/-- A legacy pending block at height 1 is read, deleted by its migration, and later committed with
a signature. -/
def migrated : List (Op RawTx) :=
  [.commit [.putBlock (header [] 1) (data 1) []], .getBlockData 1,
    .commit [.deleteBlock 1 (header [] 1)], save [1] 1]

end CacheRun

open CacheRun in
theorem cached_reads_coherent_resaved :
    let cs := Run.exec (CachedStore.step blobHash) (CachedStore.newCachedStore .empty) resaved
    (cs.getHeader 2).1 = some (header [3] 2) ∧
      ((cs.getHeader 2).1 = cs.store.getHeader 2 ∧
        (cs.getBlockData 2).1 = cs.store.getBlockData 2) :=
  ⟨by decide, cached_reads_coherent blobHash .empty resaved (by decide) 2⟩

open CacheRun in
/-- The cached store returns the deleted block, the store below the committed one. -/
theorem legacy_block_cached :
    let cs := Run.exec (CachedStore.step blobHash) (CachedStore.newCachedStore .empty) migrated
    (cs.getHeader 1).1 = some (header [] 1) ∧ cs.store.getHeader 1 = some (header [1] 1) ∧
      (cs.getBlockData 1).1 = some (header [] 1, data 1) ∧
      cs.store.getBlockData 1 = some (header [1] 1, data 1) := by
  decide

end CachedStore

end EvNode
