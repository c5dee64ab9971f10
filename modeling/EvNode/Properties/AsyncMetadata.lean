import EvNode.Properties.StoreCache

/-!
# Asynchronous metadata writes

What the write loop has flushed is a prefix of what was issued (`persisted_prefix`): different keys
commute, so one flush does the same as its operations one after the other (`metadata_flush`). This
needs keys that stay different when the datastore cleans them. A call after `Close` has marked the
store as stopped writes at once and overtakes the queue (`stopped_write_overtakes`).

Reads and rollbacks do not look at the queue. They see the last operation on a key when none of the
queued ones is on that key (`metadata_reads_last_write`), and an old value otherwise
(`queued_write_unseen`).
-/

namespace EvNode

open KeyValue

variable {Tx : Type}

namespace CachedStore

/-- What is issued and not written yet. -/
def queue (cs : CachedStore Tx) : List AsyncWriteOp := cs.window ++ cs.writeCh

/-- The writes under their datastore keys. -/
def keyed (ops : List AsyncWriteOp) : List (Write Key MetaValue) := ops.map (Write.rename metaKey)

@[simp] theorem keyed_nil : keyed [] = [] := rfl

@[simp] theorem keyed_append (ops ops' : List AsyncWriteOp) :
    keyed (ops ++ ops') = keyed ops ++ keyed ops' := List.map_append

/-- Different keys have different datastore keys. -/
def Apart (ks : List Bytes) : Prop := ∀ k ∈ ks, ∀ k' ∈ ks, metaKey k = metaKey k' → k = k'

instance (ks : List Bytes) : Decidable (Apart ks) :=
  inferInstanceAs (Decidable (∀ k ∈ ks, ∀ k' ∈ ks, metaKey k = metaKey k' → k = k'))

theorem Apart.subset {ks ks' : List Bytes} (h : Apart ks) (hsub : ks' ⊆ ks) : Apart ks' :=
  fun k hk k' hk' heq => h k (hsub hk) k' (hsub hk') heq

/-! ## A flush -/

theorem puts_metaWrite : ∀ (ops : List AsyncWriteOp),
    (ops.filterMap fun o => o.value.map (@BatchOp.putMeta Tx o.key)).filterMap
      BatchOp.metaWrite = keyed (ops.filter fun o => o.value.isSome)
  | [] => rfl
  | ⟨key, none⟩ :: ops => by
    simp only [List.filterMap_cons, Option.map_none, List.filter_cons, Option.isSome_none,
      Bool.false_eq_true, if_false]
    exact puts_metaWrite ops
  | ⟨key, some value⟩ :: ops => by
    have ih := puts_metaWrite ops
    simp only [List.filterMap_cons, Option.map_some, List.filter_cons, Option.isSome_some,
      if_true, BatchOp.metaWrite]
    rw [ih]
    rfl

theorem deletes_metaWrite : ∀ (ops : List AsyncWriteOp),
    (((ops.filter fun o => o.value.isNone).map fun o =>
      @BatchOp.deleteMeta Tx o.key)).filterMap BatchOp.metaWrite =
        keyed (ops.filter fun o => o.value.isNone)
  | [] => rfl
  | ⟨key, none⟩ :: ops => by
    have ih := deletes_metaWrite ops
    simp only [List.filter_cons, Option.isNone_none, if_true, List.map_cons, List.filterMap_cons,
      BatchOp.metaWrite]
    rw [ih]
    rfl
  | ⟨key, some value⟩ :: ops => by
    simp only [List.filter_cons, Option.isNone_some, Bool.false_eq_true, if_false]
    exact deletes_metaWrite ops

/-- The puts and the deletes of a batch are its operations in another order. -/
theorem metadataBatch_perm (ops : List AsyncWriteOp) :
    ((metadataBatch ops : List (BatchOp Tx)).filterMap BatchOp.metaWrite).Perm (keyed ops) := by
  rw [metadataBatch, List.filterMap_append, puts_metaWrite, deletes_metaWrite, ← keyed_append]
  have hnone : (fun o : AsyncWriteOp => o.value.isNone) = fun o => !o.value.isSome := by
    funext o
    cases o.value <;> rfl
  rw [hnone]
  exact (List.filter_append_perm _ ops).map _

section
variable (blobHash : SignedHeader → Bytes)

variable {cs : CachedStore Tx}

/-- **A flush does what its operations do one after the other.** -/
theorem metadata_flush (hkeys : Apart (keys cs.window))
    {range : List AsyncWriteOp → List AsyncWriteOp} (hrange : ∀ l, (range l).Perm l) :
    (cs.flush blobHash range).store.metadata = applyAll cs.store.metadata (keyed cs.window) := by
  have hcoalesce : keyed (coalesce cs.window) = coalesce (keyed cs.window) :=
    (coalesce_rename fun k hk k' hk' heq => hkeys k hk k' hk' heq).symm
  have hperm : (coalesce (keyed cs.window)).Perm
      ((metadataBatch (range (coalesce cs.window)) : List (BatchOp Tx)).filterMap
        BatchOp.metaWrite) := by
    rw [← hcoalesce]
    exact ((metadataBatch_perm _).trans ((hrange _).map _)).symm
  rw [flush, DefaultStore.metadata_commit, ← applyAll_perm (nodup_keys_coalesce _) hperm,
    applyAll_coalesce]

/-! ## Runs of the write loop -/

/-- The metadata write that a call issues. -/
def Op.write? : Op Tx → Option AsyncWriteOp
  | .setMetadata key value => some ⟨key, some value⟩
  | .deleteMetadata key => some ⟨key, none⟩
  | _ => none

/-- The metadata writes of a run, in the order of the calls. -/
def issued (ops : List (Op Tx)) : List AsyncWriteOp := ops.filterMap Op.write?

theorem issued_cons (op : Op Tx) (ops : List (Op Tx)) :
    issued (op :: ops) = op.write?.toList ++ issued ops := by
  cases hw : op.write? <;> simp [issued, hw]

/-- The only metadata writes are those of `SetMetadata` and `DeleteMetadata`, and there is none
once `Close` has begun. -/
def Orderly (cs : CachedStore Tx) : Op Tx → Prop
  | .setMetadata _ _ | .deleteMetadata _ => cs.stopped = false
  | .commit batch => ∀ op ∈ batch, op.metaWrite = none
  | .rollback _ _ | .pruneBlocks _ => False
  | _ => True

instance (cs : CachedStore Tx) (op : Op Tx) : Decidable (cs.Orderly op) := by
  induction op using Op.casesOn <;> dsimp only [Orderly] <;> infer_instance

/-- A part of what was queued or issued has been written, in order, and the rest is queued. -/
def Advances (cs cs' : CachedStore Tx) (ops : List AsyncWriteOp) : Prop :=
  ∃ written, cs.queue ++ ops = written ++ cs'.queue ∧
    cs'.store.metadata = applyAll cs.store.metadata (keyed written)

theorem Advances.of_eq {cs' : CachedStore Tx} {ops : List AsyncWriteOp}
    (hqueue : cs'.queue = cs.queue ++ ops) (hmeta : cs'.store.metadata = cs.store.metadata) :
    Advances cs cs' ops :=
  ⟨[], by simp [hqueue], by simp [hmeta]⟩

theorem Advances.trans {cs' cs'' : CachedStore Tx} {ops ops' : List AsyncWriteOp}
    (h : Advances cs cs' ops) (h' : Advances cs' cs'' ops') : Advances cs cs'' (ops ++ ops') := by
  obtain ⟨written, hq, hm⟩ := h
  obtain ⟨written', hq', hm'⟩ := h'
  refine ⟨written ++ written', ?_, ?_⟩
  · rw [← List.append_assoc, hq, List.append_assoc, hq', List.append_assoc]
  · rw [hm', hm, keyed_append, applyAll_append]

/-- A closed store has stopped and has nothing left to write. -/
def Drained (cs : CachedStore Tx) : Prop := cs.closed = true → cs.stopped = true ∧ cs.queue = []

theorem queue_getHeader (cs : CachedStore Tx) (height : Nat) :
    (cs.getHeader height).2.queue = cs.queue ∧ (cs.getHeader height).2.store = cs.store ∧
      (cs.getHeader height).2.closed = cs.closed ∧ (cs.getHeader height).2.stopped = cs.stopped := by
  unfold getHeader
  split
  · simp
  · split <;> simp [queue]

theorem queue_getBlockData (cs : CachedStore Tx) (height : Nat) :
    (cs.getBlockData height).2.queue = cs.queue ∧ (cs.getBlockData height).2.store = cs.store ∧
      (cs.getBlockData height).2.closed = cs.closed ∧
      (cs.getBlockData height).2.stopped = cs.stopped := by
  unfold getBlockData
  split
  · simp
  · split <;> simp [queue]

theorem queue_receive (cs : CachedStore Tx) : cs.receive.queue = cs.queue := by
  unfold receive
  split
  · rfl
  · next op rest hch => simp [queue, hch]

theorem step_advances (hdrained : cs.Drained) (hkeys : Apart (keys cs.queue))
    {op : Op Tx} (hop : cs.Orderly op) : Advances cs (cs.step blobHash op) op.write?.toList := by
  unfold step
  split
  · next hclosed =>
    -- no call of a closed store is orderly if it writes
    obtain ⟨hstopped, -⟩ := hdrained hclosed
    refine .of_eq ?_ rfl
    cases op with
    | setMetadata key value | deleteMetadata key => simp [Orderly, hstopped] at hop
    | _ => simp [Op.write?]
  · cases op with
    | commit batch =>
      refine .of_eq (by simp [commit, queue, Op.write?]) ?_
      have hnone : batch.filterMap BatchOp.metaWrite = [] := List.filterMap_eq_nil_iff.mpr hop
      simp only [commit, DefaultStore.metadata_commit, hnone, applyAll_nil]
    | getHeader height =>
      obtain ⟨hqueue, hstore, -⟩ := queue_getHeader cs height
      exact .of_eq (by simp [hqueue, Op.write?]) (by simp only [hstore])
    | getBlockData height =>
      obtain ⟨hqueue, hstore, -⟩ := queue_getBlockData cs height
      exact .of_eq (by simp [hqueue, Op.write?]) (by simp only [hstore])
    | evictHeader height | evictBlockData height => exact .of_eq (by simp [queue, Op.write?]) rfl
    | rollback height aggregator | pruneBlocks height => exact absurd hop not_false
    | setMetadata key value =>
      have hrun : cs.stopped = false := hop
      refine .of_eq ?_ ?_ <;> simp [setMetadata, hrun, queue, Op.write?]
    | deleteMetadata key =>
      have hrun : cs.stopped = false := hop
      refine .of_eq ?_ ?_ <;> simp [deleteMetadata, hrun, queue, Op.write?]
    | receive =>
      refine .of_eq (by simp [queue_receive, Op.write?]) ?_
      simp only [receive]
      split <;> rfl
    | flush range range_perm =>
      have hwindow : Apart (keys cs.window) :=
        hkeys.subset fun k hk => by simp [queue, hk]
      exact ⟨cs.window, by simp [flush, queue, Op.write?],
        metadata_flush blobHash hwindow range_perm⟩
    | stop => exact .of_eq (by simp [stop, queue, Op.write?]) rfl
    | close =>
      refine .of_eq ?_ ?_
      · simp only [close]
        split <;> simp [clearCache, queue, Op.write?]
      · simp only [close]
        split <;> rfl

theorem Drained.step (hdrained : cs.Drained) (op : Op Tx) :
    (cs.step blobHash op).Drained := by
  unfold CachedStore.step
  split
  · exact hdrained
  · next hopen =>
    intro hclosed
    cases op with
    | close =>
      simp only [close] at hclosed ⊢
      split at hclosed
      · next hdone =>
        rw [if_pos hdone]
        simpa [clearCache, queue, hdone.2.1, hdone.2.2] using hdone.1
      · exact absurd hclosed hopen
    | getHeader height =>
      simp only [(queue_getHeader cs height).2.2.1] at hclosed
      exact absurd hclosed hopen
    | getBlockData height =>
      simp only [(queue_getBlockData cs height).2.2.1] at hclosed
      exact absurd hclosed hopen
    | rollback height aggregator =>
      simp only at hclosed
      split at hclosed
      · next cs' hok =>
        unfold CachedStore.rollback at hok
        cases hr : cs.store.rollback blobHash height aggregator with
        | error e => rw [hr] at hok; cases hok
        | ok store =>
          rw [hr] at hok
          cases hok
          exact absurd hclosed hopen
      · exact absurd hclosed hopen
    | setMetadata key value =>
      simp only [CachedStore.setMetadata] at hclosed
      split at hclosed <;> exact absurd hclosed hopen
    | deleteMetadata key =>
      simp only [CachedStore.deleteMetadata] at hclosed
      split at hclosed <;> exact absurd hclosed hopen
    | receive =>
      simp only [CachedStore.receive] at hclosed
      split at hclosed <;> exact absurd hclosed hopen
    | _ => exact absurd hclosed hopen

/-- A run of the write loop: what was queued and what is issued is written in order. -/
theorem exec_advances : ∀ (ops : List (Op Tx)) {cs : CachedStore Tx}, cs.Drained →
    Apart (keys (cs.queue ++ issued ops)) → Run.Meets (step blobHash) Orderly cs ops →
      Advances cs (Run.exec (step blobHash) cs ops) (issued ops) ∧
        (Run.exec (step blobHash) cs ops).Drained
  | [], cs, hdrained, _, _ => ⟨.of_eq (by simp [issued]) rfl, hdrained⟩
  | op :: ops, cs, hdrained, hkeys, hmeets => by
    have hissued := issued_cons op ops
    have hstep := step_advances blobHash hdrained
      (hkeys.subset fun k hk => by simp [hk]) hmeets.1
    have hrest : Apart (keys ((cs.step blobHash op).queue ++ issued ops)) := by
      refine hkeys.subset fun k hk => ?_
      obtain ⟨written, hqueue, -⟩ := hstep
      rw [hissued, ← List.append_assoc, hqueue, List.append_assoc, keys_append]
      exact List.mem_append_right _ hk
    obtain ⟨hadv, hend⟩ := exec_advances ops (hdrained.step blobHash op) hrest hmeets.2
    exact ⟨hissued ▸ hstep.trans hadv, hend⟩

/--
**What is persisted is a prefix of what was issued.**

At every moment of a run, and so at every crash point, the metadata of the datastore is the result
of some of the issued operations, from the first on and in order. After `Close` it is the result of
all of them.
-/
theorem persisted_prefix (store : DefaultStore Tx) (ops : List (Op Tx))
    (hkeys : Apart (keys (issued ops)))
    (hops : Run.Meets (step blobHash) Orderly (newCachedStore store) ops) :
    let cs := Run.exec (step blobHash) (newCachedStore store) ops
    (∃ n, cs.store.metadata = applyAll store.metadata (keyed ((issued ops).take n))) ∧
      (cs.closed = true → cs.store.metadata = applyAll store.metadata (keyed (issued ops))) := by
  have hstart : (newCachedStore store).Drained := fun h => by cases h
  obtain ⟨⟨written, hqueue, hmeta⟩, hdrained⟩ := exec_advances blobHash ops hstart hkeys hops
  have hissued : issued ops = written ++ (Run.exec (step blobHash) (newCachedStore store) ops).queue :=
    hqueue
  constructor
  · refine ⟨written.length, ?_⟩
    rw [hissued, List.take_left]
    exact hmeta
  · intro hclosed
    obtain ⟨-, hempty⟩ := hdrained hclosed
    rw [hempty, List.append_nil] at hissued
    rw [hissued]
    exact hmeta

end

namespace QueueRun

def blobHash (header : SignedHeader) : Bytes := [UInt8.ofNat header.header.height]

def set (key : String) (height : Nat) : Op RawTx := .setMetadata (ascii key) (.height height)

/-- A flush in the order of the operations, and one in the opposite order. -/
def flushed : Op RawTx := .flush id fun _ => .refl _

def flushedBackwards : Op RawTx := .flush List.reverse List.reverse_perm

def exec (ops : List (Op RawTx)) : CachedStore RawTx :=
  Run.exec (step blobHash) (newCachedStore .empty) ops

/-- What a store without a queue would hold. -/
def inOrder (ops : List (Op RawTx)) : Key → Option MetaValue :=
  applyAll (fun _ => none) (keyed (issued ops))

/-- Two windows, the second flushed backwards, and a close. -/
def windows : List (Op RawTx) :=
  [set "a" 1, set "b" 1, .receive, flushed, set "b" 2, .deleteMetadata (ascii "a"), .receive,
    .receive, .receive, flushedBackwards, .stop, .close]

/-- `Close` begins while `a` is queued, and `b` is written at once. -/
def overtaking : List (Op RawTx) := [set "a" 1, .stop, set "b" 1]

/-- `Close` begins while an old value of `a` is queued. -/
def overwriting : List (Op RawTx) :=
  [set "a" 1, .stop, set "a" 2, .receive, flushed, .close]

/-- `a` and `a/` are one key of the datastore and two keys of the window. -/
def aliased : List (Op RawTx) :=
  [set "a" 1, set "a/" 2, .receive, .receive, flushedBackwards, .stop, .close]

end QueueRun

open QueueRun in
theorem persisted_prefix_windows :
    (QueueRun.exec windows).closed = true ∧
    ((∃ n, (QueueRun.exec windows).store.metadata =
        applyAll (DefaultStore.empty : DefaultStore RawTx).metadata (keyed ((issued windows).take n))) ∧
      ((QueueRun.exec windows).closed = true → (QueueRun.exec windows).store.metadata =
        applyAll (DefaultStore.empty : DefaultStore RawTx).metadata (keyed (issued windows)))) :=
  ⟨by decide, persisted_prefix blobHash .empty windows (by decide) (by decide)⟩

open QueueRun in
/-- The second write is persisted without the first; an old value is written over the last one; and
the first of two writes to one datastore key wins. -/
theorem stopped_write_overtakes :
    (∀ n, (QueueRun.exec overtaking).store.metadata ≠
      applyAll (fun _ => none) (keyed ((issued overtaking).take n))) ∧
    ((QueueRun.exec overwriting).closed = true ∧
      (QueueRun.exec overwriting).getMetadata (ascii "a") = some (.height 1) ∧
      inOrder overwriting (metaKey (ascii "a")) = some (.height 2)) ∧
    (QueueRun.exec aliased).closed = true ∧
      (QueueRun.exec aliased).getMetadata (ascii "a") = some (.height 1) ∧
      inOrder aliased (metaKey (ascii "a")) = some (.height 2) := by
  refine ⟨fun n heq => ?_, by decide, by decide, by decide, by decide⟩
  have ha : (QueueRun.exec overtaking).store.metadata (metaKey (ascii "a")) = none := by decide
  have hb : (QueueRun.exec overtaking).store.metadata (metaKey (ascii "b")) =
      some (.height 1) := by decide
  rw [heq] at ha hb
  match n with
  | 0 => exact absurd hb (by decide)
  | 1 => exact absurd ha (by decide)
  | n + 2 =>
    have hlen : (issued overtaking).length = 2 := by decide
    rw [List.take_of_length_le (by omega)] at ha
    exact absurd ha (by decide)

/-! ## Reads -/

section
variable (blobHash : SignedHeader → Bytes)

/-- The same calls on a store without a queue: every write takes effect at once. -/
def direct (s : DefaultStore Tx) : Op Tx → DefaultStore Tx
  | .commit batch => s.commit blobHash batch
  | .rollback height aggregator =>
    match s.rollback blobHash height aggregator with
    | .ok s' => s'
    | .error _ => s
  | .pruneBlocks height => s.pruneBlocks blobHash height
  | .setMetadata key value => s.setMetadata blobHash key value
  | .deleteMetadata key => s.deleteMetadata blobHash key
  | _ => s

/-- No queued operation is on this datastore key. -/
def Settled (cs : CachedStore Tx) (key : Key) : Prop := key ∉ keys (keyed cs.queue)

instance (cs : CachedStore Tx) (key : Key) : Decidable (cs.Settled key) :=
  inferInstanceAs (Decidable (key ∉ keys (keyed cs.queue)))

/-- The operation neither reads nor writes the metadata of a key with a queued operation, and the
store is open. -/
def Timely (cs : CachedStore Tx) : Op Tx → Prop
  | .commit batch => cs.closed = false ∧
      ∀ w ∈ batch.filterMap BatchOp.metaWrite, cs.Settled w.key
  | .rollback _ _ => cs.closed = false ∧ cs.Settled (metaKey daIncludedHeightKey)
  | .pruneBlocks _ => cs.closed = false ∧ cs.Settled (metaKey lastPrunedBlockHeightKey) ∧
      ∀ w ∈ keyed cs.queue, w.key.length ≠ 4
  | .setMetadata key _ | .deleteMetadata key =>
    cs.closed = false ∧ (cs.stopped = true → cs.Settled (metaKey key))
  | _ => True

instance (cs : CachedStore Tx) (op : Op Tx) : Decidable (cs.Timely op) := by
  induction op using Op.casesOn <;> dsimp only [Timely] <;> infer_instance

/-- The same blocks with other metadata. -/
def withMetadata (s : DefaultStore Tx) (m : Key → Option MetaValue) : DefaultStore Tx :=
  { s with metadata := m }

/-- The store that has the queue written. -/
def ahead (cs : CachedStore Tx) : DefaultStore Tx :=
  withMetadata cs.store (applyAll cs.store.metadata (keyed cs.queue))

theorem commit_withMetadata : ∀ (batch : List (BatchOp Tx)) (s : DefaultStore Tx)
    (m : Key → Option MetaValue), (withMetadata s m).commit blobHash batch =
      withMetadata (s.commit blobHash batch) (applyAll m (batch.filterMap BatchOp.metaWrite))
  | [], _, _ => rfl
  | op :: batch, s, m => by
    have hop : (withMetadata s m).applyOp blobHash op =
        withMetadata (s.applyOp blobHash op) (applyAll m op.metaWrite.toList) := by
      cases op <;> rfl
    have hwrites : (op :: batch).filterMap BatchOp.metaWrite =
        op.metaWrite.toList ++ batch.filterMap BatchOp.metaWrite := by
      cases hw : op.metaWrite <;> simp [hw]
    rw [DefaultStore.commit_cons, DefaultStore.commit_cons, hop, commit_withMetadata batch, hwrites,
      applyAll_append]

variable {cs : CachedStore Tx}

/-- A batch that writes no key with a queued operation can be committed behind the queue. -/
theorem ahead_commit {batch : List (BatchOp Tx)}
    (h : ∀ w ∈ batch.filterMap BatchOp.metaWrite, cs.Settled w.key) :
    (cs.commit blobHash batch).ahead = cs.ahead.commit blobHash batch := by
  have hcomm : applyAll (applyAll cs.store.metadata (batch.filterMap BatchOp.metaWrite))
      (keyed cs.queue) = applyAll (applyAll cs.store.metadata (keyed cs.queue))
        (batch.filterMap BatchOp.metaWrite) := by
    refine applyAll_comm (fun k hk => ?_) _
    obtain ⟨w, hw, rfl⟩ := List.mem_map.mp hk
    exact h w hw
  rw [ahead, ahead, commit_withMetadata, ← hcomm, ← DefaultStore.metadata_commit blobHash]
  rfl

theorem ahead_metadata_of_settled {key : Key} (h : cs.Settled key) :
    cs.ahead.metadata key = cs.store.metadata key := applyAll_of_notMem h

theorem rollbackBlocks_withMetadata (height : Nat) (s : DefaultStore Tx)
    (m : Key → Option MetaValue) : ∀ current : Nat,
    (withMetadata s m).rollbackBlocks height current =
      s.rollbackBlocks height current
  | 0 => rfl
  | current + 1 => by
    simp only [DefaultStore.rollbackBlocks, rollbackBlocks_withMetadata height s m current]
    rfl

/-- A rollback sees of the metadata only the DA-included height. -/
theorem rollbackBatch_ahead (h : cs.Settled (metaKey daIncludedHeightKey))
    (height : Nat) (aggregator : Bool) :
    cs.ahead.rollbackBatch height aggregator = cs.store.rollbackBatch height aggregator := by
  have hincluded : cs.ahead.rollbackIncluded height aggregator =
      cs.store.rollbackIncluded height aggregator := by
    simp only [DefaultStore.rollbackIncluded, DefaultStore.getMetadata, ahead_metadata_of_settled h]
  have hblocks : ∀ current, cs.ahead.rollbackBlocks height current =
      cs.store.rollbackBlocks height current := rollbackBlocks_withMetadata height cs.store _
  have hheight : cs.ahead.height = cs.store.height := rfl
  simp only [DefaultStore.rollbackBatch, hincluded, hblocks, hheight]

/-- A rollback behind the queue does what it does in front of it. -/
theorem ahead_rollback (h : cs.Settled (metaKey daIncludedHeightKey))
    (height : Nat) (aggregator : Bool) :
    (cs.rollback blobHash height aggregator).map ahead =
      cs.ahead.rollback blobHash height aggregator := by
  have hbatch := rollbackBatch_ahead h height aggregator
  unfold rollback DefaultStore.rollback
  rw [hbatch]
  cases hb : cs.store.rollbackBatch height aggregator with
  | error e => rfl
  | ok batch =>
    have hsettled : ∀ w ∈ batch.filterMap BatchOp.metaWrite, cs.Settled w.key := by
      intro w hw
      rw [(DefaultStore.rollbackBatch_ok hb).metaWrite w hw]
      exact h
    exact congrArg Except.ok (ahead_commit blobHash hsettled)

theorem ahead_pruneBlocks
    (hmarker : cs.Settled (metaKey lastPrunedBlockHeightKey))
    (hlen : ∀ w ∈ keyed cs.queue, w.key.length ≠ 4) (height : Nat) :
    (cs.pruneBlocks blobHash height).ahead = cs.ahead.pruneBlocks blobHash height := by
  have hlast : cs.ahead.getLastPrunedHeight lastPrunedBlockHeightKey =
      cs.store.getLastPrunedHeight lastPrunedBlockHeightKey := by
    simp only [DefaultStore.getLastPrunedHeight, DefaultStore.getMetadata,
      ahead_metadata_of_settled hmarker]
  have hblock : cs.ahead.pruneBlock = cs.store.pruneBlock := rfl
  by_cases hle : height ≤ cs.store.getLastPrunedHeight lastPrunedBlockHeightKey
  · rw [DefaultStore.pruneBlocks_of_le blobHash (hlast ▸ hle)]
    simp only [pruneBlocks, DefaultStore.pruneBlocks_of_le blobHash hle]
    rfl
  · simp only [pruneBlocks, DefaultStore.pruneBlocks, hlast, if_neg hle, hblock]
    refine ahead_commit blobHash fun w hw => ?_
    obtain ⟨op, hop, hwrite⟩ := List.mem_filterMap.mp hw
    rw [List.mem_append, List.mem_singleton, DefaultStore.mem_pruneBlock] at hop
    have hne : ∀ key : Key, key.length = 4 → cs.Settled key := by
      intro key hkey hmem
      obtain ⟨w, hw, rfl⟩ := List.mem_map.mp hmem
      exact hlen w hw hkey
    rcases hop with ⟨h, header, -, -, -, rfl | rfl | rfl⟩ | rfl <;> cases hwrite
    · exact hne _ (length_heightToDAHeightHeaderKey h)
    · exact hne _ (length_heightToDAHeightDataKey h)
    · exact hmarker

/-! ## The simulation -/

theorem withMetadata_commit {batch : List (BatchOp Tx)} (h : ∀ op ∈ batch, op.metaWrite.isSome)
    (s : DefaultStore Tx) (m : Key → Option MetaValue) :
    withMetadata (s.commit blobHash batch) m = withMetadata s m := by
  refine DefaultStore.commit_invariant blobHash (fun s' => withMetadata s' m = withMetadata s m) ?_
    rfl
  intro s' op hop hs'
  rw [← hs']
  have hmeta := h op hop
  cases op <;> first | rfl | cases hmeta

theorem ahead_flush (hkeys : Apart (keys cs.window))
    {range : List AsyncWriteOp → List AsyncWriteOp} (hrange : ∀ l, (range l).Perm l) :
    (cs.flush blobHash range).ahead = cs.ahead := by
  have hmeta := metadata_flush blobHash hkeys hrange
  have hqueue : (cs.flush blobHash range).queue = cs.writeCh := rfl
  have hstore : ∀ m, withMetadata (cs.flush blobHash range).store m = withMetadata cs.store m :=
    withMetadata_commit blobHash (fun op hop => metaWrite_metadataBatch hop) cs.store
  rw [ahead, ahead, hstore, hmeta, hqueue, ← applyAll_append, ← keyed_append]
  rfl

theorem ahead_eq {cs' : CachedStore Tx} (hqueue : cs'.queue = cs.queue)
    (hstore : cs'.store = cs.store) : cs'.ahead = cs.ahead := by
  rw [ahead, ahead, hqueue, hstore]

theorem ahead_issue (cs : CachedStore Tx) (w : AsyncWriteOp) :
    ({ cs with writeCh := cs.writeCh ++ [w] } : CachedStore Tx).ahead =
      withMetadata cs.ahead (KeyValue.apply cs.ahead.metadata (w.rename metaKey)) := by
  simp only [ahead, queue, ← List.append_assoc, keyed_append, applyAll_append]
  rfl

theorem ahead_setMetadata {key : Bytes} (value : MetaValue)
    (h : cs.stopped = true → cs.Settled (metaKey key)) :
    (cs.setMetadata blobHash key value).ahead = cs.ahead.setMetadata blobHash key value := by
  unfold setMetadata
  split
  · next hstopped =>
    have hone : ∀ w ∈ [(.putMeta key value : BatchOp Tx)].filterMap BatchOp.metaWrite,
        cs.Settled w.key := by
      simpa [BatchOp.metaWrite] using h hstopped
    exact ahead_commit blobHash hone
  · exact ahead_issue cs ⟨key, some value⟩

theorem ahead_deleteMetadata {key : Bytes}
    (h : cs.stopped = true → cs.Settled (metaKey key)) :
    (cs.deleteMetadata blobHash key).ahead = cs.ahead.deleteMetadata blobHash key := by
  unfold deleteMetadata
  split
  · next hstopped =>
    have hone : ∀ w ∈ [(.deleteMeta key : BatchOp Tx)].filterMap BatchOp.metaWrite,
        cs.Settled w.key := by
      simpa [BatchOp.metaWrite] using h hstopped
    exact ahead_commit blobHash hone
  · exact ahead_issue cs ⟨key, none⟩

theorem ahead_step (hkeys : Apart (keys cs.queue)) {op : Op Tx}
    (hop : cs.Timely op) : (cs.step blobHash op).ahead = direct blobHash cs.ahead op := by
  unfold step
  split
  · next hclosed =>
    cases op with
    | commit | rollback | pruneBlocks | setMetadata | deleteMetadata =>
      exact absurd hclosed (by simp [hop.1])
    | _ => rfl
  · cases op with
    | commit batch => exact ahead_commit blobHash hop.2
    | getHeader height =>
      obtain ⟨hqueue, hstore, -⟩ := queue_getHeader cs height
      exact ahead_eq hqueue hstore
    | getBlockData height =>
      obtain ⟨hqueue, hstore, -⟩ := queue_getBlockData cs height
      exact ahead_eq hqueue hstore
    | evictHeader height | evictBlockData height => rfl
    | rollback height aggregator =>
      have hroll := ahead_rollback blobHash hop.2 height aggregator
      simp only [direct, ← hroll]
      cases cs.rollback blobHash height aggregator <;> rfl
    | pruneBlocks height => exact ahead_pruneBlocks blobHash hop.2.1 hop.2.2 height
    | setMetadata key value => exact ahead_setMetadata blobHash value hop.2
    | deleteMetadata key => exact ahead_deleteMetadata blobHash hop.2
    | receive =>
      refine ahead_eq (queue_receive cs) ?_
      simp only [receive]
      split <;> rfl
    | flush range range_perm =>
      exact ahead_flush blobHash (hkeys.subset fun k hk => by simp [queue, hk]) range_perm
    | stop => rfl
    | close =>
      simp only [close]
      split <;> rfl

theorem queue_rollback {cs' : CachedStore Tx} {height : Nat} {aggregator : Bool}
    (h : cs.rollback blobHash height aggregator = .ok cs') : cs'.queue = cs.queue := by
  unfold rollback at h
  cases hr : cs.store.rollback blobHash height aggregator with
  | error e => rw [hr] at h; cases h
  | ok store =>
    rw [hr] at h
    cases h
    rfl

theorem queue_step_subset (cs : CachedStore Tx) (op : Op Tx) :
    (cs.step blobHash op).queue ⊆ cs.queue ++ op.write?.toList := by
  unfold step
  split
  · exact List.subset_append_left _ _
  · cases op with
    | getHeader height => simp [(queue_getHeader cs height).1]
    | getBlockData height => simp [(queue_getBlockData cs height).1]
    | rollback height aggregator =>
      simp only
      split
      · next cs' hok => simp [queue_rollback blobHash hok]
      · simp
    | setMetadata key value =>
      simp only [setMetadata]
      split
      · exact List.subset_append_left _ _
      · simp [queue, Op.write?]
    | deleteMetadata key =>
      simp only [deleteMetadata]
      split
      · exact List.subset_append_left _ _
      · simp [queue, Op.write?]
    | receive => simp [queue_receive]
    | flush range range_perm => simp [flush, queue]
    | close =>
      simp only [close]
      split <;> exact List.subset_append_left _ _
    | _ => exact List.subset_append_left _ _

/-- The cached store follows the store without a queue. -/
theorem exec_ahead : ∀ (ops : List (Op Tx)) {cs : CachedStore Tx},
    Apart (keys (cs.queue ++ issued ops)) → Run.Meets (step blobHash) Timely cs ops →
      (Run.exec (step blobHash) cs ops).ahead = Run.exec (direct blobHash) cs.ahead ops
  | [], _, _, _ => rfl
  | op :: ops, cs, hkeys, hmeets => by
    have hstep := ahead_step blobHash (hkeys.subset fun k hk => by simp [hk]) hmeets.1
    have hrest : Apart (keys ((cs.step blobHash op).queue ++ issued ops)) := by
      refine hkeys.subset (List.map_subset _ ?_)
      rw [issued_cons, ← List.append_assoc]
      have hqueue := queue_step_subset blobHash cs op
      exact List.append_subset.mpr ⟨List.Subset.trans hqueue (List.subset_append_left _ _),
        List.subset_append_right _ _⟩
    rw [Run.exec_cons, Run.exec_cons, exec_ahead ops hrest hmeets.2, hstep]

/--
**A read returns the last write when the key is settled.**

In every run whose batches and rollbacks leave the keys of queued operations alone, a key without a
queued operation has the value that a store without a queue holds. A rollback then compares with the
same DA-included height and leaves the same one behind.
-/
theorem metadata_reads_last_write (store : DefaultStore Tx) (ops : List (Op Tx))
    (hkeys : Apart (keys (issued ops)))
    (hops : Run.Meets (step blobHash) Timely (newCachedStore store) ops) :
    let cs := Run.exec (step blobHash) (newCachedStore store) ops
    let s := Run.exec (direct blobHash) store ops
    (∀ key, cs.Settled (metaKey key) → cs.getMetadata key = s.getMetadata key) ∧
      (cs.Settled (metaKey daIncludedHeightKey) → ∀ height aggregator,
        (cs.rollback blobHash height aggregator).map
            (fun cs' => (cs'.store.height, cs'.getMetadata daIncludedHeightKey)) =
          (s.rollback blobHash height aggregator).map
            (fun s' => (s'.height, s'.getMetadata daIncludedHeightKey))) := by
  intro cs s
  have hahead : cs.ahead = s := exec_ahead blobHash ops hkeys hops
  constructor
  · intro key hsettled
    rw [← hahead]
    exact (ahead_metadata_of_settled hsettled).symm
  · intro hsettled height aggregator
    rw [← hahead, ← ahead_rollback blobHash hsettled]
    cases hroll : cs.rollback blobHash height aggregator with
    | error e => rfl
    | ok cs' =>
      have hsettled' : cs'.Settled (metaKey daIncludedHeightKey) := by
        rw [Settled, queue_rollback blobHash hroll]
        exact hsettled
      have hread := ahead_metadata_of_settled hsettled'
      simp only [Except.map, getMetadata, DefaultStore.getMetadata, hread]
      rfl

end

namespace QueueRun

def header (height : Nat) : SignedHeader :=
  ⟨⟨height, 0, "chain", ⟨0, 0⟩, [], [], [], [], [7]⟩, [1], [], [7]⟩

def twoBlocks : DefaultStore RawTx := DefaultStore.empty.commit blobHash
  [.putBlock (header 1) ⟨"chain", 1, 0, [], []⟩ [1], .putBlock (header 2) ⟨"chain", 2, 0, [], []⟩ [1],
    .putHeight 2]

/-- The DA-included height is written and flushed, and followed by a rollback and other writes. -/
def settled : List (Op RawTx) :=
  [set "d" 2, .receive, flushed, .rollback 1 false, set "last-submitted-header-height" 1]

end QueueRun

open QueueRun in
theorem metadata_reads_last_write_settled :
    let cs := Run.exec (step QueueRun.blobHash) (newCachedStore twoBlocks) settled
    let s := Run.exec (direct QueueRun.blobHash) twoBlocks settled
    cs.getMetadata daIncludedHeightKey = some (.height 1) ∧
    ((∀ key, cs.Settled (metaKey key) → cs.getMetadata key = s.getMetadata key) ∧
      (cs.Settled (metaKey daIncludedHeightKey) → ∀ height aggregator,
        (cs.rollback QueueRun.blobHash height aggregator).map
            (fun cs' => (cs'.store.height, cs'.getMetadata daIncludedHeightKey)) =
          (s.rollback QueueRun.blobHash height aggregator).map
            (fun s' => (s'.height, s'.getMetadata daIncludedHeightKey)))) :=
  ⟨by decide, metadata_reads_last_write QueueRun.blobHash twoBlocks settled (by decide) (by decide)⟩

open QueueRun in
/-- A queued write is not read, an aggregator rolls back a block that is DA-included, and the flush
puts the DA-included height above the chain again. -/
theorem queued_write_unseen :
    ((Run.exec (step QueueRun.blobHash) (newCachedStore twoBlocks) [set "d" 2]).getMetadata
        daIncludedHeightKey = none ∧
      (Run.exec (direct QueueRun.blobHash) twoBlocks [set "d" 2]).getMetadata
        daIncludedHeightKey = some (.height 2)) ∧
    (((Run.exec (step QueueRun.blobHash) (newCachedStore twoBlocks)
        [set "d" 2, .rollback 1 true]).store.height = 1 ∧
      (Run.exec (direct QueueRun.blobHash) twoBlocks [set "d" 2, .rollback 1 true]).height = 2) ∧
    ((Run.exec (step QueueRun.blobHash) (newCachedStore twoBlocks)
        [set "d" 2, .rollback 1 false, .receive, flushed]).getMetadata daIncludedHeightKey =
          some (.height 2) ∧
      (Run.exec (direct QueueRun.blobHash) twoBlocks
        [set "d" 2, .rollback 1 false, .receive, flushed]).getMetadata daIncludedHeightKey =
          some (.height 1))) := by
  decide

end CachedStore

end EvNode
