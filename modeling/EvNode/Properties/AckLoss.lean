import EvNode.Lib.History
import EvNode.Lib.Run
import EvNode.Properties.QueueOnce
import EvNode.Properties.Synced

/-!
# What an ack deletes

`AckBatch` after a commit deletes every entry that is in flight. The entries are meant to be those of
the block just committed, but they stay in flight when a block fails, and only a drain puts them
back. A node that learns the DA height after such a failure can enter catch-up with its next batch:
nothing is drained, a block of forced transactions is committed, and its ack deletes the entries of
the failed block.

The node is run with a log of its acks, which changes nothing (`AckLog.step_node`).
-/

namespace EvNode

open Crash Proc

variable {Tx : Type}

/-- One call of `Ack`: the queue before and after it, the transactions of the block just committed,
and those the batch of that block was drawn with and the executor said to remove. -/
structure AckEvent (Tx : Type) where
  before : BatchQueue Tx
  after : BatchQueue Tx
  block : List Tx
  removed : List Tx

/-- A node with a log of its acks. `removed` is about the batch of the pending block. -/
structure AckLog (Tx : Type) where
  node : Node Tx
  removed : List Tx
  acks : List (AckEvent Tx)

def Node.lastBlockTxs (n : Node Tx) : List Tx := n.view.blockTxs.getD []

variable [Transaction Tx]

/-- The transactions with status `FilterRemove` in one `GetNextBatch`. -/
def Sequencer.removedTxs (env : BatchEnv Tx) (view : ChainView Tx) (maxBytes : Nat)
    (s : Sequencer Tx) : List Tx :=
  let s1 := (fetchIfConsumed env view maxBytes (initCheckpoint view s)).2
  let allTxs := s1.remainingForcedTxs ++ s1.mempoolTxs env maxBytes
  withStatus .remove (allTxs.zip
    (filterStatuses env.executor allTxs maxBytes (0 < s1.remainingForcedTxs.length)))

namespace AckLog

/-! ## The node with its log -/

def withNode (n : Node Tx) (w : AckLog Tx) : AckLog Tx := { w with node := n }

def onNode {α : Type} (p : Proc (Node Tx) Err α) : Proc (AckLog Tx) Err α :=
  zoom AckLog.node withNode p

/-- The log after an ack that left the node `n`. -/
def acked (n : Node Tx) (w : AckLog Tx) : AckLog Tx :=
  { w with
    node := n
    acks := w.acks ++ [⟨w.node.seq.queue, n.seq.queue, w.node.lastBlockTxs, w.removed⟩] }

def ackCommittedBatch (env : AckEnv) : Proc (AckLog Tx) Err Unit :=
  zoom AckLog.node acked (Node.ackCommittedBatch env)

def retryAck (env : ProduceEnv Tx) : Proc (AckLog Tx) Err Unit := do
  let w ← get
  if w.node.exec.pendingBatchAck then
    mapError (.wrap "failed to ack previously committed batch") (ackCommittedBatch env.retryAck)
  else pure ()

/-- When a batch drawn in `w` became the pending block. -/
def recordBatch (cfg : NodeConfig Tx) (env : ProduceEnv Tx) (w : AckLog Tx)
    (block : Option (SignedHeader × Data Tx)) (w' : AckLog Tx) : AckLog Tx :=
  { w' with removed := match block with
      | none => w'.removed
      | some _ =>
        w.node.seq.removedTxs env.batch w.node.view (Node.batchRequest cfg).maxBytes }

def nextBlock (cfg : NodeConfig Tx) (env : ProduceEnv Tx) :
    Proc (AckLog Tx) Err (Option (SignedHeader × Data Tx)) := do
  let w ← get
  let newHeight := w.node.exec.lastState.lastBlockHeight + 1
  let reused ← onNode (Node.reusePendingBlock env newHeight)
  match reused with
  | some block => pure (some block)
  | none => do
    let w ← get
    let block ← onNode (Node.newPendingBlock cfg env newHeight)
    modify (recordBatch cfg env w block)
    pure block

def commitBlock (cfg : NodeConfig Tx) (env : ProduceEnv Tx) (header : SignedHeader)
    (data : Data Tx) (newState : State) : Proc (AckLog Tx) Err Unit := do
  onNode (Node.broadcast cfg env)
  onNode (Node.onStore (io env.commit (.text "failed to commit batch")
    (Node.commitBatch { header with signature := env.signature } data env.signature newState)))
  onNode (Node.modifyExec fun e => { e with hasPendingBlock := false, lastState := newState })
  let _ ← attempt (ackCommittedBatch env.ack)
  onNode (Node.modifyExec fun e => { e with
    lastBlockInfo := some ⟨newState.lastHeaderHash, cfg.hashes.dataHash data, env.signature⟩ })

def finishBlock (cfg : NodeConfig Tx) (env : ProduceEnv Tx) :
    Option (SignedHeader × Data Tx) → Proc (AckLog Tx) Err Unit
  | none => pure ()
  | some (header, data) => do
    let newState ← onNode (Node.applyAndSign cfg env header)
    commitBlock cfg env header data newState

def produceBlock (cfg : NodeConfig Tx) (env : ProduceEnv Tx) : Proc (AckLog Tx) Err Unit := do
  onNode (require (!cfg.raftNode || env.quorum) (.text "raft cluster does not have quorum"))
  retryAck env
  let skip ← onNode (Node.pendingLimitReached cfg env)
  if skip then pure ()
  else do
    let block ← nextBlock cfg env
    finishBlock cfg env block

def step (cfg : NodeConfig Tx) (l : Live (AckLog Tx)) : Node.Op Tx → Live (AckLog Tx)
  | .start env => l.boot (onNode (Node.start cfg env))
  | .crash => l.halt
  | .stop deleteHeader deleteData => (l.call (onNode (Node.stop deleteHeader deleteData))).halt
  | .submit put batch =>
    l.call (onNode (Node.onSeq (Sequencer.submitBatchTxs put ⟨cfg.genesis.chainID, batch⟩)))
  | .produce env => l.call (produceBlock cfg env)
  | .genesisInclusion write height => l.call (onNode (Node.genesisInclusion write height))

omit [Transaction Tx] in
theorem onNode_state {α : Type} (p : Proc (Node Tx) Err α) (w : AckLog Tx) :
    (onNode p w).2 = w.withNode (p w.node).2 := rfl

/-! ## The log changes nothing -/

omit [Transaction Tx] in
theorem erases_onNode {α : Type} (p : Proc (Node Tx) Err α) : Erases AckLog.node (onNode p) p :=
  erases_zoom (fun _ _ => rfl) p

theorem erases_ackCommittedBatch (env : AckEnv) :
    Erases AckLog.node (ackCommittedBatch env : Proc (AckLog Tx) Err Unit)
      (Node.ackCommittedBatch env) :=
  erases_zoom (fun _ _ => rfl) _

theorem erases_retryAck (env : ProduceEnv Tx) :
    Erases AckLog.node (retryAck env) (Node.retryAck env) := by
  refine erases_get fun w => ?_
  split
  · exact (erases_ackCommittedBatch env.retryAck).mapError _
  · exact erases_pure ()

theorem erases_nextBlock (cfg : NodeConfig Tx) (env : ProduceEnv Tx) :
    Erases AckLog.node (nextBlock cfg env) (Node.nextBlock cfg env) := by
  refine erases_get fun w => (erases_onNode _).bind fun reused => ?_
  cases reused with
  | some block => exact erases_pure (some block)
  | none => exact erases_get_left fun w => (erases_onNode _).record fun _ _ => rfl

theorem erases_commitBlock (cfg : NodeConfig Tx) (env : ProduceEnv Tx) (header : SignedHeader)
    (data : Data Tx) (newState : State) :
    Erases AckLog.node (commitBlock cfg env header data newState)
      (Node.commitBlock cfg env header data newState) :=
  (erases_onNode _).bind fun _ => (erases_onNode _).bind fun _ => (erases_onNode _).bind fun _ =>
    (erases_ackCommittedBatch env.ack).attempt.bind fun _ => erases_onNode _

theorem erases_produceBlock (cfg : NodeConfig Tx) (env : ProduceEnv Tx) :
    Erases AckLog.node (produceBlock cfg env) (Node.produceBlock cfg env) := by
  refine (erases_onNode _).bind fun _ => (erases_retryAck env).bind fun _ =>
    (erases_onNode _).bind fun skip => ?_
  split
  · exact erases_pure ()
  · refine (erases_nextBlock cfg env).bind fun block => ?_
    cases block with
    | none => exact erases_pure ()
    | some block => exact (erases_onNode _).bind fun newState => erases_commitBlock cfg env _ _ _

theorem step_node (cfg : NodeConfig Tx) (l : Live (AckLog Tx)) (op : Node.Op Tx) :
    Node.step cfg (l.map AckLog.node) op = (step cfg l op).map AckLog.node := by
  cases op with
  | start env => exact Live.map_boot (erases_onNode _) l
  | crash => rfl
  | stop deleteHeader deleteData =>
    show ((l.map AckLog.node).call _).halt = _
    rw [Live.map_call (erases_onNode _)]
    rfl
  | submit put batch => exact Live.map_call (erases_onNode _) l
  | produce env => exact Live.map_call (erases_produceBlock cfg env) l
  | genesisInclusion write height => exact Live.map_call (erases_onNode _) l

end AckLog

/-! ## One ack -/

namespace BatchQueue

/-- Everything in flight is in `block`, was removed, or is to be requeued. -/
def Covers (block removed : List Tx) (q : BatchQueue Tx) : Prop :=
  ∀ i ∈ q.inFlight, ∀ t ∈ i.batch, t ∈ block ∨ t ∈ removed ∨ t ∈ q.inFlightPostponed

/-- The persisted postponed entry holds the postponed transactions. -/
def ItemPostponed (q : BatchQueue Tx) : Prop :=
  ∀ i, q.postponedItem = some i → i.batch = q.inFlightPostponed

variable {q q' : BatchQueue Tx} {block removed : List Tx}

omit [Transaction Tx] in
theorem covers_of_nil (h : q.inFlight = []) : q.Covers block removed := by
  intro i hi
  rw [h] at hi
  exact absurd hi List.not_mem_nil

omit [Transaction Tx] in
/-- A key that the deletes removed belongs to an entry in flight. -/
theorem mem_of_foldl_delete (items : List (QueuedItem Tx)) (m : OrdMap Nat (List Tx)) {k : Nat}
    (hin : m.get? k ≠ none) (hout : (items.foldl (fun m i => m.delete i.key) m).get? k = none) :
    ∃ i ∈ items, i.key = k := by
  induction items generalizing m with
  | nil => exact absurd hout hin
  | cons item rest ih =>
    by_cases hkey : item.key = k
    · exact ⟨item, List.mem_cons_self, hkey⟩
    · have hget : (m.delete item.key).get? k ≠ none := by
        rw [OrdMap.get?_delete, if_neg fun h => hkey h.symm]
        exact hin
      obtain ⟨i, hi, hk⟩ := ih _ hget hout
      exact ⟨i, List.mem_cons_of_mem _ hi, hk⟩

omit [Transaction Tx] in
theorem get?_postponedPersisted {k : Nat} (h : q.db.entries.get? k ≠ none) :
    q.postponedPersisted.db.entries.get? k ≠ none := by
  unfold postponedPersisted
  split
  · show (q.db.entries.put _ _).get? k ≠ none
    rw [OrdMap.get?_put]
    split
    · simp
    · exact h
  · exact h

omit [Transaction Tx] in
theorem ItemPostponed.persisted (h : q.ItemPostponed) : q.postponedPersisted.ItemPostponed := by
  unfold postponedPersisted
  split
  · intro i hi
    cases hi
    rfl
  · exact h

theorem queue_acked (h : q.ItemPostponed) {t : Tx} (ht : t ∈ q.inFlightPostponed) :
    ∃ p, q.acked.queue.toList = p :: q.queue.toList ∧ t ∈ p.batch := by
  obtain ⟨p, hp⟩ : ∃ p, q.postponedPersisted.postponedItem = some p := by
    unfold postponedPersisted
    cases hitem : q.postponedItem with
    | some i =>
      rw [if_neg (by simp)]
      exact ⟨i, hitem⟩
    | none =>
      rw [if_pos ⟨List.ne_nil_of_mem ht, rfl⟩]
      exact ⟨_, rfl⟩
  have hbatch := h.persisted p hp
  refine ⟨p, ?_, ?_⟩
  · unfold acked finishAck inFlightDeleted
    dsimp only
    rw [hp]
    simp only [HeadSlice.toList_prepend, queue_postponedPersisted]
  · rw [hbatch, inFlightPostponed_postponedPersisted]
    exact ht

end BatchQueue

namespace AckEvent

/-- Every entry that was deleted was in flight, and each of its transactions is in the block, was
removed, or is in the entry that was requeued. -/
def Harmless (a : AckEvent Tx) : Prop :=
  ∀ k, a.before.db.entries.get? k ≠ none → a.after.db.entries.get? k = none →
    ∃ i ∈ a.before.inFlight, i.key = k ∧ ∀ t ∈ i.batch, t ∈ a.block ∨ t ∈ a.removed ∨
      ∃ p, a.after.queue.toList = p :: a.before.queue.toList ∧ t ∈ p.batch

theorem harmless_of_covers {q q' : BatchQueue Tx} {block removed : List Tx} {r : Exit Err Unit}
    (hcovers : q.Covers block removed) (hitem : q.ItemPostponed)
    (hr : BatchQueue.AckCase q (r, q')) : Harmless ⟨q, q', block, removed⟩ := by
  intro k hin hout
  cases hr with
  | putFailed _ | putCrash => exact absurd hout hin
  | deleteFailed _ _ | deleteCrash _ =>
    exact absurd hout (BatchQueue.get?_postponedPersisted hin)
  | acked =>
    obtain ⟨i, hi, hk⟩ := BatchQueue.mem_of_foldl_delete _ _
      (BatchQueue.get?_postponedPersisted hin) hout
    rw [BatchQueue.inFlight_postponedPersisted] at hi
    refine ⟨i, hi, hk, fun t ht => ?_⟩
    rcases hcovers i hi t ht with hblock | hremoved | hpost
    · exact .inl hblock
    · exact .inr (.inl hremoved)
    · exact .inr (.inr (BatchQueue.queue_acked hitem hpost))

end AckEvent

/-! ## What only a drain and an ack change -/

namespace BatchQueue

def flight (q : BatchQueue Tx) : List (QueuedItem Tx) × List Tx × Option (QueuedItem Tx) :=
  (q.inFlight, q.inFlightPostponed, q.postponedItem)

omit [Transaction Tx] in
theorem flight_eq {q q' : BatchQueue Tx} (h : q'.flight = q.flight) :
    q'.inFlight = q.inFlight ∧ q'.inFlightPostponed = q.inFlightPostponed ∧
      q'.postponedItem = q.postponedItem := by
  obtain ⟨hin, hrest⟩ := Prod.mk.inj h
  obtain ⟨hpost, hitem⟩ := Prod.mk.inj hrest
  exact ⟨hin, hpost, hitem⟩

omit [Transaction Tx] in
theorem frames_flight : Frames (flight : BatchQueue Tx → _) := ⟨fun _ _ _ _ _ => rfl, fun _ _ _ => rfl⟩

theorem keeps_dropLoop (write : Nat → Outcome) (included : Finset Nat)
    (items : List (QueuedItem Tx)) : Keeps flight (dropLoop write included items) := by
  induction items with
  | nil => exact keeps_pure []
  | cons item rest ih =>
    have hrest : ∀ here, Keeps flight (do
        let kept ← dropLoop write included rest
        pure (here ++ kept)) := fun here => ih.bind fun kept => keeps_pure (here ++ kept)
    refine Keeps.bind (keeps_modify fun _ => rfl) fun _ => ?_
    dsimp only
    split
    · exact hrest _
    · split
      · exact ((frames_flight.deleteEntry _ _).mapError _).bind fun _ => hrest _
      · exact ((frames_flight.persistBatch _ _ _).mapError _).bind fun _ => hrest _

theorem keeps_dropIncluded (write : Nat → Outcome) (included : List Tx) :
    Keeps flight (dropIncluded write included) :=
  keeps_get fun _ => (keeps_dropLoop write _ _).bind fun _ => keeps_modify fun _ => rfl

theorem flight_load (env : LoadEnv) (q : BatchQueue Tx) :
    ((load env q).2).flight = ([], [], none) := by
  unfold load
  rw [modify_bind_run]
  refine Keeps.bind (keeps_io _ _ fun _ => rfl) (fun _ => keeps_get fun q => ?_) _
  exact (frames_flight.loadEntries _ _).bind fun _ => frames_flight.migrateLegacy _ _

end BatchQueue

namespace Sequencer

omit [Transaction Tx] in
theorem keeps_onQueue {α : Type} {p : Proc (BatchQueue Tx) Err α} (h : Keeps BatchQueue.flight p) :
    Keeps (fun s => s.queue.flight) (onQueue p) :=
  h.zoom fun _ _ => rfl

theorem keeps_submitBatchTxs (put : Outcome) (req : SubmitBatchTxsRequest Tx) :
    Keeps (fun s => s.queue.flight) (submitBatchTxs put req) := by
  refine keeps_get fun s => (keeps_require _ _).bind fun _ => ?_
  split
  · exact keeps_pure ()
  · exact (keeps_onQueue (BatchQueue.frames_flight.addBatch put req.batch)).mapError _

theorem keeps_reconcileQueueWithLastBlock (env : StartEnv) (view : ChainView Tx) :
    Keeps (fun s => s.queue.flight) (reconcileQueueWithLastBlock env view) := by
  refine keeps_get fun s => ?_
  split
  · exact keeps_pure ()
  · refine Keeps.bind (keeps_io _ _ fun _ => rfl) fun _ => ?_
    split
    · exact keeps_pure ()
    · split
      · exact keeps_throw _
      · exact keeps_pure ()
      · exact keeps_onQueue (BatchQueue.keeps_dropIncluded _ _)

theorem flight_newSequencer (cfg : SequencerConfig) (env : StartEnv) (view : ChainView Tx)
    (s : Sequencer Tx) : ((newSequencer cfg env view s).2).queue.flight = ([], [], none) := by
  have hrest : Keeps (fun s : Sequencer Tx => s.queue.flight) (do
      mapError (.wrap "failed to reconcile batch queue with last committed block")
        (reconcileQueueWithLastBlock env view)
      io env.loadCheckpoint (.text "failed to load checkpoint from DB") fun s =>
        { s with checkpoint := s.checkpointStore.getD ⟨s.daHeight, 0, []⟩ }
      modify (startRetriever view)) :=
    ((keeps_reconcileQueueWithLastBlock env view).mapError _).bind fun _ =>
      Keeps.bind (keeps_io _ _ fun _ => rfl) fun _ => keeps_modify fun _ => rfl
  unfold newSequencer
  rw [modify_bind_run]
  have hload := BatchQueue.flight_load env.load (blank cfg s.queue.db s.checkpointStore).queue
  rcases hq : BatchQueue.load env.load (blank cfg s.queue.db s.checkpointStore).queue with ⟨r, q⟩
  rw [hq] at hload
  have hrun : onQueue (BatchQueue.load env.load) (blank cfg s.queue.db s.checkpointStore) =
      (r, { blank cfg s.queue.db s.checkpointStore with queue := q }) := by
    unfold onQueue zoom
    rw [hq]
  cases r with
  | ok _ =>
    rw [bind_run_ok (mapError_run_ok hrun)]
    exact (hrest _).trans hload
  | error e =>
    rw [bind_run_error (mapError_run_error hrun)]
    exact hload
  | crash =>
    rw [bind_run_crash (mapError_run_crash hrun)]
    exact hload

end Sequencer

/-! ## One batch -/

namespace Sequencer

/-- The next batch is the first one that is drawn in catch-up mode. -/
def EntersCatchUp (env : BatchEnv Tx) (view : ChainView Tx) (s : Sequencer Tx) : Prop :=
  s.catchUpState = .unchecked ∧
    (updateCatchUpState env view (initCheckpoint view s)).catchUpState = .inProgress

/-- A queue without a half-done ack, with nothing in flight during catch-up. -/
structure Drawable (s : Sequencer Tx) : Prop where
  item : s.queue.postponedItem = none
  catching : s.catchUpState = .inProgress → s.queue.inFlight = []

variable {env : BatchEnv Tx} {view : ChainView Tx} {maxBytes : Nat} {s s1 : Sequencer Tx}

omit [Transaction Tx] in
theorem initCheckpoint_eq (view : ChainView Tx) (s : Sequencer Tx) :
    (initCheckpoint view s).catchUpState = s.catchUpState ∧
      (initCheckpoint view s).queue = s.queue := by
  unfold initCheckpoint
  split
  · exact ⟨rfl, rfl⟩
  · exact ⟨rfl, rfl⟩

/-- A fetch that ends in catch-up mode was in it, or enters it. -/
theorem catchUpState_of_fetch {r : Exit Err Nat}
    (hf : fetchIfConsumed env view maxBytes s = (r, s1)) (h : s1.catchUpState = .inProgress) :
    s.catchUpState = .inProgress ∨
      s.catchUpState = .unchecked ∧ (updateCatchUpState env view s).catchUpState = .inProgress := by
  have hupdate : (updateCatchUpState env view s).catchUpState = .inProgress →
      s.catchUpState = .inProgress ∨ s.catchUpState = .unchecked ∧
        (updateCatchUpState env view s).catchUpState = .inProgress := by
    intro hu
    by_cases hun : s.catchUpState = .unchecked
    · exact .inr ⟨hun, hu⟩
    · left
      unfold updateCatchUpState at hu
      rwa [if_pos hun] at hu
  have hc := fetchIfConsumed_cases env view maxBytes s
  rw [hf] at hc
  cases hc with
  | cached _ => exact .inl h
  | future _ _ _ _ =>
    unfold leaveCatchUp at h
    split at h
    · cases h
    · next hne => exact absurd h hne
  | notConfigured _ _ _ _ _ => cases h
  | failed _ _ _ _ _ | fetched _ _ _ => exact hupdate h

/-- A drain before the batch, unless it is drawn in catch-up mode with nothing in flight. -/
theorem Drawable.queueAfter (h : s1.Drawable) (env : BatchEnv Tx) (maxBytes : Nat) :
    (s1.queueAfter env maxBytes).postponedItem = none ∧
      (s1.catchUpState = .inProgress → (s1.queueAfter env maxBytes).inFlight = []) ∧
      (s1.queueAfter env maxBytes).flyingTxs = s1.mempoolTxs env maxBytes ∧
      (s1.queueAfter env maxBytes).inFlightPostponed =
        (s1.selection env maxBytes).postponedMempoolTxs := by
  unfold Sequencer.queueAfter mempoolTxs
  by_cases hcatch : s1.catchUpState = .inProgress
  · rw [if_neg (not_not.mpr hcatch), if_neg (not_not.mpr hcatch),
      BatchQueue.setPostponed_of_none h.item]
    refine ⟨h.item, fun _ => h.catching hcatch, ?_, rfl⟩
    show s1.queue.inFlight.flatMap _ = []
    rw [h.catching hcatch]
    rfl
  · obtain ⟨_, _, _, hnone, _, htxs⟩ :=
      BatchQueue.drained_eq (q := s1.queue) env.rollbackDelete maxBytes h.item
    rw [if_pos hcatch, if_pos hcatch, BatchQueue.setPostponed_of_none hnone]
    exact ⟨hnone, fun hin => absurd hin hcatch, htxs.symm, rfl⟩

/-- Every transaction that was drawn is taken, removed or postponed. -/
theorem mem_selection {t : Tx} (ht : t ∈ s1.mempoolTxs env maxBytes) :
    t ∈ s1.batchTxs env maxBytes ∨
      t ∈ withStatus .remove ((s1.remainingForcedTxs ++ s1.mempoolTxs env maxBytes).zip
        (filterStatuses env.executor (s1.remainingForcedTxs ++ s1.mempoolTxs env maxBytes) maxBytes
          (0 < s1.remainingForcedTxs.length))) ∨
      t ∈ (s1.selection env maxBytes).postponedMempoolTxs := by
  have hlen := length_filterStatuses env.executor
    (s1.remainingForcedTxs ++ s1.mempoolTxs env maxBytes) maxBytes
    (decide (0 < s1.remainingForcedTxs.length))
  have hfst : ((s1.mempoolTxs env maxBytes).zip ((filterStatuses env.executor
      (s1.remainingForcedTxs ++ s1.mempoolTxs env maxBytes) maxBytes
      (0 < s1.remainingForcedTxs.length)).drop s1.remainingForcedTxs.length)).map Prod.fst =
        s1.mempoolTxs env maxBytes := by
    refine List.map_fst_zip ?_
    rw [List.length_drop, hlen, List.length_append]
    omega
  rw [← hfst] at ht
  obtain ⟨⟨u, status⟩, hmem, rfl⟩ := List.mem_map.mp ht
  unfold batchTxs selection
  dsimp only
  rw [selectTxs_validMempoolTxs hlen, selectTxs_postponedMempoolTxs hlen, zip_append_statuses hlen]
  cases status with
  | ok => exact .inl (List.mem_append_right _ (mem_withStatus.mpr hmem))
  | remove => exact .inr (.inl (mem_withStatus.mpr (List.mem_append_right _ hmem)))
  | postpone => exact .inr (.inr (mem_withStatus.mpr hmem))

/-- **One call**: what is in flight afterwards comes from this call. -/
theorem getNextBatch_covers (view : ChainView Tx) (req : GetNextBatchRequest) (h : s.Drawable)
    (henters : s.EntersCatchUp env view → s.queue.inFlight = []) :
    wp (getNextBatch env view req)
      (fun batch s' => s'.Drawable ∧
        s'.queue.Covers batch.batch (s.removedTxs env view req.maxBytes))
      (fun _ => Drawable) (fun _ => True) s := by
  obtain ⟨hstate, hqueue⟩ := initCheckpoint_eq view s
  -- the fetch leaves the queue alone
  have hfetch : ∀ {r : Exit Err Nat} {s1 : Sequencer Tx},
      fetchIfConsumed env view req.maxBytes (initCheckpoint view s) = (r, s1) → s1.Drawable := by
    intro r s1 hf
    have hsame : s1.queue = s.queue := by
      obtain ⟨_, _, _, _, rfl⟩ := fetchIfConsumed_eq hf
      exact hqueue
    refine ⟨hsame ▸ h.item, fun hcatch => ?_⟩
    rw [hsame]
    rcases catchUpState_of_fetch hf hcatch with hc | ⟨hun, hin⟩
    · exact h.catching (hstate ▸ hc)
    · exact henters ⟨hstate ▸ hun, hin⟩
  have hafter : ∀ {s1 : Sequencer Tx} (_ : s1.Drawable) (d : Nat),
      (s1.advanced env req.maxBytes d).Drawable := by
    intro s1 h1 d
    obtain ⟨hitem, hcatch, _, _⟩ := h1.queueAfter env req.maxBytes
    obtain ⟨_, _, _, heq⟩ := advanced_eq env req.maxBytes d s1
    rw [heq]
    exact ⟨hitem, hcatch⟩
  have hc := getNextBatch_cases env view req s
  unfold wp
  generalize getNextBatch env view req s = r at hc
  cases hc with
  | invalidId _ => exact h
  | fetchFailed _ s1 _ hf => exact hfetch hf
  | drainCrash _ _ _ _ _ => trivial
  | saveFailed d s1 _ hf _ _ => exact hafter (hfetch hf) d
  | saveCrash _ _ _ _ _ _ => trivial
  | noBatch d s1 _ hf _ _ =>
    obtain ⟨_, heq⟩ := saved_eq env req.maxBytes d s1
    have hs := hafter (hfetch hf) d
    rw [heq]
    exact ⟨hs.item, hs.catching⟩
  | batch d s1 _ hf _ _ =>
    obtain ⟨_, heq⟩ := saved_eq env req.maxBytes d s1
    obtain ⟨_, _, _, heq'⟩ := advanced_eq env req.maxBytes d s1
    have hs := hafter (hfetch hf) d
    obtain ⟨_, _, hflying, hpost⟩ := (hfetch hf).queueAfter env req.maxBytes
    refine ⟨by rw [heq]; exact ⟨hs.item, hs.catching⟩, fun i hi t ht => ?_⟩
    rw [heq, heq'] at hi ⊢
    have hdrawn : t ∈ s1.mempoolTxs env req.maxBytes := by
      rw [← hflying]
      exact List.mem_flatMap.mpr ⟨i, hi, ht⟩
    unfold removedTxs
    rw [hf]
    show _ ∨ _ ∨ t ∈ (s1.queueAfter env req.maxBytes).inFlightPostponed
    rw [hpost]
    exact mem_selection hdrawn

end Sequencer

/-! ## The invariant -/

namespace AckLog

/-- A running node. What is in flight comes from the last committed block while the ack of that block
is pending, and else from the pending block when that one is used again. -/
structure Sound (genesis : Genesis) (w : AckLog Tx) : Prop where
  synced : w.node.Synced genesis
  catching : w.node.seq.catchUpState = .inProgress → w.node.seq.queue.inFlight = []
  item : w.node.seq.queue.ItemPostponed
  idle : w.node.exec.pendingBatchAck = false → w.node.seq.queue.postponedItem = none
  committed : w.node.exec.pendingBatchAck = true →
    w.node.seq.queue.Covers w.node.lastBlockTxs w.removed
  pending : w.node.exec.pendingBatchAck = false → ∀ header data, w.node.Reuses header data →
    w.node.seq.queue.Covers data.txs w.removed
  acks : ∀ a ∈ w.acks, a.Harmless

structure Acking (genesis : Genesis) (w : AckLog Tx) : Prop where
  synced : w.node.Synced genesis
  catching : w.node.seq.catchUpState = .inProgress → w.node.seq.queue.inFlight = []
  item : w.node.seq.queue.ItemPostponed
  covers : w.node.seq.queue.Covers w.node.lastBlockTxs w.removed
  acks : ∀ a ∈ w.acks, a.Harmless

structure OnDisk (genesis : Genesis) (w : AckLog Tx) : Prop where
  wf : w.node.exec.store.WF genesis
  acks : ∀ a ∈ w.acks, a.Harmless

variable {cfg : NodeConfig Tx} {genesis : Genesis} {w : AckLog Tx} {n : Node Tx}

omit [Transaction Tx] in
theorem Sound.onDisk (h : w.Sound genesis) : w.OnDisk genesis := ⟨h.synced.wf, h.acks⟩

omit [Transaction Tx] in
theorem Sound.withNode (h : w.Sound genesis) (hsynced : n.Synced genesis)
    (hcatch : n.seq.catchUpState = w.node.seq.catchUpState)
    (hflight : n.seq.queue.flight = w.node.seq.queue.flight)
    (hack : n.exec.pendingBatchAck = w.node.exec.pendingBatchAck)
    (hlast : n.lastBlockTxs = w.node.lastBlockTxs)
    (hreuse : ∀ header data, n.Reuses header data → w.node.Reuses header data) :
    (w.withNode n).Sound genesis := by
  obtain ⟨hin, hpost, hitem⟩ := BatchQueue.flight_eq hflight
  have hcovers : ∀ {block}, w.node.seq.queue.Covers block w.removed →
      n.seq.queue.Covers block w.removed := by
    intro block hc
    unfold BatchQueue.Covers
    rw [hin, hpost]
    exact hc
  refine ⟨hsynced, fun hc => ?_, fun i hi => ?_, fun ha => ?_, fun ha => ?_, fun ha header data hr =>
    ?_, h.acks⟩
  · exact hin.trans (h.catching (hcatch ▸ hc))
  · exact (h.item i (hitem ▸ hi)).trans hpost.symm
  · exact hitem.trans (h.idle (hack ▸ ha))
  · refine hcovers ?_
    show w.node.seq.queue.Covers n.lastBlockTxs w.removed
    rw [hlast]
    exact h.committed (hack ▸ ha)
  · exact hcovers (h.pending (hack ▸ ha) header data (hreuse header data hr))

/-! ## The ack -/

omit [Transaction Tx] in
theorem Acking.failed (h : w.Acking genesis) {q : BatchQueue Tx}
    (hin : q.inFlight = w.node.seq.queue.inFlight)
    (hpost : q.inFlightPostponed = w.node.seq.queue.inFlightPostponed) (hitem : q.ItemPostponed)
    (hacks : ∀ a ∈ (w.acked (w.node.afterAck q true)).acks, a.Harmless) :
    (w.acked (w.node.afterAck q true)).Sound genesis := by
  refine ⟨h.synced.congr rfl rfl, fun hc => hin.trans (h.catching hc), hitem, nofun, fun _ => ?_,
    nofun, hacks⟩
  show q.Covers w.node.lastBlockTxs w.removed
  unfold BatchQueue.Covers
  rw [hin, hpost]
  exact h.covers

theorem Acking.ack (h : w.Acking genesis) (env : AckEnv) :
    wp (ackCommittedBatch env)
      (fun _ w' => w'.Sound genesis ∧ w'.node.exec.pendingBatchAck = false ∧
        w'.node.seq.queue.inFlight = [])
      (fun _ => Sound genesis) (OnDisk genesis) w := by
  -- whatever the ack did, its event is harmless
  have hacks : ∀ {r q p}, BatchQueue.ack env.put env.commit w.node.seq.queue = (r, q) →
      ∀ a ∈ (w.acked (w.node.afterAck q p)).acks, a.Harmless := by
    intro r q p hq a ha
    rcases List.mem_append.mp ha with ha | ha
    · exact h.acks a ha
    · rw [List.mem_singleton.mp ha]
      exact AckEvent.harmless_of_covers h.covers h.item (hq ▸ BatchQueue.ack_cases ..)
  have hc := Node.ackCommittedBatch_cases env w.node
  unfold ackCommittedBatch
  rw [wp_zoom]
  unfold wp
  generalize Node.ackCommittedBatch env w.node = r at hc
  cases hc with
  | acked q hq =>
    have hq' := BatchQueue.ack_cases env.put env.commit w.node.seq.queue
    have hevents := hacks (p := false) hq
    rw [hq] at hq'
    cases hq'
    refine ⟨⟨h.synced.congr rfl rfl, fun _ => rfl, nofun, fun _ => rfl, nofun, fun _ _ _ _ => ?_,
      hevents⟩, rfl, rfl⟩
    exact BatchQueue.covers_of_nil rfl
  | failed e q hq =>
    have hq' := BatchQueue.ack_cases env.put env.commit w.node.seq.queue
    have hevents := hacks (p := true) hq
    rw [hq] at hq'
    cases hq' with
    | putFailed _ => exact h.failed rfl rfl h.item hevents
    | deleteFailed _ _ =>
      exact h.failed (BatchQueue.inFlight_postponedPersisted _)
        (BatchQueue.inFlightPostponed_postponedPersisted _) h.item.persisted hevents
  | crash q hq => exact ⟨h.synced.wf, hacks hq⟩

/-- The next batch is drawn in catch-up mode for the first time only with nothing in flight. -/
def EntersIdle (env : ProduceEnv Tx) (w : AckLog Tx) : Prop :=
  w.node.seq.EntersCatchUp env.batch w.node.view → w.node.seq.queue.inFlight = []

omit [Transaction Tx] in
theorem Sound.acking (h : w.Sound genesis) (hack : w.node.exec.pendingBatchAck = true) :
    w.Acking genesis :=
  ⟨h.synced, h.catching, h.item, h.committed hack, h.acks⟩

theorem Sound.retryAck (h : w.Sound genesis) {env : ProduceEnv Tx} (henters : w.EntersIdle env) :
    wp (retryAck env)
      (fun _ w' => w'.Sound genesis ∧ w'.node.exec.pendingBatchAck = false ∧ w'.EntersIdle env)
      (fun _ => Sound genesis) (OnDisk genesis) w := by
  unfold AckLog.retryAck
  rw [wp_bind, wp_get]
  cases hack : w.node.exec.pendingBatchAck with
  | false =>
    rw [if_neg Bool.false_ne_true]
    exact ⟨h, hack, henters⟩
  | true =>
    rw [if_pos rfl, wp_mapError]
    refine wp_imp ((h.acking hack).ack env.retryAck) ?_
    rintro _ w' ⟨hw', hdone, hnil⟩
    exact ⟨hw', hdone, fun _ => hnil⟩

/-! ## The next block -/

omit [Transaction Tx] in
theorem Sound.redrawn (h : w.Sound genesis) (hdone : w.node.exec.pendingBatchAck = false)
    (hnew : w.node.TakesNew) {s : Sequencer Tx} (hs : s.Drawable) :
    (w.withNode (w.node.withSeq s)).Sound genesis := by
  refine ⟨h.synced.congr rfl rfl, hs.catching, fun i hi => ?_, fun _ => hs.item, fun ha => ?_,
    fun _ header data hr => ?_, h.acks⟩
  · exact absurd (hs.item.symm.trans hi) (by simp)
  · exact absurd (hdone.symm.trans ha) (by simp)
  · exact absurd hr.2.2.2 (hnew hr.1 header hr.2.1)

omit [Transaction Tx] in
theorem Sound.created (h : w.Sound genesis) (hdone : w.node.exec.pendingBatchAck = false)
    {s : Sequencer Tx} {removed : List Tx} (hs : s.Drawable) (block : SignedHeader × Data Tx)
    (hcovers : s.queue.Covers block.2.txs removed) :
    ({ w with node := (w.node.withSeq s).withPending block, removed := removed } :
      AckLog Tx).Sound genesis := by
  have hsynced : (w.node.withSeq s).Synced genesis := h.synced.congr rfl rfl
  refine ⟨hsynced.withPending block, hs.catching, fun i hi => ?_, fun _ => hs.item, fun ha => ?_,
    fun _ header data hr => ?_, h.acks⟩
  · exact absurd (hs.item.symm.trans hi) (by simp)
  · exact absurd (hdone.symm.trans ha) (by simp)
  · have hdata : some block.2 = some data := hr.2.2.1
    rw [← Option.some.inj hdata]
    exact hcovers

structure Ready (genesis : Genesis) (header : SignedHeader) (data : Data Tx) (w : AckLog Tx) :
    Prop where
  sound : w.Sound genesis
  done : w.node.exec.pendingBatchAck = false
  height : header.header.height = w.node.nextHeight
  covers : w.node.seq.queue.Covers data.txs w.removed

def Drawn (genesis : Genesis) (w : AckLog Tx) : Option (SignedHeader × Data Tx) → Prop
  | none => w.Sound genesis
  | some (header, data) => w.Ready genesis header data

theorem Sound.newPendingBlock (h : w.Sound genesis)
    (hdone : w.node.exec.pendingBatchAck = false) {env : ProduceEnv Tx}
    (henters : w.EntersIdle env) (hnew : w.node.TakesNew) :
    wp (Node.newPendingBlock cfg env w.node.nextHeight)
      (fun block n => Drawn genesis (recordBatch cfg env w block (w.withNode n)) block)
      (fun _ n => (w.withNode n).Sound genesis) (fun n => (w.withNode n).OnDisk genesis) w.node := by
  have hbatch := Sequencer.getNextBatch_covers w.node.view (Node.batchRequest cfg)
    ⟨h.idle hdone, h.catching⟩ henters
  have hc := Node.newPendingBlock_cases cfg env w.node hnew
  unfold wp
  generalize Node.newPendingBlock cfg env w.node.nextHeight w.node = r at hc
  cases hc with
  | unread r hr =>
    cases r with
    | ok b => exact absurd rfl (hr b)
    | error _ => exact h
    | crash => exact h.onDisk
  | reused header data hr => exact absurd hr.2.2.2 (hnew hr.1 header hr.2.1)
  | noBatch e s _ hg r hr =>
    have hs := h.redrawn hdone hnew (wp_error hbatch hg)
    cases r with
    | ok b =>
      cases b with
      | none => exact hs
      | some b => exact absurd rfl (hr b)
    | error _ => exact hs
    | crash => exact hs.onDisk
  | batchCrash s _ _ => exact ⟨h.synced.wf, h.acks⟩
  | unsaved batch s _ hg _ r hr =>
    have hs := h.redrawn hdone hnew (wp_ok hbatch hg).1
    cases r with
    | ok b => exact absurd rfl (hr b)
    | error _ => exact hs
    | crash => exact hs.onDisk
  | created batch s last _ hg _ =>
    obtain ⟨hs, hcovers⟩ := wp_ok hbatch hg
    exact ⟨h.created hdone hs _ hcovers, hdone, rfl, hcovers⟩

theorem Sound.nextBlock (h : w.Sound genesis) (hdone : w.node.exec.pendingBatchAck = false)
    {env : ProduceEnv Tx} (henters : w.EntersIdle env) :
    wp (nextBlock cfg env) (fun block w' => Drawn genesis w' block) (fun _ => Sound genesis)
      (OnDisk genesis) w := by
  unfold AckLog.nextBlock onNode
  rw [wp_bind, wp_get, wp_bind, wp_zoom]
  show wp (Node.reusePendingBlock env w.node.nextHeight) _ _ _ w.node
  rcases Node.reusePendingBlock_cases env w.node with
    ⟨r, hr, heq⟩ | ⟨header, data, hused, heq⟩ | ⟨hnew, heq⟩
  · cases r with
    | ok b => exact absurd rfl (hr b)
    | error _ => exact wp_of_error heq h
    | crash => exact wp_of_crash heq h.onDisk
  · exact wp_of_ok heq ⟨h, hdone, hused.2.2.2, h.pending hdone header data hused⟩
  · refine wp_of_ok heq ?_
    show wp (get >>= _) _ _ _ w
    rw [wp_bind, wp_get, wp_bind, wp_zoom]
    exact wp_imp (h.newPendingBlock hdone henters hnew) (fun _ _ h' => h')

/-! ## The commit -/

variable {header : SignedHeader} {data : Data Tx}

omit [Transaction Tx] in
theorem lastBlockTxs_committed (hn : n.Synced genesis) (cfg : NodeConfig Tx) (env : ProduceEnv Tx) (hheight : header.header.height = n.nextHeight) (data : Data Tx) :
    (Node.committed cfg env header data n).lastBlockTxs = data.txs := by
  obtain ⟨_, _, _, states, heq⟩ := hn.commitBatch cfg env hheight data
  unfold Node.lastBlockTxs Node.view Store.view Store.getBlockData
  rw [heq]
  dsimp only
  rw [hheight, OrdMap.get?_put_self]
  rfl

omit [Transaction Tx] in
theorem Ready.acking (h : w.Ready cfg.genesis header data)
    (env : ProduceEnv Tx) :
    (w.withNode (Node.committed cfg env header data w.node)).Acking cfg.genesis := by
  refine ⟨h.sound.synced.committed cfg env h.height data, h.sound.catching, h.sound.item, ?_,
    h.sound.acks⟩
  show w.node.seq.queue.Covers (Node.committed cfg env header data w.node).lastBlockTxs w.removed
  rw [lastBlockTxs_committed h.sound.synced cfg env h.height data]
  exact h.covers

theorem Ready.commitBlock
    (h : w.Ready cfg.genesis header data) (env : ProduceEnv Tx) :
    wp (commitBlock cfg env header data (Node.nextState cfg env header.header w.node))
      (fun _ => Sound cfg.genesis) (fun _ => Sound cfg.genesis) (OnDisk cfg.genesis) w := by
  have hcached : ∀ {w' : AckLog Tx} (info : LastBlockInfo), w'.Sound cfg.genesis →
      (w'.withNode { w'.node with exec := { w'.node.exec with
        lastBlockInfo := some info } }).Sound cfg.genesis :=
    fun _ hw' => hw'.withNode (hw'.synced.congr rfl rfl) rfl rfl rfl rfl fun _ _ hr => hr
  have hack := wp_mono ((h.acking env).ack env.ack)
    (fun _ _ hw' => hcached ⟨(Node.nextState cfg env header.header w.node).lastHeaderHash,
      cfg.hashes.dataHash data, env.signature⟩ hw'.1)
    (fun _ _ hw' => hcached ⟨(Node.nextState cfg env header.header w.node).lastHeaderHash,
      cfg.hashes.dataHash data, env.signature⟩ hw') (fun _ hw' => hw')
  unfold AckLog.commitBlock onNode Node.broadcast Node.onStore Node.modifyExec
  split
  · simp only [wp_bind, wp_zoom, wp_io, wp_modify, wp_attempt]
    exact ⟨fun _ => ⟨fun _ => hack, fun _ => h.sound, fun _ => h.sound.onDisk⟩, fun _ => h.sound,
      fun _ => h.sound.onDisk⟩
  · simp only [wp_bind, wp_zoom, wp_io, wp_modify, wp_attempt, wp_pure]
    exact ⟨fun _ => hack, fun _ => h.sound, fun _ => h.sound.onDisk⟩

theorem Ready.finishBlock
    (h : w.Ready cfg.genesis header data) (env : ProduceEnv Tx) :
    wp (finishBlock cfg env (some (header, data))) (fun _ => Sound cfg.genesis)
      (fun _ => Sound cfg.genesis) (OnDisk cfg.genesis) w := by
  have hsign : (w.withNode (Node.recordSigned header.header w.node)).Sound cfg.genesis :=
    h.sound.withNode (h.sound.synced.recordSigned _) rfl rfl rfl rfl fun _ _ hr => hr
  have hsigned : ∀ count, (w.withNode (Node.signed header count w.node)).Ready cfg.genesis header
      data := fun count =>
    ⟨h.sound.withNode (h.sound.synced.signed header count) rfl rfl rfl rfl fun _ _ hr => hr, h.done,
      h.height, h.covers⟩
  unfold AckLog.finishBlock onNode
  rw [wp_bind, wp_zoom]
  rcases Node.applyAndSign_cases cfg env header w.node with
    ⟨r, hr, heq | heq⟩ | ⟨e, count, _, heq⟩ | ⟨count, _, heq⟩
  · cases r with
    | ok b => exact absurd rfl (hr b)
    | error _ => exact wp_of_error heq h.sound
    | crash => exact wp_of_crash heq h.sound.onDisk
  · cases r with
    | ok b => exact absurd rfl (hr b)
    | error _ => exact wp_of_error heq hsign
    | crash => exact wp_of_crash heq hsign.onDisk
  · exact wp_of_error heq (hsigned count).sound
  · exact wp_of_ok heq ((hsigned count).commitBlock env)

/-- **One `ProduceBlock`.** -/
theorem Sound.produceBlock (h : w.Sound cfg.genesis) {env : ProduceEnv Tx}
    (henters : w.EntersIdle env) :
    wp (produceBlock cfg env) (fun _ => Sound cfg.genesis) (fun _ => Sound cfg.genesis)
      (OnDisk cfg.genesis) w := by
  unfold AckLog.produceBlock
  rw [wp_bind]
  unfold onNode
  rw [wp_zoom, wp_require]
  refine ⟨fun _ => ?_, fun _ => h⟩
  rw [wp_bind]
  refine wp_imp (h.retryAck henters) ?_
  rintro _ w1 ⟨h1, hdone, henters1⟩
  rw [wp_bind, wp_zoom]
  obtain ⟨skip, counter, hlimit⟩ := Node.pendingLimitReached_eq cfg env w1.node
  have h2 : (w1.withNode (w1.node.counted counter)).Sound cfg.genesis :=
    h1.withNode (h1.synced.congr rfl rfl) rfl rfl rfl rfl fun _ _ hr => hr
  refine wp_of_ok hlimit ?_
  cases skip with
  | true => exact h2
  | false =>
    rw [if_neg Bool.false_ne_true, wp_bind]
    refine wp_imp (h2.nextBlock hdone henters1) ?_
    intro block w3 h3
    cases block with
    | none => exact h3
    | some block => exact Ready.finishBlock h3 env

/-! ## Runs -/

theorem OnDisk.start (h : w.OnDisk cfg.genesis) (env : Node.InitEnv) :
    wp (onNode (Node.start cfg env)) (fun _ => Sound cfg.genesis) (fun _ => OnDisk cfg.genesis)
      (OnDisk cfg.genesis) w := by
  have hseq : wp (Sequencer.newSequencer cfg.sequencer env.seq w.node.view)
      (fun _ s => s.queue.flight = ([], [], none) ∧ s.catchUpState = .unchecked) (fun _ _ => True)
      (fun _ => True) w.node.seq := by
    have hflight := Sequencer.flight_newSequencer cfg.sequencer env.seq w.node.view w.node.seq
    refine wp_mono (wp_and (Sequencer.newSequencer_spec _ _ _ _) (wp_of_state
      (I := fun s => s.queue.flight = ([], [], none)) hflight fun _ h => h)) ?_
      (fun _ _ _ => trivial) (fun _ _ => trivial)
    rintro _ s ⟨⟨q, rfl⟩, hq⟩
    exact ⟨hq, rfl⟩
  unfold onNode
  rw [wp_zoom]
  refine wp_mono (Node.start_spec _ _ h.wf hseq) ?_ (fun _ n hn => ⟨hn.1.wf, h.acks⟩)
    (fun n hn => ⟨hn.1.wf, h.acks⟩)
  rintro _ n ⟨s, ⟨hflight, hstate⟩, hn⟩
  obtain ⟨hin, _, hitem⟩ := BatchQueue.flight_eq (q := newBatchQueue ⟨.empty, [], []⟩ 0) hflight
  have hqueue : n.seq.queue = s.queue := by rw [hn.seq]; rfl
  have hack : n.exec.pendingBatchAck = false := hn.ack
  refine ⟨hn.synced, fun _ => ?_, fun i hi => ?_, fun _ => ?_, fun ha => ?_, fun _ _ _ _ => ?_,
    h.acks⟩
  · exact (congrArg BatchQueue.inFlight hqueue).trans hin
  · have hi' : n.seq.queue.postponedItem = some i := hi
    rw [hqueue, hitem] at hi'
    cases hi'
  · exact (congrArg BatchQueue.postponedItem hqueue).trans hitem
  · exact absurd (hack.symm.trans ha) (by simp)
  · exact BatchQueue.covers_of_nil ((congrArg BatchQueue.inFlight hqueue).trans hin)

/-- The steps of the runs: no batch enters catch-up while entries are in flight. -/
def Allowed (l : Live (AckLog Tx)) : Node.Op Tx → Prop
  | .produce env => l.up = true → l.state.EntersIdle env
  | _ => True

theorem sound_step (cfg : NodeConfig Tx) (l : Live (AckLog Tx)) (op : Node.Op Tx)
    (h : l.Holds (Sound cfg.genesis) (OnDisk cfg.genesis)) (hop : Allowed l op) :
    (step cfg l op).Holds (Sound cfg.genesis) (OnDisk cfg.genesis) := by
  cases op with
  | start env => exact h.boot fun hdisk => hdisk.start env
  | crash => exact h.halt fun _ hw => hw.onDisk
  | stop deleteHeader deleteData =>
    refine h.call_halt (fun _ hw => hw.onDisk) fun hup => ?_
    have hw := h.1 hup
    rw [onNode_state]
    rcases Node.stop_state deleteHeader deleteData l.state.node with heq | ⟨_, _, _, _, _, heq⟩
    · rw [heq]
      exact hw.onDisk
    · rw [heq]
      exact ⟨⟨hw.synced.wf.statesKeyed, hw.synced.wf.fresh, hw.synced.wf.bounded⟩, hw.acks⟩
  | submit put batch =>
    refine Live.call_holds h.2 fun hup => wp_of_state ?_ fun _ hw => hw.onDisk
    have hw := h.1 hup
    have hflight := Sequencer.keeps_submitBatchTxs put ⟨cfg.genesis.chainID, batch⟩ l.state.node.seq
    obtain ⟨q, hq⟩ := Sequencer.submitBatchTxs_queue put ⟨cfg.genesis.chainID, batch⟩
      l.state.node.seq
    rw [hq] at hflight
    have heq : (Node.onSeq (Sequencer.submitBatchTxs put ⟨cfg.genesis.chainID, batch⟩)
        l.state.node).2 = l.state.node.withSeq { l.state.node.seq with queue := q } := by
      rw [← hq]
      rfl
    rw [onNode_state, heq]
    exact hw.withNode (hw.synced.congr rfl rfl) rfl hflight rfl rfl fun _ _ hr => hr
  | produce env => exact Live.call_holds h.2 fun hup => (h.1 hup).produceBlock (hop hup)
  | genesisInclusion write height =>
    refine Live.call_holds h.2 fun hup => wp_of_state ?_ fun _ hw => hw.onDisk
    have hw := h.1 hup
    obtain ⟨g, d, heq⟩ := Node.genesisInclusion_state write height l.state.node
    rw [onNode_state, heq]
    exact hw.withNode ⟨⟨hw.synced.wf.statesKeyed, hw.synced.wf.fresh, hw.synced.wf.bounded⟩,
      hw.synced.lastHeight, hw.synced.stored, hw.synced.next⟩ rfl rfl rfl rfl fun _ _ hr => hr

end AckLog

/--
**No mempool transaction is lost by an ack**, in runs in which no batch enters catch-up mode while
entries of a failed block are in flight.

Every entry that an ack deletes from the WAL was in flight. Each of its transactions is in the block
just committed, or it had status `FilterRemove` when the batch of that block was drawn, or it is in
the entry that the same ack requeues.
-/
theorem acks_lose_nothing (cfg : NodeConfig Tx) (n0 : Node Tx)
    (hwf : n0.exec.store.WF cfg.genesis) (ops : List (Node.Op Tx))
    (hmeets : Run.Meets (AckLog.step cfg) AckLog.Allowed ⟨false, ⟨n0, [], []⟩⟩ ops) :
    ∀ a ∈ (Run.exec (AckLog.step cfg) ⟨false, ⟨n0, [], []⟩⟩ ops).state.acks,
    ∀ k, a.before.db.entries.get? k ≠ none → a.after.db.entries.get? k = none →
      ∃ i ∈ a.before.inFlight, i.key = k ∧ ∀ t ∈ i.batch, t ∈ a.block ∨ t ∈ a.removed ∨
        ∃ p, a.after.queue.toList = p :: a.before.queue.toList ∧ t ∈ p.batch := by
  have hstart : Live.Holds (AckLog.Sound cfg.genesis) (AckLog.OnDisk cfg.genesis)
      ⟨false, ⟨n0, [], []⟩⟩ := ⟨fun hup => absurd hup Bool.false_ne_true, fun _ => ⟨hwf, nofun⟩⟩
  have hrun := Run.invariant _ (AckLog.sound_step cfg) ops _ hstart hmeets
  exact (hrun.of_both fun _ hw => hw.onDisk).acks

/-! ## A late DA height -/

namespace AckLossRun

/-- The DA start height is not known from the genesis. -/
def cfg : NodeConfig RawTx := .plain ⟨"chain", 0, 1, [1], 0, 1, Nat.one_pos, Nat.one_pos⟩ true

def tx : RawTx := ⟨1, 5⟩

def forced : RawTx := ⟨2, 5⟩

def env : ProduceEnv RawTx := .plain (.ofBlocks 10 [(5, ⟨1500000000, [forced]⟩)]) 2000000000

/-- The block of the transaction fails, the first block is included at DA height 5, and the next batch
is drawn when DA is several epochs ahead. -/
def late : List (Node.Op RawTx) :=
  [.start .plain, .produce env, .submit .ok [tx], .produce { env with applyBlock := .fail },
    .genesisInclusion .ok 5,
    .produce { env with batch := { env.batch with latestDAHeight := some 10 } }]

/-- The block of the transaction fails and is tried again. -/
def retried : List (Node.Op RawTx) :=
  [.start .plain, .submit .ok [tx], .produce { env with applyBlock := .fail }, .produce env]

def run (ops : List (Node.Op RawTx)) : Live (AckLog RawTx) :=
  Run.exec (AckLog.step cfg) ⟨false, ⟨.plain cfg, [], []⟩⟩ ops

end AckLossRun

open AckLossRun in
theorem acks_lose_nothing_retried :
    (run retried).state.acks.map (fun a => (a.before.inFlight.map QueuedItem.batch, a.block)) =
        [([[tx]], [tx])] ∧
      ∀ a ∈ (run retried).state.acks, ∀ k, a.before.db.entries.get? k ≠ none →
        a.after.db.entries.get? k = none → ∃ i ∈ a.before.inFlight, i.key = k ∧
          ∀ t ∈ i.batch, t ∈ a.block ∨ t ∈ a.removed ∨
            ∃ p, a.after.queue.toList = p :: a.before.queue.toList ∧ t ∈ p.batch := by
  refine ⟨by decide, acks_lose_nothing cfg (.plain cfg) ⟨?_, ?_, ?_⟩ retried
    ⟨trivial, trivial, fun _ => ?_, fun _ => ?_, trivial⟩⟩
  · intro k state hget
    cases hget
  · exact fun _ => Nat.zero_le _
  · intro k b hget
    cases hget
  · exact fun henters => absurd henters.2 (by decide)
  · exact fun henters => absurd henters.2 (by decide)

open AckLossRun in
/-- The second ack deletes the entry of a transaction that is in no block, was not removed and does
not wait any more. -/
theorem catch_up_loses_drained :
    (run late).state.acks.map (fun a => (a.before.inFlight.map QueuedItem.batch, a.block, a.removed)) =
        [([], [], []), ([[tx]], [forced], [])] ∧
      (run late).state.node.seq.queue.db.entries.entries = [] ∧
      (run late).state.node.seq.queue.queue.toList = [] ∧
      (run late).state.node.exec.store.blocks.entries.map (fun b => (b.1, b.2.data.txs)) =
        [(1, []), (2, [forced])] := by
  decide

end EvNode
