import EvNode.Properties.Cursor
import EvNode.Properties.DoubleSign

/-!
# Forced transactions and interrupted blocks

`GetNextBatch` saves the checkpoint before its batch is in a stored block. What stands between the
two writes, or a retry that does not find the pending block, loses forced transactions. Runs
without such interruptions keep each of them in a committed block or in the pending one.
-/

namespace EvNode

open Crash Proc

variable {Tx : Type}

/-! ## The saved checkpoint -/

namespace Sequencer

/-- The forced transactions behind the saved checkpoint. -/
def savedPassed (s : Sequencer Tx) : List (Tx × FilterStatus) :=
  match s.checkpointStore with
  | none => []
  | some cp => cp.passed

/-- The checkpoint in memory has the history of the saved one. -/
def CheckpointSaved (s : Sequencer Tx) : Prop := s.checkpoint.passed = s.savedPassed

/-- What a call adds to the saved history: nothing OK but transactions of `batch`. -/
def Keeps (batch : List Tx) (s s' : Sequencer Tx) : Prop :=
  ∀ t, (t, .ok) ∈ s'.savedPassed → (t, .ok) ∈ s.savedPassed ∨ t ∈ batch

variable [Transaction Tx]

variable {s : Sequencer Tx}

theorem mem_batchTxs_of_consumed {env : BatchEnv Tx} {maxBytes : Nat} {t : Tx}
    (h : (t, .ok) ∈ (s.selection env maxBytes).consumed) : t ∈ s.batchTxs env maxBytes := by
  unfold batchTxs
  refine List.mem_append_left _ ?_
  unfold selection at h ⊢
  dsimp only at h ⊢
  have hlen := length_filterStatuses env.executor
    (s.remainingForcedTxs ++ s.mempoolTxs env maxBytes) maxBytes
    (decide (0 < s.remainingForcedTxs.length))
  rw [selectTxs_consumed hlen] at h
  rw [selectTxs_validForcedTxs hlen, BasedSequencer.valid_eq_filter]
  exact mem_withStatus.mpr h

theorem passed_advanced (env : BatchEnv Tx) (maxBytes d : Nat) (s : Sequencer Tx) :
    (Advances d s ∧ (s.advanced env maxBytes d).checkpoint.passed =
      s.checkpoint.passed ++ (s.selection env maxBytes).consumed) ∨
    (¬ Advances d s ∧ (s.advanced env maxBytes d).checkpoint = s.checkpoint) := by
  by_cases hadv : Advances d s
  · refine .inl ⟨hadv, ?_⟩
    unfold advanced advanceCheckpoint
    rw [if_pos hadv]
    dsimp only
    split <;> rfl
  · refine .inr ⟨hadv, ?_⟩
    unfold advanced
    rw [if_neg hadv]

theorem saved_passed (env : BatchEnv Tx) (maxBytes d : Nat)
    (h : s.CheckpointSaved) :
    (s.saved env maxBytes d).CheckpointSaved ∧
      Keeps (s.batchTxs env maxBytes) s (s.saved env maxBytes d) := by
  have hnone : ¬ Advances d s → (s.saved env maxBytes d).checkpointStore = s.checkpointStore := by
    intro hadv
    unfold saved advanced
    rw [if_neg hadv, if_neg hadv]
  rcases passed_advanced env maxBytes d s with ⟨hadv, hp⟩ | ⟨hadv, hp⟩
  · have hsaved : (s.saved env maxBytes d).savedPassed =
        s.checkpoint.passed ++ (s.selection env maxBytes).consumed := by
      unfold savedPassed saved
      rw [if_pos hadv]
      exact hp
    have hmem : (s.saved env maxBytes d).checkpoint.passed =
        s.checkpoint.passed ++ (s.selection env maxBytes).consumed := by
      obtain ⟨_, hs⟩ := saved_eq env maxBytes d s
      rw [hs]
      exact hp
    refine ⟨hmem.trans hsaved.symm, fun t ht => ?_⟩
    rw [hsaved] at ht
    rcases List.mem_append.mp ht with ht | ht
    · exact .inl (h ▸ ht)
    · exact .inr (mem_batchTxs_of_consumed ht)
  · have hsaved : (s.saved env maxBytes d).savedPassed = s.savedPassed := by
      unfold savedPassed
      rw [hnone hadv]
    have hmem : (s.saved env maxBytes d).checkpoint.passed = s.checkpoint.passed := by
      obtain ⟨_, hs⟩ := saved_eq env maxBytes d s
      rw [hs]
      exact congrArg Checkpoint.passed hp
    refine ⟨hmem.trans (h.trans hsaved.symm), fun t ht => ?_⟩
    rw [hsaved] at ht
    exact .inl ht

/-- **What one call does to the saved checkpoint**, when the save does not fail. -/
theorem getNextBatch_keeps {env : BatchEnv Tx} (hsave : env.save ≠ .fail) (view : ChainView Tx)
    (req : GetNextBatchRequest) (h : s.CheckpointSaved) :
    wp (getNextBatch env view req) (fun batch s' => s'.CheckpointSaved ∧ Keeps batch.batch s s')
      (fun _ s' => s'.CheckpointSaved ∧ Keeps [] s s') (Keeps [] s) s := by
  have hinit : (initCheckpoint view s).savedPassed = s.savedPassed := by
    unfold savedPassed
    rw [initCheckpoint_store]
  -- up to the save, the history is what it was
  have hfetch : ∀ {r1 s1}, fetchIfConsumed env view req.maxBytes (initCheckpoint view s) =
      (r1, s1) → s1.CheckpointSaved ∧ s1.savedPassed = s.savedPassed := by
    intro r1 s1 hf
    obtain ⟨_, _, _, _, rfl⟩ := fetchIfConsumed_eq hf
    refine ⟨?_, hinit⟩
    show (initCheckpoint view s).checkpoint.passed = (initCheckpoint view s).savedPassed
    rw [initCheckpoint_passed, hinit]
    exact h
  have hkeeps : ∀ {batch s1 s'}, s1.savedPassed = s.savedPassed → Keeps batch s1 s' →
      Keeps batch s s' := by
    intro batch s1 s' hs1 hk t ht
    rw [← hs1]
    exact hk t ht
  have hsame : ∀ {s'}, s'.savedPassed = s.savedPassed → Keeps [] s s' := by
    intro s' hs t ht
    exact .inl (hs ▸ ht)
  have hc := getNextBatch_cases env view req s
  unfold wp
  generalize getNextBatch env view req s = r at hc
  cases hc with
  | invalidId _ => exact ⟨h, hsame rfl⟩
  | fetchFailed e s1 _ hf =>
    obtain ⟨h1, hp⟩ := hfetch hf
    exact ⟨h1, hsame hp⟩
  | drainCrash d s1 _ hf _ => exact hsame (hfetch hf).2
  | saveFailed d s1 _ hf _ hfail => exact absurd hfail hsave
  | saveCrash d s1 _ hf _ _ =>
    obtain ⟨_, _, _, hs⟩ := advanced_eq env req.maxBytes d s1
    rw [hs]
    exact hsame (hfetch hf).2
  | noBatch d s1 _ hf _ hnone =>
    obtain ⟨h1, hp⟩ := hfetch hf
    obtain ⟨hsaved, hk⟩ := saved_passed env req.maxBytes d h1
    rw [hnone.2] at hk
    exact ⟨hsaved, hkeeps hp hk⟩
  | batch d s1 _ hf _ _ =>
    obtain ⟨h1, hp⟩ := hfetch hf
    obtain ⟨hsaved, hk⟩ := saved_passed env req.maxBytes d h1
    exact ⟨hsaved, hkeeps hp hk⟩

end Sequencer

/-! ## Blocks that hold a transaction -/

namespace Store

/-- `t` is in a committed block. -/
def Committed (genesis : Genesis) (s : Store Tx) (t : Tx) : Prop :=
  ∃ h b, s.blocks.get? h = some b ∧ h ≤ s.lastHeight genesis ∧ t ∈ b.data.txs

/-- `header`, `data` is the stored pending block for the next height. -/
def PendingNext (genesis : Genesis) (s : Store Tx) (header : SignedHeader) (data : Data Tx) :
    Prop :=
  s.pendingHeader = some header ∧ s.pendingData = some data ∧
    header.header.height = s.lastHeight genesis + 1 ∧
    s.blocks.get? (s.lastHeight genesis + 1) = none

/-- `t` is in a committed block or in the pending one. -/
def Held (genesis : Genesis) (s : Store Tx) (t : Tx) : Prop :=
  s.Committed genesis t ∨ ∃ header data, s.PendingNext genesis header data ∧ t ∈ data.txs

variable {genesis : Genesis} {s s' : Store Tx} {t : Tx}

theorem PendingNext.restarted {header : SignedHeader} {data : Data Tx}
    (h : s.PendingNext genesis header data) (hr : Restarted genesis s s') :
    s'.PendingNext genesis header data := by
  obtain ⟨hheader, hdata, hheight, hnone⟩ := h
  unfold PendingNext
  rw [hr.lastHeight_eq]
  rcases hr.moved with ⟨h1, h2, h3⟩ | ⟨b, hb, _⟩
  · rw [h1, h2, h3]
    exact ⟨hheader, hdata, hheight, hnone⟩
  · rw [hnone] at hb
    cases hb

theorem Committed.restarted (h : s.Committed genesis t) (hr : Restarted genesis s s') :
    s'.Committed genesis t := by
  obtain ⟨k, b, hb, hle, ht⟩ := h
  refine ⟨k, b, ?_, ?_, ht⟩
  · rcases hr.moved with ⟨_, _, hblocks⟩ | ⟨_, _, _, _, hblocks | hblocks⟩
    · rw [hblocks]
      exact hb
    · rw [hblocks]
      exact hb
    · rw [hblocks, OrdMap.get?_delete, if_neg (by omega)]
      exact hb
  · rw [hr.lastHeight_eq]
    exact hle

theorem Held.restarted (h : s.Held genesis t) (hr : Restarted genesis s s') : s'.Held genesis t := by
  rcases h with h | ⟨header, data, h, ht⟩
  · exact .inl (h.restarted hr)
  · exact .inr ⟨header, data, h.restarted hr, ht⟩

end Store

namespace Node

/-- Every forced transaction the saved checkpoint has passed with status OK is held. -/
def KeepsForced (genesis : Genesis) (n : Node Tx) : Prop :=
  ∀ t, (t, .ok) ∈ n.seq.savedPassed → n.exec.store.Held genesis t

structure Keeping (genesis : Genesis) (n : Node Tx) : Prop where
  synced : n.Synced genesis
  keeps : n.KeepsForced genesis
  saved : n.seq.CheckpointSaved

def KeptOnDisk (genesis : Genesis) (n : Node Tx) : Prop :=
  n.exec.store.WF genesis ∧ n.KeepsForced genesis

variable {cfg : NodeConfig Tx} {genesis : Genesis} {n n' : Node Tx}

theorem Keeping.onDisk (h : n.Keeping genesis) : n.KeptOnDisk genesis := ⟨h.synced.wf, h.keeps⟩

theorem Keeping.congr (h : n.Keeping genesis) (hstore : n'.exec.store = n.exec.store)
    (hstate : n'.exec.lastState = n.exec.lastState)
    (hsaved : n'.seq.checkpointStore = n.seq.checkpointStore)
    (hcheckpoint : n'.seq.checkpoint = n.seq.checkpoint) : n'.Keeping genesis := by
  have hpassed : n'.seq.savedPassed = n.seq.savedPassed := by
    unfold Sequencer.savedPassed
    rw [hsaved]
  refine ⟨h.synced.congr hstore hstate, ?_, ?_⟩
  · unfold KeepsForced
    rw [hpassed, hstore]
    exact h.keeps
  · unfold Sequencer.CheckpointSaved
    rw [hpassed, hcheckpoint]
    exact h.saved

/-- When a new block is made, no pending block for its height is stored. -/
theorem Keeping.committed_of_new (h : n.Keeping genesis) (hflag : n.PendingFlagged)
    (hnew : n.TakesNew) : ∀ t, (t, .ok) ∈ n.seq.savedPassed → n.exec.store.Committed genesis t := by
  intro t ht
  rcases h.keeps t ht with hc | ⟨header, data, ⟨hheader, _, hheight, _⟩, _⟩
  · exact hc
  · have hnext := hheight.trans h.synced.nextHeight_eq.symm
    exact absurd hnext (hnew (hflag header hheader hnext) header hheader)

variable [Transaction Tx]

/-- A call that takes a new batch can store it as the pending block, and its checkpoint save does
not fail. -/
def BatchKept (cfg : NodeConfig Tx) (env : ProduceEnv Tx) (n : Node Tx) : Prop :=
  n.TakesNew → Savable cfg env n ∧ env.batch.save ≠ .fail

variable {env : ProduceEnv Tx}

theorem Keeping.nextBlock {r : Exit Err (Option (SignedHeader × Data Tx))}
    (h : n.Keeping cfg.genesis) (hflag : n.PendingFlagged) (hkept : BatchKept cfg env n)
    (hr : NextBlockCase cfg env n (r, n')) :
    n'.KeptOnDisk cfg.genesis ∧ (r ≠ .crash → n'.Keeping cfg.genesis) := by
  have hcommitted := h.committed_of_new hflag
  have hbatch : ∀ {batch s}, n.TakesNew → Sequencer.Keeps batch n.seq s →
      ∀ t, (t, .ok) ∈ s.savedPassed → n.exec.store.Committed cfg.genesis t ∨ t ∈ batch := by
    intro batch s hnew hk t ht
    rcases hk t ht with ht | ht
    · exact .inl (hcommitted hnew t ht)
    · exact .inr ht
  have hno : ∀ {s}, n.TakesNew → Sequencer.Keeps [] n.seq s →
      (n.withSeq s).KeepsForced cfg.genesis := by
    intro s hnew hk t ht
    rcases hbatch hnew hk t ht with hc | hnil
    · exact .inl hc
    · exact absurd hnil List.not_mem_nil
  cases hr with
  | unread _ _ | reused _ _ _ => exact ⟨h.onDisk, fun _ => h⟩
  | noBatch e s hnew hg _ _ =>
    obtain ⟨hs, hk⟩ := wp_error (Sequencer.getNextBatch_keeps (hkept hnew).2 _ _ h.saved) hg
    have hn' : (n.withSeq s).Keeping cfg.genesis := ⟨h.synced.congr rfl rfl, hno hnew hk, hs⟩
    exact ⟨hn'.onDisk, fun _ => hn'⟩
  | batchCrash s hnew hg =>
    have hk := wp_crash (Sequencer.getNextBatch_keeps (hkept hnew).2 _ _ h.saved) hg
    exact ⟨⟨h.synced.wf, hno hnew hk⟩, fun hc => absurd rfl hc⟩
  | unsaved batch s hnew hg hns _ _ => exact absurd (hkept hnew).1 hns
  | created batch s last hnew hg _ =>
    obtain ⟨hs, hk⟩ := wp_ok (Sequencer.getNextBatch_keeps (hkept hnew).2 _ _ h.saved) hg
    have hsynced : (n.withSeq s).Synced cfg.genesis := h.synced.congr rfl rfl
    have hn' : ((n.withSeq s).withPending
        (buildBlock cfg n.nextHeight batch n.exec.lastState last)).Keeping cfg.genesis := by
      refine ⟨hsynced.withPending _, fun t ht => ?_, hs⟩
      rcases hbatch hnew hk t ht with hc | hmem
      · exact .inl hc
      · exact .inr ⟨_, _, ⟨rfl, rfl, h.synced.nextHeight_eq, h.synced.next⟩, hmem⟩
    exact ⟨hn'.onDisk, fun _ => hn'⟩

omit [Transaction Tx] in
/-- Committing the pending block keeps what it holds. -/
theorem Keeping.committed (h : n.Keeping cfg.genesis) (env : ProduceEnv Tx) {header : SignedHeader}
    {data : Data Tx} (hheight : header.header.height = n.nextHeight)
    (hdata : n.exec.store.pendingData = some data) :
    (Node.committed cfg env header data n).Keeping cfg.genesis := by
  refine ⟨h.synced.committed cfg env hheight data, fun t ht => .inl ?_, h.saved⟩
  obtain ⟨_, hlast, _, states, hstore⟩ := h.synced.commitBatch cfg env hheight data
  have hblocks : (Node.committed cfg env header data n).exec.store.blocks =
      n.exec.store.blocks.put n.nextHeight
        ⟨{ header with signature := env.signature }, data, env.signature⟩ := by rw [hstore]
  unfold Store.Committed
  rw [hlast, hblocks]
  rcases h.keeps t ht with ⟨k, b, hb, hle, hmem⟩ | ⟨header', data', ⟨_, hdata', _, _⟩, hmem⟩
  · rw [← h.synced.lastHeight] at hle
    have hlt : k < n.nextHeight := Nat.lt_succ_of_le hle
    refine ⟨k, b, ?_, Nat.le_of_lt hlt, hmem⟩
    rw [OrdMap.get?_put_ne _ _ (Nat.ne_of_lt hlt)]
    exact hb
  · refine ⟨n.nextHeight, _, OrdMap.get?_put_self .., Nat.le_refl _, ?_⟩
    rw [hdata] at hdata'
    rw [Option.some.inj hdata']
    exact hmem

omit [Transaction Tx] in
theorem Keeping.recordSigned (h : n.Keeping genesis) (header : Header) :
    (Node.recordSigned header n).Keeping genesis :=
  ⟨h.synced.recordSigned header, h.keeps, h.saved⟩

theorem Keeping.finishBlock {header : SignedHeader} {data : Data Tx}
    {r : Exit Err Unit} (h : n.Keeping cfg.genesis)
    (hheight : header.header.height = n.nextHeight)
    (hdata : n.exec.store.pendingData = some data)
    (hr : FinishCase cfg env header data n (r, n')) : n'.Keeping cfg.genesis := by
  have hsign := h.recordSigned header.header
  have hack : ∀ count r n', AckCommittedCase env.ack
      (Node.committed cfg env header data (signed header count n)) (r, n') →
      n'.Keeping cfg.genesis := by
    intro count r n' hack
    have hs : (signed header count n).Keeping cfg.genesis := hsign.congr rfl rfl rfl rfl
    have hc := hs.committed env hheight hdata
    cases hack with
    | acked q _ | failed _ q _ | crash q _ => exact hc.congr rfl rfl rfl rfl
  cases hr with
  | unsigned _ _ => exact h
  | unsignable _ _ => exact hsign
  | invalid _ _ _ | uncommitted _ _ _ _ => exact hsign.congr rfl rfl rfl rfl
  | ackCrash count _ n' hc => exact hack count _ _ hc
  | done count _ r n' hc _ => exact (hack count _ _ hc).congr rfl rfl rfl rfl

/-- **One `ProduceBlock` loses no forced transaction.** -/
theorem Keeping.produceBlock (h : n.Keeping cfg.genesis) (hflag : n.PendingFlagged) (hkept : BatchKept cfg env n) :
    wp (Node.produceBlock cfg env) (fun _ => Keeping cfg.genesis) (fun _ => Keeping cfg.genesis)
      (KeptOnDisk cfg.genesis) n := by
  have hretry : ∀ r n1, RetryCase env n (r, n1) → ∀ counter,
      (n1.counted counter).Keeping cfg.genesis ∧ (n1.counted counter).PendingFlagged ∧
        BatchKept cfg env (n1.counted counter) := by
    intro r n1 hr counter
    cases hr with
    | nothing _ | acked q _ _ | failed _ _ q _ _ | crash q _ _ =>
      exact ⟨h.congr rfl rfl rfl rfl, hflag, hkept⟩
  have hend : ∀ {n' : Node Tx}, n'.Keeping cfg.genesis →
      ∀ {r : Exit Err Unit}, (r ≠ .crash → n'.Keeping cfg.genesis) ∧ n'.KeptOnDisk cfg.genesis :=
    fun hn' => ⟨fun _ => hn', hn'.onDisk⟩
  refine wp_of_ends fun r n' heq => ?_
  have hc := produceBlock_cases cfg env n
  rw [heq] at hc
  cases hc with
  | noQuorum _ => exact hend h
  | unacked r n1 h1 _ =>
    have hn1 : n'.Keeping cfg.genesis := (hretry _ _ h1 0).1.congr rfl rfl rfl rfl
    exact hend hn1
  | skipped n1 h1 counter => exact hend (hretry _ _ h1 counter).1
  | noBlock n1 h1 counter r1 n2 h2 _ r hr =>
    obtain ⟨hn1, hflag1, hkept1⟩ := hretry _ _ h1 counter
    obtain ⟨hdown, hup⟩ := hn1.nextBlock hflag1 hkept1 h2
    exact ⟨fun hne => hup fun hcrash => hne (hr.mp hcrash), hdown⟩
  | block n1 h1 counter header data n2 h2 r n3 h3 =>
    obtain ⟨hn1, hflag1, hkept1⟩ := hretry _ _ h1 counter
    obtain ⟨hheight, _, hdata⟩ := h2.ready
    have hn2 := (hn1.nextBlock hflag1 hkept1 h2).2 (by simp)
    exact hend (hn2.finishBlock hheight hdata h3)

/-! ## Runs -/

def ForcedOk (cfg : NodeConfig Tx) (l : Live (Node Tx)) : Op Tx → Prop
  | .produce env => l.up = true → l.state.PendingFlagged ∧ BatchKept cfg env l.state
  | .stop _ _ => l.up = true → l.state.PendingFlagged
  | _ => True

omit [Transaction Tx] in
theorem Keeping.stop (h : n.Keeping genesis) (hflag : n.PendingFlagged)
    (deleteHeader deleteData : Outcome) :
    (Node.stop deleteHeader deleteData n).2.KeptOnDisk genesis := by
  rcases stop_state deleteHeader deleteData n with hs | ⟨hfalse, header, data, _, _, hs⟩
  · rw [hs]
    exact h.onDisk
  · have hnew : n.TakesNew := fun htrue => absurd (hfalse.symm.trans htrue) Bool.false_ne_true
    rw [hs]
    exact ⟨⟨h.synced.wf.statesKeyed, h.synced.wf.fresh, h.synced.wf.bounded⟩,
      fun t ht => .inl (h.committed_of_new hflag hnew t ht)⟩

theorem KeptOnDisk.start (h : n.KeptOnDisk cfg.genesis) (env : InitEnv) :
    wp (Node.start cfg env)
      (fun _ n' => n'.Keeping cfg.genesis ∧ ∃ s, Initialized cfg env
        ⟨s, blankExecutor cfg.genesis n.exec.store⟩ n')
      (fun _ => KeptOnDisk cfg.genesis) (KeptOnDisk cfg.genesis) n := by
  have hpassed : ∀ {s : Sequencer Tx}, s.checkpointStore = n.seq.checkpointStore →
      s.savedPassed = n.seq.savedPassed := by
    intro s hs
    unfold Sequencer.savedPassed
    rw [hs]
  have hinterrupted : ∀ n', StartInterrupted cfg
      (fun s => s.CheckpointSaved ∧ s.savedPassed = n.seq.savedPassed)
      (fun s => s.savedPassed = n.seq.savedPassed) n n' → n'.KeptOnDisk cfg.genesis := by
    rintro n' ⟨hr, hseq⟩
    have hs : n'.seq.savedPassed = n.seq.savedPassed := by
      rcases hseq with hs | ⟨s, d, ⟨_, hs⟩, hd⟩
      · exact hs
      · rw [hd]
        exact hs
    refine ⟨hr.wf, fun t ht => ?_⟩
    rw [hs] at ht
    exact (h.2 t ht).restarted hr
  refine wp_mono (start_spec (fun s => s.CheckpointSaved ∧ s.savedPassed = n.seq.savedPassed)
    (fun s => s.savedPassed = n.seq.savedPassed) h.1 ?_) ?_ ?_ ?_
  · refine wp_mono (Sequencer.newSequencer_spec cfg.sequencer env.seq n.view n.seq) ?_ ?_ ?_
    · rintro _ s ⟨q, rfl⟩
      refine ⟨?_, hpassed rfl⟩
      unfold Sequencer.CheckpointSaved Sequencer.savedPassed
      show (n.seq.checkpointStore.getD _).passed = match n.seq.checkpointStore with
        | none => []
        | some cp => cp.passed
      cases n.seq.checkpointStore <;> rfl
    · exact fun _ s hs => hpassed hs
    · exact fun s hs => hpassed hs
  · rintro _ n' ⟨s, ⟨hsaved, hs⟩, hinit⟩
    refine ⟨⟨hinit.synced, fun t ht => ?_, ?_⟩, s, hinit⟩
    · have ht' : (t, FilterStatus.ok) ∈ s.savedPassed := by
        rw [hinit.seq] at ht
        exact ht
      rw [hs] at ht'
      exact (h.2 t ht').restarted hinit.store
    · rw [hinit.seq]
      exact hsaved
  · exact fun _ n' hn' => hinterrupted n' hn'
  · exact fun n' hn' => hinterrupted n' hn'

theorem keeping_step (cfg : NodeConfig Tx) (l : Live (Node Tx)) (op : Op Tx)
    (h : l.Holds (Keeping cfg.genesis) (KeptOnDisk cfg.genesis)) (hok : ForcedOk cfg l op) :
    (step cfg l op).Holds (Keeping cfg.genesis) (KeptOnDisk cfg.genesis) := by
  cases op with
  | start env =>
    exact h.boot fun hdisk => wp_imp (hdisk.start env) (fun _ _ hn' => hn'.1)
  | crash => exact h.halt fun _ hn => hn.onDisk
  | stop deleteHeader deleteData =>
    exact h.call_halt (fun _ hn => hn.onDisk) fun hup =>
      (h.1 hup).stop (hok hup) deleteHeader deleteData
  | submit put batch =>
    refine Live.call_holds h.2 fun hup => wp_of_state ?_ fun _ hn => hn.onDisk
    obtain ⟨q, hq⟩ := Sequencer.submitBatchTxs_queue put ⟨cfg.genesis.chainID, batch⟩ l.state.seq
    show (l.state.withSeq (Sequencer.submitBatchTxs put _ l.state.seq).2).Keeping cfg.genesis
    rw [hq]
    exact (h.1 hup).congr rfl rfl rfl rfl
  | produce env =>
    refine Live.call_holds h.2 fun hup => ?_
    obtain ⟨hflag, hkept⟩ := hok hup
    exact (h.1 hup).produceBlock hflag hkept
  | genesisInclusion write height =>
    refine Live.call_holds h.2 fun hup => wp_of_state ?_ fun _ hn => hn.onDisk
    obtain ⟨g, d, hs⟩ := genesisInclusion_state write height l.state
    obtain ⟨hsynced, hkeeps, hsaved⟩ := h.1 hup
    rw [hs]
    exact ⟨⟨⟨hsynced.wf.statesKeyed, hsynced.wf.fresh, hsynced.wf.bounded⟩, hsynced.lastHeight,
      hsynced.stored, hsynced.next⟩, hkeeps, hsaved⟩

end Node

/-- `header`, `data` is the block the next `ProduceBlock` uses: in a running node whose flag is
right, and after the next start of one that is down. -/
def Node.NextUses [Transaction Tx] (cfg : NodeConfig Tx) (l : Live (Node Tx)) (header : SignedHeader)
    (data : Data Tx) : Prop :=
  (l.up = true → l.state.PendingFlagged → l.state.Reuses header data) ∧
    (l.up = false → ∀ env, (Node.step cfg l (.start env)).up = true →
      (Node.step cfg l (.start env)).state.Reuses header data)

namespace ForcedLossRun

/-- DA height 10 is an epoch with one forced transaction. -/
def cfg : NodeConfig RawTx :=
  .plain ⟨"chain", 0, 1, [1], 10, 1, Nat.one_pos, Nat.one_pos⟩ true

def tx : RawTx := ⟨1, 5⟩

def env : ProduceEnv RawTx := .plain (.ofBlocks 20 [(10, ⟨1000000000, [tx]⟩)]) 2000000000

def run (ops : List (Node.Op RawTx)) : Live (Node RawTx) :=
  Run.exec (Node.step cfg) ⟨false, .plain cfg⟩ ops

/-- `CreateBlock` fails after the batch was retrieved. -/
def uncreated : List (Node.Op RawTx) :=
  [.start .plain, .produce { env with createBlock := .fail }, .produce env]

/-- The commit fails, and the block is produced again by the same process. -/
def uncommitted : List (Node.Op RawTx) :=
  [.start .plain, .produce { env with commit := .fail }, .produce env]

/-- The process crashes before the commit. -/
def crashing : List (Node.Op RawTx) := [.start .plain, .produce { env with commit := .crash }]

end ForcedLossRun

end EvNode
