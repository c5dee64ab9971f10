import EvNode.Executing.Executor
import EvNode.Properties.GetNextBatch

/-!
# Everything one `ProduceBlock` can do

The call is cut where the source has its phases, and one lemma for each phase says how it ends.
-/

namespace EvNode

open Crash Proc

variable {Tx : Type} [Transaction Tx]

namespace Node

/-! ## The ack -/

/-- The node after an ack that left the queue `q` and the flag `pending`. -/
def afterAck (q : BatchQueue Tx) (pending : Bool) (n : Node Tx) : Node Tx :=
  { n with
    seq := { n.seq with queue := q }
    exec := { n.exec with pendingBatchAck := pending } }

inductive AckCommittedCase (env : AckEnv) (n : Node Tx) : Exit Err Unit × Node Tx → Prop
  | acked (q : BatchQueue Tx) (hq : BatchQueue.ack env.put env.commit n.seq.queue = (.ok (), q)) :
    AckCommittedCase env n (.ok (), n.afterAck q false)
  | failed (e : Err) (q : BatchQueue Tx)
      (hq : BatchQueue.ack env.put env.commit n.seq.queue = (.error e, q)) :
    AckCommittedCase env n (.error e, n.afterAck q true)
  | crash (q : BatchQueue Tx) (hq : BatchQueue.ack env.put env.commit n.seq.queue = (.crash, q)) :
    AckCommittedCase env n (.crash, n.afterAck q n.exec.pendingBatchAck)

theorem ackCommittedBatch_cases (env : AckEnv) (n : Node Tx) :
    AckCommittedCase env n (ackCommittedBatch env n) := by
  unfold ackCommittedBatch
  rcases hq : BatchQueue.ack env.put env.commit n.seq.queue with ⟨r, q⟩
  have hseq : onSeq (Sequencer.ackBatch env.put env.commit) n =
      (r, { n with seq := { n.seq with queue := q } }) := by
    unfold onSeq Sequencer.ackBatch Sequencer.onQueue zoom
    rw [hq]
  cases r with
  | ok _ =>
    rw [bind_run_ok (attempt_run_ok hseq)]
    exact .acked q hq
  | error e =>
    rw [bind_run_ok (attempt_run_error hseq)]
    exact .failed e q hq
  | crash =>
    rw [bind_run_crash (attempt_run_crash hseq)]
    exact .crash q hq

inductive RetryCase (env : ProduceEnv Tx) (n : Node Tx) : Exit Err Unit × Node Tx → Prop
  | nothing (h : n.exec.pendingBatchAck = false) : RetryCase env n (.ok (), n)
  | acked (q : BatchQueue Tx) (h : n.exec.pendingBatchAck = true)
      (hq : BatchQueue.ack env.retryAck.put env.retryAck.commit n.seq.queue = (.ok (), q)) :
    RetryCase env n (.ok (), n.afterAck q false)
  | failed (e e' : Err) (q : BatchQueue Tx) (h : n.exec.pendingBatchAck = true)
      (hq : BatchQueue.ack env.retryAck.put env.retryAck.commit n.seq.queue = (.error e, q)) :
    RetryCase env n (.error e', n.afterAck q true)
  | crash (q : BatchQueue Tx) (h : n.exec.pendingBatchAck = true)
      (hq : BatchQueue.ack env.retryAck.put env.retryAck.commit n.seq.queue = (.crash, q)) :
    RetryCase env n (.crash, n.afterAck q true)

theorem retryAck_cases (env : ProduceEnv Tx) (n : Node Tx) : RetryCase env n (retryAck env n) := by
  unfold retryAck
  rw [get_bind_run]
  cases h : n.exec.pendingBatchAck with
  | false =>
    rw [if_neg Bool.false_ne_true]
    exact .nothing h
  | true =>
    rw [if_pos rfl]
    have hc := ackCommittedBatch_cases env.retryAck n
    unfold mapError
    rcases hr : ackCommittedBatch env.retryAck n with ⟨r, n'⟩
    rw [hr] at hc
    cases hc with
    | acked q hq => exact .acked q h hq
    | failed e q hq => exact .failed e _ q h hq
    | crash q hq =>
      rw [h]
      exact .crash q h hq

/-! ## The next block -/

def nextHeight (n : Node Tx) : Nat := n.exec.lastState.lastBlockHeight + 1

/-- `ProduceBlock` would use the stored pending block `header`, `data`. -/
def Reuses (n : Node Tx) (header : SignedHeader) (data : Data Tx) : Prop :=
  n.exec.hasPendingBlock = true ∧ n.exec.store.pendingHeader = some header ∧
    n.exec.store.pendingData = some data ∧ header.header.height = n.nextHeight

/-- No stored block is flagged for the next height. -/
def TakesNew (n : Node Tx) : Prop :=
  n.exec.hasPendingBlock = true → ∀ header, n.exec.store.pendingHeader = some header →
    header.header.height ≠ n.nextHeight

def proposer (cfg : NodeConfig Tx) (state : State) : Bytes :=
  if state.nextProposerAddress = [] then cfg.genesis.proposerAddress
  else state.nextProposerAddress

/-- A batch can be made a block and the block stored as pending. -/
def Savable (cfg : NodeConfig Tx) (env : ProduceEnv Tx) (n : Node Tx) : Prop :=
  (lastBlockInfo cfg n.nextHeight n.exec).isSome = true ∧
    cfg.signer.address = proposer cfg n.exec.lastState ∧ env.createBlock = .ok ∧
    env.savePending = .ok

instance (cfg : NodeConfig Tx) (env : ProduceEnv Tx) (n : Node Tx) :
    Decidable (Savable cfg env n) :=
  inferInstanceAs (Decidable (_ ∧ _ ∧ _ ∧ _))

def withSeq (s : Sequencer Tx) (n : Node Tx) : Node Tx := { n with seq := s }

def withPending (block : SignedHeader × Data Tx) (n : Node Tx) : Node Tx :=
  { n with exec := { n.exec with store := { n.exec.store with
      pendingHeader := some block.1
      pendingData := some block.2 } } }

inductive NextBlockCase (cfg : NodeConfig Tx) (env : ProduceEnv Tx) (n : Node Tx) :
    Exit Err (Option (SignedHeader × Data Tx)) × Node Tx → Prop
  | unread (r : Exit Err (Option (SignedHeader × Data Tx))) (hr : ∀ b, r ≠ .ok b) :
    NextBlockCase cfg env n (r, n)
  | reused (header : SignedHeader) (data : Data Tx) (h : n.Reuses header data) :
    NextBlockCase cfg env n (.ok (some (header, data)), n)
  | noBatch (e : Err) (s : Sequencer Tx) (hfresh : n.TakesNew)
      (hg : Sequencer.getNextBatch env.batch n.view (batchRequest cfg) n.seq = (.error e, s))
      (r : Exit Err (Option (SignedHeader × Data Tx))) (hr : ∀ b, r ≠ .ok (some b)) :
    NextBlockCase cfg env n (r, n.withSeq s)
  | batchCrash (s : Sequencer Tx) (hfresh : n.TakesNew)
      (hg : Sequencer.getNextBatch env.batch n.view (batchRequest cfg) n.seq = (.crash, s)) :
    NextBlockCase cfg env n (.crash, n.withSeq s)
  | unsaved (batch : GetNextBatchResponse Tx) (s : Sequencer Tx)
      (hfresh : n.TakesNew)
      (hg : Sequencer.getNextBatch env.batch n.view (batchRequest cfg) n.seq = (.ok batch, s))
      (hs : ¬ Savable cfg env n)
      (r : Exit Err (Option (SignedHeader × Data Tx))) (hr : ∀ b, r ≠ .ok b) :
    NextBlockCase cfg env n (r, n.withSeq s)
  | created (batch : GetNextBatchResponse Tx) (s : Sequencer Tx) (last : LastBlockInfo)
      (hfresh : n.TakesNew)
      (hg : Sequencer.getNextBatch env.batch n.view (batchRequest cfg) n.seq = (.ok batch, s))
      (hlast : lastBlockInfo cfg n.nextHeight n.exec = some last) :
    NextBlockCase cfg env n
      (.ok (some (buildBlock cfg n.nextHeight batch n.exec.lastState last)),
        (n.withSeq s).withPending (buildBlock cfg n.nextHeight batch n.exec.lastState last))

omit [Transaction Tx] in
theorem reusePendingBlock_cases (env : ProduceEnv Tx) (n : Node Tx) :
    (∃ r, (∀ b, r ≠ .ok b) ∧ reusePendingBlock env n.nextHeight n = (r, n)) ∨
      (∃ header data, n.Reuses header data ∧
        reusePendingBlock env n.nextHeight n = (.ok (some (header, data)), n)) ∨
      (n.TakesNew ∧ reusePendingBlock env n.nextHeight n = (.ok none, n)) := by
  unfold reusePendingBlock
  rw [get_bind_run]
  cases hflag : n.exec.hasPendingBlock with
  | false =>
    rw [if_neg Bool.false_ne_true]
    refine .inr (.inr ⟨fun h => ?_, rfl⟩)
    exact absurd (hflag.symm.trans h) Bool.false_ne_true
  | true =>
    rw [if_pos rfl]
    cases env.readPending with
    | fail | crash => exact .inl ⟨_, fun _ => by simp, rfl⟩
    | ok =>
      have hread : (io .ok (.text "failed to get block data") (fun n => n) :
          Proc (Node Tx) Err Unit) n = (.ok (), n) := rfl
      rw [bind_run_ok hread]
      cases hheader : n.exec.store.pendingHeader with
      | none =>
        have hget : n.exec.store.getPendingBlock = .ok none := by
          unfold Store.getPendingBlock
          rw [hheader]
        rw [hget]
        refine .inr (.inr ⟨fun _ header h => ?_, rfl⟩)
        exact absurd (hheader.symm.trans h) (by simp)
      | some header =>
        cases hdata : n.exec.store.pendingData with
        | none =>
          have hget : n.exec.store.getPendingBlock =
              .error (.text "pending header exists but data is missing: corrupt state") := by
            unfold Store.getPendingBlock
            rw [hheader, hdata]
          rw [hget]
          exact .inl ⟨_, fun _ => by simp, rfl⟩
        | some data =>
          have hget : n.exec.store.getPendingBlock = .ok (some (header, data)) := by
            unfold Store.getPendingBlock
            rw [hheader, hdata]
          rw [hget]
          by_cases hheight : header.header.height = n.nextHeight
          · refine .inr (.inl ⟨header, data, ⟨hflag, hheader, hdata, hheight⟩, ?_⟩)
            simp only [if_pos hheight]
            rfl
          · refine .inr (.inr ⟨fun _ header' h => ?_, ?_⟩)
            · rw [← Option.some.inj (hheader.symm.trans h)]
              exact hheight
            · simp only [if_neg hheight]
              rfl

omit [Transaction Tx] in
theorem createBlock_cases (cfg : NodeConfig Tx) (env : ProduceEnv Tx)
    (batch : GetNextBatchResponse Tx) (n : Node Tx) :
    (∃ r, (∀ b, r ≠ .ok b) ∧ ¬ Savable cfg env n ∧
        createBlock cfg env n.nextHeight batch n = (r, n)) ∨
      ∃ last, lastBlockInfo cfg n.nextHeight n.exec = some last ∧
        createBlock cfg env n.nextHeight batch n =
          (.ok (buildBlock cfg n.nextHeight batch n.exec.lastState last), n) := by
  unfold createBlock
  rw [get_bind_run]
  cases hlast : lastBlockInfo cfg n.nextHeight n.exec with
  | none =>
    refine .inl ⟨_, fun _ => ?_, fun h => ?_, rfl⟩
    · simp
    · have hsome := h.1
      rw [hlast] at hsome
      cases hsome
  | some last =>
    dsimp only
    cases hcreate : env.createBlock with
    | fail | crash =>
      refine .inl ⟨_, fun _ => by simp, fun h => ?_, rfl⟩
      exact absurd (hcreate.symm.trans h.2.2.1) (by simp)
    | ok =>
      have hio : (io .ok (.text "signer") (fun n => n) : Proc (Node Tx) Err Unit) n = (.ok (), n) :=
        rfl
      rw [bind_run_ok hio]
      by_cases hprop : cfg.signer.address =
          (buildBlock cfg n.nextHeight batch n.exec.lastState last).1.header.proposerAddress
      · rw [bind_run_ok (require_run_true (decide_eq_true hprop) _ _)]
        exact .inr ⟨last, rfl, rfl⟩
      · rw [bind_run_error (require_run_false (decide_eq_false hprop) _ _)]
        exact .inl ⟨_, fun _ => by simp, fun h => hprop h.2.1, rfl⟩

theorem newPendingBlock_cases (cfg : NodeConfig Tx) (env : ProduceEnv Tx) (n : Node Tx)
    (hfresh : n.TakesNew) :
    NextBlockCase cfg env n (newPendingBlock cfg env n.nextHeight n) := by
  unfold newPendingBlock
  rw [get_bind_run]
  rcases hg : Sequencer.getNextBatch env.batch n.view (batchRequest cfg) n.seq with ⟨r, s⟩
  have hseq : onSeq (Sequencer.getNextBatch env.batch n.view (batchRequest cfg)) n =
      (r, n.withSeq s) := by
    unfold onSeq zoom
    rw [hg]
    rfl
  cases r with
  | crash =>
    rw [bind_run_crash (attempt_run_crash hseq)]
    exact .batchCrash s hfresh hg
  | error e =>
    rw [bind_run_ok (attempt_run_error hseq)]
    dsimp only
    split
    · exact .noBatch e s hfresh hg _ fun _ => by simp
    · exact .noBatch e s hfresh hg _ fun _ => by simp
  | ok batch =>
    rw [bind_run_ok (attempt_run_ok hseq)]
    dsimp only
    -- `createBlock` reads the executor, which the batch has not touched
    rcases createBlock_cases cfg env batch (n.withSeq s) with
      ⟨r, hr, hns, hcreate⟩ | ⟨last, hlast, hcreate⟩
    · have hcreate' : createBlock cfg env n.nextHeight batch (n.withSeq s) = (r, n.withSeq s) :=
        hcreate
      obtain ⟨r', hr', hmap⟩ := mapError_run_stop (.wrap "failed to create block") hcreate' hr
      obtain ⟨r2, hr2, hstop⟩ := bind_run_stop _ hmap hr'
      rw [hstop]
      exact .unsaved batch s hfresh hg hns r2 hr2
    · have hmap : mapError (.wrap "failed to create block")
          (createBlock cfg env n.nextHeight batch) (n.withSeq s) = (.ok _, n.withSeq s) :=
        mapError_run_ok hcreate
      rw [bind_run_ok hmap]
      cases hsave : env.savePending with
      | fail | crash =>
        refine .unsaved batch s hfresh hg (fun h => ?_) _ fun _ => by simp
        exact absurd (hsave.symm.trans h.2.2.2) (by simp)
      | ok => exact .created batch s last hfresh hg hlast

theorem nextBlock_cases (cfg : NodeConfig Tx) (env : ProduceEnv Tx) (n : Node Tx) :
    NextBlockCase cfg env n (nextBlock cfg env n) := by
  unfold nextBlock
  rw [get_bind_run]
  rcases reusePendingBlock_cases env n with ⟨r, hr, hreuse⟩ | ⟨header, data, h, hreuse⟩ | ⟨h, hreuse⟩
  · have hreuse' : reusePendingBlock env (n.exec.lastState.lastBlockHeight + 1) n = (r, n) := hreuse
    obtain ⟨r', hr', hstop⟩ := bind_run_stop _ hreuse' hr
    rw [hstop]
    exact .unread r' hr'
  · have hreuse' : reusePendingBlock env (n.exec.lastState.lastBlockHeight + 1) n =
        (.ok (some (header, data)), n) := hreuse
    rw [bind_run_ok hreuse']
    exact .reused header data h
  · have hreuse' : reusePendingBlock env (n.exec.lastState.lastBlockHeight + 1) n =
        (.ok none, n) := hreuse
    rw [bind_run_ok hreuse']
    exact newPendingBlock_cases cfg env n h

/-- A block that is ready is the stored pending block, and has the next height. -/
theorem NextBlockCase.ready {cfg : NodeConfig Tx} {env : ProduceEnv Tx} {n n' : Node Tx}
    {header : SignedHeader} {data : Data Tx}
    (h : NextBlockCase cfg env n (.ok (some (header, data)), n')) :
    header.header.height = n'.nextHeight ∧ n'.exec.store.pendingHeader = some header ∧
      n'.exec.store.pendingData = some data := by
  generalize hr : (Exit.ok (some (header, data)), n') = r at h
  cases h with
  | unread r hr' =>
    obtain ⟨rfl, _⟩ := Prod.mk.inj hr
    exact absurd rfl (hr' _)
  | reused header' data' h =>
    obtain ⟨hb, rfl⟩ := Prod.mk.inj hr
    cases hb
    exact ⟨h.2.2.2, h.2.1, h.2.2.1⟩
  | noBatch e s _ _ r hr' =>
    obtain ⟨rfl, _⟩ := Prod.mk.inj hr
    exact absurd rfl (hr' _)
  | batchCrash s _ _ => cases hr
  | unsaved batch s _ _ _ r hr' =>
    obtain ⟨rfl, _⟩ := Prod.mk.inj hr
    exact absurd rfl (hr' _)
  | created batch s last _ _ _ =>
    obtain ⟨hb, rfl⟩ := Prod.mk.inj hr
    cases hb
    exact ⟨rfl, rfl, rfl⟩

/-! ## Apply, sign, commit -/

section Finish

variable (cfg : NodeConfig Tx) (env : ProduceEnv Tx) (header : SignedHeader) (data : Data Tx)

def signed (count : Nat) (n : Node Tx) : Node Tx :=
  { recordSigned header.header n with
    exec := { (recordSigned header.header n).exec with lastHeaderHashErrCount := count } }

def committed (n : Node Tx) : Node Tx :=
  { n with exec := { n.exec with
      store := commitBatch { header with signature := env.signature } data env.signature
        (nextState cfg env header.header n) n.exec.store
      hasPendingBlock := false
      lastState := nextState cfg env header.header n } }

def cached (n : Node Tx) : Node Tx :=
  let info : LastBlockInfo :=
    ⟨n.exec.lastState.lastHeaderHash, cfg.hashes.dataHash data, env.signature⟩
  { n with exec := { n.exec with lastBlockInfo := some info } }

end Finish

inductive FinishCase (cfg : NodeConfig Tx) (env : ProduceEnv Tx) (header : SignedHeader)
    (data : Data Tx) (n : Node Tx) : Exit Err Unit × Node Tx → Prop
  | unsigned (r : Exit Err Unit) (hr : ∀ b, r ≠ .ok b) : FinishCase cfg env header data n (r, n)
  | unsignable (r : Exit Err Unit) (hr : ∀ b, r ≠ .ok b) :
    FinishCase cfg env header data n (r, recordSigned header.header n)
  | invalid (e : Err) (count : Nat)
      (hv : n.exec.lastState.assertValidSequence header n.exec.lastHeaderHashErrCount =
        (.error e, count)) :
    FinishCase cfg env header data n
      (.error (.wrap "failed to validate block" e), signed header count n)
  | uncommitted (count : Nat)
      (hv : n.exec.lastState.assertValidSequence header n.exec.lastHeaderHashErrCount =
        (.ok (), count))
      (r : Exit Err Unit) (hr : ∀ b, r ≠ .ok b) :
    FinishCase cfg env header data n (r, signed header count n)
  | ackCrash (count : Nat)
      (hv : n.exec.lastState.assertValidSequence header n.exec.lastHeaderHashErrCount =
        (.ok (), count))
      (n' : Node Tx)
      (hack : AckCommittedCase env.ack (committed cfg env header data (signed header count n))
        (.crash, n')) :
    FinishCase cfg env header data n (.crash, n')
  | done (count : Nat)
      (hv : n.exec.lastState.assertValidSequence header n.exec.lastHeaderHashErrCount =
        (.ok (), count))
      (r : Exit Err Unit) (n' : Node Tx)
      (hack : AckCommittedCase env.ack (committed cfg env header data (signed header count n))
        (r, n')) (hr : r ≠ .crash) :
    FinishCase cfg env header data n (.ok (), cached cfg env data n')

omit [Transaction Tx] in
theorem applyAndSign_cases (cfg : NodeConfig Tx) (env : ProduceEnv Tx) (header : SignedHeader)
    (n : Node Tx) :
    (∃ r, (∀ b, r ≠ .ok b) ∧ (applyAndSign cfg env header n = (r, n) ∨
        applyAndSign cfg env header n = (r, recordSigned header.header n))) ∨
      (∃ e count, n.exec.lastState.assertValidSequence header n.exec.lastHeaderHashErrCount =
          (.error e, count) ∧
        applyAndSign cfg env header n =
          (.error (.wrap "failed to validate block" e), signed header count n)) ∨
      ∃ count, n.exec.lastState.assertValidSequence header n.exec.lastHeaderHashErrCount =
          (.ok (), count) ∧
        applyAndSign cfg env header n =
          (.ok (nextState cfg env header.header n), signed header count n) := by
  unfold applyAndSign
  cases hq : (!cfg.raftNode || env.quorumBeforeApply) with
  | false =>
    rw [bind_run_error (require_run_false rfl _ _)]
    exact .inl ⟨_, fun _ => by simp, .inl rfl⟩
  | true =>
    rw [bind_run_ok (require_run_true rfl _ _)]
    cases env.applyBlock with
    | fail | crash => exact .inl ⟨_, fun _ => by simp, .inl rfl⟩
    | ok =>
      cases env.sign with
      | fail | crash => exact .inl ⟨_, fun _ => by simp, .inr rfl⟩
      | ok =>
        have happly : (io .ok (.text "failed to apply block") (fun n => n) :
            Proc (Node Tx) Err Unit) n = (.ok (), n) := rfl
        have hsign : (io .ok (.text "failed to sign header") (fun n => n) :
            Proc (Node Tx) Err Unit) (recordSigned header.header n) =
              (.ok (), recordSigned header.header n) := rfl
        rw [bind_run_ok happly, get_bind_run, modify_bind_run, bind_run_ok hsign]
        rcases hv : n.exec.lastState.assertValidSequence header n.exec.lastHeaderHashErrCount with
          ⟨v, count⟩
        have hcount : (modifyExec fun e => { e with lastHeaderHashErrCount := count } :
            Proc (Node Tx) Err Unit) (recordSigned header.header n) =
              (.ok (), signed header count n) := rfl
        rw [bind_run_ok hcount]
        cases v with
        | error e => exact .inr (.inl ⟨e, count, rfl, rfl⟩)
        | ok u => exact .inr (.inr ⟨count, rfl, rfl⟩)

theorem commitBlock_cases (cfg : NodeConfig Tx) (env : ProduceEnv Tx) (header : SignedHeader)
    (data : Data Tx) (n : Node Tx) :
    (∃ r, (∀ b, r ≠ .ok b) ∧
        commitBlock cfg env header data (nextState cfg env header.header n) n = (r, n)) ∨
      (∃ n', AckCommittedCase env.ack (committed cfg env header data n) (.crash, n') ∧
        commitBlock cfg env header data (nextState cfg env header.header n) n = (.crash, n')) ∨
      ∃ r n', r ≠ .crash ∧ AckCommittedCase env.ack (committed cfg env header data n) (r, n') ∧
        commitBlock cfg env header data (nextState cfg env header.header n) n =
          (.ok (), cached cfg env data n') := by
  unfold commitBlock
  have hb : (∃ r, (∀ b, r ≠ .ok b) ∧ broadcast cfg env n = (r, n)) ∨
      broadcast cfg env n = (.ok (), n) := by
    unfold broadcast
    split
    · cases env.broadcast with
      | ok => exact .inr rfl
      | fail | crash => exact .inl ⟨_, fun _ => by simp, rfl⟩
    · exact .inr rfl
  rcases hb with ⟨r, hr, hb⟩ | hb
  · exact .inl (bind_run_stop _ hb hr)
  · rw [bind_run_ok hb]
    cases env.commit with
    | fail | crash => exact .inl ⟨_, fun _ => by simp, rfl⟩
    | ok =>
      right
      have hack := ackCommittedBatch_cases env.ack (committed cfg env header data n)
      rcases hr : ackCommittedBatch env.ack (committed cfg env header data n) with ⟨r, n'⟩
      rw [hr] at hack
      obtain ⟨nc, hcommit, hmem⟩ : ∃ nc, onStore (io .ok (.text "failed to commit batch")
            (commitBatch { header with signature := env.signature } data env.signature
              (nextState cfg env header.header n))) n = (.ok (), nc) ∧
          (modifyExec fun e => { e with
            hasPendingBlock := false, lastState := nextState cfg env header.header n } :
            Proc (Node Tx) Err Unit) nc = (.ok (), committed cfg env header data n) :=
        ⟨_, rfl, rfl⟩
      rw [bind_run_ok hcommit, bind_run_ok hmem]
      cases r with
      | ok u =>
        rw [bind_run_ok (attempt_run_ok hr)]
        refine .inr ⟨_, n', ?_, hack, ?_⟩
        · simp
        · cases hack
          rfl
      | error e =>
        rw [bind_run_ok (attempt_run_error hr)]
        refine .inr ⟨_, n', ?_, hack, ?_⟩
        · simp
        · cases hack
          rfl
      | crash =>
        rw [bind_run_crash (attempt_run_crash hr)]
        exact .inl ⟨n', hack, rfl⟩

theorem finishBlock_cases (cfg : NodeConfig Tx) (env : ProduceEnv Tx) (header : SignedHeader)
    (data : Data Tx) (n : Node Tx) :
    FinishCase cfg env header data n (finishBlock cfg env (some (header, data)) n) := by
  show FinishCase cfg env header data n
    ((applyAndSign cfg env header >>= fun newState =>
      commitBlock cfg env header data newState) n)
  rcases applyAndSign_cases cfg env header n with
    ⟨r, hr, ha | ha⟩ | ⟨e, count, hv, ha⟩ | ⟨count, hv, ha⟩
  · obtain ⟨r', hr', hstop⟩ := bind_run_stop _ ha hr
    rw [hstop]
    exact .unsigned r' hr'
  · obtain ⟨r', hr', hstop⟩ := bind_run_stop _ ha hr
    rw [hstop]
    exact .unsignable r' hr'
  · rw [bind_run_error ha]
    exact .invalid e count hv
  · rw [bind_run_ok ha]
    have hnext : nextState cfg env header.header n =
      nextState cfg env header.header (signed header count n) := rfl
    rw [hnext]
    rcases commitBlock_cases cfg env header data (signed header count n) with
      ⟨r, hr, hc⟩ | ⟨n', hack, hc⟩ | ⟨r, n', hr, hack, hc⟩
    · rw [hc]
      exact .uncommitted count hv r hr
    · rw [hc]
      exact .ackCrash count hv n' hack
    · rw [hc]
      exact .done count hv r n' hack hr

/-! ## The whole call -/

def counted (counter : Nat) (n : Node Tx) : Node Tx :=
  { n with exec := { n.exec with pendingCheckCounter := counter } }

inductive ProduceCase (cfg : NodeConfig Tx) (env : ProduceEnv Tx) (n : Node Tx) :
    Exit Err Unit × Node Tx → Prop
  | noQuorum (e : Err) : ProduceCase cfg env n (.error e, n)
  | unacked (r : Exit Err Unit) (n1 : Node Tx) (h1 : RetryCase env n (r, n1)) (hr : r ≠ .ok ()) :
    ProduceCase cfg env n (r, n1)
  | skipped (n1 : Node Tx) (h1 : RetryCase env n (.ok (), n1)) (counter : Nat) :
    ProduceCase cfg env n (.ok (), n1.counted counter)
  | noBlock (n1 : Node Tx) (h1 : RetryCase env n (.ok (), n1)) (counter : Nat)
      (r : Exit Err (Option (SignedHeader × Data Tx))) (n2 : Node Tx)
      (h2 : NextBlockCase cfg env (n1.counted counter) (r, n2)) (hr : ∀ b, r ≠ .ok (some b))
      (r' : Exit Err Unit) (hr' : r = .crash ↔ r' = .crash) :
    ProduceCase cfg env n (r', n2)
  | block (n1 : Node Tx) (h1 : RetryCase env n (.ok (), n1)) (counter : Nat)
      (header : SignedHeader) (data : Data Tx) (n2 : Node Tx)
      (h2 : NextBlockCase cfg env (n1.counted counter) (.ok (some (header, data)), n2))
      (r : Exit Err Unit) (n3 : Node Tx) (h3 : FinishCase cfg env header data n2 (r, n3)) :
    ProduceCase cfg env n (r, n3)

omit [Transaction Tx] in
theorem pendingLimitReached_eq (cfg : NodeConfig Tx) (env : ProduceEnv Tx) (n : Node Tx) :
    ∃ skip counter, pendingLimitReached cfg env n = (.ok skip, n.counted counter) := by
  unfold pendingLimitReached
  split
  · exact ⟨_, _, rfl⟩
  · exact ⟨false, n.exec.pendingCheckCounter, rfl⟩

theorem produceBlock_cases (cfg : NodeConfig Tx) (env : ProduceEnv Tx) (n : Node Tx) :
    ProduceCase cfg env n (produceBlock cfg env n) := by
  unfold produceBlock
  cases hq : (!cfg.raftNode || env.quorum) with
  | false =>
    rw [bind_run_error (require_run_false rfl _ _)]
    exact .noQuorum _
  | true =>
    rw [bind_run_ok (require_run_true rfl _ _)]
    have h1 := retryAck_cases env n
    rcases hretry : retryAck env n with ⟨r, n1⟩
    rw [hretry] at h1
    cases r with
    | error e =>
      rw [bind_run_error hretry]
      exact .unacked _ n1 h1 (by simp)
    | crash =>
      rw [bind_run_crash hretry]
      exact .unacked _ n1 h1 (by simp)
    | ok u =>
      obtain ⟨skip, counter, hlimit⟩ := pendingLimitReached_eq cfg env n1
      rw [bind_run_ok hretry, bind_run_ok hlimit]
      cases skip with
      | true => exact .skipped n1 h1 counter
      | false =>
        rw [if_neg Bool.false_ne_true]
        have h2 := nextBlock_cases cfg env (n1.counted counter)
        rcases hnext : nextBlock cfg env (n1.counted counter) with ⟨r, n2⟩
        rw [hnext] at h2
        cases r with
        | error e =>
          rw [bind_run_error hnext]
          exact .noBlock n1 h1 counter _ n2 h2 (fun _ => by simp) _ (by simp)
        | crash =>
          rw [bind_run_crash hnext]
          exact .noBlock n1 h1 counter _ n2 h2 (fun _ => by simp) _ (by simp)
        | ok block =>
          rw [bind_run_ok hnext]
          cases block with
          | none => exact .noBlock n1 h1 counter _ n2 h2 (fun _ => by simp) _ (by simp)
          | some block =>
            obtain ⟨header, data⟩ := block
            have h3 := finishBlock_cases cfg env header data n2
            rcases hfinish : finishBlock cfg env (some (header, data)) n2 with ⟨r, n3⟩
            rw [hfinish] at h3
            exact .block n1 h1 counter header data n2 h2 r n3 h3

end Node

end EvNode
