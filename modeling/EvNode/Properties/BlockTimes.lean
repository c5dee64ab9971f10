import EvNode.Properties.BatchTimes
import EvNode.Properties.Synced

/-!
# Block times

A block is rejected for good when its time is before the time of the last block. Batches with
forced transactions are dated back from the end of their DA epoch, in normal operation too, and
nothing keeps the epoch after the last block: the next block can be dated before it.
-/

namespace EvNode

open Crash Proc

variable {Tx : Type}

/-! ## The block store -/

namespace Store

/-- No block is dated before the block below it or after `clock`. -/
structure Timed (genesis : Genesis) (clock : Time) (s : Store Tx) : Prop where
  wf : s.WF genesis
  dated : s.Dated genesis
  start : genesis.startTime ≤ clock
  last : s.lastTime genesis ≤ clock
  lower : genesis.initialHeight ≤ s.lastHeight genesis + 1
  initial : s.lastHeight genesis < genesis.initialHeight →
    s.lastTime genesis = genesis.startTime
  pending : ∀ header, s.pendingHeader = some header →
    header.header.height = s.lastHeight genesis + 1 →
      s.lastTime genesis ≤ header.header.time ∧ header.header.time ≤ clock
  next : ∀ b, s.blocks.get? (s.lastHeight genesis + 1) = some b →
    s.lastTime genesis ≤ b.header.header.time ∧ b.header.header.time ≤ clock
  monotone : ∀ h b b', s.blocks.get? h = some b → s.blocks.get? (h + 1) = some b' →
    b.header.header.time ≤ b'.header.header.time

variable {genesis : Genesis} {clock : Time} {s s' : Store Tx}

theorem Timed.mono (h : s.Timed genesis clock) {clock' : Time} (hle : clock ≤ clock') :
    s.Timed genesis clock' where
  wf := h.wf
  dated := h.dated
  start := h.start.trans hle
  last := h.last.trans hle
  lower := h.lower
  initial := h.initial
  pending header hheader hheight :=
    ⟨(h.pending header hheader hheight).1, (h.pending header hheader hheight).2.trans hle⟩
  next b hb := ⟨(h.next b hb).1, (h.next b hb).2.trans hle⟩
  monotone := h.monotone

theorem Timed.restarted (h : s.Timed genesis clock) (hr : Restarted genesis s s') :
    s'.Timed genesis clock := by
  obtain ⟨hdated, htime⟩ := hr.dated h.dated
  refine ⟨hr.wf, hdated, h.start, ?_, ?_, ?_, ?_, ?_, ?_⟩
  · rw [htime]
    exact h.last
  · rw [hr.lastHeight_eq]
    exact h.lower
  · rw [hr.lastHeight_eq, htime]
    exact h.initial
  · rw [hr.lastHeight_eq, htime]
    intro header hheader hheight
    rcases hr.moved with ⟨heq, _, _⟩ | ⟨b, hb, heq, _, _⟩
    · exact h.pending header (heq ▸ hheader) hheight
    · rw [heq] at hheader
      rw [← Option.some.inj hheader]
      exact h.next b hb
  · rw [hr.lastHeight_eq, htime]
    exact fun b hb => h.next b (hr.moved.get? hb)
  · exact fun k b b' hb hb' => h.monotone k b b' (hr.moved.get? hb) (hr.moved.get? hb')

theorem Timed.withPending (h : s.Timed genesis clock) {header : SignedHeader} (data : Data Tx)
    (hge : s.lastTime genesis ≤ header.header.time) (hle : header.header.time ≤ clock) :
    ({ s with pendingHeader := some header, pendingData := some data } : Store Tx).Timed genesis
      clock := by
  refine ⟨⟨h.wf.statesKeyed, h.wf.fresh, h.wf.bounded⟩, ⟨h.dated.keyed, h.dated.last⟩, h.start,
    h.last, h.lower, h.initial, fun header' hheader' _ => ?_, h.next, h.monotone⟩
  rw [← Option.some.inj hheader']
  exact ⟨hge, hle⟩

theorem Timed.stop (h : s.Timed genesis clock) {header : Option SignedHeader}
    (hheader : header = none ∨ header = s.pendingHeader) (data : Option (Data Tx)) :
    ({ s with pendingHeader := header, pendingData := data } : Store Tx).Timed genesis clock := by
  refine ⟨⟨h.wf.statesKeyed, h.wf.fresh, h.wf.bounded⟩, ⟨h.dated.keyed, h.dated.last⟩, h.start,
    h.last, h.lower, h.initial, fun header' hheader' hheight => ?_, h.next, h.monotone⟩
  have hsome : header = some header' := hheader'
  rcases hheader with hnone | heq
  · rw [hnone] at hsome
    cases hsome
  · exact h.pending header' (heq ▸ hsome) hheight

end Store

namespace Node

/-! ## The invariant -/

structure Timed (genesis : Genesis) (clock : Time) (n : Node Tx) : Prop where
  synced : n.Synced genesis
  store : n.exec.store.Timed genesis clock
  lastTime : n.exec.lastState.lastBlockTime = n.exec.store.lastTime genesis
  seq : n.seq.Timed clock n.exec.lastState.lastBlockTime
  flagged : n.exec.hasPendingBlock = true → ∀ header, n.exec.store.pendingHeader = some header →
    header.header.height = n.nextHeight → n.seq.Timed clock header.header.time

variable {cfg : NodeConfig Tx} {genesis : Genesis} {clock : Time} {n n' : Node Tx}

theorem Timed.mono (h : n.Timed genesis clock) {clock' : Time} (hle : clock ≤ clock') :
    n.Timed genesis clock' :=
  ⟨h.synced, h.store.mono hle, h.lastTime, h.seq.mono hle (Int.le_refl _),
    fun hflag header hheader hheight =>
      (h.flagged hflag header hheader hheight).mono hle (Int.le_refl _)⟩

theorem Timed.congr (h : n.Timed genesis clock) (hstore : n'.exec.store = n.exec.store)
    (hstate : n'.exec.lastState = n.exec.lastState)
    (hflag : n'.exec.hasPendingBlock = n.exec.hasPendingBlock)
    (hseq : ∀ {last}, n.seq.Timed clock last → n'.seq.Timed clock last) :
    n'.Timed genesis clock := by
  refine ⟨h.synced.congr hstore hstate, ?_, ?_, ?_, ?_⟩
  · rw [hstore]
    exact h.store
  · rw [hstore, hstate]
    exact h.lastTime
  · rw [hstate]
    exact hseq h.seq
  · unfold nextHeight
    rw [hstore, hstate, hflag]
    exact fun hf header hheader hheight => hseq (h.flagged hf header hheader hheight)

theorem Timed.recordSigned (h : n.Timed genesis clock) (header : Header) :
    (Node.recordSigned header n).Timed genesis clock :=
  ⟨h.synced.recordSigned header, ⟨⟨h.store.wf.statesKeyed, h.store.wf.fresh, h.store.wf.bounded⟩,
    ⟨h.store.dated.keyed, h.store.dated.last⟩, h.store.start, h.store.last, h.store.lower,
    h.store.initial, h.store.pending, h.store.next, h.store.monotone⟩, h.lastTime, h.seq,
    h.flagged⟩

theorem Timed.view_le (h : n.Timed genesis clock) {t : Time}
    (ht : n.view.lastBlockTime = some t) : t ≤ clock := by
  obtain ⟨state, hstate, rfl⟩ := Option.map_eq_some_iff.mp ht
  have hlast := h.store.last
  rw [Store.lastTime_of_getState hstate] at hlast
  exact hlast

variable [Transaction Tx]

/-! ## The next block -/

/-- The times of the DA epochs and of the clock. -/
def TimesAssumed (clock : Time) (env : ProduceEnv Tx) (n : Node Tx) : Prop :=
  clock ≤ env.batch.now ∧ Sequencer.EpochPast env.batch (Sequencer.initCheckpoint n.view n.seq)

/-- An epoch that is fetched leaves room after the last block, and in normal operation the
executor takes the first forced transaction. -/
def ForcedInTime (env : ProduceEnv Tx) (n : Node Tx) : Prop :=
  Sequencer.EpochSpaced env.batch defaultMaxBlobSize n.exec.lastState.lastBlockTime
      (Sequencer.initCheckpoint n.view n.seq) ∧
    (n.seq.catchUpState ≠ .inProgress → env.batch.executor.TakesFirst)

variable {env : ProduceEnv Tx} {header : SignedHeader}

theorem Timed.getNextBatch (h : n.Timed cfg.genesis env.batch.now)
    (hpast : Sequencer.EpochPast env.batch (Sequencer.initCheckpoint n.view n.seq))
    (hforced : ForcedInTime env n) :
    wp (Sequencer.getNextBatch env.batch n.view (batchRequest cfg))
      (fun batch s' => n.exec.lastState.lastBlockTime ≤ batch.timestamp ∧
        batch.timestamp ≤ env.batch.now ∧ s'.Timed env.batch.now batch.timestamp)
      (fun _ s' => s'.Timed env.batch.now n.exec.lastState.lastBlockTime) (fun _ => True) n.seq := by
  refine Sequencer.getNextBatch_timed h.seq ?_ (fun _ => h.view_le) hpast hforced.1 hforced.2
  rw [h.lastTime]
  exact h.store.last

theorem Timed.nextBlock {r : Exit Err (Option (SignedHeader × Data Tx))}
    (h : n.Timed cfg.genesis env.batch.now)
    (hpast : Sequencer.EpochPast env.batch (Sequencer.initCheckpoint n.view n.seq))
    (hforced : ForcedInTime env n) (hr : NextBlockCase cfg env n (r, n')) :
    n'.exec.store.Timed cfg.genesis env.batch.now ∧ (r ≠ .crash →
      n'.Timed cfg.genesis env.batch.now ∧ ∀ header data, r = .ok (some (header, data)) →
        n'.exec.lastState.lastBlockTime ≤ header.header.time ∧
          header.header.time ≤ env.batch.now ∧ n'.seq.Timed env.batch.now header.header.time) := by
  have hbatch := h.getNextBatch hpast hforced
  have hseq : ∀ {s : Sequencer Tx}, n.TakesNew → s.Timed env.batch.now
      n.exec.lastState.lastBlockTime → (n.withSeq s).Timed cfg.genesis env.batch.now :=
    fun hnew hs => ⟨h.synced.congr rfl rfl, h.store, h.lastTime, hs,
      fun hflag header hheader hheight => absurd hheight (hnew hflag header hheader)⟩
  cases hr with
  | unread r hr => exact ⟨h.store, fun _ => ⟨h, fun _ _ heq => absurd heq (hr _)⟩⟩
  | reused header data hused =>
    refine ⟨h.store, fun _ => ⟨h, fun header' data' heq => ?_⟩⟩
    cases heq
    obtain ⟨hflag, hheader, _, hheight⟩ := hused
    obtain ⟨hge, hle⟩ := h.store.pending header hheader (hheight.trans h.synced.nextHeight_eq)
    refine ⟨?_, hle, h.flagged hflag header hheader hheight⟩
    rw [h.lastTime]
    exact hge
  | noBatch e s hnew hg r hr =>
    exact ⟨h.store, fun _ => ⟨hseq hnew (wp_error hbatch hg), fun _ _ heq => absurd heq (hr _)⟩⟩
  | batchCrash s hnew hg => exact ⟨h.store, fun hc => absurd rfl hc⟩
  | unsaved batch s hnew hg _ r hr =>
    obtain ⟨hge, _, hs⟩ := wp_ok hbatch hg
    exact ⟨h.store, fun _ =>
      ⟨hseq hnew (hs.mono (Int.le_refl _) hge), fun _ _ heq => absurd heq (hr _)⟩⟩
  | created batch s last hnew hg _ =>
    obtain ⟨hge, hle, hs⟩ := wp_ok hbatch hg
    obtain ⟨block, hblock⟩ : ∃ block,
      block = buildBlock cfg n.nextHeight batch n.exec.lastState last := ⟨_, rfl⟩
    -- the first block has the start time, which is then the last time
    have htime : n.exec.lastState.lastBlockTime ≤ block.1.header.time ∧
        block.1.header.time ≤ batch.timestamp := by
      have heq : block.1.header.time = if cfg.genesis.initialHeight < n.nextHeight
          then batch.timestamp else cfg.genesis.startTime := by rw [hblock]; rfl
      rw [heq]
      split
      · exact ⟨hge, Int.le_refl _⟩
      · next hlt =>
        have hstart : n.exec.lastState.lastBlockTime = cfg.genesis.startTime := by
          rw [h.lastTime]
          refine h.store.initial ?_
          rw [h.synced.nextHeight_eq] at hlt
          omega
        rw [← hstart]
        exact ⟨Int.le_refl _, hge⟩
    have hpend : s.Timed env.batch.now block.1.header.time := hs.mono (Int.le_refl _) htime.2
    have hnew' := hseq hnew (hs.mono (Int.le_refl _) hge)
    have hstore := h.store.withPending block.2 (h.lastTime ▸ htime.1) (htime.2.trans hle)
    have hn' : ((n.withSeq s).withPending block).Timed cfg.genesis env.batch.now := by
      refine ⟨hnew'.synced.withPending block, hstore, h.lastTime, hnew'.seq,
        fun _ header hheader _ => ?_⟩
      rw [← Option.some.inj hheader]
      exact hpend
    rw [← hblock]
    refine ⟨hstore, fun _ => ⟨hn', fun header data heq => ?_⟩⟩
    cases heq
    exact ⟨htime.1, htime.2.trans hle, hpend⟩

/-! ## The commit -/

omit [Transaction Tx] in
theorem Timed.committed (h : n.Timed cfg.genesis clock) (env : ProduceEnv Tx) (data : Data Tx) (hheight : header.header.height = n.nextHeight)
    (hheader : n.exec.store.pendingHeader = some header)
    (hge : n.exec.lastState.lastBlockTime ≤ header.header.time)
    (hle : header.header.time ≤ clock) (hseq : n.seq.Timed clock header.header.time) :
    (Node.committed cfg env header data n).Timed cfg.genesis clock := by
  obtain ⟨hwf, hlast, hget, states, hstore⟩ := h.synced.commitBatch cfg env hheight data
  obtain ⟨s', hs'⟩ : ∃ s', s' = (Node.committed cfg env header data n).exec.store := ⟨_, rfl⟩
  rw [← hs'] at hwf hlast hget hstore
  have htime : s'.lastTime cfg.genesis = header.header.time :=
    Store.lastTime_of_getState hget
  have hnext := h.synced.nextHeight_eq
  have hget? : ∀ {k b}, s'.blocks.get? k = some b →
      (k = n.nextHeight ∧ b.header.header = header.header) ∨
        (k ≠ n.nextHeight ∧ n.exec.store.blocks.get? k = some b) := by
    intro k b hb
    rw [hstore] at hb
    have hb' : (n.exec.store.blocks.put n.nextHeight
      ⟨{ header with signature := env.signature }, data, env.signature⟩).get? k = some b := hb
    rw [OrdMap.get?_put] at hb'
    split at hb'
    · next hk =>
      rw [← Option.some.inj hb']
      exact .inl ⟨hk, rfl⟩
    · next hk => exact .inr ⟨hk, hb'⟩
  have habove : ∀ b, s'.blocks.get? (n.nextHeight + 1) ≠ some b := by
    intro b hb
    rcases hget? hb with ⟨heq, _⟩ | ⟨_, hb⟩
    · omega
    · have hbound := h.synced.wf.bounded _ b hb
      omega
  have htimed : s'.Timed cfg.genesis clock := by
    refine ⟨hwf, ⟨fun k b hb => ?_, fun b hb => ?_⟩, h.store.start, ?_, ?_, ?_, ?_, ?_, ?_⟩
    · rcases hget? hb with ⟨rfl, heq⟩ | ⟨_, hb⟩
      · rw [heq]
        exact hheight
      · exact h.store.dated.keyed k b hb
    · rw [hlast] at hb
      rw [htime]
      rcases hget? hb with ⟨_, heq⟩ | ⟨hne, _⟩
      · rw [heq]
      · exact absurd rfl hne
    · rw [htime]
      exact hle
    · rw [hlast, hnext]
      exact h.store.lower.trans (Nat.le_succ _)
    · rw [hlast, hnext]
      intro hlt
      have hlower := h.store.lower
      omega
    · rw [hlast]
      intro header' hheader' hheight'
      have hsame : s'.pendingHeader = some header := by
        rw [hstore]
        exact hheader
      rw [hsame] at hheader'
      rw [← Option.some.inj hheader'] at hheight'
      omega
    · rw [hlast]
      exact fun b hb => absurd hb (habove b)
    · intro k b b' hb hb'
      rcases hget? hb with ⟨rfl, _⟩ | ⟨_, hb⟩
      · exact absurd hb' (habove b')
      · rcases hget? hb' with ⟨heq, htime'⟩ | ⟨_, hb'⟩
        · have hk : k = n.exec.store.lastHeight cfg.genesis := by omega
          rw [htime', h.store.dated.last b (hk ▸ hb), ← h.lastTime]
          exact hge
        · exact h.store.monotone k b b' hb hb'
  refine ⟨h.synced.committed cfg env hheight data, ?_, ?_, hseq, fun hf => ?_⟩
  · rw [← hs']
    exact htimed
  · rw [← hs', htime]
    rfl
  · exact absurd hf (by simp [Node.committed])

theorem Timed.finishBlock {data : Data Tx}
    {r : Exit Err Unit} (h : n.Timed cfg.genesis clock)
    (hheight : header.header.height = n.nextHeight)
    (hheader : n.exec.store.pendingHeader = some header)
    (hge : n.exec.lastState.lastBlockTime ≤ header.header.time)
    (hle : header.header.time ≤ clock) (hseq : n.seq.Timed clock header.header.time)
    (hr : FinishCase cfg env header data n (r, n')) : n'.Timed cfg.genesis clock := by
  have hsign := h.recordSigned header.header
  have hack : ∀ count r n', AckCommittedCase env.ack
      (Node.committed cfg env header data (signed header count n)) (r, n') →
      n'.Timed cfg.genesis clock := by
    intro count r n' hack
    have hs : (signed header count n).Timed cfg.genesis clock := hsign.congr rfl rfl rfl id
    have hc := hs.committed env data hheight hheader hge hle hseq
    cases hack with
    | acked q _ | failed _ q _ | crash q _ =>
      exact hc.congr rfl rfl rfl fun hq => hq.congr rfl rfl rfl rfl
  cases hr with
  | unsigned _ _ => exact h
  | unsignable _ _ => exact hsign
  | invalid _ _ _ | uncommitted _ _ _ _ => exact hsign.congr rfl rfl rfl id
  | ackCrash count _ n' hc => exact hack count _ _ hc
  | done count _ r n' hc _ => exact (hack count _ _ hc).congr rfl rfl rfl id

/-! ## One call -/

omit [Transaction Tx] in
theorem initCheckpoint_queue (view : ChainView Tx) (s : Sequencer Tx) (q : BatchQueue Tx) :
    Sequencer.initCheckpoint view { s with queue := q } =
      { Sequencer.initCheckpoint view s with queue := q } := by
  unfold Sequencer.initCheckpoint
  dsimp only
  split <;> rfl

theorem Timed.retryAck {r : Exit Err Unit} {n1 : Node Tx}
    (h : n.Timed cfg.genesis clock) (htimes : TimesAssumed clock env n)
    (hforced : ForcedInTime env n) (h1 : RetryCase env n (r, n1)) (counter : Nat) :
    (n1.counted counter).Timed cfg.genesis env.batch.now ∧
      Sequencer.EpochPast env.batch
        (Sequencer.initCheckpoint (n1.counted counter).view (n1.counted counter).seq) ∧
      ForcedInTime env (n1.counted counter) := by
  have hn := h.mono htimes.1
  have hqueue : ∀ q pending, ((n.afterAck q pending).counted counter).Timed cfg.genesis env.batch.now ∧
      Sequencer.EpochPast env.batch (Sequencer.initCheckpoint
        ((n.afterAck q pending).counted counter).view ((n.afterAck q pending).counted counter).seq) ∧
      ForcedInTime env ((n.afterAck q pending).counted counter) := by
    intro q pending
    have hinit : Sequencer.initCheckpoint ((n.afterAck q pending).counted counter).view
        ((n.afterAck q pending).counted counter).seq =
          { Sequencer.initCheckpoint n.view n.seq with queue := q } := initCheckpoint_queue ..
    refine ⟨hn.congr rfl rfl rfl fun hq => hq.congr rfl rfl rfl rfl, ?_, ?_, hforced.2⟩
    · rw [hinit]
      exact htimes.2
    · rw [hinit]
      exact hforced.1
  cases h1 with
  | nothing _ => exact ⟨hn.congr rfl rfl rfl id, htimes.2, hforced⟩
  | acked q _ _ | failed _ _ q _ _ | crash q _ _ => exact hqueue q _

theorem Timed.produceBlock (h : n.Timed cfg.genesis clock)
    (htimes : TimesAssumed clock env n) (hforced : ForcedInTime env n) :
    wp (Node.produceBlock cfg env) (fun _ => Timed cfg.genesis env.batch.now)
      (fun _ => Timed cfg.genesis env.batch.now)
      (fun n' => n'.exec.store.Timed cfg.genesis env.batch.now) n := by
  have hretry : ∀ {r n1}, RetryCase env n (r, n1) → ∀ counter, _ := fun h1 counter =>
    h.retryAck htimes hforced h1 counter
  refine wp_of_ends fun r n' heq => ?_
  have hc := produceBlock_cases cfg env n
  rw [heq] at hc
  cases hc with
  | noQuorum _ => exact ⟨fun _ => h.mono htimes.1, (h.mono htimes.1).store⟩
  | unacked r n1 h1 _ =>
    have hn1 : n'.Timed cfg.genesis env.batch.now := (hretry h1 0).1.congr rfl rfl rfl id
    exact ⟨fun _ => hn1, hn1.store⟩
  | skipped n1 h1 counter =>
    have hn1 := (hretry h1 counter).1
    exact ⟨fun _ => hn1, hn1.store⟩
  | noBlock n1 h1 counter r1 n2 h2 _ r hr =>
    obtain ⟨hn1, hpast, hforced1⟩ := hretry h1 counter
    obtain ⟨hdown, hup⟩ := hn1.nextBlock hpast hforced1 h2
    exact ⟨fun hne => (hup fun hcrash => hne (hr.mp hcrash)).1, hdown⟩
  | block n1 h1 counter header data n2 h2 r n3 h3 =>
    obtain ⟨hn1, hpast, hforced1⟩ := hretry h1 counter
    obtain ⟨hheight, hheader, _⟩ := h2.ready
    obtain ⟨hn2, htime⟩ := (hn1.nextBlock hpast hforced1 h2).2 (by simp)
    obtain ⟨hge, hle, hseq⟩ := htime header data rfl
    have hn3 := hn2.finishBlock hheight hheader hge hle hseq h3
    exact ⟨fun _ => hn3, hn3.store⟩

/-! ## Start -/

theorem Timed.start {env : InitEnv} (h : n.exec.store.Timed cfg.genesis clock) :
    wp (Node.start cfg env) (fun _ => Timed cfg.genesis clock)
      (fun _ n' => n'.exec.store.Timed cfg.genesis clock)
      (fun n' => n'.exec.store.Timed cfg.genesis clock) n := by
  refine wp_mono (start_spec (fun s => ∀ last, s.Timed clock last) (fun _ => True) h.wf ?_) ?_
    (fun _ n' hn' => h.restarted hn'.1) (fun n' hn' => h.restarted hn'.1)
  · refine wp_mono (Sequencer.newSequencer_spec cfg.sequencer env.seq n.view n.seq) ?_
      (fun _ _ _ => trivial) (fun _ _ => trivial)
    rintro _ s ⟨q, rfl⟩ last
    exact .of_nil h.start (fun hne => absurd rfl hne) List.drop_nil
  · rintro _ n' ⟨s, hs, hinit⟩
    have hstore : n'.exec.store.Timed cfg.genesis clock := h.restarted hinit.store
    have hseq : ∀ last, n'.seq.Timed clock last := by
      intro last
      rw [hinit.seq]
      exact (hs last).congr rfl rfl rfl rfl
    refine ⟨hinit.synced, hstore, ?_, hseq _, fun _ _ _ _ => hseq _⟩
    rw [hinit.lastState, lastBlockTime_loadedState, (hinit.store.dated h.dated).2]

/-- The timestamps of one `ProduceBlock`: the batch it takes is not dated before the last block,
and the block it gets passes the check of its time. -/
structure TimesValid (cfg : NodeConfig Tx) (env : ProduceEnv Tx) (n : Node Tx) : Prop where
  batch : ∀ skip n1, (Node.retryAck env >>= fun _ => pendingLimitReached cfg env) n =
      (.ok skip, n1) → ∀ response s',
    Sequencer.getNextBatch env.batch n1.view (batchRequest cfg) n1.seq = (.ok response, s') →
      n1.exec.lastState.lastBlockTime ≤ response.timestamp
  block : ∀ skip n1, (Node.retryAck env >>= fun _ => pendingLimitReached cfg env) n =
      (.ok skip, n1) → ∀ header data n2,
    Node.nextBlock cfg env n1 = (.ok (some (header, data)), n2) → ∀ count,
      (n2.exec.lastState.assertValidSequence header count).1 ≠ .error .invalidBlockTime

omit [Transaction Tx] in
theorem assertValidSequence_time {state : State}
    (h : state.lastBlockTime ≤ header.header.time) (count : Nat) :
    (state.assertValidSequence header count).1 ≠ .error .invalidBlockTime := by
  unfold State.assertValidSequence
  have hle : ¬ state.lastBlockTime > header.header.time := Int.not_lt.mpr h
  rw [if_neg hle]
  repeat' split
  all_goals simp

theorem Timed.valid (h : n.Timed cfg.genesis clock)
    (htimes : TimesAssumed clock env n) (hforced : ForcedInTime env n) :
    TimesValid cfg env n := by
  have hready : ∀ skip n1, (Node.retryAck env >>= fun _ => pendingLimitReached cfg env) n =
      (.ok skip, n1) → n1.Timed cfg.genesis env.batch.now ∧
        Sequencer.EpochPast env.batch (Sequencer.initCheckpoint n1.view n1.seq) ∧
        ForcedInTime env n1 := by
    intro skip n1 hrun
    have h1 := retryAck_cases env n
    rcases hretry : Node.retryAck env n with ⟨r, n0⟩
    rw [hretry] at h1
    cases r with
    | error e =>
      rw [bind_run_error hretry] at hrun
      cases hrun
    | crash =>
      rw [bind_run_crash hretry] at hrun
      cases hrun
    | ok u =>
      obtain ⟨skip', counter, hlimit⟩ := pendingLimitReached_eq cfg env n0
      rw [bind_run_ok hretry, hlimit] at hrun
      obtain ⟨_, rfl⟩ := Prod.mk.inj hrun
      exact h.retryAck htimes hforced h1 counter
  refine ⟨fun skip n1 hrun response s' hg => ?_, fun skip n1 hrun header data n2 hnext count => ?_⟩
  · obtain ⟨hn1, hpast, hforced1⟩ := hready skip n1 hrun
    exact (wp_ok (hn1.getNextBatch hpast hforced1) hg).1
  · obtain ⟨hn1, hpast, hforced1⟩ := hready skip n1 hrun
    have h2 := nextBlock_cases cfg env n1
    rw [hnext] at h2
    obtain ⟨_, htime⟩ := (hn1.nextBlock hpast hforced1 h2).2 (by simp)
    exact assertValidSequence_time (htime header data rfl).1 count

end Node

/-! ## Runs -/

/-- A node and the time of its last `ProduceBlock`. -/
structure TimedRun (Tx : Type) where
  live : Live (Node Tx)
  clock : Time

namespace TimedRun

variable [Transaction Tx]

def step (cfg : NodeConfig Tx) (w : TimedRun Tx) (op : Node.Op Tx) : TimedRun Tx where
  live := Node.step cfg w.live op
  clock := match op with
    | .produce env => env.batch.now
    | _ => w.clock

/-- The clock does not go back, and no DA epoch is dated after it. -/
def Assumed (w : TimedRun Tx) : Node.Op Tx → Prop
  | .produce env => Node.TimesAssumed w.clock env w.live.state
  | _ => True

def InTime (w : TimedRun Tx) : Node.Op Tx → Prop
  | .produce env => w.live.up = true → Node.ForcedInTime env w.live.state
  | _ => True

def Inv (cfg : NodeConfig Tx) (w : TimedRun Tx) : Prop :=
  w.live.Holds (fun n => n.Timed cfg.genesis w.clock)
    fun n => n.exec.store.Timed cfg.genesis w.clock

theorem inv_step (cfg : NodeConfig Tx) (w : TimedRun Tx) (op : Node.Op Tx) (h : Inv cfg w)
    (hok : Assumed w op ∧ InTime w op) : Inv cfg (step cfg w op) := by
  unfold Inv at h ⊢
  cases op with
  | start env => exact h.boot fun hstore => Node.Timed.start hstore
  | crash => exact h.halt fun _ hn => hn.store
  | stop deleteHeader deleteData =>
    refine h.call_halt (fun _ hn => hn.store) fun hup => ?_
    rcases Node.stop_state deleteHeader deleteData w.live.state with
      hs | ⟨_, header, data, hheader, _, hs⟩
    · rw [hs]
      exact (h.1 hup).store
    · rw [hs]
      exact (h.1 hup).store.stop hheader data
  | submit put batch =>
    refine Live.call_holds h.2 fun hup => wp_of_state ?_ fun _ hn => hn.store
    obtain ⟨q, hq⟩ :=
      Sequencer.submitBatchTxs_queue put ⟨cfg.genesis.chainID, batch⟩ w.live.state.seq
    show (w.live.state.withSeq (Sequencer.submitBatchTxs put _ w.live.state.seq).2).Timed
      cfg.genesis w.clock
    rw [hq]
    exact (h.1 hup).congr rfl rfl rfl fun hs => hs.congr rfl rfl rfl rfl
  | produce env =>
    refine Live.call_holds (fun hdown => (h.2 hdown).mono hok.1.1) fun hup => ?_
    exact (h.1 hup).produceBlock hok.1 (hok.2 hup)
  | genesisInclusion write height =>
    refine Live.call_holds h.2 fun hup => wp_of_state ?_ fun _ hn => hn.store
    obtain ⟨g, d, hs⟩ := Node.genesisInclusion_state write height w.live.state
    obtain ⟨hsynced, hstore, hlast, hseq, hflagged⟩ := h.1 hup
    have hcongr : ∀ {last}, w.live.state.seq.Timed w.clock last →
        (w.live.state.seq.setDAHeight d).Timed w.clock last :=
      fun hq => hq.congr rfl rfl rfl rfl
    rw [hs]
    exact ⟨⟨⟨hsynced.wf.statesKeyed, hsynced.wf.fresh, hsynced.wf.bounded⟩, hsynced.lastHeight,
      hsynced.stored, hsynced.next⟩, ⟨⟨hstore.wf.statesKeyed, hstore.wf.fresh, hstore.wf.bounded⟩,
      ⟨hstore.dated.keyed, hstore.dated.last⟩, hstore.start, hstore.last, hstore.lower,
      hstore.initial, hstore.pending, hstore.next, hstore.monotone⟩, hlast, hcongr hseq,
      fun hflag header hheader hheight => hcongr (hflagged hflag header hheader hheight)⟩

end TimedRun

/--
**Block times do not go back.**

In a run in which each epoch that is fetched leaves room after the last block, and in which in
normal operation the executor takes the first forced transaction, the times of the blocks increase,
and the next `ProduceBlock` that meets the condition is not stopped by the time of its block.
-/
theorem block_times_monotone [Transaction Tx] (cfg : NodeConfig Tx) (n0 : Node Tx) (clock : Time)
    (hstore : n0.exec.store.Timed cfg.genesis clock) (ops : List (Node.Op Tx))
    (hmeets : Run.Meets (TimedRun.step cfg)
      (fun w op => TimedRun.Assumed w op ∧ TimedRun.InTime w op) ⟨⟨false, n0⟩, clock⟩ ops) :
    let w := Run.exec (TimedRun.step cfg) ⟨⟨false, n0⟩, clock⟩ ops
    (∀ h b b', w.live.state.exec.store.blocks.get? h = some b →
      w.live.state.exec.store.blocks.get? (h + 1) = some b' →
        b.header.header.time ≤ b'.header.header.time) ∧
    ∀ env, TimedRun.Assumed w (.produce env) → TimedRun.InTime w (.produce env) →
      w.live.up = true → Node.TimesValid cfg env w.live.state := by
  intro w
  have hinv : TimedRun.Inv cfg w := Run.invariant (TimedRun.Inv cfg) (TimedRun.inv_step cfg) ops
    ⟨⟨false, n0⟩, clock⟩ ⟨fun hf => absurd hf (by simp), fun _ => hstore⟩ hmeets
  refine ⟨(hinv.of_both fun _ hn => hn.store).monotone, fun env hassumed hintime hup => ?_⟩
  exact (hinv.1 hup).valid hassumed (hintime hup)

/-! ## Epochs that end before the last block -/

namespace BlockTimesRun

/-- The chain starts at one second, and DA height 10 is the first epoch. -/
def cfg : NodeConfig RawTx :=
  .plain ⟨"chain", 1000000000, 1, [1], 10, 1, Nat.one_pos, Nat.one_pos⟩ true

/-- A call at `now`, before the DA layer reaches height 10. -/
def early (now : Time) : ProduceEnv RawTx := .plain (.ofBlocks 9 []) now

/-- A call at `now`, when height 10 has the forced transactions `txs` and the time `t`. -/
def late (t now : Time) (txs : List RawTx) : ProduceEnv RawTx :=
  .plain (.ofBlocks 12 [(10, ⟨t, txs⟩)]) now

def run (ops : List (Node.Op RawTx)) : Live (Node RawTx) :=
  Run.exec (Node.step cfg) ⟨false, .plain cfg⟩ ops

def ops : List (Node.Op RawTx) :=
  [.start .plain, .produce (early 2000000000), .produce (early 2000000000)]

/-- A call that finds itself behind the DA layer, with room for one transaction in a block. -/
def catchUp : ProduceEnv RawTx :=
  { late 1500000000 3000000000 [⟨1, 5⟩, ⟨2, 5⟩] with
    batch := { (late 1500000000 3000000000 [⟨1, 5⟩, ⟨2, 5⟩]).batch with
      latestDAHeight := some 12
      executor := .acceptFirst 1 } }

end BlockTimesRun

open BlockTimesRun in
/-- In normal operation the epoch ended before the last block; in catch-up the first of two
transactions is dated one millisecond before it. -/
theorem forced_block_goes_back :
    (Node.produceBlock cfg (late 1500000000 3000000000 [⟨1, 5⟩]) (run ops).state).1 =
      .error (.wrap "failed to validate block" .invalidBlockTime) ∧
    (Node.produceBlock cfg catchUp (run (ops ++ [.crash, .start .plain])).state).1 =
      .error (.wrap "failed to validate block" .invalidBlockTime) := by
  decide

namespace BlockTimesRun

/-- The retrieval of a call in a node. -/
def retrieved (env : ProduceEnv RawTx) (n : Node RawTx) : Except Err (ForcedInclusionEvent RawTx) :=
  retrieveForcedIncludedTxs (Sequencer.initCheckpoint n.view n.seq).fiRetriever env.batch.da
    (Sequencer.initCheckpoint n.view n.seq).checkpoint.daHeight

theorem inTime_of_error {env : ProduceEnv RawTx} {w : TimedRun RawTx} (e : Err)
    (hclock : w.clock ≤ env.batch.now) (hr : retrieved env w.live.state = .error e)
    (hfirst : env.batch.executor.TakesFirst) :
    TimedRun.Assumed w (.produce env) ∧ TimedRun.InTime w (.produce env) := by
  refine ⟨⟨hclock, fun _ event h => ?_⟩, fun _ => ⟨fun _ event h => ?_, fun _ => hfirst⟩⟩
  · exact absurd (hr.symm.trans h) (by simp)
  · exact absurd (hr.symm.trans h) (by simp)

theorem takesFirst_acceptAll : (ExecutionAnswers.acceptAll : ExecutionAnswers RawTx).TakesFirst := by
  intro txs maxBytes gas statuses h
  rw [← Option.some.inj h]
  cases txs <;> simp

end BlockTimesRun

open BlockTimesRun in
/-- With the epoch after the last block, the forced transaction is dated between the two. -/
theorem block_times_monotone_spaced :
    let w := Run.exec (TimedRun.step cfg) ⟨⟨false, .plain cfg⟩, 1000000000⟩
      (ops ++ [.produce (late 2500000000 3000000000 [⟨1, 5⟩])])
    w.live.state.exec.store.blocks.entries.map (fun b => b.2.header.header.time) =
        [1000000000, 2000000000, 2500000000] ∧
      ∀ h b b', w.live.state.exec.store.blocks.get? h = some b →
        w.live.state.exec.store.blocks.get? (h + 1) = some b' →
          b.header.header.time ≤ b'.header.header.time := by
  intro w
  refine ⟨by decide, (block_times_monotone cfg (.plain cfg) 1000000000 ?_ _ ?_).1⟩
  · refine ⟨⟨?_, fun _ => Nat.zero_le _, ?_⟩, ⟨?_, ?_⟩, by decide, by decide, by decide,
      fun _ => rfl, ?_, ?_, ?_⟩
    · intro k state hget
      cases hget
    · intro k b hget
      cases hget
    · intro k b hget
      cases hget
    · intro b hget
      cases hget
    · intro header hget
      cases hget
    · intro b hget
      cases hget
    · intro k b b' hget
      cases hget
  · suffices hlast : ∀ w3, w3 = Run.exec (TimedRun.step cfg) ⟨⟨false, .plain cfg⟩, 1000000000⟩ ops →
        TimedRun.Assumed w3 (.produce (late 2500000000 3000000000 [⟨1, 5⟩])) ∧
          TimedRun.InTime w3 (.produce (late 2500000000 3000000000 [⟨1, 5⟩])) from
      ⟨⟨trivial, trivial⟩,
        inTime_of_error (.wrap "height not yet available" .heightFromFuture) (by decide) (by decide)
          takesFirst_acceptAll,
        inTime_of_error (.wrap "height not yet available" .heightFromFuture) (by decide) (by decide)
          takesFirst_acceptAll, hlast _ rfl, trivial⟩
    intro w3 hw3
    have hr : retrieved (late 2500000000 3000000000 [⟨1, 5⟩]) w3.live.state =
        .ok ⟨2500000000, 10, 10, [⟨1, 5⟩]⟩ := by
      rw [hw3]
      decide
    have htime : w3.live.state.exec.lastState.lastBlockTime = 2000000000 := by
      rw [hw3]
      decide
    have hclock : w3.clock = 2000000000 := by
      rw [hw3]
      decide
    have hevent : ∀ {event}, retrieved (late 2500000000 3000000000 [⟨1, 5⟩]) w3.live.state =
        .ok event → event = ⟨2500000000, 10, 10, [⟨1, 5⟩]⟩ := fun h =>
      (Except.ok.inj (hr.symm.trans h)).symm
    have hindex : (Sequencer.initCheckpoint w3.live.state.view w3.live.state.seq).checkpoint.txIndex =
        0 := by
      rw [hw3]
      decide
    refine ⟨⟨?_, fun _ event h => ?_⟩, fun _ => ⟨fun _ event h _ => ?_, fun _ =>
      takesFirst_acceptAll⟩⟩
    · rw [hclock]
      decide
    · rw [hevent h]
      decide
    · rw [hevent h, hindex, htime]
      decide

end EvNode
