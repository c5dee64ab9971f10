import EvNode.Properties.QueueLoad
import EvNode.Properties.Redraw
import EvNode.Properties.Synced

/-!
# Mempool transactions and committed blocks

A transaction that `AddBatch` accepted is written three times: to the WAL, to the pending block and
to the committed block. A start reconciles the WAL with the last committed block, but not with the
pending one: a pending block that is used again after a crash is committed while its transactions
wait in the reloaded queue, and the next batch takes them once more.
-/

namespace EvNode

open Crash Proc

variable {Tx : Type}

/-! ## The block store -/

namespace Store

def HasAt (s : Store Tx) (t : Tx) (h : Nat) : Prop :=
  ∃ b, s.blocks.get? h = some b ∧ t ∈ b.data.txs

/-- `header`, `data` is a pending block for the next height that has `t`. -/
def PendingHas (genesis : Genesis) (s : Store Tx) (t : Tx) : Prop :=
  ∃ header data, s.pendingHeader = some header ∧ s.pendingData = some data ∧
    header.header.height = s.lastHeight genesis + 1 ∧ t ∈ data.txs

/-- What holds of `t` in the block store, when `AddBatch` has accepted `accepted`. -/
structure Once (genesis : Genesis) (t : Tx) (accepted : List Tx) (s : Store Tx) : Prop where
  wf : s.WF genesis
  unique : ∀ h h', s.HasAt t h → s.HasAt t h' → h = h'
  below : ∀ h, s.HasAt t h → 0 < h ∧ h ≤ s.lastHeight genesis ∧ s.getState.isSome = true
  pending : s.PendingHas genesis t → ∀ h, ¬ s.HasAt t h
  fresh : t ∉ accepted → (∀ h, ¬ s.HasAt t h) ∧ ∀ data, s.pendingData = some data → t ∉ data.txs

variable {genesis : Genesis} {s s' : Store Tx} {t : Tx} {accepted : List Tx}

theorem HasAt.of_restarted {h : Nat} (hs : s'.HasAt t h) (hr : Restarted genesis s s') :
    s.HasAt t h := by
  obtain ⟨b, hb, ht⟩ := hs
  exact ⟨b, hr.moved.get? hb, ht⟩

theorem Once.restarted (h : s.Once genesis t accepted) (hr : Restarted genesis s s') :
    s'.Once genesis t accepted := by
  -- the block that became the pending one is above the last height
  have hmoved : ∀ data, s'.pendingData = some data → t ∈ data.txs →
      s'.pendingHeader = s.pendingHeader ∧ s.pendingData = some data := by
    intro data hdata ht
    rcases hr.moved with ⟨hheader, hpending, _⟩ | ⟨b, hb, _, hpending, _⟩
    · exact ⟨hheader, hpending ▸ hdata⟩
    · rw [hpending] at hdata
      rw [← Option.some.inj hdata] at ht
      have hle := (h.below _ ⟨b, hb, ht⟩).2.1
      omega
  refine ⟨hr.wf, fun k k' hk hk' => ?_, fun k hk => ?_, ?_, fun hfresh => ⟨fun k hk => ?_, ?_⟩⟩
  · exact h.unique k k' (hk.of_restarted hr) (hk'.of_restarted hr)
  · obtain ⟨hpos, hle, hsome⟩ := h.below k (hk.of_restarted hr)
    exact ⟨hpos, hr.lastHeight_eq ▸ hle, hr.stored hsome⟩
  · rintro ⟨header, data, hheader, hdata, hheight, ht⟩ k hk
    obtain ⟨heq, hdata'⟩ := hmoved data hdata ht
    refine h.pending ⟨header, data, heq ▸ hheader, hdata', ?_, ht⟩ k (hk.of_restarted hr)
    rw [← hr.lastHeight_eq]
    exact hheight
  · exact (h.fresh hfresh).1 k (hk.of_restarted hr)
  · intro data hdata ht
    exact (h.fresh hfresh).2 data (hmoved data hdata ht).2 ht

theorem Once.stop (h : s.Once genesis t accepted) {header : Option SignedHeader}
    {data : Option (Data Tx)} (hheader : header = none ∨ header = s.pendingHeader)
    (hdata : data = none ∨ data = s.pendingData) :
    ({ s with pendingHeader := header, pendingData := data } : Store Tx).Once genesis t
      accepted := by
  have hsame : ∀ d, data = some d → s.pendingData = some d := by
    intro d hd
    rcases hdata with hnone | heq
    · rw [hnone] at hd
      cases hd
    · rw [← heq]
      exact hd
  refine ⟨⟨h.wf.statesKeyed, h.wf.fresh, h.wf.bounded⟩, h.unique, h.below, ?_,
    fun hfresh => ⟨(h.fresh hfresh).1, fun d hd => (h.fresh hfresh).2 d (hsame d hd)⟩⟩
  rintro ⟨hd, d, hhd, hdd, hheight, ht⟩
  refine h.pending ⟨hd, d, ?_, hsame d hdd, hheight, ht⟩
  rcases hheader with hnone | heq
  · have hhd' : header = some hd := hhd
    rw [hnone] at hhd'
    cases hhd'
  · rw [← heq]
    exact hhd

end Store

namespace Node

variable [DecidableEq Tx]

/-! ## The invariant -/

structure Once (genesis : Genesis) (t : Tx) (n : Node Tx) : Prop where
  synced : n.Synced genesis
  store : n.exec.store.Once genesis t n.seq.queue.db.accepted
  queue : n.seq.queue.HeldOnce t
  legacy : ∀ x ∈ n.seq.queue.db.legacy, t ∉ x.2
  forced : t ∉ n.seq.cachedForcedInclusionTxs
  gone : ∀ h, n.exec.store.HasAt t h → t ∉ n.seq.queue.waitingTxs ∧
    t ∉ n.seq.queue.inFlightPostponed ∧
    (t ∈ n.seq.queue.flyingTxs → h = n.exec.store.lastHeight genesis)
  reused : n.exec.hasPendingBlock = true → n.exec.store.PendingHas genesis t →
    t ∉ n.seq.queue.inFlightPostponed
  item : n.exec.pendingBatchAck = false → n.seq.queue.postponedItem = none
  flag : n.exec.pendingBatchAck = true → n.exec.hasPendingBlock = false
  fresh : t ∉ n.seq.queue.db.accepted → t ∉ n.seq.queue.waitingTxs ∧ t ∉ n.seq.queue.flyingTxs

/-- Unless an ack is pending, what is committed is not in flight any more. -/
def Acked (t : Tx) (n : Node Tx) : Prop :=
  n.exec.pendingBatchAck = false → ∀ h, n.exec.store.HasAt t h → t ∉ n.seq.queue.flyingTxs

structure OnceOnDisk (genesis : Genesis) (t : Tx) (n : Node Tx) : Prop where
  store : n.exec.store.Once genesis t n.seq.queue.db.accepted
  legacy : ∀ x ∈ n.seq.queue.db.legacy, t ∉ x.2
  wal : ∀ h, n.exec.store.HasAt t h → n.seq.queue.db.Has t → h = n.exec.store.lastHeight genesis
  fresh : t ∉ n.seq.queue.db.accepted → ¬ n.seq.queue.db.Has t

variable {cfg : NodeConfig Tx} {genesis : Genesis} {t : Tx} {n n' : Node Tx}

theorem Once.onDisk (h : n.Once genesis t) : n.OnceOnDisk genesis t := by
  refine ⟨h.store, h.legacy, fun k hk hw => ?_, fun hfresh hw => ?_⟩
  · obtain ⟨hwaiting, _, hflying⟩ := h.gone k hk
    rcases h.queue.mem_of_has hw with ht | ht
    · exact absurd ht hwaiting
    · exact hflying ht
  · obtain ⟨hwaiting, hflying⟩ := h.fresh hfresh
    rcases h.queue.mem_of_has hw with ht | ht
    · exact hwaiting ht
    · exact hflying ht

theorem Once.congr (h : n.Once genesis t) (hseq : n'.seq = n.seq)
    (hstore : n'.exec.store = n.exec.store) (hstate : n'.exec.lastState = n.exec.lastState)
    (hflag : n'.exec.hasPendingBlock = n.exec.hasPendingBlock)
    (hack : n'.exec.pendingBatchAck = n.exec.pendingBatchAck) : n'.Once genesis t := by
  refine ⟨h.synced.congr hstore hstate, ?_, ?_, ?_, ?_, ?_, ?_, ?_, ?_, ?_⟩
  all_goals simp only [hseq, hstore, hflag, hack]
  · exact h.store
  · exact h.queue
  · exact h.legacy
  · exact h.forced
  · exact h.gone
  · exact h.reused
  · exact h.item
  · exact h.flag
  · exact h.fresh

variable [Transaction Tx]

/-! ## The ack -/

variable {q : BatchQueue Tx} {r : Exit Err Unit} {env : ProduceEnv Tx}

omit [Transaction Tx] in
theorem Once.afterAck (h : n.Once genesis t) {pending : Bool}
    (haccepted : q.db.accepted = n.seq.queue.db.accepted)
    (hlegacy : q.db.legacy = n.seq.queue.db.legacy) (hq : q.HeldOnce t)
    (hwaiting : t ∈ q.waitingTxs → t ∈ n.seq.queue.waitingTxs ∨ t ∈ n.seq.queue.inFlightPostponed)
    (hflying : t ∈ q.flyingTxs → t ∈ n.seq.queue.flyingTxs)
    (hpostponed : t ∈ q.inFlightPostponed → t ∈ n.seq.queue.inFlightPostponed)
    (hitem : pending = false → q.postponedItem = none)
    (hflag : pending = true → n.exec.hasPendingBlock = false) :
    (n.afterAck q pending).Once genesis t := by
  refine ⟨h.synced.congr rfl rfl, ?_, hq, ?_, h.forced, fun k hk => ⟨fun ht => ?_, fun ht => ?_,
    fun ht => ?_⟩, fun hf hp ht => ?_, hitem, hflag, fun hfresh => ⟨fun ht => ?_, fun ht => ?_⟩⟩
  · show n.exec.store.Once genesis t q.db.accepted
    rw [haccepted]
    exact h.store
  · show ∀ x ∈ q.db.legacy, t ∉ x.2
    rw [hlegacy]
    exact h.legacy
  · obtain ⟨hw, hp, _⟩ := h.gone k hk
    rcases hwaiting ht with ht | ht
    · exact hw ht
    · exact hp ht
  · exact (h.gone k hk).2.1 (hpostponed ht)
  · exact (h.gone k hk).2.2 (hflying ht)
  · exact h.reused hf hp (hpostponed ht)
  · obtain ⟨hw, hf⟩ := h.fresh (haccepted ▸ hfresh)
    rcases hwaiting ht with ht | ht
    · exact hw ht
    · exact hf (h.queue.mem_flyingTxs ht)
  · exact (h.fresh (haccepted ▸ hfresh)).2 (hflying ht)

theorem Once.ack (h : n.Once genesis t) (hflag : n.exec.hasPendingBlock = false) (hq : BatchQueue.AckCase n.seq.queue (r, q)) :
    (n.afterAck q true).Once genesis t ∧
      (r = .ok () → (n.afterAck q false).Once genesis t ∧ (n.afterAck q false).Acked t) := by
  have hsame : (n.afterAck n.seq.queue true).Once genesis t :=
    h.afterAck rfl rfl h.queue .inl id id (fun hf => absurd hf (by simp)) fun _ => hflag
  have hpersisted : (n.afterAck n.seq.queue.postponedPersisted true).Once genesis t := by
    have heq : n.seq.queue.postponedPersisted.db.accepted = n.seq.queue.db.accepted ∧
        n.seq.queue.postponedPersisted.db.legacy = n.seq.queue.db.legacy ∧
        n.seq.queue.postponedPersisted.waitingTxs = n.seq.queue.waitingTxs ∧
        n.seq.queue.postponedPersisted.flyingTxs = n.seq.queue.flyingTxs ∧
        n.seq.queue.postponedPersisted.inFlightPostponed = n.seq.queue.inFlightPostponed := by
      unfold BatchQueue.postponedPersisted
      split <;> exact ⟨rfl, rfl, rfl, rfl, rfl⟩
    obtain ⟨ha, hl, hw, hf, hp⟩ := heq
    exact h.afterAck ha hl h.queue.postponedPersisted (fun ht => .inl (hw ▸ ht))
      (fun ht => hf ▸ ht) (fun ht => hp ▸ ht) (fun hf => absurd hf (by simp)) fun _ => hflag
  have hacked : ∀ pending, (n.afterAck n.seq.queue.acked pending).Once genesis t := by
    intro pending
    have heq : n.seq.queue.acked.db.accepted = n.seq.queue.db.accepted ∧
        n.seq.queue.acked.db.legacy = n.seq.queue.db.legacy := by
      unfold BatchQueue.acked BatchQueue.finishAck BatchQueue.inFlightDeleted
        BatchQueue.postponedPersisted
      split <;> exact ⟨rfl, rfl⟩
    refine h.afterAck heq.1 heq.2 h.queue.acked (fun ht => ?_) (fun ht => ?_) (fun ht => ?_)
      (fun _ => rfl) fun _ => hflag
    · rw [BatchQueue.waitingTxs_acked h.queue.item, List.mem_append] at ht
      exact ht.symm
    · exact absurd ht List.not_mem_nil
    · exact absurd ht List.not_mem_nil
  cases hq with
  | putFailed _ | putCrash => exact ⟨hsame, fun hr => absurd hr (by simp)⟩
  | deleteFailed _ _ | deleteCrash _ => exact ⟨hpersisted, fun hr => absurd hr (by simp)⟩
  | acked => exact ⟨hacked true, fun _ => ⟨hacked false, fun _ _ _ ht => List.not_mem_nil ht⟩⟩

omit [Transaction Tx] in
/-- An ack that crashes leaves the disk of one that fails. -/
theorem OnceOnDisk.afterAck {pending : Bool}
    (h : (n.afterAck q true).Once genesis t) : (n.afterAck q pending).OnceOnDisk genesis t :=
  ⟨h.onDisk.store, h.onDisk.legacy, h.onDisk.wal, h.onDisk.fresh⟩

theorem Once.ackCommitted (h : n.Once genesis t) (hflag : n.exec.hasPendingBlock = false)
    {env : AckEnv} (hr : AckCommittedCase env n (r, n')) :
    n'.OnceOnDisk genesis t ∧ (r ≠ .crash → n'.Once genesis t ∧ n'.Acked t) := by
  have hack : ∀ {r q}, BatchQueue.ack env.put env.commit n.seq.queue = (r, q) →
      BatchQueue.AckCase n.seq.queue (r, q) := fun hq => hq ▸ BatchQueue.ack_cases ..
  cases hr with
  | acked q hq =>
    obtain ⟨hn', hacked⟩ := (h.ack hflag (hack hq)).2 rfl
    exact ⟨hn'.onDisk, fun _ => ⟨hn', hacked⟩⟩
  | failed e q hq =>
    have hn' := (h.ack hflag (hack hq)).1
    exact ⟨hn'.onDisk, fun _ => ⟨hn', fun hf => absurd hf (by simp [Node.afterAck])⟩⟩
  | crash q hq =>
    exact ⟨.afterAck (h.ack hflag (hack hq)).1, fun hc => absurd rfl hc⟩

/-! ## The next block -/

/-- A pending block that is used again does not have `t` while `t` waits. -/
def ReuseOk (t : Tx) (n : Node Tx) : Prop :=
  ∀ header data, n.Reuses header data → t ∈ data.txs → t ∉ n.seq.queue.waitingTxs

omit [Transaction Tx] in
theorem Once.redrawn (h : n.Once genesis t) (hack : n.Acked t)
    (hdone : n.exec.pendingBatchAck = false) (hnew : n.TakesNew) {s : Sequencer Tx}
    (hr : n.seq.queue.Redrawn t s.queue) (hcached : t ∉ s.cachedForcedInclusionTxs) :
    (n.withSeq s).Once genesis t ∧ (n.withSeq s).Acked t := by
  have hnone : t ∉ n.seq.queue.waitingTxs → t ∉ n.seq.queue.flyingTxs →
      t ∉ s.queue.waitingTxs ∧ t ∉ s.queue.flyingTxs := by
    intro hw hf
    have hcount := hr.count
    rw [List.count_eq_zero.mpr hw, List.count_eq_zero.mpr hf] at hcount
    exact ⟨List.count_eq_zero.mp (by omega), List.count_eq_zero.mp (by omega)⟩
  have hgone : ∀ k, n.exec.store.HasAt t k → t ∉ s.queue.waitingTxs ∧ t ∉ s.queue.flyingTxs :=
    fun k hk => hnone (h.gone k hk).1 (hack hdone k hk)
  refine ⟨⟨h.synced.congr rfl rfl, ?_, hr.heldOnce, ?_, hcached, fun k hk => ?_, ?_,
    fun _ => hr.item, h.flag, fun hfresh => ?_⟩, fun _ k hk => (hgone k hk).2⟩
  · show n.exec.store.Once genesis t s.queue.db.accepted
    rw [hr.db]
    exact h.store
  · show ∀ x ∈ s.queue.db.legacy, t ∉ x.2
    rw [hr.db]
    exact h.legacy
  · obtain ⟨hw, hf⟩ := hgone k hk
    exact ⟨hw, fun ht => hf (hr.heldOnce.mem_flyingTxs ht), fun ht => absurd ht hf⟩
  · rintro hflag ⟨header, data, hheader, _, hheight, _⟩
    exact absurd (hheight.trans h.synced.nextHeight_eq.symm) (hnew hflag header hheader)
  · have hfresh' : t ∉ n.seq.queue.db.accepted := hr.db ▸ hfresh
    exact hnone (h.fresh hfresh').1 (h.fresh hfresh').2

omit [Transaction Tx] in
theorem Once.withPending (h : n.Once genesis t) (hack : n.Acked t)
    (hdone : n.exec.pendingBatchAck = false) (block : SignedHeader × Data Tx)
    (hblock : t ∈ block.2.txs →
      t ∈ n.seq.queue.flyingTxs ∧ t ∉ n.seq.queue.inFlightPostponed) :
    (n.withPending block).Once genesis t ∧ (n.withPending block).Acked t := by
  have hdata : ∀ {data}, (n.withPending block).exec.store.pendingData = some data →
      t ∈ data.txs → t ∈ block.2.txs := by
    intro data hd ht
    rw [Option.some.inj hd]
    exact ht
  refine ⟨⟨h.synced.withPending block, ⟨⟨h.store.wf.statesKeyed, h.store.wf.fresh,
    h.store.wf.bounded⟩, h.store.unique, h.store.below, ?_, fun hfresh => ?_⟩, h.queue, h.legacy,
    h.forced, h.gone, ?_, h.item, h.flag, h.fresh⟩, hack⟩
  · rintro ⟨_, data, _, hd, _, ht⟩ k hk
    exact hack hdone k hk (hblock (hdata hd ht)).1
  · refine ⟨(h.store.fresh hfresh).1, fun data hd ht => ?_⟩
    exact (h.fresh hfresh).2 (hblock (hdata hd ht)).1
  · rintro _ ⟨_, data, _, hd, _, ht⟩
    exact (hblock (hdata hd ht)).2

theorem Once.nextBlock {r : Exit Err (Option (SignedHeader × Data Tx))}
    (h : n.Once cfg.genesis t) (hack : n.Acked t) (hdone : n.exec.pendingBatchAck = false)
    (hda : env.batch.da.Without t) (hreuse : n.ReuseOk t)
    (hr : NextBlockCase cfg env n (r, n')) :
    n'.OnceOnDisk cfg.genesis t ∧ (r ≠ .crash → n'.Once cfg.genesis t ∧ n'.Acked t ∧
      n'.exec.pendingBatchAck = false ∧ ∀ header data, r = .ok (some (header, data)) →
        t ∈ data.txs → t ∉ n'.seq.queue.waitingTxs ∧ t ∉ n'.seq.queue.inFlightPostponed) := by
  have hbatch := fun view req => Sequencer.getNextBatch_redrawn hda view req h.queue (h.item hdone)
    h.forced
  cases hr with
  | unread r hr =>
    exact ⟨h.onDisk, fun _ => ⟨h, hack, hdone, fun _ _ heq => absurd heq (hr _)⟩⟩
  | reused header data hused =>
    refine ⟨h.onDisk, fun _ => ⟨h, hack, hdone, fun header' data' heq ht => ?_⟩⟩
    cases heq
    refine ⟨hreuse header data hused ht, h.reused hused.1 ⟨header, data, hused.2.1, hused.2.2.1, ?_,
      ht⟩⟩
    exact hused.2.2.2.trans h.synced.nextHeight_eq
  | noBatch e s hnew hg r hr =>
    obtain ⟨hredrawn, hcached⟩ := wp_error (hbatch _ _) hg
    obtain ⟨hn', hack'⟩ := h.redrawn hack hdone hnew hredrawn hcached
    exact ⟨hn'.onDisk, fun _ => ⟨hn', hack', hdone, fun _ _ heq => absurd heq (hr _)⟩⟩
  | batchCrash s hnew hg =>
    have hdb : s.queue.db = n.seq.queue.db := wp_crash (hbatch _ _) hg
    refine ⟨⟨?_, ?_, ?_, ?_⟩, fun hc => absurd rfl hc⟩
    all_goals simp only [Node.withSeq, hdb]
    · exact h.store
    · exact h.legacy
    · exact h.onDisk.wal
    · exact h.onDisk.fresh
  | unsaved batch s hnew hg _ r hr =>
    obtain ⟨hredrawn, hcached, _⟩ := wp_ok (hbatch _ _) hg
    obtain ⟨hn', hack'⟩ := h.redrawn hack hdone hnew hredrawn hcached
    exact ⟨hn'.onDisk, fun _ => ⟨hn', hack', hdone, fun _ _ heq => absurd heq (hr _)⟩⟩
  | created batch s last hnew hg _ =>
    obtain ⟨hredrawn, hcached, hmem⟩ := wp_ok (hbatch _ _) hg
    obtain ⟨hs, hacks⟩ := h.redrawn hack hdone hnew hredrawn hcached
    obtain ⟨hn', hack'⟩ := hs.withPending hacks hdone
      (buildBlock cfg n.nextHeight batch n.exec.lastState last) hmem
    refine ⟨hn'.onDisk, fun _ => ⟨hn', hack', hdone, fun header data heq ht => ?_⟩⟩
    cases heq
    obtain ⟨hflying, hpostponed⟩ := hmem ht
    refine ⟨fun hw => ?_, hpostponed⟩
    -- `t` is in the queue once, and it is in flight
    have hone := hs.queue.once
    have hw1 := List.count_pos_iff.mpr hw
    have hf1 := List.count_pos_iff.mpr hflying
    simp only [Node.withSeq, Node.withPending] at hone hw1
    omega

/-! ## The commit -/

omit [Transaction Tx] in
theorem Once.recordSigned (h : n.Once genesis t) (header : Header) :
    (Node.recordSigned header n).Once genesis t :=
  ⟨h.synced.recordSigned header, ⟨⟨h.store.wf.statesKeyed, h.store.wf.fresh, h.store.wf.bounded⟩,
    h.store.unique, h.store.below, h.store.pending, h.store.fresh⟩, h.queue, h.legacy, h.forced,
    h.gone, h.reused, h.item, h.flag, h.fresh⟩

omit [Transaction Tx] in
/-- Committing the pending block, when its transactions neither wait nor are postponed. -/
theorem Once.committed (h : n.Once cfg.genesis t) (hack : n.Acked t)
    (hdone : n.exec.pendingBatchAck = false) (env : ProduceEnv Tx) {header : SignedHeader}
    {data : Data Tx} (hheight : header.header.height = n.nextHeight)
    (hheader : n.exec.store.pendingHeader = some header)
    (hdata : n.exec.store.pendingData = some data)
    (hwait : t ∈ data.txs → t ∉ n.seq.queue.waitingTxs ∧ t ∉ n.seq.queue.inFlightPostponed) :
    (Node.committed cfg env header data n).Once cfg.genesis t := by
  obtain ⟨hwf, hlast, hget, states, hstore⟩ := h.synced.commitBatch cfg env hheight data
  obtain ⟨s', hs'⟩ : ∃ s', s' = (Node.committed cfg env header data n).exec.store := ⟨_, rfl⟩
  rw [← hs'] at hwf hlast hget hstore
  have hnew : t ∈ data.txs → ∀ k, ¬ n.exec.store.HasAt t k := fun ht =>
    h.store.pending ⟨header, data, hheader, hdata, hheight.trans h.synced.nextHeight_eq, ht⟩
  -- a block with `t` is the new one or an old one
  have hblocks : ∀ k, s'.HasAt t k →
      (k = n.nextHeight ∧ t ∈ data.txs) ∨ n.exec.store.HasAt t k := by
    rintro k ⟨b, hb, ht⟩
    rw [hstore] at hb
    have hb' : (n.exec.store.blocks.put n.nextHeight
      ⟨{ header with signature := env.signature }, data, env.signature⟩).get? k = some b := hb
    rw [OrdMap.get?_put] at hb'
    split at hb'
    · next hk =>
      rw [← Option.some.inj hb'] at ht
      exact .inl ⟨hk, ht⟩
    · exact .inr ⟨b, hb', ht⟩
  have hpending : s'.pendingHeader = some header ∧ s'.pendingData = some data := by
    rw [hstore]
    exact ⟨hheader, hdata⟩
  have honce : s'.Once cfg.genesis t n.seq.queue.db.accepted := by
    refine ⟨hwf, fun k k' hk hk' => ?_, fun k hk => ?_, ?_, fun hfresh => ⟨fun k hk => ?_, ?_⟩⟩
    · rcases hblocks k hk with ⟨rfl, ht⟩ | hk
      · rcases hblocks k' hk' with ⟨rfl, _⟩ | hk'
        · rfl
        · exact absurd hk' (hnew ht k')
      · rcases hblocks k' hk' with ⟨rfl, ht⟩ | hk'
        · exact absurd hk (hnew ht k)
        · exact h.store.unique k k' hk hk'
    · have hsome : s'.getState.isSome = true := by
        rw [hget]
        rfl
      rw [hlast]
      rcases hblocks k hk with ⟨rfl, _⟩ | hk
      · exact ⟨Nat.succ_pos _, Nat.le_refl _, hsome⟩
      · obtain ⟨hpos, hle, _⟩ := h.store.below k hk
        rw [h.synced.nextHeight_eq]
        exact ⟨hpos, Nat.le_succ_of_le hle, hsome⟩
    · rintro ⟨header', data', hheader', _, hheight', _⟩
      rw [hpending.1] at hheader'
      rw [hlast, ← Option.some.inj hheader'] at hheight'
      omega
    · rcases hblocks k hk with ⟨_, ht⟩ | hk
      · exact (h.store.fresh hfresh).2 data hdata ht
      · exact (h.store.fresh hfresh).1 k hk
    · rw [hpending.2, ← hdata]
      exact (h.store.fresh hfresh).2
  refine ⟨h.synced.committed cfg env hheight data, ?_, h.queue, h.legacy, h.forced, fun k hk => ?_,
    fun hf => absurd hf (by simp [Node.committed]), h.item, fun _ => rfl, h.fresh⟩
  · rw [← hs']
    exact honce
  · rw [← hs'] at hk
    rw [← hs', hlast]
    show t ∉ n.seq.queue.waitingTxs ∧ t ∉ n.seq.queue.inFlightPostponed ∧
      (t ∈ n.seq.queue.flyingTxs → k = n.nextHeight)
    rcases hblocks k hk with ⟨rfl, ht⟩ | hk
    · exact ⟨(hwait ht).1, (hwait ht).2, fun _ => rfl⟩
    · obtain ⟨hw, hp, _⟩ := h.gone k hk
      exact ⟨hw, hp, fun ht => absurd ht (hack hdone k hk)⟩

theorem Once.finishBlock {header : SignedHeader} {data : Data Tx} (h : n.Once cfg.genesis t) (hack : n.Acked t)
    (hdone : n.exec.pendingBatchAck = false) (hheight : header.header.height = n.nextHeight)
    (hheader : n.exec.store.pendingHeader = some header)
    (hdata : n.exec.store.pendingData = some data)
    (hwait : t ∈ data.txs → t ∉ n.seq.queue.waitingTxs ∧ t ∉ n.seq.queue.inFlightPostponed)
    (hr : FinishCase cfg env header data n (r, n')) :
    n'.OnceOnDisk cfg.genesis t ∧ (r ≠ .crash → n'.Once cfg.genesis t ∧ n'.Acked t) := by
  have hsign := h.recordSigned header.header
  have hsigned : ∀ count, (signed header count n).Once cfg.genesis t := fun count =>
    hsign.congr rfl rfl rfl rfl rfl
  have hcommit : ∀ count,
      (Node.committed cfg env header data (signed header count n)).Once cfg.genesis t :=
    fun count => (hsigned count).committed hack hdone env hheight hheader hdata hwait
  cases hr with
  | unsigned _ _ => exact ⟨h.onDisk, fun _ => ⟨h, hack⟩⟩
  | unsignable _ _ => exact ⟨hsign.onDisk, fun _ => ⟨hsign, hack⟩⟩
  | invalid _ count _ | uncommitted count _ _ _ =>
    exact ⟨(hsigned count).onDisk, fun _ => ⟨hsigned count, hack⟩⟩
  | ackCrash count _ n1 hc =>
    exact ⟨((hcommit count).ackCommitted rfl hc).1, fun hcrash => absurd rfl hcrash⟩
  | done count _ r n1 hc hr =>
    obtain ⟨hn1, hack1⟩ := ((hcommit count).ackCommitted rfl hc).2 hr
    have hn' : (cached cfg env data n1).Once cfg.genesis t := hn1.congr rfl rfl rfl rfl rfl
    exact ⟨hn'.onDisk, fun _ => ⟨hn', hack1⟩⟩

/-- **One `ProduceBlock`.** -/
theorem Once.produceBlock (h : n.Once cfg.genesis t) (hack : n.Acked t)
    (hda : env.batch.da.Without t) (hreuse : n.ReuseOk t) :
    wp (Node.produceBlock cfg env) (fun _ n' => n'.Once cfg.genesis t ∧ n'.Acked t)
      (fun _ n' => n'.Once cfg.genesis t ∧ n'.Acked t) (OnceOnDisk cfg.genesis t) n := by
  have hack' : ∀ {r q}, BatchQueue.ack env.retryAck.put env.retryAck.commit n.seq.queue = (r, q) →
      BatchQueue.AckCase n.seq.queue (r, q) := fun hq => hq ▸ BatchQueue.ack_cases ..
  -- the retry: with an ack pending, no block is flagged, so none is used again
  have hretry : ∀ n1, RetryCase env n (.ok (), n1) → ∀ counter,
      (n1.counted counter).Once cfg.genesis t ∧ (n1.counted counter).Acked t ∧
        (n1.counted counter).exec.pendingBatchAck = false ∧ (n1.counted counter).ReuseOk t := by
    intro n1 hr counter
    cases hr with
    | nothing hp => exact ⟨h.congr rfl rfl rfl rfl rfl, hack, hp, hreuse⟩
    | acked q hp hq =>
      obtain ⟨hn1, hacked⟩ := (h.ack (h.flag hp) (hack' hq)).2 rfl
      refine ⟨hn1.congr rfl rfl rfl rfl rfl, hacked, rfl, fun header data hused => ?_⟩
      have hflag : n.exec.hasPendingBlock = true := hused.1
      exact absurd ((h.flag hp).symm.trans hflag) (by simp)
  refine wp_of_ends fun r n' heq => ?_
  have hc := produceBlock_cases cfg env n
  rw [heq] at hc
  cases hc with
  | noQuorum _ => exact ⟨fun _ => ⟨h, hack⟩, h.onDisk⟩
  | unacked r n1 h1 hr =>
    cases h1 with
    | nothing _ | acked _ _ _ => exact absurd rfl hr
    | failed e e' q hp hq =>
      have hn1 := (h.ack (h.flag hp) (hack' hq)).1
      exact ⟨fun _ => ⟨hn1, fun hf => absurd hf (by simp [Node.afterAck])⟩, hn1.onDisk⟩
    | crash q hp hq =>
      exact ⟨fun hcrash => absurd rfl hcrash, (h.ack (h.flag hp) (hack' hq)).1.onDisk⟩
  | skipped n1 h1 counter =>
    obtain ⟨hn1, hack1, _, _⟩ := hretry n1 h1 counter
    exact ⟨fun _ => ⟨hn1, hack1⟩, hn1.onDisk⟩
  | noBlock n1 h1 counter r1 n2 h2 _ r hr =>
    obtain ⟨hn1, hack1, hdone, hreuse1⟩ := hretry n1 h1 counter
    obtain ⟨hdown, hup⟩ := hn1.nextBlock hack1 hdone hda hreuse1 h2
    refine ⟨fun hne => ?_, hdown⟩
    obtain ⟨hn2, hack2, _⟩ := hup fun hcrash => hne (hr.mp hcrash)
    exact ⟨hn2, hack2⟩
  | block n1 h1 counter header data n2 h2 r n3 h3 =>
    obtain ⟨hn1, hack1, hdone, hreuse1⟩ := hretry n1 h1 counter
    obtain ⟨hheight, hheader, hdata⟩ := h2.ready
    obtain ⟨hn2, hack2, hdone2, hwait⟩ :=
      (hn1.nextBlock hack1 hdone hda hreuse1 h2).2 (by simp)
    obtain ⟨hdown, hup⟩ := hn2.finishBlock hack2 hdone2 hheight hheader hdata
      (hwait header data rfl) h3
    exact ⟨hup, hdown⟩

/-! ## The other operations -/

omit [Transaction Tx] in
theorem Once.withSeen (h : n.Once genesis t) (seen : Finset Nat) :
    (n.withSeq { n.seq with queue := { n.seq.queue with txSeen := seen } }).Once genesis t :=
  ⟨h.synced.congr rfl rfl, h.store, ⟨h.queue.once, h.queue.covered, h.queue.postponed,
    h.queue.item⟩, h.legacy, h.forced, h.gone, h.reused, h.item, h.flag, h.fresh⟩

omit [Transaction Tx] in
/-- New transactions, of which `t` is one only if it was not accepted before. -/
theorem Once.added (h : n.Once genesis t) (hack : n.Acked t) {unique : List Tx}
    (seen : Finset Nat) (hone : (n.seq.queue.db.accepted ++ unique).count t ≤ 1) :
    (n.withSeq { n.seq with queue := n.seq.queue.added unique seen }).Once genesis t ∧
      (n.withSeq { n.seq with queue := n.seq.queue.added unique seen }).Acked t := by
  rw [List.count_append] at hone
  have hnew : t ∈ unique → t ∉ n.seq.queue.db.accepted := by
    intro ht
    have hpos := List.count_pos_iff.mpr ht
    exact List.count_eq_zero.mp (by omega)
  have hwaiting : (n.seq.queue.added unique seen).waitingTxs =
      n.seq.queue.waitingTxs ++ unique := by
    unfold BatchQueue.waitingTxs BatchQueue.added
    simp
  have hqueue : (n.seq.queue.added unique seen).HeldOnce t := by
    refine h.queue.added seen (by omega) fun ht => ?_
    obtain ⟨hw, hf⟩ := h.fresh (hnew ht)
    exact ⟨hw, hf, h.onDisk.fresh (hnew ht)⟩
  have haccepted : t ∉ n.seq.queue.db.accepted ++ unique →
      t ∉ n.seq.queue.db.accepted ∧ t ∉ unique := fun hfresh =>
    ⟨fun ht => hfresh (List.mem_append_left _ ht), fun ht => hfresh (List.mem_append_right _ ht)⟩
  refine ⟨⟨h.synced.congr rfl rfl, ?_, hqueue, h.legacy, h.forced, fun k hk => ?_, h.reused, h.item,
    h.flag, fun hfresh => ?_⟩, hack⟩
  · exact ⟨h.store.wf, h.store.unique, h.store.below, h.store.pending,
      fun hfresh => h.store.fresh (haccepted hfresh).1⟩
  · obtain ⟨hw, hp, hf⟩ := h.gone k hk
    refine ⟨fun ht => ?_, hp, hf⟩
    have ht' : t ∈ (n.seq.queue.added unique seen).waitingTxs := ht
    rw [hwaiting] at ht'
    rcases List.mem_append.mp ht' with ht' | ht'
    · exact hw ht'
    · exact (h.store.fresh (hnew ht')).1 k hk
  · obtain ⟨ha, hu⟩ := haccepted hfresh
    obtain ⟨hw, hf⟩ := h.fresh ha
    refine ⟨fun ht => ?_, hf⟩
    have ht' : t ∈ (n.seq.queue.added unique seen).waitingTxs := ht
    rw [hwaiting] at ht'
    rcases List.mem_append.mp ht' with ht' | ht'
    · exact hw ht'
    · exact hu ht'

/-- A submission after which `t` is accepted at most once. -/
theorem Once.submit (h : n.Once genesis t) (hack : n.Acked t) {put : Outcome}
    {req : Sequencer.SubmitBatchTxsRequest Tx}
    (hone : (Sequencer.submitBatchTxs put req n.seq).2.queue.db.accepted.count t ≤ 1) :
    (n.withSeq (Sequencer.submitBatchTxs put req n.seq).2).Once genesis t ∧
      (n.withSeq (Sequencer.submitBatchTxs put req n.seq).2).Acked t := by
  rcases Sequencer.submitBatchTxs_state put req n.seq with hs | hs
  · rw [hs]
    exact ⟨h, hack⟩
  · rw [hs] at hone ⊢
    have hq : (Sequencer.onQueue (BatchQueue.addBatch put req.batch) n.seq).2 =
        { n.seq with queue := (BatchQueue.addBatch put req.batch n.seq.queue).2 } := rfl
    rw [hq] at hone ⊢
    rcases BatchQueue.addBatch_state put req.batch n.seq.queue with ⟨seen, hadd⟩ | hadd
    · rw [hadd]
      exact ⟨h.withSeen seen, hack⟩
    · rw [hadd] at hone ⊢
      exact h.added hack _ hone

omit [Transaction Tx] in
theorem Once.stop (h : n.Once genesis t) (deleteHeader deleteData : Outcome) :
    (Node.stop deleteHeader deleteData n).2.OnceOnDisk genesis t := by
  rcases stop_state deleteHeader deleteData n with hs | ⟨_, header, data, hheader, hdata, hs⟩
  · rw [hs]
    exact h.onDisk
  · rw [hs]
    exact ⟨h.store.stop hheader hdata, h.legacy, h.onDisk.wal, h.onDisk.fresh⟩

omit [DecidableEq Tx] [Transaction Tx] in
theorem OnceOnDisk.restarted (h : n.OnceOnDisk genesis t)
    (hr : Store.Restarted genesis n.exec.store n'.exec.store)
    (hw : n.seq.queue.db.Shrinks t n'.seq.queue.db) : n'.OnceOnDisk genesis t := by
  refine ⟨?_, hw.legacy h.legacy, fun k hk hhas => ?_, fun hfresh hhas => ?_⟩
  · rw [hw.accepted]
    exact h.store.restarted hr
  · rw [hr.lastHeight_eq]
    exact h.wal k (hk.of_restarted hr) (hw.has hhas)
  · rw [hw.accepted] at hfresh
    exact h.fresh hfresh (hw.has hhas)

omit [Transaction Tx] in
/-- The last block is the one `NewSequencer` reconciles the queue with. -/
theorem OnceOnDisk.not_waiting (h : n.OnceOnDisk genesis t)
    (hq : Sequencer.QueueLoaded t n.seq.queue.db n.view q) {k : Nat}
    (hk : n.exec.store.HasAt t k) : t ∉ q.waitingTxs := by
  intro ht
  obtain ⟨hpos, _, hsome⟩ := h.store.below k hk
  have hlast : k = n.exec.store.height :=
    (h.wal k hk (hq.loaded.source ht)).trans (h.store.wf.lastHeight_eq hsome)
  obtain ⟨b, hb, htb⟩ := hk
  refine hq.reconciled b.data.txs ?_ ?_ htb ht
  · show n.exec.store.height ≠ 0
    omega
  · show (n.exec.store.getBlockData n.exec.store.height).map (fun b => b.2.txs) = some b.data.txs
    unfold Store.getBlockData
    rw [← hlast, hb]
    rfl

/-- **One start.** -/
theorem OnceOnDisk.start (h : n.OnceOnDisk cfg.genesis t) {env : InitEnv}
    (hcleanup : ∀ k, env.seq.load.cleanup k ≠ .fail) :
    wp (Node.start cfg env) (fun _ n' => n'.Once cfg.genesis t ∧ n'.Acked t)
      (fun _ => OnceOnDisk cfg.genesis t) (OnceOnDisk cfg.genesis t) n := by
  have hinterrupted : ∀ n', StartInterrupted cfg
      (fun s => Sequencer.QueueLoaded t n.seq.queue.db n.view s.queue ∧
        s.cachedForcedInclusionTxs = [])
      (fun s => n.seq.queue.db.Shrinks t s.queue.db) n n' → n'.OnceOnDisk cfg.genesis t := by
    rintro n' ⟨hr, hs | ⟨s, d, ⟨hs, _⟩, hd⟩⟩
    · exact h.restarted hr hs
    · refine h.restarted hr ?_
      rw [hd]
      exact hs.loaded.wal
  refine wp_mono (start_spec
    (fun s => Sequencer.QueueLoaded t n.seq.queue.db n.view s.queue ∧
      s.cachedForcedInclusionTxs = [])
    (fun s => n.seq.queue.db.Shrinks t s.queue.db) h.store.wf ?_) ?_ ?_ ?_
  · refine wp_mono (wp_and (Sequencer.newSequencer_queue cfg.sequencer hcleanup n.view n.seq
      h.legacy) (Sequencer.newSequencer_spec cfg.sequencer env.seq n.view n.seq)) ?_
      (fun _ _ hs => hs.1) (fun _ hs => hs.1)
    rintro _ s ⟨hs, q, rfl⟩
    exact ⟨hs, rfl⟩
  · rintro _ n' ⟨s, ⟨hs, hcached⟩, hinit⟩
    have hdisk : n'.OnceOnDisk cfg.genesis t := by
      refine h.restarted hinit.store ?_
      rw [hinit.seq]
      exact hs.loaded.wal
    have hqueue : n'.seq.queue = s.queue := by
      rw [hinit.seq]
      rfl
    have hidle := hs.loaded.idle
    have hflying : s.queue.flyingTxs = [] := by
      unfold BatchQueue.flyingTxs
      rw [hidle.inFlight]
      rfl
    have hack : n'.exec.pendingBatchAck = false := hinit.ack
    have hnot : ∀ k, n'.exec.store.HasAt t k → t ∉ s.queue.waitingTxs := fun k hk =>
      h.not_waiting hs (hk.of_restarted hinit.store)
    refine ⟨⟨hinit.synced, hdisk.store, ?_, hdisk.legacy, ?_, fun k hk => ?_, fun _ _ => ?_,
      fun _ => ?_, fun hf => ?_, fun hfresh => ?_⟩, fun _ k hk => ?_⟩
    · rw [hqueue]
      exact hs.loaded.heldOnce
    · rw [hinit.seq]
      show t ∉ s.cachedForcedInclusionTxs
      rw [hcached]
      exact List.not_mem_nil
    · rw [hqueue, hidle.postponed, hflying]
      exact ⟨hnot k hk, List.not_mem_nil, fun ht => absurd ht List.not_mem_nil⟩
    · rw [hqueue, hidle.postponed]
      exact List.not_mem_nil
    · rw [hqueue]
      exact hidle.item
    · exact absurd (hack.symm.trans hf) (by simp)
    · rw [hqueue, hflying]
      refine ⟨fun ht => ?_, List.not_mem_nil⟩
      rw [hqueue, hs.loaded.wal.accepted] at hfresh
      exact h.fresh hfresh (hs.loaded.source ht)
    · rw [hqueue, hflying]
      exact List.not_mem_nil
  · exact fun _ n' hn' => hinterrupted n' hn'
  · exact fun n' hn' => hinterrupted n' hn'

/-! ## Runs -/

/-- The runs the property is about: `t` is accepted at most once, it is not a forced transaction,
and no cleanup write of a load fails. -/
def AcceptedOnce (cfg : NodeConfig Tx) (t : Tx) (l : Live (Node Tx)) : Op Tx → Prop
  | .start env => ∀ k, env.seq.load.cleanup k ≠ .fail
  | .submit put batch =>
    (step cfg l (.submit put batch)).state.seq.queue.db.accepted.count t ≤ 1
  | .produce env => env.batch.da.Without t
  | _ => True

def ReusesOk (t : Tx) (l : Live (Node Tx)) : Op Tx → Prop
  | .produce _ => l.up = true → l.state.ReuseOk t
  | _ => True

theorem once_step (cfg : NodeConfig Tx) (t : Tx) (l : Live (Node Tx)) (op : Op Tx)
    (h : l.Holds (fun n => n.Once cfg.genesis t ∧ n.Acked t) (OnceOnDisk cfg.genesis t))
    (hok : AcceptedOnce cfg t l op ∧ ReusesOk t l op) :
    (step cfg l op).Holds (fun n => n.Once cfg.genesis t ∧ n.Acked t)
      (OnceOnDisk cfg.genesis t) := by
  cases op with
  | start env => exact h.boot fun hdisk => hdisk.start hok.1
  | crash => exact h.halt fun _ hn => hn.1.onDisk
  | stop deleteHeader deleteData =>
    exact h.call_halt (fun _ hn => hn.1.onDisk) fun hup =>
      (h.1 hup).1.stop deleteHeader deleteData
  | submit put batch =>
    refine Live.call_holds h.2 fun hup => wp_of_state ?_ fun _ hn => hn.1.onDisk
    have hone : (step cfg l (.submit put batch)).state.seq.queue.db.accepted.count t ≤ 1 := hok.1
    have hcall : (step cfg l (.submit put batch)).state =
        l.state.withSeq (Sequencer.submitBatchTxs put ⟨cfg.genesis.chainID, batch⟩ l.state.seq).2 :=
      Live.call_up hup
    rw [hcall] at hone
    exact (h.1 hup).1.submit (h.1 hup).2 hone
  | produce env =>
    exact Live.call_holds h.2 fun hup =>
      (h.1 hup).1.produceBlock (h.1 hup).2 hok.1 (hok.2 hup)
  | genesisInclusion write height =>
    refine Live.call_holds h.2 fun hup => wp_of_state ?_ fun _ hn => hn.1.onDisk
    obtain ⟨g, d, hs⟩ := genesisInclusion_state write height l.state
    obtain ⟨⟨hsynced, hstore, hqueue, hlegacy, hforced, hgone, hreused, hitem, hflag, hfresh⟩,
      hack⟩ := h.1 hup
    rw [hs]
    exact ⟨⟨⟨⟨hsynced.wf.statesKeyed, hsynced.wf.fresh, hsynced.wf.bounded⟩, hsynced.lastHeight,
      hsynced.stored, hsynced.next⟩, ⟨⟨hstore.wf.statesKeyed, hstore.wf.fresh, hstore.wf.bounded⟩,
      hstore.unique, hstore.below, hstore.pending, hstore.fresh⟩, hqueue, hlegacy, hforced, hgone,
      hreused, hitem, hflag, hfresh⟩, hack⟩

/-- The disk of the node has no trace of `t`. -/
structure Untouched (t : Tx) (n : Node Tx) : Prop where
  wal : ¬ n.seq.queue.db.Has t
  legacy : ∀ x ∈ n.seq.queue.db.legacy, t ∉ x.2
  blocks : ∀ h, ¬ n.exec.store.HasAt t h
  pending : ∀ data, n.exec.store.pendingData = some data → t ∉ data.txs

end Node

/--
**Mempool transactions are committed at most once.**

In a run in which `AddBatch` accepts `t` at most once, and in which a pending block that is used
again has `t` only when `t` does not wait in the queue, at most one block has `t`.
-/
theorem committed_at_most_once [Transaction Tx] [DecidableEq Tx] (cfg : NodeConfig Tx) (t : Tx)
    (n0 : Node Tx) (hwf : n0.exec.store.WF cfg.genesis) (hnew : n0.Untouched t)
    (ops : List (Node.Op Tx))
    (hmeets : Run.Meets (Node.step cfg)
      (fun l op => Node.AcceptedOnce cfg t l op ∧ Node.ReusesOk t l op) ⟨false, n0⟩ ops) :
    ∀ h h', (Run.exec (Node.step cfg) ⟨false, n0⟩ ops).state.exec.store.HasAt t h →
      (Run.exec (Node.step cfg) ⟨false, n0⟩ ops).state.exec.store.HasAt t h' → h = h' := by
  have hstart : n0.OnceOnDisk cfg.genesis t := by
    refine ⟨⟨hwf, fun k _ hk => absurd hk (hnew.blocks k), fun k hk => absurd hk (hnew.blocks k),
      fun _ => hnew.blocks, fun _ => ⟨hnew.blocks, hnew.pending⟩⟩, hnew.legacy,
      fun k hk => absurd hk (hnew.blocks k), fun _ => hnew.wal⟩
  have hinv := Run.invariant (fun l : Live (Node Tx) => l.Holds
    (fun n => n.Once cfg.genesis t ∧ n.Acked t) (Node.OnceOnDisk cfg.genesis t))
    (Node.once_step cfg t) ops ⟨false, n0⟩ ⟨fun hf => absurd hf (by simp), fun _ => hstart⟩ hmeets
  exact (hinv.of_both fun _ hn => hn.1.onDisk).store.unique

/-! ## A crash before the commit -/

namespace ExactlyOnceRun

def cfg : NodeConfig RawTx := .plain ⟨"chain", 0, 1, [1], 0, 1, Nat.one_pos, Nat.one_pos⟩ false

def tx : RawTx := ⟨1, 5⟩

def env : ProduceEnv RawTx := .plain (.ofBlocks 0 []) 2000000000

def run (ops : List (Node.Op RawTx)) : Live (Node RawTx) :=
  Run.exec (Node.step cfg) ⟨false, .plain cfg⟩ ops

/-- The process crashes when it commits the block of the transaction. -/
def uncommitted : List (Node.Op RawTx) :=
  [.start .plain, .submit .ok [tx], .produce { env with commit := .crash }, .start .plain,
    .produce env, .produce env]

/-- The process crashes when it acknowledges the batch. -/
def unacked : List (Node.Op RawTx) :=
  [.start .plain, .submit .ok [tx], .produce { env with ack := ⟨.ok, .crash⟩ }, .start .plain,
    .produce env]

end ExactlyOnceRun

open ExactlyOnceRun in
/-- The transaction is accepted once and committed in two blocks. -/
theorem reused_block_commits_twice :
    (run uncommitted).state.seq.queue.db.accepted = [tx] ∧
      (run uncommitted).state.exec.store.blocks.entries.map (fun b => (b.1, b.2.data.txs)) =
        [(1, [tx]), (2, [tx])] := by
  decide

open ExactlyOnceRun in
/-- After the crash in the ack, the reloaded transaction is dropped again. -/
theorem committed_at_most_once_unacked :
    (run unacked).state.exec.store.HasAt tx 1 ∧
      ∀ h, (run unacked).state.exec.store.HasAt tx h → h = 1 := by
  have hone : (run unacked).state.exec.store.HasAt tx 1 := by
    have hmap : ((run unacked).state.exec.store.blocks.get? 1).map (fun b => b.data.txs) =
        some [tx] := by decide
    obtain ⟨b, hb, htxs⟩ := Option.map_eq_some_iff.mp hmap
    exact ⟨b, hb, by rw [htxs]; exact List.mem_singleton_self _⟩
  have hda : env.batch.da.Without tx := by
    intro h ht
    have hnil : env.batch.da.txsAt h = [] := by
      by_cases hpos : 0 < h
      · simp [env, ProduceEnv.plain, BatchEnv.plain, DAAnswers.txsAt, DAAnswers.blockAt,
          DAAnswers.syncBlock, DAAnswers.ofBlocks, hpos]
      · simp [env, ProduceEnv.plain, BatchEnv.plain, DAAnswers.txsAt, DAAnswers.blockAt,
          DAAnswers.syncBlock, DAAnswers.ofBlocks, hpos]
    rw [hnil] at ht
    exact List.not_mem_nil ht
  refine ⟨hone, fun h hh => ?_⟩
  refine committed_at_most_once cfg tx (.plain cfg) ⟨?_, ?_, ?_⟩ ⟨?_, ?_, ?_, ?_⟩ unacked
    ⟨⟨?_, trivial⟩, ⟨?_, trivial⟩, ⟨hda, fun _ => ?_⟩, ⟨?_, trivial⟩, ⟨hda, fun _ => ?_⟩, trivial⟩
    h 1 hh hone
  · intro k state hget
    cases hget
  · exact fun _ => Nat.zero_le _
  · intro k b hget
    cases hget
  · rintro ⟨k, b, hget, _⟩
    cases hget
  · exact fun x hx => absurd hx List.not_mem_nil
  · rintro k ⟨b, hget, _⟩
    cases hget
  · intro data hget
    cases hget
  · exact fun _ hf => by cases hf
  · unfold Node.AcceptedOnce
    decide
  · -- nothing is pending before the first block
    intro header data hused
    exact absurd hused.1 (by decide)
  · exact fun _ hf => by cases hf
  · -- the stored pending block is the one that was committed
    intro header data hused
    have hheight : (run (unacked.take 4)).state.exec.store.pendingHeader.map
        (fun h => h.header.height) = some 1 := by decide
    have hnext : (run (unacked.take 4)).state.nextHeight = 2 := by decide
    have hheader := congrArg (Option.map fun h => h.header.height) hused.2.1
    have htwo : 1 = 2 :=
      (Option.some.inj (hheight.symm.trans hheader)).trans (hused.2.2.2.trans hnext)
    exact absurd htwo (by decide)

end EvNode
