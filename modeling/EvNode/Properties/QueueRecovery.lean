import EvNode.Properties.QueueRep

/-!
# Recovery of the queue after a crash

A queue in use: transactions are added, drained and postponed, blocks are committed and acked, any
datastore operation may fail, and the process may crash inside any of them. A restart loads the queue
and drops what the last block has.

A cleanup that fails leaves a stale copy of a transaction in the WAL, and a later restart brings it
back although it is in a block.
-/

namespace EvNode

open Crash Proc QueuedItem

variable {Tx : Type}

/-- A queue in use. All but `queue` are histories: what was passed to `SetPostponed`, the committed
blocks, what a completed `Ack` deleted without putting it back, and whether the last block still waits
for its `Ack`. -/
structure QueueLife (Tx : Type) where
  queue : BatchQueue Tx
  postponed : List Tx
  blocks : List (List Tx)
  released : List Tx
  unacked : Bool

namespace QueueLife

def accepted (w : QueueLife Tx) : List Tx := w.queue.db.accepted

def committed (w : QueueLife Tx) : List Tx := w.blocks.flatten

def lastBlock (w : QueueLife Tx) : List Tx := w.blocks.getLastD []

def queued (w : QueueLife Tx) : List Tx := allTxs w.queue.queue.toList

def withQueue (q : BatchQueue Tx) (w : QueueLife Tx) : QueueLife Tx := { w with queue := q }

def onQueue {α : Type} (p : Proc (BatchQueue Tx) Err α) : Proc (QueueLife Tx) Err α :=
  zoom QueueLife.queue withQueue p

inductive Op (Tx : Type) where
  | addBatch (put : Outcome) (batch : List Tx)
  | drain (delete : Outcome) (maxBytes : Nat)
  | setPostponed (txs : List Tx)
  | commit (block : List Tx)
  | ack (put commit : Outcome)
  | crash
  | restart (env : BatchQueue.LoadEnv) (write : Nat → Outcome)

variable [Transaction Tx]

/-- The transactions in flight that an `Ack` does not put back. -/
def releasing (q : BatchQueue Tx) : List Tx :=
  (allTxs q.inFlight).filter fun t => Transaction.hash t ∉ BatchQueue.hashes q.inFlightPostponed

def acknowledge (put commit : Outcome) : Proc (QueueLife Tx) Err Unit := do
  let w ← get
  onQueue (BatchQueue.ack put commit)
  modify fun w' => { w' with released := w'.released ++ releasing w.queue, unacked := false }

/-- `Load`, then `DropIncluded` with the last block. -/
def recover (env : BatchQueue.LoadEnv) (write : Nat → Outcome) : Proc (QueueLife Tx) Err Unit := do
  onQueue (BatchQueue.load env)
  let w ← get
  onQueue (BatchQueue.dropIncluded write w.lastBlock)
  modify fun w => { w with unacked := false }

def step (l : Live (QueueLife Tx)) : Op Tx → Live (QueueLife Tx)
  | .addBatch put batch => l.call (onQueue (BatchQueue.addBatch put batch))
  | .drain delete maxBytes => l.call (onQueue (BatchQueue.drain delete maxBytes))
  | .setPostponed txs => l.call (modify fun w =>
      { w with queue := w.queue.setPostponed txs, postponed := w.postponed ++ txs } :
        Proc (QueueLife Tx) Err Unit)
  | .commit block => l.call (modify fun w =>
      { w with blocks := w.blocks ++ [block], unacked := true } : Proc (QueueLife Tx) Err Unit)
  | .ack put commit => l.call (acknowledge put commit)
  | .crash => l.halt
  | .restart env write => l.halt.boot (recover env write)

/-- A process on an empty datastore. -/
def start (maxQueueSize : Int) : Live (QueueLife Tx) :=
  ⟨true, ⟨newBatchQueue ⟨.empty, [], []⟩ maxQueueSize, [], [], [], false⟩⟩

/-- How the queue is used: after a commit comes its `Ack`, retried until it succeeds. Some of the
drained transactions may be postponed, and some of the others make the block. -/
def Disciplined (l : Live (QueueLife Tx)) : Op Tx → Prop
  | .drain _ _ => l.up = true → l.state.unacked = false
  | .setPostponed txs => l.up = true → l.state.unacked = false ∧
      txs.Sublist (allTxs l.state.queue.inFlight)
  | .commit block => l.up = true → l.state.unacked = false ∧
      block.Sublist (allTxs l.state.queue.inFlight) ∧
      ∀ t ∈ block, Transaction.hash t ∉ BatchQueue.hashes l.state.queue.inFlightPostponed
  | _ => True

instance [DecidableEq Tx] (l : Live (QueueLife Tx)) (op : Op Tx) : Decidable (Disciplined l op) := by
  cases op <;> dsimp only [Disciplined] <;> infer_instance

/-- No best-effort cleanup fails: neither those of `Load` nor the delete in the rollback of a persisted
postponed entry. -/
def CleanedUp (l : Live (QueueLife Tx)) : Op Tx → Prop
  | .drain delete _ => delete = .fail → l.state.queue.postponedItem = none
  | .restart env _ => ∀ k, env.cleanup k ≠ .fail
  | _ => True

/-! ## The invariant -/

open BatchQueue (hashes mem_hashes hashes_append Rep LoadedRep)

/-- The books over the transactions `held`: what is neither committed nor released is held, only
accepted transactions are held or committed, and postponed ones come first. -/
structure Accounts (accepted committed released postponed held : List Tx) : Prop where
  kept : ∀ t ∈ accepted, Transaction.hash t ∉ hashes committed →
    Transaction.hash t ∉ hashes released → Transaction.hash t ∈ hashes held
  known : hashes held ⊆ hashes accepted
  committedKnown : hashes committed ⊆ hashes accepted
  order : ∃ first rest, held = first ++ rest ∧ (∀ t ∈ first, t ∈ postponed) ∧ rest.Sublist accepted

theorem hashes_mono {a b : List Tx} (h : a ⊆ b) : hashes a ⊆ hashes b := by
  intro k hk
  obtain ⟨t, ht, rfl⟩ := mem_hashes.mp hk
  exact mem_hashes.mpr ⟨t, h ht, rfl⟩

theorem Accounts.shrink {accepted committed released postponed held held' : List Tx}
    (h : Accounts accepted committed released postponed held) (hsub : held'.Sublist held)
    (hkept : ∀ t ∈ held, Transaction.hash t ∉ hashes committed →
      Transaction.hash t ∈ hashes held') :
    Accounts accepted committed released postponed held' where
  kept t ht hc hr := by
    obtain ⟨t', ht', heq⟩ := mem_hashes.mp (h.kept t ht hc hr)
    rw [← heq]
    exact hkept t' ht' (heq ▸ hc)
  known := Finset.Subset.trans (hashes_mono hsub.subset) h.known
  committedKnown := h.committedKnown
  order := by
    obtain ⟨first, rest, rfl, hfirst, hrest⟩ := h.order
    obtain ⟨first', rest', rfl, hf, hr⟩ := List.sublist_append_iff.mp hsub
    exact ⟨first', rest', rfl, fun t ht => hfirst t (hf.subset ht), hr.trans hrest⟩

structure Running (n : Nat) (w : QueueLife Tx) : Prop where
  rep : Rep n [] w.queue
  accounts : Accounts w.accepted w.committed w.released w.postponed (allTxs w.queue.items)
  postponed : ∀ t ∈ w.queue.inFlightPostponed, t ∈ w.postponed
  once : ∀ k ∈ hashes w.committed, (w.accepted.map Transaction.hash).count k = 1 →
    k ∈ hashes (allTxs w.queue.items) → w.unacked = true ∧ k ∈ hashes w.lastBlock ∧
      k ∈ hashes (allTxs w.queue.inFlight) ∧ k ∉ hashes w.queue.inFlightPostponed

structure OnDisk (n : Nat) (w : QueueLife Tx) : Prop where
  loadable : w.queue.db.Loadable n
  accounts : Accounts w.accepted w.committed w.released w.postponed w.queue.db.txs
  once : ∀ k ∈ hashes w.committed, (w.accepted.map Transaction.hash).count k = 1 →
    k ∈ hashes w.queue.db.txs → k ∈ hashes w.lastBlock

variable {n : Nat} {w : QueueLife Tx}

omit [Transaction Tx] in
theorem lastBlock_subset (w : QueueLife Tx) : w.lastBlock ⊆ w.committed := by
  intro t ht
  unfold lastBlock at ht
  unfold committed
  rw [List.getLastD_eq_getLast?] at ht
  cases hl : w.blocks.getLast? with
  | none =>
    rw [hl] at ht
    exact absurd ht List.not_mem_nil
  | some b =>
    rw [hl] at ht
    exact List.mem_flatten.mpr ⟨b, List.mem_of_getLast? hl, ht⟩

theorem Running.mono {m : Nat} (h : w.Running n) (hle : n ≤ m) : w.Running m :=
  ⟨h.rep.mono hle, h.accounts, h.postponed, h.once⟩

theorem OnDisk.mono {m : Nat} (h : w.OnDisk n) (hle : n ≤ m) : w.OnDisk m := by
  refine ⟨⟨h.loadable.legacy, fun e he => ?_⟩, h.accounts, h.once⟩
  have := h.loadable.inRange e he
  omega

/-- The WAL lists the persisted postponed transactions before the others. -/
theorem Running.txs_eq (h : w.Running n) :
    w.queue.db.txs = allTxs w.queue.postponedItem.toList ++ allTxs w.queue.items := by
  unfold Wal.txs
  rw [h.rep.wal, List.append_nil, flatMap_entry, allTxs_append]

theorem Running.persisted_subset (h : w.Running n) :
    allTxs w.queue.postponedItem.toList ⊆ w.queue.inFlightPostponed := by
  cases hp : w.queue.postponedItem with
  | none => exact List.nil_subset _
  | some i =>
    rw [Option.toList_some, allTxs_singleton, (h.rep.item i hp).1]
    exact List.Subset.refl _

theorem Running.postponed_subset (h : w.Running n) :
    w.queue.inFlightPostponed ⊆ allTxs w.queue.items := by
  intro t ht
  unfold BatchQueue.items
  rw [allTxs_append]
  exact List.mem_append_left _ (h.rep.postponed.subset ht)

/-- A crash leaves the books in order on disk. -/
theorem Running.onDisk (h : w.Running n) : w.OnDisk n := by
  have htxs := h.txs_eq
  have hpersisted := h.persisted_subset
  have hitems := h.postponed_subset
  have hsub : hashes (allTxs w.queue.postponedItem.toList) ⊆ hashes (allTxs w.queue.items) :=
    hashes_mono (List.Subset.trans hpersisted hitems)
  have hsame : hashes w.queue.db.txs = hashes (allTxs w.queue.items) := by
    rw [htxs, hashes_append]
    exact Finset.union_eq_right.mpr hsub
  refine ⟨⟨h.rep.legacy, h.rep.inRange nofun⟩, ⟨?_, ?_, h.accounts.committedKnown, ?_⟩, ?_⟩
  · rw [hsame]
    exact h.accounts.kept
  · rw [hsame]
    exact h.accounts.known
  · obtain ⟨first, rest, heq, hfirst, hrest⟩ := h.accounts.order
    refine ⟨allTxs w.queue.postponedItem.toList ++ first, rest, ?_, fun t ht => ?_, hrest⟩
    · rw [htxs, heq, List.append_assoc]
    · rcases List.mem_append.mp ht with ht | ht
      · exact h.postponed t (hpersisted ht)
      · exact hfirst t ht
  · rw [hsame]
    exact fun k hk hcount hheld => (h.once k hk hcount hheld).2.1

/-! ## Steps -/

theorem running_withQueue {q : BatchQueue Tx} (hrep : Rep n [] q)
    (haccounts : Accounts q.db.accepted w.committed w.released w.postponed (allTxs q.items))
    (hpostponed : ∀ t ∈ q.inFlightPostponed, t ∈ w.postponed)
    (honce : ∀ k ∈ hashes w.committed, (q.db.accepted.map Transaction.hash).count k = 1 →
      k ∈ hashes (allTxs q.items) → w.unacked = true ∧ k ∈ hashes w.lastBlock ∧
        k ∈ hashes (allTxs q.inFlight) ∧ k ∉ hashes q.inFlightPostponed) :
    (w.withQueue q).Running n :=
  ⟨hrep, haccounts, hpostponed, honce⟩

/-- Only the waiting entries and the accepted transactions grow. -/
theorem Running.added (h : w.Running n) (hn : n + 1 < 2 ^ 63) {batch : List Tx}
    (hne : (BatchQueue.dedup w.queue.txSeen batch).1 ≠ []) :
    (w.withQueue (w.queue.added (BatchQueue.dedup w.queue.txSeen batch).1
      (BatchQueue.dedup w.queue.txSeen batch).2)).Running (n + 1) := by
  have hitems : allTxs (w.queue.added (BatchQueue.dedup w.queue.txSeen batch).1
      (BatchQueue.dedup w.queue.txSeen batch).2).items =
        allTxs w.queue.items ++ (BatchQueue.dedup w.queue.txSeen batch).1 := by
    simp [BatchQueue.items, BatchQueue.added]
  refine running_withQueue (h.rep.added hn hne) ⟨?_, ?_, ?_, ?_⟩ h.postponed ?_
  · intro t ht hc hr
    rw [hitems, hashes_append, Finset.mem_union]
    rcases List.mem_append.mp (ht : t ∈ w.accepted ++ _) with ht | ht
    · exact .inl (h.accounts.kept t ht hc hr)
    · exact .inr (mem_hashes.mpr ⟨t, ht, rfl⟩)
  · rw [hitems, hashes_append]
    show _ ⊆ hashes (w.accepted ++ _)
    rw [hashes_append]
    exact Finset.union_subset_union_left h.accounts.known
  · show _ ⊆ hashes (w.accepted ++ _)
    rw [hashes_append]
    exact Finset.Subset.trans h.accounts.committedKnown Finset.subset_union_left
  · obtain ⟨first, rest, heq, hfirst, hrest⟩ := h.accounts.order
    refine ⟨first, rest ++ (BatchQueue.dedup w.queue.txSeen batch).1, ?_, hfirst, ?_⟩
    · rw [hitems, heq, List.append_assoc]
    · exact hrest.append (List.Sublist.refl _)
  · intro k hk hcount hheld
    have hpos : 0 < (w.accepted.map Transaction.hash).count k :=
      List.count_pos_iff.mpr (List.mem_toFinset.mp (h.accounts.committedKnown hk))
    have hsum : (w.accepted.map Transaction.hash).count k +
        ((BatchQueue.dedup w.queue.txSeen batch).1.map Transaction.hash).count k = 1 := by
      rw [← List.count_append, ← List.map_append]
      exact hcount
    rw [hitems, hashes_append, Finset.mem_union] at hheld
    rcases hheld with hheld | hheld
    · exact h.once k hk (by omega) hheld
    · -- The transaction would be accepted a second time.
      have hnew := List.count_pos_iff.mpr (List.mem_toFinset.mp hheld)
      omega

theorem wp_addBatch (put : Outcome) (batch : List Tx) (h : w.Running n) (hn : n + 1 < 2 ^ 63) :
    wp (onQueue (BatchQueue.addBatch put batch)) (fun _ => Running (n + 1))
      (fun _ => Running (n + 1)) (OnDisk (n + 1)) w := by
  have hsame : w.Running (n + 1) := h.mono (Nat.le_succ n)
  have hcase := BatchQueue.addBatch_cases put batch w.queue
  unfold onQueue
  rw [wp_zoom]
  unfold wp
  generalize BatchQueue.addBatch put batch w.queue = r at hcase
  cases hcase with
  | nothing | refused e => exact hsame
  | crash _ seen =>
    have hdisk := hsame.onDisk
    exact ⟨hdisk.loadable, hdisk.accounts, hdisk.once⟩
  | stored hne => exact h.added hn hne

/-- Between a completed ack and the next commit, nothing that is committed once is held. -/
theorem Running.once_acked (h : w.Running n) (hunacked : w.unacked = false) {k : Nat}
    (hk : k ∈ hashes w.committed) (hcount : (w.accepted.map Transaction.hash).count k = 1) :
    k ∉ hashes (allTxs w.queue.items) := by
  intro hheld
  have hun := (h.once k hk hcount hheld).1
  rw [hunacked] at hun
  cases hun

theorem Running.drained (h : w.Running n) (hunacked : w.unacked = false) {delete : Outcome}
    (hdelete : delete = .ok ∨ w.queue.postponedItem = none) (maxBytes : Nat) :
    (w.withQueue (w.queue.drained delete maxBytes)).Running n := by
  obtain ⟨hrep, hitems, hnone⟩ := h.rep.drained hdelete maxBytes
  have hacc : (w.queue.drained delete maxBytes).db.accepted = w.accepted := by
    show (w.queue.rolledBack delete).db.accepted = _
    unfold BatchQueue.rolledBack
    split
    · rfl
    · dsimp only
      split <;> rfl
  refine running_withQueue hrep ?_ ?_ ?_
  · rw [hacc, hitems]
    exact h.accounts
  · rw [hnone]
    exact nofun
  · rw [hacc, hitems]
    exact fun k hk hcount hheld => absurd hheld (h.once_acked hunacked hk hcount)

theorem wp_drain {delete : Outcome} {maxBytes : Nat} (h : w.Running n)
    (hunacked : w.unacked = false) (hdelete : delete = .fail → w.queue.postponedItem = none) :
    wp (onQueue (BatchQueue.drain delete maxBytes)) (fun _ => Running n) (fun _ => Running n)
      (OnDisk n) w := by
  unfold onQueue
  rw [wp_zoom]
  unfold wp
  by_cases hclean : delete = .ok ∨ w.queue.postponedItem = none
  · rcases BatchQueue.drain_cases delete maxBytes w.queue with heq | heq
    · rw [heq]
      exact h.onDisk
    · rw [heq]
      exact h.drained hunacked hclean maxBytes
  · -- The delete of a persisted postponed entry does not fail, so it crashes.
    obtain ⟨hok, hsome⟩ := not_or.mp hclean
    obtain ⟨i, hi⟩ := Option.ne_none_iff_exists'.mp hsome
    have hcrash : delete = .crash := by
      cases delete with
      | ok => exact absurd rfl hok
      | fail => exact absurd (hdelete rfl) hsome
      | crash => rfl
    rw [hcrash, BatchQueue.drain_crash h.rep hi]
    exact h.onDisk

omit [Transaction Tx] in
theorem setPostponed_eq (q : BatchQueue Tx) (txs : List Tx) :
    (q.setPostponed txs).items = q.items ∧ (q.setPostponed txs).db = q.db ∧
      (q.setPostponed txs).inFlightPostponed ⊆ q.inFlightPostponed ++ txs := by
  unfold BatchQueue.setPostponed
  split
  · exact ⟨rfl, rfl, List.subset_append_left _ _⟩
  · exact ⟨rfl, rfl, List.subset_append_right _ _⟩

/-- The process after `SetPostponed`. -/
def postponing (txs : List Tx) (w : QueueLife Tx) : QueueLife Tx :=
  { w with queue := w.queue.setPostponed txs, postponed := w.postponed ++ txs }

theorem Running.postponing (h : w.Running n) (hunacked : w.unacked = false) {txs : List Tx}
    (htxs : txs.Sublist (allTxs w.queue.inFlight)) : (w.postponing txs).Running n := by
  obtain ⟨hitems, hdb, hpost⟩ := setPostponed_eq w.queue txs
  have hacc : (w.postponing txs).accepted = w.accepted := by
    show (w.queue.setPostponed txs).db.accepted = _
    rw [hdb]
    rfl
  have hitems' : (w.postponing txs).queue.items = w.queue.items := hitems
  refine ⟨h.rep.setPostponed htxs, ?_, fun t ht => ?_, ?_⟩
  · rw [hacc, hitems']
    obtain ⟨first, rest, heq, hfirst, hrest⟩ := h.accounts.order
    exact { h.accounts with
      order := ⟨first, rest, heq, fun t ht => List.mem_append_left _ (hfirst t ht), hrest⟩ }
  · rcases List.mem_append.mp (hpost ht) with ht | ht
    · exact List.mem_append_left _ (h.postponed t ht)
    · exact List.mem_append_right _ ht
  · rw [hacc, hitems']
    exact fun k hk hcount hheld => absurd hheld (h.once_acked hunacked hk hcount)

theorem Running.commit (h : w.Running n) {block : List Tx} (hunacked : w.unacked = false)
    (hblock : block.Sublist (allTxs w.queue.inFlight))
    (hnot : ∀ t ∈ block, Transaction.hash t ∉ hashes w.queue.inFlightPostponed) :
    ({ w with blocks := w.blocks ++ [block], unacked := true } : QueueLife Tx).Running n := by
  have hcommitted : ({ w with blocks := w.blocks ++ [block], unacked := true } :
      QueueLife Tx).committed = w.committed ++ block := by
    simp [committed]
  have hinFlight : hashes block ⊆ hashes (allTxs w.queue.inFlight) := hashes_mono hblock.subset
  have hitems : hashes (allTxs w.queue.inFlight) ⊆ hashes (allTxs w.queue.items) := by
    unfold BatchQueue.items
    rw [allTxs_append]
    exact hashes_mono (List.subset_append_left _ _)
  refine ⟨h.rep, ⟨fun t ht hc hr => ?_, h.accounts.known, ?_, h.accounts.order⟩, h.postponed, ?_⟩
  · rw [hcommitted, hashes_append, Finset.notMem_union] at hc
    exact h.accounts.kept t ht hc.1 hr
  · rw [hcommitted, hashes_append]
    exact Finset.union_subset h.accounts.committedKnown
      (Finset.Subset.trans (Finset.Subset.trans hinFlight hitems) h.accounts.known)
  · intro k hk hcount hheld
    rw [hcommitted, hashes_append, Finset.mem_union] at hk
    rcases hk with hk | hk
    · exact absurd hheld (h.once_acked hunacked hk hcount)
    · refine ⟨rfl, by simpa [lastBlock] using hk, hinFlight hk, fun hpost => ?_⟩
      obtain ⟨t, ht, rfl⟩ := mem_hashes.mp hk
      exact hnot t ht hpost

omit [Transaction Tx] in
theorem order_right {accepted postponed left right first rest : List Tx}
    (heq : left ++ right = first ++ rest) (hfirst : ∀ t ∈ first, t ∈ postponed)
    (hrest : rest.Sublist accepted) :
    ∃ first' rest', right = first' ++ rest' ∧ (∀ t ∈ first', t ∈ postponed) ∧
      rest'.Sublist accepted := by
  rcases List.append_eq_append_iff.mp heq with ⟨a, rfl, rfl⟩ | ⟨a, rfl, rfl⟩
  · exact ⟨a, rest, rfl, fun t ht => hfirst t (List.mem_append_right _ ht), hrest⟩
  · exact ⟨[], right, rfl, nofun, (List.sublist_append_right _ _).trans hrest⟩

theorem Running.postponedPersisted (h : w.Running n) (hn : n + 1 < 2 ^ 63) :
    (w.withQueue w.queue.postponedPersisted).Running (n + 1) := by
  have hitems : w.queue.postponedPersisted.items = w.queue.items := by
    unfold BatchQueue.items
    rw [BatchQueue.inFlight_postponedPersisted, BatchQueue.queue_postponedPersisted]
  have hacc : w.queue.postponedPersisted.db.accepted = w.accepted := by
    unfold BatchQueue.postponedPersisted
    split <;> rfl
  refine running_withQueue (h.rep.postponedPersisted hn) ?_ ?_ ?_
  · rw [hacc, hitems]
    exact h.accounts
  · rw [BatchQueue.inFlightPostponed_postponedPersisted]
    exact h.postponed
  · rw [hacc, hitems, BatchQueue.inFlight_postponedPersisted,
      BatchQueue.inFlightPostponed_postponedPersisted]
    exact h.once

def acked (w : QueueLife Tx) : QueueLife Tx :=
  { w with
    queue := w.queue.acked
    released := w.released ++ releasing w.queue
    unacked := false }

theorem Running.acked (h : w.Running n) (hn : n + 1 < 2 ^ 63) : w.acked.Running (n + 1) := by
  have hall : allTxs w.queue.acked.items =
      w.queue.inFlightPostponed ++ allTxs w.queue.queue.toList := by
    rw [BatchQueue.items_acked, allTxs_append, h.rep.postponedItem_txs]
  have hsplit : allTxs w.queue.items =
      allTxs w.queue.inFlight ++ allTxs w.queue.queue.toList := by
    simp [BatchQueue.items]
  have hacc : w.acked.accepted = w.accepted := by
    show w.queue.acked.db.accepted = w.queue.db.accepted
    unfold BatchQueue.acked BatchQueue.finishAck BatchQueue.inFlightDeleted
      BatchQueue.postponedPersisted
    split <;> rfl
  have hpostponed : hashes w.queue.inFlightPostponed ⊆ hashes (allTxs w.queue.inFlight) :=
    hashes_mono h.rep.postponed.subset
  have hsub : hashes (allTxs w.queue.acked.items) ⊆ hashes (allTxs w.queue.items) := by
    rw [hall, hsplit, hashes_append, hashes_append]
    exact Finset.union_subset_union_left hpostponed
  have hunique := h.rep.unique
  rw [hsplit, List.map_append, List.nodup_append] at hunique
  refine ⟨h.rep.acked hn, ⟨fun t ht hc hr => ?_, ?_, ?_, ?_⟩, fun _ h => absurd h List.not_mem_nil,
    fun k hk hcount hheld => ?_⟩
  · rw [hacc] at ht
    have hr' : Transaction.hash t ∉ hashes (w.released ++ releasing w.queue) := hr
    rw [hashes_append, Finset.notMem_union] at hr'
    have hheld := h.accounts.kept t ht hc hr'.1
    show _ ∈ hashes (allTxs w.queue.acked.items)
    rw [hsplit, hashes_append, Finset.mem_union] at hheld
    rw [hall, hashes_append, Finset.mem_union]
    refine hheld.imp_left fun hin => ?_
    -- In flight and not released, so it was postponed.
    by_contra hnot
    obtain ⟨t', ht', heq⟩ := mem_hashes.mp hin
    refine hr'.2 (mem_hashes.mpr ⟨t', List.mem_filter.mpr ⟨ht', ?_⟩, heq⟩)
    simpa [heq] using hnot
  · rw [hacc]
    exact Finset.Subset.trans hsub h.accounts.known
  · rw [hacc]
    exact h.accounts.committedKnown
  · obtain ⟨first, rest, heq, hfirst, hrest⟩ := h.accounts.order
    obtain ⟨first', rest', heq', hfirst', hrest'⟩ :=
      order_right (hsplit.symm.trans heq) hfirst hrest
    refine ⟨w.queue.inFlightPostponed ++ first', rest', ?_, fun t ht => ?_, hacc ▸ hrest'⟩
    · show allTxs w.queue.acked.items = _
      rw [hall, heq', List.append_assoc]
    · rcases List.mem_append.mp ht with ht | ht
      · exact h.postponed t ht
      · exact hfirst' t ht
  · rw [hacc] at hcount
    obtain ⟨_, _, hin, hnot⟩ := h.once k hk hcount (hsub hheld)
    have hheld' : k ∈ hashes (allTxs w.queue.acked.items) := hheld
    rw [hall, hashes_append, Finset.mem_union] at hheld'
    rcases hheld' with hpost | hwait
    · exact absurd hpost hnot
    · exact absurd rfl (hunique.2.2 k (List.mem_toFinset.mp hin) k (List.mem_toFinset.mp hwait))

theorem wp_acknowledge (put commit : Outcome) (h : w.Running n) (hn : n + 1 < 2 ^ 63) :
    wp (acknowledge put commit) (fun _ => Running (n + 1)) (fun _ => Running (n + 1))
      (OnDisk (n + 1)) w := by
  have hsame : w.Running (n + 1) := h.mono (Nat.le_succ n)
  have hcase := BatchQueue.ack_cases put commit w.queue
  unfold acknowledge onQueue
  rw [wp_bind, wp_get, wp_bind, wp_zoom]
  unfold wp
  generalize BatchQueue.ack put commit w.queue = r at hcase ⊢
  cases hcase with
  | putFailed e => exact hsame
  | putCrash => exact hsame.onDisk
  | deleteFailed e _ => exact h.postponedPersisted hn
  | deleteCrash _ => exact (h.postponedPersisted hn).onDisk
  | acked => exact h.acked hn

/-! ## Restarts -/

/-- A cleanup that was interrupted leaves the books in order. -/
theorem OnDisk.trimmed (h : w.OnDisk n) {dropped : Finset Nat} {q : BatchQueue Tx}
    (hdropped : dropped ⊆ hashes w.committed) (htrimmed : w.queue.db.Trimmed dropped q.db)
    (hloadable : q.db.Loadable n) : (w.withQueue q).OnDisk n := by
  have hacc : (w.withQueue q).accepted = w.accepted := htrimmed.accepted
  refine ⟨hloadable, ?_, fun k hk hcount hheld => ?_⟩
  · rw [hacc]
    refine h.accounts.shrink htrimmed.sublist fun t ht hc => ?_
    obtain ⟨t', ht', heq⟩ := htrimmed.kept t ht fun hd => hc (hdropped hd)
    exact mem_hashes.mpr ⟨t', ht', heq⟩
  · rw [hacc] at hcount
    exact h.once k hk hcount (hashes_mono htrimmed.sublist.subset hheld)

theorem OnDisk.loaded (h : w.OnDisk n) {q : BatchQueue Tx} (hq : LoadedRep n w.queue.db q) :
    (w.withQueue q).OnDisk n ∧ q.db.txs = allTxs q.queue.toList := by
  have htxs : q.db.txs = allTxs q.queue.toList := by
    unfold Wal.txs
    rw [hq.rep.wal, (hq.rep.idle hq.idle).2, List.append_nil, flatMap_entry]
    simp [BatchQueue.items, hq.idle]
  refine ⟨h.trimmed (Finset.empty_subset _) ⟨?_, fun t ht _ => ?_, hq.accepted⟩
    ⟨hq.rep.legacy, hq.rep.inRange fun _ h => absurd h List.not_mem_nil⟩, htxs⟩
  · rw [htxs, hq.txs]
    exact BatchQueue.dedup_sublist _ _
  · rw [htxs, hq.txs]
    have hseen := BatchQueue.hash_mem_dedup _ ∅ ht
    rw [BatchQueue.dedup_snd, Finset.empty_union] at hseen
    exact mem_hashes.mp hseen

/-- What a restart establishes. -/
structure Recovered (n : Nat) (w : QueueLife Tx) : Prop where
  running : w.Running n
  idle : w.queue.inFlight = []
  acked : w.unacked = false

/-- The process after `DropIncluded` with the last block. -/
theorem OnDisk.recovered (h : w.OnDisk n) (htxs : w.queue.db.txs = allTxs w.queue.queue.toList)
    {q : BatchQueue Tx} (hrep : Rep n [] q) (hidle : q.inFlight = [])
    (hq : allTxs q.queue.toList = (allTxs w.queue.queue.toList).filter
      (fun tx => Transaction.hash tx ∉ hashes w.lastBlock))
    (haccepted : q.db.accepted = w.queue.db.accepted) :
    ({ w.withQueue q with unacked := false } : QueueLife Tx).Recovered n := by
  have hitems : allTxs q.items = w.queue.db.txs.filter
      (fun tx => Transaction.hash tx ∉ hashes w.lastBlock) := by
    rw [htxs, ← hq]
    simp [BatchQueue.items, hidle]
  have hacc : ({ w.withQueue q with unacked := false } : QueueLife Tx).accepted = w.accepted :=
    haccepted
  refine ⟨⟨hrep, ?_, ?_, fun k hk hcount hheld => ?_⟩, hidle, rfl⟩
  · rw [hacc]
    show Accounts w.accepted w.committed w.released w.postponed (allTxs q.items)
    rw [hitems]
    refine h.accounts.shrink List.filter_sublist fun t ht hc => ?_
    have hlast : Transaction.hash t ∉ hashes w.lastBlock := fun hl =>
      hc (hashes_mono w.lastBlock_subset hl)
    exact mem_hashes.mpr ⟨t, List.mem_filter.mpr ⟨ht, by simpa using hlast⟩, rfl⟩
  · show ∀ t ∈ q.inFlightPostponed, t ∈ w.postponed
    rw [(hrep.idle hidle).1]
    exact fun _ h => absurd h List.not_mem_nil
  · rw [hacc] at hcount
    have hheld' : k ∈ hashes (allTxs q.items) := hheld
    rw [hitems] at hheld'
    obtain ⟨t, ht, rfl⟩ := mem_hashes.mp hheld'
    obtain ⟨hin, hnot⟩ := List.mem_filter.mp ht
    -- It is committed and accepted once, so it could only be in the last block.
    have hlast := h.once _ hk hcount (mem_hashes.mpr ⟨t, hin, rfl⟩)
    simp [hlast] at hnot

theorem wp_recover {env : BatchQueue.LoadEnv} {write : Nat → Outcome} (h : w.OnDisk n)
    (hn : n < 2 ^ 63) (hcleanup : ∀ k, env.cleanup k ≠ .fail) :
    wp (recover env write) (fun _ => Recovered n) (fun _ => OnDisk n) (OnDisk n) w := by
  unfold recover onQueue
  rw [wp_bind, wp_zoom]
  refine wp_mono (BatchQueue.wp_load_rep env hcleanup (F := True) (fun _ => trivial)
    (fun _ _ => trivial) hn h.loadable) ?_
    (fun _ _ hq => h.trimmed (Finset.empty_subset _) hq.2.1 hq.2.2)
    (fun _ hq => h.trimmed (Finset.empty_subset _) hq.2.1 hq.2.2)
  intro _ q hq
  obtain ⟨hdisk, htxs⟩ := h.loaded hq
  have hlast : hashes (w.withQueue q).lastBlock ⊆ hashes (w.withQueue q).committed :=
    hashes_mono (lastBlock_subset _)
  rw [wp_bind, wp_get, wp_bind, wp_zoom]
  refine wp_mono (BatchQueue.wp_dropIncluded_rep write (F := True) (fun _ _ => trivial)
    (w.withQueue q).lastBlock hq.rep hq.idle) ?_
    (fun _ _ hq' => hdisk.trimmed hlast hq'.2.1 hq'.2.2)
    (fun _ hq' => hdisk.trimmed hlast hq'.2.1 hq'.2.2)
  rintro _ q' ⟨hrep, hidle, hfilter, haccepted⟩
  exact hdisk.recovered htxs hrep hidle hfilter haccepted

/-! ## Runs -/

def Kept (n : Nat) (l : Live (QueueLife Tx)) : Prop := l.Holds (Running n) (OnDisk n)

theorem kept_start (maxQueueSize : Int) : Kept 0 (start maxQueueSize : Live (QueueLife Tx)) := by
  refine ⟨fun _ => ⟨BatchQueue.rep_newBatchQueue maxQueueSize, ⟨nofun, ?_, ?_, [], [], rfl, nofun,
    List.Sublist.refl _⟩, nofun, nofun⟩, fun hdown => by cases hdown⟩
  · exact Finset.Subset.refl _
  · exact Finset.Subset.refl _

theorem Kept.restart {l : Live (QueueLife Tx)} (h : Kept n l) (hn : n < 2 ^ 63)
    {env : BatchQueue.LoadEnv} (write : Nat → Outcome) (hcleanup : ∀ k, env.cleanup k ≠ .fail) :
    (step l (.restart env write)).Holds (Recovered n) (OnDisk n) := by
  have hdisk : OnDisk n l.state := h.of_both fun _ hr => hr.onDisk
  have hdown : l.halt.Holds (Recovered n) (OnDisk n) :=
    ⟨fun hup => absurd hup Bool.false_ne_true, fun _ => hdisk⟩
  exact hdown.boot fun hd => wp_recover hd hn hcleanup

theorem Kept.step {l : Live (QueueLife Tx)} {op : Op Tx} (h : Kept n l) (hn : n + 1 < 2 ^ 63)
    (hdisciplined : Disciplined l op) (hclean : CleanedUp l op) : Kept (n + 1) (step l op) := by
  have hmono : Kept (n + 1) l := ⟨fun hup => (h.1 hup).mono (Nat.le_succ n),
    fun hdown => (h.2 hdown).mono (Nat.le_succ n)⟩
  cases op with
  | addBatch put batch =>
    exact Live.call_holds hmono.2 fun hup => wp_addBatch put batch (h.1 hup) hn
  | drain delete maxBytes =>
    exact Live.call_holds hmono.2 fun hup =>
      wp_drain (hmono.1 hup) (hdisciplined hup) hclean
  | setPostponed txs =>
    refine Live.call_holds hmono.2 fun hup => ?_
    obtain ⟨hunacked, htxs⟩ := hdisciplined hup
    exact (hmono.1 hup).postponing hunacked htxs
  | commit block =>
    refine Live.call_holds hmono.2 fun hup => ?_
    obtain ⟨hunacked, hblock, hnot⟩ := hdisciplined hup
    exact (hmono.1 hup).commit hunacked hblock hnot
  | ack put commit =>
    exact Live.call_holds hmono.2 fun hup => wp_acknowledge put commit (h.1 hup) hn
  | crash => exact hmono.halt fun _ hr => hr.onDisk
  | restart env write =>
    obtain ⟨hup, hdown⟩ := hmono.restart hn write hclean
    exact ⟨fun h => (hup h).running, hdown⟩

theorem kept_run (maxQueueSize : Int) (ops : List (Op Tx)) (hlen : ops.length < 2 ^ 63)
    (hmeets : Run.Meets step (fun l op => Disciplined l op ∧ CleanedUp l op) (start maxQueueSize)
      ops) :
    Kept ops.length (Run.exec step (start maxQueueSize) ops) := by
  have hrun := Run.invariant_counted Kept (fun n l op hn h hop => h.step hn hop.1 hop.2) ops 0 _
    (by omega) (kept_start maxQueueSize) hmeets
  rwa [Nat.zero_add] at hrun

/--
**Recovery**, for fewer than 2^63 operations none of whose cleanups fails.

After a restart that succeeds: every accepted transaction that is in no committed block and was not
released by an `Ack` waits exactly once, no committed transaction that was accepted once waits, and
the waiting ones are in the order of acceptance after some that were postponed.
-/
theorem queue_recovered (maxQueueSize : Int) (ops : List (Op Tx)) (env : BatchQueue.LoadEnv)
    (write : Nat → Outcome) (hlen : ops.length < 2 ^ 63)
    (hmeets : Run.Meets step (fun l op => Disciplined l op ∧ CleanedUp l op) (start maxQueueSize)
      (ops ++ [.restart env write]))
    (hup : (Run.exec step (start maxQueueSize) (ops ++ [.restart env write])).up = true) :
    let w := (Run.exec step (start maxQueueSize) (ops ++ [.restart env write])).state;
    (∀ t ∈ w.accepted, Transaction.hash t ∉ hashes w.committed →
        Transaction.hash t ∉ hashes w.released →
        (w.queued.map Transaction.hash).count (Transaction.hash t) = 1) ∧
      (∀ t ∈ w.committed, (w.accepted.map Transaction.hash).count (Transaction.hash t) = 1 →
        Transaction.hash t ∉ hashes w.queued) ∧
      ∃ first rest, w.queued = first ++ rest ∧ (∀ t ∈ first, t ∈ w.postponed) ∧
        rest.Sublist w.accepted := by
  intro w
  obtain ⟨hbefore, hlast⟩ := (Run.meets_concat ops (.restart env write) _).mp hmeets
  have hkept := kept_run maxQueueSize ops hlen hbefore
  have h : Recovered ops.length w := by
    have hlive := hkept.restart hlen write hlast.2
    rw [← Run.exec_concat QueueLife.step] at hlive
    exact hlive.1 hup
  have hitems : allTxs w.queue.items = w.queued := by
    simp [BatchQueue.items, h.idle, queued]
  refine ⟨fun t ht hc hr => ?_, fun t ht hcount => ?_, ?_⟩
  · have hunique := h.running.rep.unique
    have hheld := h.running.accounts.kept t ht hc hr
    rw [hitems] at hunique hheld
    exact List.count_eq_one_of_mem hunique (List.mem_toFinset.mp hheld)
  · rw [← hitems]
    exact h.running.once_acked h.acked (mem_hashes.mpr ⟨t, ht, rfl⟩) hcount
  · have horder := h.running.accounts.order
    rwa [hitems] at horder

end QueueLife

namespace QueueRecoveryRun

open QueueLife

def tx (k : Nat) : RawTx := ⟨k, 1⟩

/-- The outcomes of a `Load` all of whose operations succeed. -/
def clean : BatchQueue.LoadEnv := ⟨.ok, fun _ => .ok, fun _ => .ok, fun _ => .ok⟩

/-- A crash inside `Ack`, after the postponed transaction 3 was written. -/
def interrupted : List (Op RawTx) :=
  [.addBatch .ok [tx 1], .addBatch .ok [tx 2, tx 3], .drain .ok 0, .setPostponed [tx 3],
    .commit [tx 1], .ack .ok .crash]

/-- The restart does not rewrite the entry that still has transaction 3, because that cleanup
fails. The other copy is committed and acked; then the process crashes before the next `Ack`. -/
def stale : List (Op RawTx) :=
  interrupted ++ [
    .restart { clean with cleanup := fun k => if k = initialSeqNum + 1 then .fail else .ok }
      fun _ => .ok,
    .drain .ok 1, .commit [tx 3], .ack .ok .ok, .drain .ok 1, .commit [tx 2], .crash]

end QueueRecoveryRun

open QueueLife QueueRecoveryRun in
theorem queue_recovered_interrupted :
    let w := (Run.exec step (start 0) (interrupted ++ [.restart clean fun _ => .ok])).state;
    w.queued = [tx 3, tx 2] ∧ w.committed = [tx 1] ∧ w.released = [] ∧
      (w.queued.map Transaction.hash).count (Transaction.hash (tx 3)) = 1 ∧
      Transaction.hash (tx 1) ∉ BatchQueue.hashes w.queued := by
  have hmeets : Run.Meets step (fun l op => Disciplined l op ∧ CleanedUp l op) (start 0)
      (interrupted ++ [.restart clean fun _ => .ok]) := by
    refine ⟨⟨trivial, trivial⟩, ⟨trivial, trivial⟩, ⟨by decide, nofun⟩, ⟨by decide, trivial⟩,
      ⟨by decide, trivial⟩, ⟨trivial, trivial⟩, ⟨trivial, ?_⟩, trivial⟩
    intro k hfail
    cases hfail
  have h := queue_recovered 0 interrupted clean (fun _ => .ok) (by decide) hmeets (by decide)
  exact ⟨by decide, by decide, by decide, h.1 (tx 3) (by decide) (by decide) (by decide),
    h.2.1 (tx 1) (by decide) (by decide)⟩

open QueueLife QueueRecoveryRun in
/-- Transaction 3 is accepted once and committed, and it waits again. -/
theorem queue_recovered_not_always :
    Run.Meets step Disciplined (start 0) (stale ++ [.restart clean fun _ => .ok]) ∧
      let w := (Run.exec step (start 0) (stale ++ [.restart clean fun _ => .ok])).state;
      w.accepted = [tx 1, tx 2, tx 3] ∧ w.blocks = [[tx 1], [tx 3], [tx 2]] ∧ w.queued = [tx 3] :=
  by decide

end EvNode
