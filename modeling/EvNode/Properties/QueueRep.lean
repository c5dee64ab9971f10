import EvNode.Lib.Run
import EvNode.Properties.QueueLoad

/-!
# The representation invariant of the queue

Entries in flight come before those that wait, their keys go up, no transaction hash is twice among
them, `txSeen` is the set of their hashes, and the WAL lists exactly these entries, after the
postponed one when it is persisted. `Rep` says this, and each operation keeps it.

The sequence numbers are `uint64` that start in the middle, so the invariant lasts for fewer than
2^63 operations.
-/

namespace EvNode

open Crash Proc

variable {Tx : Type}

/-- The WAL entry of a queue entry. -/
def QueuedItem.entry (i : QueuedItem Tx) : Nat × List Tx := (i.key, i.batch)

def QueuedItem.allTxs (items : List (QueuedItem Tx)) : List Tx := items.flatMap QueuedItem.batch

@[simp] theorem QueuedItem.allTxs_append (a b : List (QueuedItem Tx)) :
    allTxs (a ++ b) = allTxs a ++ allTxs b := List.flatMap_append

@[simp] theorem QueuedItem.allTxs_singleton (i : QueuedItem Tx) : allTxs [i] = i.batch := by
  simp [allTxs]

@[simp] theorem QueuedItem.allTxs_nil : allTxs ([] : List (QueuedItem Tx)) = [] := rfl

def Wal.txs (w : Wal Tx) : List Tx := w.entries.entries.flatMap Prod.snd

open QueuedItem

theorem QueuedItem.flatMap_entry (items : List (QueuedItem Tx)) :
    (items.map entry).flatMap Prod.snd = allTxs items := by
  induction items with
  | nil => rfl
  | cons i items ih =>
    rw [List.map_cons, List.flatMap_cons, ih]
    rfl

/-- The keys of some WAL entries are near the middle. -/
def Wal.InRange (n : Nat) (entries : List (Nat × List Tx)) : Prop :=
  ∀ e ∈ entries, initialSeqNum ≤ e.1 + n ∧ e.1 < initialSeqNum + n

/-- A WAL that can be loaded. -/
structure Wal.Loadable (n : Nat) (w : Wal Tx) : Prop where
  legacy : w.legacy = []
  inRange : Wal.InRange n w.entries.entries

/-- `w'` has the transactions of `w` in the same order, and misses only repeated ones and those with
a hash in `dropped`. -/
structure Wal.Trimmed [Transaction Tx] (dropped : Finset Nat) (w w' : Wal Tx) : Prop where
  sublist : w'.txs.Sublist w.txs
  kept : ∀ t ∈ w.txs, Transaction.hash t ∉ dropped →
    ∃ t' ∈ w'.txs, Transaction.hash t' = Transaction.hash t
  accepted : w'.accepted = w.accepted

theorem Wal.Trimmed.refl [Transaction Tx] (dropped : Finset Nat) (w : Wal Tx) : w.Trimmed dropped w :=
  ⟨List.Sublist.refl _, fun t ht _ => ⟨t, ht, rfl⟩, rfl⟩

theorem Wal.Trimmed.trans [Transaction Tx] {dropped : Finset Nat} {w w' w'' : Wal Tx}
    (h : w.Trimmed dropped w') (h' : w'.Trimmed dropped w'') : w.Trimmed dropped w'' := by
  refine ⟨h'.sublist.trans h.sublist, fun t ht hnot => ?_, h'.accepted.trans h.accepted⟩
  obtain ⟨t1, ht1, h1⟩ := h.kept t ht hnot
  obtain ⟨t2, ht2, h2⟩ := h'.kept t1 ht1 (h1 ▸ hnot)
  exact ⟨t2, ht2, h2.trans h1⟩

namespace BatchQueue

open Wal (InRange)

/-! ## Hashes -/

section Hashes

variable [Transaction Tx]

def hashes (txs : List Tx) : Finset Nat := (txs.map Transaction.hash).toFinset

theorem mem_hashes {txs : List Tx} {k : Nat} :
    k ∈ hashes txs ↔ ∃ t ∈ txs, Transaction.hash t = k := by
  simp [hashes]

@[simp] theorem hashes_nil : hashes ([] : List Tx) = ∅ := rfl

@[simp] theorem hashes_append (a b : List Tx) : hashes (a ++ b) = hashes a ∪ hashes b := by
  simp [hashes]

/-- The hashes after a dedup: those seen before, and those of what is kept. -/
theorem dedup_snd (l : List Tx) : ∀ seen, (dedup seen l).2 = seen ∪ hashes (dedup seen l).1 := by
  induction l with
  | nil => intro seen; simp [dedup]
  | cons tx rest ih =>
    intro seen
    unfold dedup
    split
    · exact ih seen
    · simp only [ih, hashes, List.map_cons, List.toFinset_cons, Finset.union_insert,
        Finset.insert_union]

theorem dedup_append (a b : List Tx) : ∀ seen, dedup seen (a ++ b) =
    ((dedup seen a).1 ++ (dedup (dedup seen a).2 b).1, (dedup (dedup seen a).2 b).2) := by
  induction a with
  | nil => intro seen; simp [dedup]
  | cons tx rest ih =>
    intro seen
    simp only [List.cons_append, dedup]
    split
    · exact ih seen
    · simp [ih]

theorem hash_mem_dedup (l : List Tx) (seen : Finset Nat) {t : Tx} (ht : t ∈ l) :
    Transaction.hash t ∈ (dedup seen l).2 := by
  induction l generalizing seen with
  | nil => exact absurd ht List.not_mem_nil
  | cons tx rest ih =>
    unfold dedup
    rcases List.mem_cons.mp ht with rfl | ht
    · split
      · next h => exact subset_dedup rest seen h
      · exact subset_dedup rest _ (Finset.mem_insert_self _ _)
    · split
      · exact ih seen ht
      · exact ih _ ht

theorem foldl_erase (txs : List Tx) : ∀ seen : Finset Nat,
    txs.foldl (fun seen tx => seen.erase (Transaction.hash tx)) seen = seen \ hashes txs := by
  induction txs with
  | nil => intro seen; simp
  | cons tx rest ih =>
    intro seen
    rw [List.foldl_cons, ih]
    ext k
    simp only [Finset.mem_sdiff, Finset.mem_erase, mem_hashes, List.mem_cons, exists_eq_or_imp]
    constructor
    · rintro ⟨⟨hne, hseen⟩, hrest⟩
      exact ⟨hseen, fun h => h.elim (fun h => hne h.symm) hrest⟩
    · rintro ⟨hseen, hall⟩
      exact ⟨⟨fun h => hall (.inl h.symm), hseen⟩, fun h => hall (.inr h)⟩

theorem rollbackSeen_dedup (seen : Finset Nat) (batch : List Tx) :
    (dedup seen batch).1.foldl (fun seen tx => seen.erase (Transaction.hash tx))
      (dedup seen batch).2 = seen := by
  rw [foldl_erase, dedup_snd]
  ext k
  simp only [Finset.mem_sdiff, Finset.mem_union]
  constructor
  · rintro ⟨hk | hk, hnot⟩
    · exact hk
    · exact absurd hk hnot
  · intro hk
    refine ⟨.inl hk, fun hnew => ?_⟩
    obtain ⟨t, ht, rfl⟩ := mem_hashes.mp hnew
    exact (hash_of_mem_dedup batch seen t ht).1 hk

end Hashes

/-! ## The invariant -/

/-- The entries in flight, then those that wait. -/
def items (q : BatchQueue Tx) : List (QueuedItem Tx) := q.inFlight ++ q.queue.toList

/-- The invariant after at most `n` operations. `rest` are entries of the WAL that are still to be
loaded. -/
structure Rep [Transaction Tx] (n : Nat) (rest : List (Nat × List Tx)) (q : BatchQueue Tx) :
    Prop where
  between : ∀ i ∈ q.postponedItem.toList ++ q.items, q.nextPrependSeq < i.key ∧ i.key < q.nextAddSeq
  unique : ((allTxs q.items).map Transaction.hash).Nodup
  seen : q.txSeen = hashes (allTxs q.items)
  wal : q.db.entries.entries = (q.postponedItem.toList ++ q.items).map entry ++ rest
  legacy : q.db.legacy = []
  filled : ∀ i ∈ q.items, i.batch ≠ []
  postponed : q.inFlightPostponed.Sublist (allTxs q.inFlight)
  item : ∀ i, q.postponedItem = some i → i.batch = q.inFlightPostponed ∧ i.batch ≠ []
  low : initialSeqNum ≤ q.nextPrependSeq + 1 + n
  high : q.nextAddSeq ≤ initialSeqNum + n
  prepend_lt : q.nextPrependSeq < initialSeqNum
  le_add : initialSeqNum ≤ q.nextAddSeq

variable [Transaction Tx] {n : Nat} {q : BatchQueue Tx}

variable {rest : List (Nat × List Tx)} {batch raw : List Tx} {i : QueuedItem Tx} {seq : Nat}
  {m : OrdMap Nat (List Tx)} {w : Wal Tx} {F : Prop} {included : Finset Nat}

theorem Rep.mono {m : Nat} (h : Rep n rest q) (hle : n ≤ m) :
    Rep m rest q :=
  { h with
    low := by have := h.low; omega
    high := by have := h.high; omega }

theorem Rep.sorted (h : Rep n rest q) :
    (q.items.map QueuedItem.key).Pairwise (· < ·) := by
  have hs := q.db.entries.sorted
  rw [h.wal, List.map_append, List.append_assoc, List.pairwise_append] at hs
  have hitems := (List.pairwise_append.mp hs.2.1).1
  rw [List.pairwise_map] at hitems ⊢
  exact hitems

/-- Without entries in flight nothing is postponed. -/
theorem Rep.idle (h : Rep n rest q) (hin : q.inFlight = []) :
    q.inFlightPostponed = [] ∧ q.postponedItem = none := by
  have hnil : q.inFlightPostponed = [] := by
    have := h.postponed
    rw [hin] at this
    exact List.sublist_nil.mp this
  refine ⟨hnil, ?_⟩
  cases hp : q.postponedItem with
  | none => rfl
  | some i =>
    obtain ⟨hbatch, hne⟩ := h.item i hp
    exact absurd (hbatch.trans hnil) hne

theorem rep_newBatchQueue (maxQueueSize : Int) :
    Rep 0 [] (newBatchQueue (⟨.empty, [], []⟩ : Wal Tx) maxQueueSize) where
  between := nofun
  unique := .nil
  seen := rfl
  wal := rfl
  legacy := rfl
  filled := nofun
  postponed := List.Sublist.refl _
  item := nofun
  low := (by decide : initialSeqNum ≤ initialSeqNum - 1 + 1 + 0)
  high := Nat.le_refl _
  prepend_lt := (by decide : initialSeqNum - 1 < initialSeqNum)
  le_add := Nat.le_refl _

/-- A queue with the same entries, when nothing is postponed. -/
theorem Rep.congr {q' : BatchQueue Tx} (h : Rep n rest q) (hitems : q'.items = q.items)
    (hwal : q'.db.entries.entries = q.items.map entry ++ rest) (hlegacy : q'.db.legacy = q.db.legacy)
    (hitem : q'.postponedItem = none) (hpostponed : q'.inFlightPostponed = [])
    (hrest : (q'.txSeen, q'.nextAddSeq, q'.nextPrependSeq) =
      (q.txSeen, q.nextAddSeq, q.nextPrependSeq)) : Rep n rest q' := by
  obtain ⟨hseen, hadd, hprepend⟩ : _ ∧ _ ∧ _ := by simpa using hrest
  constructor <;> simp only [hitems, hitem, hpostponed, hseen, hadd, hprepend, hlegacy]
  · exact fun i hi => h.between i (List.mem_append_right _ hi)
  · exact h.unique
  · exact h.seen
  · exact hwal
  · exact h.legacy
  · exact h.filled
  · exact List.nil_sublist _
  · exact nofun
  · exact h.low
  · exact h.high
  · exact h.prepend_lt
  · exact h.le_add

/-! ## Adding -/

/-- The entries with one for the new transactions of `batch` at the end. -/
theorem Rep.pushed (h : Rep n rest q) (hne : (dedup q.txSeen batch).1 ≠ []) (key : Nat) :
    let l := q.items ++ [⟨(dedup q.txSeen batch).1, key⟩];
    ((allTxs l).map Transaction.hash).Nodup ∧ (dedup q.txSeen batch).2 = hashes (allTxs l) ∧
      ∀ i ∈ l, i.batch ≠ [] := by
  dsimp only
  rw [allTxs_append, allTxs_singleton]
  refine ⟨?_, ?_, fun i hi => ?_⟩
  · rw [List.map_append, List.nodup_append]
    refine ⟨h.unique, nodup_dedup batch _, fun a ha b hb heq => ?_⟩
    obtain ⟨t, ht, rfl⟩ := List.mem_map.mp hb
    refine (hash_of_mem_dedup batch _ t ht).1 ?_
    rw [h.seen, ← heq]
    exact List.mem_toFinset.mpr ha
  · rw [hashes_append, ← h.seen]
    exact dedup_snd batch _
  · rcases List.mem_append.mp hi with hi | hi
    · exact h.filled i hi
    · rw [List.mem_singleton.mp hi]
      exact hne

inductive AddCase (put : Outcome) (batch : List Tx) (q : BatchQueue Tx) :
    Exit Err Unit × BatchQueue Tx → Prop
  | nothing : AddCase put batch q (.ok (), q)
  | refused (e : Err) : AddCase put batch q (.error e, q)
  | crash (hput : put = .crash) (seen : Finset Nat) :
    AddCase put batch q (.crash, { q with txSeen := seen })
  | stored (hne : (dedup q.txSeen batch).1 ≠ []) :
    AddCase put batch q (.ok (), added (dedup q.txSeen batch).1 (dedup q.txSeen batch).2 q)

theorem addBatch_cases (put : Outcome) (batch : List Tx) (q : BatchQueue Tx) :
    AddCase put batch q (addBatch put batch q) := by
  have hrefused : ∀ e, AddCase put batch q (.error e, rollbackSeenLocked (dedup q.txSeen batch).1
      { q with txSeen := (dedup q.txSeen batch).2 }) := by
    intro e
    unfold rollbackSeenLocked
    rw [rollbackSeen_dedup]
    exact .refused e
  unfold addBatch
  rw [get_bind_run, modify_bind_run]
  by_cases hu : (dedup q.txSeen batch).1 = []
  · rw [if_pos hu]
    have hseen : (dedup q.txSeen batch).2 = q.txSeen := by
      rw [dedup_snd, hu, hashes_nil, Finset.union_empty]
    show AddCase put batch q (.ok (), { q with txSeen := (dedup q.txSeen batch).2 })
    rw [hseen]
    exact .nothing
  · rw [if_neg hu]
    by_cases hfull : 0 < q.maxQueueSize ∧ q.maxQueueSize ≤ q.size
    · simp only [hfull]
      exact hrefused _
    · simp only [hfull, decide_false]
      cases put with
      | ok => exact .stored hu
      | fail => exact hrefused _
      | crash => exact .crash rfl _

theorem Rep.added (h : Rep n [] q) (hn : n + 1 < 2 ^ 63)
    (hne : (dedup q.txSeen batch).1 ≠ []) :
    Rep (n + 1) [] (added (dedup q.txSeen batch).1 (dedup q.txSeen batch).2 q) := by
  have hlow := h.low
  have hhigh := h.high
  have hprepend := h.prepend_lt
  have hadd := h.le_add
  have hnext : (q.nextAddSeq + 1) % 2 ^ 64 = q.nextAddSeq + 1 := by
    unfold initialSeqNum at hhigh
    omega
  have hitems : (BatchQueue.added (dedup q.txSeen batch).1 (dedup q.txSeen batch).2 q).items =
      q.items ++ [⟨(dedup q.txSeen batch).1, q.nextAddSeq⟩] := by
    simp [items, BatchQueue.added]
  have hfresh : ∀ e ∈ q.db.entries.entries, e.1 < q.nextAddSeq := by
    rw [h.wal, List.append_nil]
    intro e he
    obtain ⟨i, hi, rfl⟩ := List.mem_map.mp he
    exact (h.between i hi).2
  obtain ⟨hunique, hseen, hfilled⟩ := h.pushed hne q.nextAddSeq
  rw [← hitems] at hunique hseen hfilled
  refine ⟨fun i hi => ?_, hunique, hseen, ?_, h.legacy, hfilled, h.postponed, h.item, ?_, ?_,
    hprepend, ?_⟩
  · rw [hitems, ← List.append_assoc] at hi
    show q.nextPrependSeq < i.key ∧ i.key < (q.nextAddSeq + 1) % 2 ^ 64
    rw [hnext]
    rcases List.mem_append.mp hi with hi | hi
    · have := h.between i hi
      omega
    · rw [List.mem_singleton.mp hi]
      dsimp only
      omega
  · rw [hitems, ← List.append_assoc, List.map_append]
    show (q.db.entries.put q.nextAddSeq (dedup q.txSeen batch).1).entries = _
    rw [OrdMap.entries_put_last _ hfresh, h.wal, List.append_nil, List.append_nil]
    rfl
  · show initialSeqNum ≤ q.nextPrependSeq + 1 + (n + 1)
    omega
  · show (q.nextAddSeq + 1) % 2 ^ 64 ≤ _
    omega
  · show _ ≤ (q.nextAddSeq + 1) % 2 ^ 64
    omega

/-! ## Draining -/

theorem Rep.rolledBack (h : Rep n [] q) {delete : Outcome}
    (hdelete : delete = .ok ∨ q.postponedItem = none) :
    Rep n [] (q.rolledBack delete) ∧ (q.rolledBack delete).inFlight = [] ∧
      (q.rolledBack delete).items = q.items ∧ (q.rolledBack delete).inFlightPostponed = [] := by
  obtain ⟨hqueue, hflight⟩ := rolledBack_lists delete q
  have hitems : (q.rolledBack delete).items = q.items := by
    unfold items
    rw [hqueue, hflight]
    rfl
  by_cases hin : q.inFlight = []
  · have hsame : q.rolledBack delete = q := if_pos hin
    rw [hsame]
    exact ⟨h, hin, rfl, (h.idle hin).1⟩
  · have hback : (q.rolledBack delete).inFlightPostponed = [] := by
      unfold BatchQueue.rolledBack
      rw [if_neg hin]
    refine ⟨?_, hflight, hitems, hback⟩
    have hwal := h.wal
    refine h.congr hitems ?_ ?_ ?_ hback ?_ <;> unfold BatchQueue.rolledBack <;> rw [if_neg hin]
    · cases hp : q.postponedItem with
      | none =>
        rw [hp] at hwal
        exact hwal
      | some i =>
        rcases hdelete with rfl | hnone
        · rw [hp] at hwal
          exact OrdMap.entries_delete (l := []) hwal
        · rw [hp] at hnone
          cases hnone
    · cases q.postponedItem with
      | none => rfl
      | some i => cases delete <;> rfl

theorem Rep.drained (h : Rep n [] q) {delete : Outcome}
    (hdelete : delete = .ok ∨ q.postponedItem = none) (maxBytes : Nat) :
    Rep n [] (q.drained delete maxBytes) ∧ (q.drained delete maxBytes).items = q.items ∧
      (q.drained delete maxBytes).inFlightPostponed = [] := by
  obtain ⟨hrep, hin, hitems, hnone⟩ := h.rolledBack hdelete
  have hitem := (hrep.idle hin).2
  have hsame : (q.drained delete maxBytes).items = (q.rolledBack delete).items := by
    obtain ⟨hflight, hqueue, _⟩ := drained_lists delete maxBytes q
    obtain ⟨k, hk⟩ := drainLoop_eq maxBytes (q.inFlight ++ q.queue.toList) 0 []
    rw [hitems]
    unfold items
    rw [hqueue, hflight, hk, List.length_take, List.take_eq_take_min, List.take_append_drop]
  have hwal := hrep.wal
  rw [hitem] at hwal
  exact ⟨hrep.congr hsame hwal rfl hitem hnone rfl, hsame.trans hitems, hnone⟩

theorem drain_crash (h : Rep n [] q) (hp : q.postponedItem = some i)
    (maxBytes : Nat) : drain .crash maxBytes q = (.crash, q) := by
  have hin : q.inFlight ≠ [] := fun hnil => by
    rw [(h.idle hnil).2] at hp
    cases hp
  unfold drain rollbackInFlightLocked
  refine bind_run_crash ?_
  rw [get_bind_run, if_neg hin, hp]
  rfl

omit [Transaction Tx] in
theorem setPostponed_of_some (h : q.postponedItem = some i) (txs : List Tx) :
    q.setPostponed txs = q := by
  unfold setPostponed
  rw [h]

theorem Rep.setPostponed (h : Rep n [] q) {txs : List Tx}
    (htxs : txs.Sublist (allTxs q.inFlight)) : Rep n [] (q.setPostponed txs) := by
  cases hp : q.postponedItem with
  | some i =>
    rw [setPostponed_of_some hp]
    exact h
  | none =>
    rw [setPostponed_of_none hp]
    exact { h with
      postponed := htxs
      item := fun i hi => by rw [hp] at hi; cases hi }

/-! ## Acknowledging -/

theorem Rep.postponedPersisted (h : Rep n [] q) (hn : n + 1 < 2 ^ 63) :
    Rep (n + 1) [] q.postponedPersisted := by
  unfold BatchQueue.postponedPersisted
  split
  · next hc =>
    have hnone : q.postponedItem = none := Option.isNone_iff_eq_none.mp hc.2
    have hbetween := h.between
    have hwal := h.wal
    rw [hnone] at hbetween hwal
    have hlow := h.low
    have hhigh := h.high
    have hprepend := h.prepend_lt
    have hadd := h.le_add
    have hprev : (q.nextPrependSeq + (2 ^ 64 - 1)) % 2 ^ 64 + 1 = q.nextPrependSeq := by
      unfold initialSeqNum at hlow hprepend
      omega
    have hfresh : ∀ e ∈ q.db.entries.entries, q.nextPrependSeq < e.1 := by
      rw [hwal, List.append_nil]
      intro e he
      obtain ⟨i, hi, rfl⟩ := List.mem_map.mp he
      exact (hbetween i hi).1
    refine ⟨fun i hi => ?_, h.unique, h.seen, ?_, h.legacy, h.filled, h.postponed, ?_, ?_, ?_, ?_,
      hadd⟩
    · show (q.nextPrependSeq + (2 ^ 64 - 1)) % 2 ^ 64 < i.key ∧ i.key < q.nextAddSeq
      rcases List.mem_cons.mp hi with rfl | hi
      · dsimp only
        omega
      · have := hbetween i hi
        omega
    · show (q.db.entries.put q.nextPrependSeq q.inFlightPostponed).entries = _
      rw [OrdMap.entries_put_first _ hfresh, hwal]
      rfl
    · intro i hi
      cases hi
      exact ⟨rfl, hc.1⟩
    · show initialSeqNum ≤ (q.nextPrependSeq + (2 ^ 64 - 1)) % 2 ^ 64 + 1 + (n + 1)
      omega
    · exact Nat.le_succ_of_le hhigh
    · show (q.nextPrependSeq + (2 ^ 64 - 1)) % 2 ^ 64 < initialSeqNum
      omega
  · exact h.mono (Nat.le_succ n)

theorem Rep.postponedItem_txs (h : Rep n [] q) :
    allTxs q.postponedPersisted.postponedItem.toList = q.inFlightPostponed := by
  unfold BatchQueue.postponedPersisted
  split
  · simp
  · next hc =>
    cases hp : q.postponedItem with
    | some i => simpa using (h.item i hp).1
    | none =>
      have hnil : q.inFlightPostponed = [] := by
        by_contra hne
        exact hc ⟨hne, by rw [hp]; rfl⟩
      simp [hnil]

theorem items_acked (q : BatchQueue Tx) :
    q.acked.items = q.postponedPersisted.postponedItem.toList ++ q.queue.toList := by
  unfold items acked finishAck inFlightDeleted
  cases q.postponedPersisted.postponedItem with
  | none | some i => simp

theorem Rep.acked (h : Rep n [] q) (hn : n + 1 < 2 ^ 63) : Rep (n + 1) [] q.acked := by
  have hp := h.postponedPersisted hn
  have htxs := h.postponedItem_txs
  have hitems := items_acked q
  have hsplit : (allTxs q.items) = allTxs q.inFlight ++ allTxs q.queue.toList := by
    simp [items]
  have hall : allTxs q.acked.items = q.inFlightPostponed ++ allTxs q.queue.toList := by
    rw [hitems, allTxs_append, htxs]
  have hunique := h.unique
  rw [hsplit, List.map_append, List.nodup_append] at hunique
  refine ⟨fun i hi => ?_, ?_, ?_, ?_, hp.legacy, fun i hi => ?_, List.Sublist.refl _, nofun, hp.low,
    hp.high, hp.prepend_lt, hp.le_add⟩
  · have hi' : i ∈ q.postponedPersisted.postponedItem.toList ++ q.postponedPersisted.items := by
      rw [hitems] at hi
      have hi := List.mem_append.mp (List.mem_append.mp hi |>.resolve_left List.not_mem_nil)
      rcases hi with hi | hi
      · exact List.mem_append_left _ hi
      · exact List.mem_append_right _ (List.mem_append_right _ (by simpa using hi))
    exact hp.between i hi'
  · rw [hall, List.map_append, List.nodup_append]
    refine ⟨hunique.1.sublist (h.postponed.map _), hunique.2.1, fun a ha b hb => ?_⟩
    exact hunique.2.2 a ((h.postponed.map _).subset ha) b hb
  · rw [hall]
    show (List.foldl (fun seen tx => seen.erase (Transaction.hash tx))
      q.postponedPersisted.txSeen ((allTxs q.postponedPersisted.inFlight).filter fun tx =>
        Transaction.hash tx ∉ q.postponedPersisted.inFlightPostponed.map Transaction.hash)) = _
    have hseen : q.postponedPersisted.txSeen = hashes (allTxs q.items) := by
      rw [hp.seen]
      unfold items
      rw [inFlight_postponedPersisted, queue_postponedPersisted]
    rw [foldl_erase, hseen, inFlight_postponedPersisted, inFlightPostponed_postponedPersisted,
      hsplit]
    ext k
    simp only [hashes_append, Finset.mem_sdiff, Finset.mem_union, mem_hashes, List.mem_filter,
      decide_eq_true_eq, List.mem_map]
    constructor
    · rintro ⟨⟨t, ht, rfl⟩ | hk, hnot⟩
      · left
        by_contra hno
        exact hnot ⟨t, ⟨ht, hno⟩, rfl⟩
      · exact .inr hk
    · rintro (⟨t, ht, rfl⟩ | ⟨t, ht, rfl⟩)
      · refine ⟨.inl ⟨t, h.postponed.subset ht, rfl⟩, ?_⟩
        rintro ⟨t', ⟨_, hno⟩, heq⟩
        exact hno ⟨t, ht, heq.symm⟩
      · refine ⟨.inr ⟨t, ht, rfl⟩, ?_⟩
        rintro ⟨t', ⟨ht', _⟩, heq⟩
        exact hunique.2.2 _ (List.mem_map_of_mem ht') _ (List.mem_map_of_mem ht) heq
  · have hwal := hp.wal
    rw [List.append_nil, List.map_append] at hwal
    unfold items at hwal
    rw [List.map_append, inFlight_postponedPersisted, queue_postponedPersisted] at hwal
    have hdel := OrdMap.entries_foldl_delete entry hwal
    rw [← List.map_append] at hdel
    show (q.postponedPersisted.inFlight.foldl (fun m i => m.delete i.key)
      q.postponedPersisted.db.entries).entries = _
    rw [inFlight_postponedPersisted, hitems, List.append_nil]
    exact hdel
  · rw [hitems] at hi
    rcases List.mem_append.mp hi with hi | hi
    · obtain hp' := Option.mem_toList.mp hi
      exact (hp.item i hp').2
    · exact h.filled i (List.mem_append_right _ hi)

/-! ## Loading -/

theorem Rep.inRange (h : Rep n rest q) (hrest : InRange n rest) :
    InRange n q.db.entries.entries := by
  rw [h.wal]
  intro e he
  rcases List.mem_append.mp he with he | he
  · obtain ⟨i, hi, rfl⟩ := List.mem_map.mp he
    have hbetween : q.nextPrependSeq < i.entry.1 ∧ i.entry.1 < q.nextAddSeq := h.between i hi
    have hlow := h.low
    have hhigh := h.high
    omega
  · exact hrest e he

/-- The queue while the WAL is read: `raw` are the transactions read so far, `rest` the entries to
come. -/
structure LoadingRep (n : Nat) (raw : List Tx) (rest : List (Nat × List Tx)) (q : BatchQueue Tx) :
    Prop where
  rep : Rep n rest q
  idle : q.inFlight = []
  txs : allTxs q.queue.toList = (dedup ∅ raw).1

theorem LoadingRep.txSeen_eq
    (h : LoadingRep n raw rest q) : q.txSeen = (dedup ∅ raw).2 := by
  rw [h.rep.seen, dedup_snd, Finset.empty_union, items, h.idle, List.nil_append, h.txs]

omit [Transaction Tx] in
/-- The sequence numbers stay outside the keys in use. -/
theorem noteSeq_between (hn : n < 2 ^ 63) (hlow : initialSeqNum ≤ q.nextPrependSeq + 1 + n)
    (hhigh : q.nextAddSeq ≤ initialSeqNum + n) (hprepend : q.nextPrependSeq < initialSeqNum)
    (hadd : initialSeqNum ≤ q.nextAddSeq)
    (hseq : initialSeqNum ≤ seq + n ∧ seq < initialSeqNum + n) :
    (noteSeq seq q).nextPrependSeq ≤ q.nextPrependSeq ∧ q.nextAddSeq ≤ (noteSeq seq q).nextAddSeq ∧
      (noteSeq seq q).nextPrependSeq < seq ∧ seq < (noteSeq seq q).nextAddSeq ∧
      initialSeqNum ≤ (noteSeq seq q).nextPrependSeq + 1 + n ∧
      (noteSeq seq q).nextAddSeq ≤ initialSeqNum + n := by
  unfold noteSeq initialSeqNum at *
  dsimp only
  split <;> split <;> omega

theorem LoadingRep.noteSeq (h : LoadingRep n raw ((seq, batch) :: rest) q) (hn : n < 2 ^ 63)
    (hseq : initialSeqNum ≤ seq + n ∧ seq < initialSeqNum + n) :
    LoadingRep n raw ((seq, batch) :: rest) (noteSeq seq q) ∧
      (BatchQueue.noteSeq seq q).nextPrependSeq < seq ∧
      seq < (BatchQueue.noteSeq seq q).nextAddSeq := by
  obtain ⟨hle, hge, hlt, hgt, hlow, hhigh⟩ :=
    noteSeq_between hn h.rep.low h.rep.high h.rep.prepend_lt h.rep.le_add hseq
  refine ⟨⟨⟨fun i hi => ?_, h.rep.unique, h.rep.seen, h.rep.wal, h.rep.legacy, h.rep.filled,
    h.rep.postponed, h.rep.item, hlow, hhigh, Nat.lt_of_le_of_lt hle h.rep.prepend_lt,
    Nat.le_trans h.rep.le_add hge⟩, h.idle, h.txs⟩, hlt, hgt⟩
  have hbetween := h.rep.between i hi
  omega

/-- One entry is read and kept, without the transactions seen before. -/
theorem LoadingRep.push (h : LoadingRep n raw ((seq, batch) :: rest) q)
    (hseq : q.nextPrependSeq < seq ∧ seq < q.nextAddSeq)
    (hne : (dedup q.txSeen batch).1 ≠ [])
    (hm : m.entries = q.queue.toList.map entry ++ (seq, (dedup q.txSeen batch).1) :: rest) :
    LoadingRep n (raw ++ batch) rest { q with
      txSeen := (dedup q.txSeen batch).2
      queue := q.queue.push ⟨(dedup q.txSeen batch).1, seq⟩
      db := { q.db with entries := m } } := by
  have hitem := (h.rep.idle h.idle).2
  have hold : q.items = q.queue.toList := by simp [items, h.idle]
  have hitems : ({ q with
      txSeen := (dedup q.txSeen batch).2
      queue := q.queue.push ⟨(dedup q.txSeen batch).1, seq⟩
      db := { q.db with entries := m } } : BatchQueue Tx).items =
        q.items ++ [⟨(dedup q.txSeen batch).1, seq⟩] := by
    simp [items]
  have hseen := h.txSeen_eq
  obtain ⟨hunique, hseen', hfilled⟩ := h.rep.pushed hne seq
  rw [← hitems] at hunique hseen' hfilled
  refine ⟨⟨fun i hi => ?_, hunique, hseen', ?_, h.rep.legacy, hfilled, h.rep.postponed, h.rep.item,
    h.rep.low, h.rep.high, h.rep.prepend_lt, h.rep.le_add⟩, h.idle, ?_⟩
  · rw [hitems, ← List.append_assoc] at hi
    rcases List.mem_append.mp hi with hi | hi
    · exact h.rep.between i hi
    · rw [List.mem_singleton.mp hi]
      exact hseq
  · rw [hitems, hold]
    show m.entries = (q.postponedItem.toList ++ _).map entry ++ rest
    rw [hitem, hm]
    simp [entry]
  · show allTxs (q.queue.push _).toList = _
    rw [HeadSlice.toList_push, allTxs_append, h.txs, allTxs_singleton, dedup_append, ← hseen]

/-- One entry is read and dropped, since all of it was seen before. -/
theorem LoadingRep.drop (h : LoadingRep n raw ((seq, batch) :: rest) q)
    (hnil : (dedup q.txSeen batch).1 = [])
    (hm : m.entries = q.queue.toList.map entry ++ rest) :
    LoadingRep n (raw ++ batch) rest { q with
      txSeen := (dedup q.txSeen batch).2
      db := { q.db with entries := m } } := by
  have hitem := (h.rep.idle h.idle).2
  have hold : q.items = q.queue.toList := by simp [items, h.idle]
  have hseen := h.txSeen_eq
  have hsame : (dedup q.txSeen batch).2 = q.txSeen := by
    rw [dedup_snd, hnil, hashes_nil, Finset.union_empty]
  refine ⟨⟨h.rep.between, h.rep.unique, ?_, ?_, h.rep.legacy, h.rep.filled, h.rep.postponed,
    h.rep.item, h.rep.low, h.rep.high, h.rep.prepend_lt, h.rep.le_add⟩, h.idle, ?_⟩
  · rw [hsame]
    exact h.rep.seen
  · show m.entries = (q.postponedItem.toList ++ q.items).map entry ++ rest
    rw [hitem, hold, hm]
    rfl
  · rw [dedup_append, ← hseen, hnil, List.append_nil]
    exact h.txs

structure Reading (n : Nat) (w : Wal Tx) (rest : List (Nat × List Tx)) (q : BatchQueue Tx) :
    Prop where
  loading : ∃ raw, LoadingRep n raw rest q ∧ w.txs = raw ++ rest.flatMap Prod.snd
  inRange : InRange n rest
  accepted : q.db.accepted = w.accepted

/-- Whatever was read so far, nothing is lost. -/
theorem Reading.trimmed (h : Reading n w rest q) :
    w.Trimmed ∅ q.db ∧ q.db.Loadable n := by
  obtain ⟨raw, hload, hw⟩ := h.loading
  have htxs : q.db.txs = (dedup ∅ raw).1 ++ rest.flatMap Prod.snd := by
    unfold Wal.txs
    rw [hload.rep.wal, List.flatMap_append, flatMap_entry, (hload.rep.idle hload.idle).2, items,
      hload.idle, ← hload.txs]
    rfl
  refine ⟨⟨?_, fun t ht _ => ?_, h.accepted⟩, hload.rep.legacy, hload.rep.inRange h.inRange⟩
  · rw [htxs, hw]
    exact (dedup_sublist raw ∅).append (List.Sublist.refl _)
  · rw [hw] at ht
    rw [htxs]
    rcases List.mem_append.mp ht with ht | ht
    · have hmem := hash_mem_dedup raw ∅ ht
      rw [dedup_snd, Finset.empty_union] at hmem
      obtain ⟨t', ht', heq⟩ := mem_hashes.mp hmem
      exact ⟨t', List.mem_append_left _ ht', heq⟩
    · exact ⟨t, List.mem_append_right _ ht, rfl⟩

theorem wp_dedupAndEnqueueLocked_reading {cleanup : Outcome} (hcleanup : cleanup ≠ .fail)
    (hF : cleanup ≠ .ok → F) (h : Reading n w ((seq, batch) :: rest) q)
    (hseq : q.nextPrependSeq < seq ∧ seq < q.nextAddSeq) :
    wp (dedupAndEnqueueLocked cleanup batch seq) (fun _ => Reading n w rest) (fun _ _ => False)
      (fun q' => F ∧ w.Trimmed ∅ q'.db ∧ q'.db.Loadable n) q := by
  obtain ⟨raw, hload, hw⟩ := h.loading
  have htrimmed := h.trimmed
  have hinRange : InRange n rest := fun e he => h.inRange e (List.mem_cons_of_mem _ he)
  have hraw : w.txs = (raw ++ batch) ++ rest.flatMap Prod.snd := by
    rw [hw, List.flatMap_cons, List.append_assoc]
  have hwal : q.db.entries.entries = q.queue.toList.map entry ++ (seq, batch) :: rest := by
    rw [hload.rep.wal, (hload.rep.idle hload.idle).2, items, hload.idle]
    rfl
  unfold dedupAndEnqueueLocked
  rw [wp_bind, wp_get, wp_bind, wp_modify]
  by_cases hnil : (dedup q.txSeen batch).1 = []
  · rw [if_pos hnil, wp_bind, wp_attempt]
    unfold deleteEntry
    rw [wp_io]
    refine ⟨fun _ => ?_, fun hf => absurd hf hcleanup, fun hc => ⟨hF (by simp [hc]), htrimmed⟩⟩
    exact ⟨⟨_, hload.drop hnil (OrdMap.entries_delete hwal), hraw⟩, hinRange, h.accepted⟩
  · rw [if_neg hnil, wp_bind, wp_attempt]
    by_cases hlt : (dedup q.txSeen batch).1.length < batch.length
    · rw [if_pos hlt]
      unfold persistBatch
      rw [wp_io]
      refine ⟨fun _ => ?_, fun hf => absurd hf hcleanup, fun hc => ⟨hF (by simp [hc]), htrimmed⟩⟩
      exact ⟨⟨_, hload.push hseq hnil (OrdMap.entries_put_over hwal _), hraw⟩, hinRange, h.accepted⟩
    · rw [if_neg hlt]
      have hall : (dedup q.txSeen batch).1 = batch :=
        (dedup_sublist _ _).eq_of_length_le (by omega)
      have hsame : q.db.entries.entries = q.queue.toList.map entry ++
          (seq, (dedup q.txSeen batch).1) :: rest := by
        rw [hall]
        exact hwal
      exact ⟨⟨_, hload.push hseq hnil hsame, hraw⟩, hinRange, h.accepted⟩

theorem wp_loadEntries_reading {cleanup : Nat → Outcome}
    (hcleanup : ∀ k, cleanup k ≠ .fail) (hF : ∀ k, cleanup k ≠ .ok → F)
    (hn : n < 2 ^ 63) (rest : List (Nat × List Tx)) (h : Reading n w rest q) :
    wp (loadEntries cleanup rest) (fun _ => Reading n w []) (fun _ _ => False)
      (fun q' => F ∧ w.Trimmed ∅ q'.db ∧ q'.db.Loadable n) q := by
  induction rest generalizing q with
  | nil => exact h
  | cons e rest ih =>
    obtain ⟨seq, batch⟩ := e
    obtain ⟨raw, hload, hw⟩ := h.loading
    obtain ⟨hnote, hseq⟩ := hload.noteSeq hn (h.inRange _ List.mem_cons_self)
    unfold loadEntries
    rw [wp_bind, wp_modify, wp_bind]
    exact wp_imp (wp_dedupAndEnqueueLocked_reading (hcleanup seq) (hF seq)
      ⟨⟨raw, hnote, hw⟩, h.inRange, h.accepted⟩ hseq) (fun _ _ h' => ih h')

/-- A complete load: the invariant, and the transactions of the WAL without repetitions. -/
structure LoadedRep (n : Nat) (w : Wal Tx) (q : BatchQueue Tx) : Prop where
  rep : Rep n [] q
  idle : q.inFlight = []
  txs : allTxs q.queue.toList = (dedup ∅ w.txs).1
  accepted : q.db.accepted = w.accepted

/-- **Load**, when no cleanup write fails. `F` holds when it does not complete. -/
theorem wp_load_rep (env : LoadEnv) (hcleanup : ∀ k, env.cleanup k ≠ .fail)
    (hquery : env.query ≠ .ok → F) (hF : ∀ k, env.cleanup k ≠ .ok → F) (hn : n < 2 ^ 63)
    (hdb : q.db.Loadable n) :
    wp (load env) (fun _ => LoadedRep n q.db)
      (fun _ q' => F ∧ q.db.Trimmed ∅ q'.db ∧ q'.db.Loadable n)
      (fun q' => F ∧ q.db.Trimmed ∅ q'.db ∧ q'.db.Loadable n) q := by
  have hsame : q.db.Trimmed ∅ q.db ∧ q.db.Loadable n := ⟨.refl _ _, hdb⟩
  have hstart : Reading n q.db q.db.entries.entries (newBatchQueue q.db q.maxQueueSize) := by
    have hrep : Rep 0 [] (newBatchQueue (⟨.empty, [], []⟩ : Wal Tx) q.maxQueueSize) :=
      rep_newBatchQueue _
    refine ⟨⟨[], ⟨⟨nofun, .nil, rfl, rfl, hdb.legacy, nofun, hrep.postponed, nofun, ?_, ?_,
      hrep.prepend_lt, hrep.le_add⟩, rfl, rfl⟩, rfl⟩, hdb.inRange, rfl⟩
    · exact (hrep.mono (Nat.zero_le n)).low
    · exact (hrep.mono (Nat.zero_le n)).high
  unfold load
  rw [wp_bind, wp_modify, wp_bind, wp_io]
  refine ⟨fun _ => ?_, fun hf => ⟨hquery (by simp [hf]), hsame⟩,
    fun hc => ⟨hquery (by simp [hc]), hsame⟩⟩
  rw [wp_bind, wp_get, wp_bind]
  refine wp_mono (wp_loadEntries_reading hcleanup hF hn _ hstart) ?_ (fun _ _ hf => hf.elim)
    (fun _ hs => hs)
  intro _ q1 h1
  obtain ⟨raw, hload, hw⟩ := h1.loading
  rw [List.flatMap_nil, List.append_nil] at hw
  show wp (migrateLegacy env q.db.legacy) _ _ _ q1
  rw [hdb.legacy]
  exact ⟨hload.rep, hload.idle, hw ▸ hload.txs, h1.accepted⟩

/-! ## Dropping what the last block included -/

/-- The entries that are left of the given ones. -/
def remainingItems (included : Finset Nat) (items : List (QueuedItem Tx)) : List (QueuedItem Tx) :=
  (items.map fun i => { i with batch := i.batch.filter fun tx => Transaction.hash tx ∉ included }
    ).filter fun i => i.batch ≠ []

theorem remainingItems_cons (included : Finset Nat) (i : QueuedItem Tx)
    (items : List (QueuedItem Tx)) : remainingItems included (i :: items) =
      (if (i.batch.filter fun tx => Transaction.hash tx ∉ included) = [] then []
        else [{ i with batch := i.batch.filter fun tx => Transaction.hash tx ∉ included }]) ++
        remainingItems included items := by
  unfold remainingItems
  rw [List.map_cons, List.filter_cons]
  by_cases hnil : (i.batch.filter fun tx => Transaction.hash tx ∉ included) = []
  · rw [if_pos hnil, if_neg (by simpa using hnil)]
    rfl
  · rw [if_neg hnil, if_pos (by simpa using hnil)]
    rfl

theorem allTxs_remainingItems (included : Finset Nat) (items : List (QueuedItem Tx)) :
    allTxs (remainingItems included items) =
      (allTxs items).filter fun tx => Transaction.hash tx ∉ included := by
  induction items with
  | nil => rfl
  | cons i items ih =>
    have hcons : allTxs (i :: items) = i.batch ++ allTxs items := List.flatMap_cons
    rw [remainingItems_cons, allTxs_append, hcons, List.filter_append, ← ih]
    split
    · next hnil =>
      rw [hnil]
      rfl
    · rw [allTxs_singleton]

theorem mem_remainingItems {items : List (QueuedItem Tx)} (h : i ∈ remainingItems included items) :
    i.batch ≠ [] ∧ ∃ i' ∈ items, i'.key = i.key := by
  unfold remainingItems at h
  obtain ⟨hmem, hne⟩ := List.mem_filter.mp h
  obtain ⟨i', hi', rfl⟩ := List.mem_map.mp hmem
  exact ⟨by simpa using hne, i', hi', rfl⟩

theorem trimmed_entry
    {pre mid : List (Nat × List Tx)} {k : Nat} {b : List Tx}
    (hw : w.entries.entries = pre ++ (k, b) :: rest) (hm : m.entries = pre ++ (mid ++ rest))
    (hmid : mid.flatMap Prod.snd = b.filter fun tx => Transaction.hash tx ∉ included)
    (hkeys : ∀ e ∈ mid, e.1 = k) (hdb : w.Loadable n) :
    w.Trimmed included { w with entries := m } ∧ Wal.Loadable n { w with entries := m } := by
  have hold : w.txs = pre.flatMap Prod.snd ++ (b ++ rest.flatMap Prod.snd) := by
    unfold Wal.txs
    rw [hw, List.flatMap_append, List.flatMap_cons]
  have hnew : Wal.txs { w with entries := m } = pre.flatMap Prod.snd ++
      ((b.filter fun tx => Transaction.hash tx ∉ included) ++ rest.flatMap Prod.snd) := by
    show m.entries.flatMap Prod.snd = _
    rw [hm, List.flatMap_append, List.flatMap_append, hmid]
  refine ⟨⟨?_, fun t ht hnot => ⟨t, ?_, rfl⟩, rfl⟩, hdb.legacy, fun e he => ?_⟩
  · rw [hold, hnew]
    exact (List.Sublist.refl _).append (List.filter_sublist.append (List.Sublist.refl _))
  · rw [hold] at ht
    rw [hnew]
    simp only [List.mem_append, List.mem_filter, decide_eq_true_eq] at ht ⊢
    exact ht.imp_right fun h => h.imp_left fun hb => ⟨hb, hnot⟩
  · have he' : e ∈ pre ++ (mid ++ rest) := hm ▸ he
    have hrange := hdb.inRange
    rw [hw] at hrange
    rcases List.mem_append.mp he' with he' | he'
    · exact hrange e (List.mem_append_left _ he')
    · rcases List.mem_append.mp he' with he' | he'
      · rw [hkeys e he']
        exact hrange (k, b) (List.mem_append_right _ List.mem_cons_self)
      · exact hrange e (List.mem_append_right _ (List.mem_cons_of_mem _ he'))

/-- The queue in the loop that started from `q₀`, where `txs` are the transactions of the entries
passed so far. -/
structure DroppingRep (n : Nat) (included : Finset Nat) (all : List (QueuedItem Tx))
    (q₀ : BatchQueue Tx) (kept items : List (QueuedItem Tx)) (q : BatchQueue Tx) : Prop where
  filled : ∀ i ∈ items, i.batch ≠ []
  remaining : kept ++ remainingItems included items = remainingItems included all
  wal : q.db.entries.entries = (kept ++ items).map entry
  trimmed : q₀.db.Trimmed included q.db ∧ q.db.Loadable n
  state : ∃ txs, txs ++ allTxs items = allTxs all ∧ q = { q₀ with
    txSeen := q₀.txSeen \ hashes (txs.filter fun tx => Transaction.hash tx ∈ included)
    db := { q₀.db with entries := q.db.entries } }

theorem DroppingRep.step {all kept items here : List (QueuedItem Tx)} {q₀ : BatchQueue Tx}
    (h : DroppingRep n included all q₀ kept (i :: items) q)
    (hcase : DropCase included i q.db.entries here m) :
    DroppingRep n included all q₀ (kept ++ here) items
      { rollbackSeenLocked (i.batch.filter fun tx => Transaction.hash tx ∈ included) q with
        db := { q.db with entries := m } } := by
  obtain ⟨txs, htxs, hq⟩ := h.state
  have hwal : q.db.entries.entries = kept.map entry ++ (i.key, i.batch) :: items.map entry := by
    rw [h.wal, List.map_append]
    rfl
  have hm : m.entries = kept.map entry ++ (here.map entry ++ items.map entry) := by
    cases hcase with
    | keep => exact hwal
    | delete => exact OrdMap.entries_delete hwal
    | put => exact OrdMap.entries_put_over hwal _
  have hkeys : ∀ e ∈ here.map entry, e.1 = i.key := by
    cases hcase <;> simp [entry]
  obtain ⟨htrim, hload⟩ := trimmed_entry hwal hm
    ((flatMap_entry here).trans hcase.flatMap) hkeys h.trimmed.2
  refine ⟨fun j hj => h.filled j (List.mem_cons_of_mem _ hj), ?_, ?_, ⟨h.trimmed.1.trans htrim, hload⟩,
    txs ++ i.batch, ?_, ?_⟩
  · rw [← h.remaining, remainingItems_cons, List.append_assoc]
    cases hcase with
    | keep hall =>
      rw [show i.batch.filter _ = _ from hall, if_neg (h.filled i List.mem_cons_self)]
    | delete hnil => rw [if_pos (show i.batch.filter _ = _ from hnil)]
    | put hne => rw [if_neg (show ¬i.batch.filter _ = _ from hne)]; rfl
  · show m.entries = _
    rw [hm, List.map_append, List.map_append, List.append_assoc]
  · rw [List.append_assoc]
    exact htxs
  · rw [hq]
    simp only [rollbackSeenLocked, foldl_erase]
    rw [List.filter_append, hashes_append, sdiff_sdiff_left]
    rfl

/-- The queue after a complete `DropIncluded`, with the entries `m` in the WAL. -/
def dropped (included : Finset Nat) (m : OrdMap Nat (List Tx)) (q : BatchQueue Tx) :
    BatchQueue Tx :=
  { q with
    txSeen := q.txSeen \ hashes ((allTxs q.queue.toList).filter fun tx =>
      Transaction.hash tx ∈ included)
    queue := q.queue.replace (remainingItems included q.queue.toList)
    db := { q.db with entries := m } }

theorem Rep.dropped (h : Rep n [] q)
    (hin : q.inFlight = [])
    (hm : m.entries = (remainingItems included q.queue.toList).map entry) :
    Rep n [] (dropped included m q) := by
  obtain ⟨_, hitem⟩ := h.idle hin
  have hitems : q.items = q.queue.toList := by simp [items, hin]
  have htxs := allTxs_remainingItems included q.queue.toList
  have hnew : (BatchQueue.dropped included m q).items = remainingItems included q.queue.toList := by
    simp [items, BatchQueue.dropped, hin]
  have hunique := h.unique
  rw [hitems] at hunique
  refine ⟨fun i hi => ?_, ?_, ?_, ?_, h.legacy, fun i hi => ?_, h.postponed, h.item, h.low, h.high,
    h.prepend_lt, h.le_add⟩
  · have hi' : i ∈ remainingItems included q.queue.toList := by
      rw [hnew] at hi
      simpa [BatchQueue.dropped, hitem] using hi
    obtain ⟨_, i', hmem, hkey⟩ := mem_remainingItems hi'
    have hbetween := h.between i' (List.mem_append_right _ (hitems ▸ hmem))
    rw [hkey] at hbetween
    exact hbetween
  · rw [hnew, htxs]
    exact hunique.sublist (List.filter_sublist.map _)
  · rw [hnew, htxs]
    show q.txSeen \ _ = _
    rw [h.seen, hitems]
    ext k
    simp only [Finset.mem_sdiff, mem_hashes, List.mem_filter, decide_eq_true_eq]
    constructor
    · rintro ⟨⟨t, ht, rfl⟩, hnot⟩
      exact ⟨t, ⟨ht, fun hmem => hnot ⟨t, ⟨ht, hmem⟩, rfl⟩⟩, rfl⟩
    · rintro ⟨t, ⟨ht, hnot⟩, rfl⟩
      refine ⟨⟨t, ht, rfl⟩, ?_⟩
      rintro ⟨t', ⟨_, hmem⟩, heq⟩
      exact hnot (heq ▸ hmem)
  · rw [hnew]
    show m.entries = (q.postponedItem.toList ++ _).map entry ++ []
    rw [hitem, hm, List.append_nil]
    rfl
  · rw [hnew] at hi
    exact (mem_remainingItems hi).1

/-- **DropIncluded**, on a queue without entries in flight. -/
theorem wp_dropIncluded_rep (write : Nat → Outcome) (hF : ∀ k, write k ≠ .ok → F)
    (included : List Tx) (h : Rep n [] q) (hin : q.inFlight = []) :
    wp (dropIncluded write included)
      (fun _ q' => Rep n [] q' ∧ q'.inFlight = [] ∧
        allTxs q'.queue.toList = (allTxs q.queue.toList).filter
          (fun tx => Transaction.hash tx ∉ hashes included) ∧
        q'.db.accepted = q.db.accepted)
      (fun _ q' => F ∧ q.db.Trimmed (hashes included) q'.db ∧ q'.db.Loadable n)
      (fun q' => F ∧ q.db.Trimmed (hashes included) q'.db ∧ q'.db.Loadable n) q := by
  have hitems : q.items = q.queue.toList := by simp [items, hin]
  have hstart : DroppingRep n (hashes included) q.queue.toList q [] q.queue.toList q := by
    refine ⟨fun i hi => h.filled i (hitems ▸ hi), rfl, ?_, ⟨.refl _ _, h.legacy, h.inRange nofun⟩, [],
      rfl, by simp⟩
    rw [h.wal, (h.idle hin).2, hitems, List.append_nil]
    rfl
  unfold dropIncluded
  rw [wp_bind, wp_get, wp_bind]
  refine wp_imp (wp_dropLoop (fun _ _ _ _ _ _ hd hcase => hd.step hcase)
    (fun _ _ _ _ _ hd hne => ⟨hF _ hne, hd.trimmed⟩) _ hstart) ?_
  rintro kept q' ⟨_, hkept, hm, _, txs, htxs, hq'⟩
  have hkept : kept = remainingItems (hashes included) q.queue.toList :=
    (List.append_nil kept).symm.trans hkept
  subst hkept
  rw [wp_modify, hq']
  simp only [List.nil_append, List.append_nil] at hm
  rw [show allTxs ([] : List (QueuedItem Tx)) = [] from rfl, List.append_nil] at htxs
  rw [htxs]
  refine ⟨h.dropped hin hm, hin, ?_, rfl⟩
  show allTxs (q.queue.replace _).toList = _
  rw [HeadSlice.toList_replace]
  exact allTxs_remainingItems _ _

/-! ## Runs -/

/-- What can be done with a queue. A flag says whether a write succeeds; the other datastore
operations do. -/
inductive Op (Tx : Type) where
  | addBatch (put : Bool) (batch : List Tx)
  | drain (maxBytes : Nat)
  | setPostponed (txs : List Tx)
  | ack (put commit : Bool)
  | load
  | dropIncluded (included : List Tx)

def outcome (succeeds : Bool) : Outcome := if succeeds then .ok else .fail

def step (q : BatchQueue Tx) : Op Tx → BatchQueue Tx
  | .addBatch put batch => (addBatch (outcome put) batch q).2
  | .drain maxBytes => (drain .ok maxBytes q).2
  | .setPostponed txs => q.setPostponed txs
  | .ack put commit => (ack (outcome put) (outcome commit) q).2
  | .load => (load ⟨.ok, fun _ => .ok, fun _ => .ok, fun _ => .ok⟩ q).2
  | .dropIncluded included => (dropIncluded (fun _ => .ok) included q).2

/-- `SetPostponed` is between a `Drain` and its `Ack`, with some of the drained transactions, and
`DropIncluded` is called before anything is drained. -/
def Allowed (q : BatchQueue Tx) : Op Tx → Prop
  | .setPostponed txs => txs.Sublist (allTxs q.inFlight)
  | .dropIncluded _ => q.inFlight = []
  | _ => True

theorem wp_ok_only {σ ε α : Type} {p : Proc σ ε α} {Q : α → σ → Prop} {s : σ} {P : σ → Prop}
    (h : wp p Q (fun _ s' => False ∧ P s') (fun s' => False ∧ P s') s) : ∃ a, Q a (p s).2 := by
  rcases hp : p s with ⟨r, s'⟩
  cases r with
  | ok a => exact ⟨a, wp_ok h hp⟩
  | error e => exact (wp_error h hp).1.elim
  | crash => exact (wp_crash h hp).1.elim

theorem rep_step (hn : n + 1 < 2 ^ 63) (h : Rep n [] q) (op : Op Tx) (hop : Allowed q op) :
    Rep (n + 1) [] (step q op) := by
  have hmono : Rep (n + 1) [] q := h.mono (Nat.le_succ n)
  cases op with
  | addBatch put batch =>
    show Rep (n + 1) [] (addBatch (outcome put) batch q).2
    have hc := addBatch_cases (outcome put) batch q
    generalize addBatch (outcome put) batch q = r at hc
    cases hc with
    | nothing | refused _ => exact hmono
    | crash hput _ => cases put <;> cases hput
    | stored hne => exact h.added hn hne
  | drain maxBytes =>
    show Rep (n + 1) [] (drain .ok maxBytes q).2
    rcases drain_cases .ok maxBytes q with heq | heq
    · rw [heq]
      exact hmono
    · rw [heq]
      exact (h.drained (.inl rfl) maxBytes).1.mono (Nat.le_succ n)
  | setPostponed txs => exact (h.setPostponed hop).mono (Nat.le_succ n)
  | ack put commit =>
    show Rep (n + 1) [] (ack (outcome put) (outcome commit) q).2
    have hc := ack_cases (outcome put) (outcome commit) q
    generalize ack (outcome put) (outcome commit) q = r at hc
    cases hc with
    | putFailed _ | putCrash => exact hmono
    | deleteFailed _ _ | deleteCrash _ => exact h.postponedPersisted hn
    | acked => exact h.acked hn
  | load =>
    obtain ⟨_, hload⟩ := wp_ok_only (wp_load_rep
      ⟨.ok, fun _ => .ok, fun _ => .ok, fun _ => .ok⟩ (fun _ => by simp)
      (fun hne => absurd rfl hne) (fun _ hne => absurd rfl hne) (by omega : n < 2 ^ 63)
      (q := q) ⟨h.legacy, h.inRange nofun⟩)
    exact hload.rep.mono (Nat.le_succ n)
  | dropIncluded included =>
    obtain ⟨_, hdrop⟩ := wp_ok_only (wp_dropIncluded_rep (fun _ => .ok)
      (fun _ hne => absurd rfl hne) included h hop)
    exact hdrop.1.mono (Nat.le_succ n)

theorem rep_run (maxQueueSize : Int) (ops : List (Op Tx)) (hlen : ops.length < 2 ^ 63)
    (hmeets : Run.Meets step Allowed (newBatchQueue ⟨.empty, [], []⟩ maxQueueSize) ops) :
    Rep ops.length [] (Run.exec step (newBatchQueue ⟨.empty, [], []⟩ maxQueueSize) ops) := by
  have hrun := Run.invariant_counted (fun n q => Rep n [] q)
    (fun n q op hn h hop => rep_step hn h op hop) ops 0 _ (by omega)
    (rep_newBatchQueue maxQueueSize) hmeets
  rwa [Nat.zero_add] at hrun

/--
**The representation invariant**, for fewer than 2^63 operations.

The last part: an `AddBatch` that returns an error changes nothing.
-/
theorem queue_represented (maxQueueSize : Int) (ops : List (Op Tx)) (hlen : ops.length < 2 ^ 63)
    (hmeets : Run.Meets step Allowed (newBatchQueue ⟨.empty, [], []⟩ maxQueueSize) ops) :
    let q := Run.exec step (newBatchQueue ⟨.empty, [], []⟩ maxQueueSize) ops;
    ((q.items.map QueuedItem.key).Pairwise (· < ·) ∧
        ∀ i ∈ q.items, q.nextPrependSeq < i.key ∧ i.key < q.nextAddSeq) ∧
      ((allTxs q.items).map Transaction.hash).Nodup ∧
      q.txSeen = hashes (allTxs q.items) ∧
      (q.db.entries.entries = (q.postponedItem.toList ++ q.items).map entry ∧ q.db.legacy = []) ∧
      ∀ put batch e q', addBatch put batch q = (.error e, q') → q' = q := by
  intro q
  have h : Rep ops.length [] q := rep_run maxQueueSize ops hlen hmeets
  refine ⟨⟨h.sorted, fun i hi => h.between i (List.mem_append_right _ hi)⟩, h.unique, h.seen,
    ⟨?_, h.legacy⟩, fun put batch e q' heq => ?_⟩
  · rw [h.wal, List.append_nil]
  · have hc := addBatch_cases put batch q
    rw [heq] at hc
    cases hc
    rfl

end BatchQueue

namespace QueueRepRun

open BatchQueue

def start : BatchQueue RawTx := newBatchQueue ⟨.empty, [], []⟩ 0

def tx (k : Nat) : RawTx := ⟨k, 1⟩

/-- An ack that fails half way is rolled back by the next drain, and the queue is loaded again. -/
def ops : List (BatchQueue.Op RawTx) :=
  [.addBatch true [tx 1, tx 2], .addBatch false [tx 3], .drain 0, .setPostponed [tx 2],
    .ack true false, .drain 0, .setPostponed [tx 1], .ack true false, .load,
    .dropIncluded [tx 2], .addBatch true [tx 1, tx 4]]

/-- `SetPostponed` comes after the ack of the drain. -/
def late : List (BatchQueue.Op RawTx) :=
  [.addBatch true [tx 1], .drain 0, .ack true true, .setPostponed [tx 1], .ack true true]

/-- So many batches are added. -/
def adds (n : Nat) : List (BatchQueue.Op RawTx) :=
  (List.range n).map fun k => .addBatch true [tx k]

theorem addBatch_stored {q : BatchQueue RawTx} (hmax : q.maxQueueSize = 0) {batch : List RawTx}
    (hne : (dedup q.txSeen batch).1 ≠ []) :
    (addBatch .ok batch q).2 = added (dedup q.txSeen batch).1 (dedup q.txSeen batch).2 q := by
  have hfull : ¬ (0 < q.maxQueueSize ∧ q.maxQueueSize ≤ q.size) := by
    rw [hmax]
    simp
  unfold addBatch
  rw [get_bind_run, modify_bind_run, if_neg hne]
  simp only [hfull, decide_false]
  rfl

/-- After `n` new batches, the next sequence number has moved `n` times. -/
theorem exec_adds (n : Nat) : let q := Run.exec step start (adds n);
    q.maxQueueSize = 0 ∧ q.txSeen = Finset.range n ∧
      q.nextAddSeq = (initialSeqNum + n) % 2 ^ 64 ∧ q.items.length = n := by
  induction n with
  | zero => decide
  | succ n ih =>
    obtain ⟨hmax, hseen, hnext, hitems⟩ := ih
    have hrun : Run.exec step start (adds (n + 1)) =
        (addBatch .ok [tx n] (Run.exec step start (adds n))).2 := by
      unfold adds Run.exec
      rw [List.range_succ, List.map_append, List.foldl_append]
      rfl
    have hdedup : dedup (Run.exec step start (adds n)).txSeen [tx n] =
        ([tx n], Finset.range (n + 1)) := by
      rw [hseen, Finset.range_add_one]
      simp [dedup, tx, Transaction.hash]
    dsimp only
    rw [hrun, addBatch_stored hmax (by rw [hdedup]; simp), hdedup]
    refine ⟨hmax, rfl, ?_, ?_⟩
    · show ((Run.exec step start (adds n)).nextAddSeq + 1) % 2 ^ 64 = _
      rw [hnext]
      omega
    · simp only [items, added, HeadSlice.toList_push, List.length_append, List.length_singleton]
      simp only [items, List.length_append] at hitems
      omega

end QueueRepRun

open QueueRepRun in
theorem queue_represented_rolled_back :
    Run.Meets BatchQueue.step BatchQueue.Allowed start ops ∧
      ((Run.exec BatchQueue.step start ops).items.map QueuedItem.batch) = [[tx 1], [tx 4]] ∧
      (Run.exec BatchQueue.step start ops).txSeen =
        BatchQueue.hashes (QueuedItem.allTxs (Run.exec BatchQueue.step start ops).items) := by
  have hmeets : Run.Meets BatchQueue.step BatchQueue.Allowed start ops := by
    refine ⟨trivial, trivial, trivial, ?_, trivial, trivial, ?_, trivial, trivial, ?_, trivial,
      trivial⟩
    · exact (by decide : List.Sublist [tx 2] [tx 1, tx 2])
    · exact (by decide : List.Sublist [tx 1] [tx 1, tx 2])
    · exact (rfl : ([] : List (QueuedItem RawTx)) = [])
  exact ⟨hmeets, by decide, (BatchQueue.queue_represented 0 ops (by decide) hmeets).2.2.1⟩

open QueueRepRun in
/-- Postponing transactions of a drain that is acked already requeues them without their hashes. And
after 2^63 batches the next sequence number wraps to 0, below all keys. -/
theorem queue_represented_not_always :
    ((Run.exec BatchQueue.step start late).items.map QueuedItem.batch = [[tx 1]] ∧
        (Run.exec BatchQueue.step start late).txSeen = ∅) ∧
      (Run.exec BatchQueue.step start (adds (2 ^ 63))).nextAddSeq = 0 ∧
      (Run.exec BatchQueue.step start (adds (2 ^ 63))).items ≠ [] := by
  obtain ⟨_, _, hnext, hitems⟩ := exec_adds (2 ^ 63)
  refine ⟨by decide, hnext.trans (by decide), fun hnil => ?_⟩
  rw [hnil] at hitems
  exact absurd hitems (by decide)

end EvNode
