import EvNode.Properties.NewSequencer
import EvNode.Properties.QueueOnce

/-!
# Loading the queue

A new process reads the WAL into its queue and drops what the last block has. One transaction `t`
is followed through both: afterwards it waits at most once, only if the WAL had it, and not at all
if the last block has it. However the start ends, the WAL has `t` only if it had it before.
-/

namespace EvNode

open Crash Proc

variable {Tx : Type} [Transaction Tx]

namespace BatchQueue

/-! ## Duplicates -/

theorem dedup_sublist (l : List Tx) : ∀ seen, List.Sublist (dedup seen l).1 l := by
  induction l with
  | nil => exact fun _ => List.Sublist.refl _
  | cons tx rest ih =>
    intro seen
    unfold dedup
    split
    · exact (ih seen).cons tx
    · exact (ih _).cons_cons tx

theorem subset_dedup (l : List Tx) : ∀ seen, seen ⊆ (dedup seen l).2 := by
  induction l with
  | nil => exact fun _ => Finset.Subset.refl _
  | cons tx rest ih =>
    intro seen
    unfold dedup
    split
    · exact ih seen
    · exact (Finset.subset_insert _ _).trans (ih _)

/-- What is kept was not seen before, and is seen now. -/
theorem hash_of_mem_dedup (l : List Tx) : ∀ seen, ∀ x ∈ (dedup seen l).1,
    Transaction.hash x ∉ seen ∧ Transaction.hash x ∈ (dedup seen l).2 := by
  induction l with
  | nil => exact fun _ _ hx => absurd hx List.not_mem_nil
  | cons tx rest ih =>
    intro seen x hx
    unfold dedup at hx ⊢
    split at hx
    · next h =>
      rw [if_pos h]
      exact ih seen x hx
    · next h =>
      rw [if_neg h]
      rcases List.mem_cons.mp hx with rfl | hx
      · exact ⟨h, subset_dedup _ _ (Finset.mem_insert_self _ _)⟩
      · obtain ⟨hnew, hseen⟩ := ih _ x hx
        exact ⟨fun hmem => hnew (Finset.mem_insert_of_mem hmem), hseen⟩

theorem nodup_dedup (l : List Tx) : ∀ seen, ((dedup seen l).1.map Transaction.hash).Nodup := by
  induction l with
  | nil => exact fun _ => List.nodup_nil
  | cons tx rest ih =>
    intro seen
    unfold dedup
    split
    · exact ih seen
    · refine List.nodup_cons.mpr ⟨fun hmem => ?_, ih _⟩
      obtain ⟨x, hx, heq⟩ := List.mem_map.mp hmem
      exact (hash_of_mem_dedup rest _ x hx).1 (heq ▸ Finset.mem_insert_self _ _)

/-! ## Reading the WAL -/

/-- The queue while the WAL `w` is read, with the entries `rest` still to be read. -/
structure Loading (t : Tx) (w : Wal Tx) (rest : List (Nat × List Tx)) (q : BatchQueue Tx) :
    Prop where
  nodup : (q.waitingTxs.map Transaction.hash).Nodup
  seen : ∀ x ∈ q.waitingTxs, Transaction.hash x ∈ q.txSeen
  covered : ∀ k b, q.db.entries.get? k = some b → t ∈ b →
    Lists q.queue.toList k t ∨ (k, b) ∈ rest
  idle : q.Idle
  wal : w.Shrinks t q.db
  source : t ∈ q.waitingTxs → w.Has t
  unread : ∀ x ∈ rest, t ∈ x.2 → w.Has t

variable {t : Tx} {w : Wal Tx} {rest : List (Nat × List Tx)} {q : BatchQueue Tx}

theorem Loading.push (h : Loading t w rest q) {key : Nat} {batch : List Tx}
    (hsource : t ∈ batch → w.Has t) {db : Wal Tx} {rest' : List (Nat × List Tx)}
    (hcovered : ∀ k b, db.entries.get? k = some b → t ∈ b →
      Lists (q.queue.toList ++ [⟨(dedup q.txSeen batch).1, key⟩]) k t ∨ (k, b) ∈ rest')
    (hdb : w.Shrinks t db) (hunread : ∀ x ∈ rest', t ∈ x.2 → w.Has t) :
    Loading t w rest' { q with
      txSeen := (dedup q.txSeen batch).2
      db := db
      queue := q.queue.push ⟨(dedup q.txSeen batch).1, key⟩ } := by
  obtain ⟨q', hq'⟩ : ∃ q' : BatchQueue Tx, q' = { q with
    txSeen := (dedup q.txSeen batch).2
    db := db
    queue := q.queue.push ⟨(dedup q.txSeen batch).1, key⟩ } := ⟨_, rfl⟩
  have hitems : q'.queue.toList = q.queue.toList ++ [⟨(dedup q.txSeen batch).1, key⟩] := by
    rw [hq']
    exact HeadSlice.toList_push ..
  have hwaiting : q'.waitingTxs = q.waitingTxs ++ (dedup q.txSeen batch).1 := by
    unfold waitingTxs
    rw [hitems, List.flatMap_append]
    simp
  have hseen : q'.txSeen = (dedup q.txSeen batch).2 := by rw [hq']
  have hdb' : q'.db = db := by rw [hq']
  have hidle : q'.Idle := by
    rw [hq']
    exact ⟨h.idle.inFlight, h.idle.postponed, h.idle.item⟩
  rw [← hq']
  refine ⟨?_, ?_, ?_, hidle, ?_, ?_, hunread⟩
  · rw [hwaiting, List.map_append, List.nodup_append]
    refine ⟨h.nodup, nodup_dedup _ _, ?_⟩
    rintro x hx y hy rfl
    obtain ⟨a, ha, rfl⟩ := List.mem_map.mp hx
    obtain ⟨b, hb, heq⟩ := List.mem_map.mp hy
    exact (hash_of_mem_dedup _ _ b hb).1 (heq ▸ h.seen a ha)
  · rw [hwaiting, hseen]
    intro x hx
    rcases List.mem_append.mp hx with hx | hx
    · exact subset_dedup _ _ (h.seen x hx)
    · exact (hash_of_mem_dedup _ _ x hx).2
  · rw [hitems, hdb']
    exact hcovered
  · rw [hdb']
    exact hdb
  · rw [hwaiting]
    intro ht
    rcases List.mem_append.mp ht with ht | ht
    · exact h.source ht
    · exact hsource ((dedup_sublist _ _).subset ht)

/-- One entry is read: kept, rewritten without its duplicates, or deleted. -/
theorem wp_dedupAndEnqueueLocked {cleanup : Outcome} (hcleanup : cleanup ≠ .fail) {key : Nat}
    {batch : List Tx} (h : Loading t w ((key, batch) :: rest) q) :
    wp (dedupAndEnqueueLocked cleanup batch key) (fun _ => Loading t w rest) (fun _ _ => False)
      (fun q' => w.Shrinks t q'.db) q := by
  have hsource : t ∈ batch → w.Has t := h.unread _ List.mem_cons_self
  have hunread : ∀ x ∈ rest, t ∈ x.2 → w.Has t := fun x hx =>
    h.unread x (List.mem_cons_of_mem _ hx)
  have hfilter : t ∈ (dedup q.txSeen batch).1 → w.Has t := fun ht =>
    hsource ((dedup_sublist _ _).subset ht)
  -- the other entries
  have hother : ∀ k b, q.db.entries.get? k = some b → t ∈ b → k ≠ key →
      Lists q.queue.toList k t ∨ (k, b) ∈ rest := by
    intro k b hb ht hne
    rcases h.covered k b hb ht with hl | hmem
    · exact .inl hl
    · rcases List.mem_cons.mp hmem with heq | hmem
      · exact absurd (congrArg Prod.fst heq) hne
      · exact .inr hmem
  have hpush : ∀ {k}, Lists q.queue.toList k t →
      Lists (q.queue.toList ++ [⟨(dedup q.txSeen batch).1, key⟩]) k t :=
    fun hl => hl.mono (List.subset_append_left _ _)
  unfold dedupAndEnqueueLocked
  rw [wp_bind, wp_get, wp_bind, wp_modify]
  by_cases hnil : (dedup q.txSeen batch).1 = []
  · rw [if_pos hnil, wp_bind, wp_attempt]
    unfold deleteEntry
    rw [wp_io]
    refine ⟨fun _ => ?_, fun hf => absurd hf hcleanup, fun _ => h.wal⟩
    refine ⟨h.nodup, fun x hx => subset_dedup _ _ (h.seen x hx), ?_,
      ⟨h.idle.inFlight, h.idle.postponed, h.idle.item⟩, h.wal.delete key, h.source,
      hunread⟩
    intro k b hb ht
    have hb' : (q.db.entries.delete key).get? k = some b := hb
    rw [OrdMap.get?_delete] at hb'
    split at hb'
    · cases hb'
    · next hne => exact hother k b hb' ht hne
  · rw [if_neg hnil, wp_bind, wp_attempt]
    by_cases hlt : (dedup q.txSeen batch).1.length < batch.length
    · rw [if_pos hlt]
      unfold persistBatch
      rw [wp_io]
      refine ⟨fun _ => ?_, fun hf => absurd hf hcleanup, fun _ => h.wal⟩
      refine h.push hsource ?_ (h.wal.put key hfilter) hunread
      intro k b hb ht
      have hb' : (q.db.entries.put key (dedup q.txSeen batch).1).get? k = some b := hb
      rw [OrdMap.get?_put] at hb'
      split at hb'
      · next hk =>
        refine .inl ⟨_, List.mem_append_right _ List.mem_cons_self, hk.symm, ?_⟩
        rw [Option.some.inj hb']
        exact ht
      · next hne =>
        rcases hother k b hb' ht hne with hl | hmem
        · exact .inl (hpush hl)
        · exact .inr hmem
    · rw [if_neg hlt]
      have hall : (dedup q.txSeen batch).1 = batch :=
        (dedup_sublist _ _).eq_of_length_le (by omega)
      refine h.push hsource ?_ h.wal hunread
      intro k b hb ht
      rcases h.covered k b hb ht with hl | hmem
      · exact .inl (hpush hl)
      · rcases List.mem_cons.mp hmem with heq | hmem
        · obtain ⟨rfl, rfl⟩ := Prod.mk.inj heq
          refine .inl ⟨_, List.mem_append_right _ List.mem_cons_self, rfl, ?_⟩
          rw [hall]
          exact ht
        · exact .inr hmem

theorem wp_loadEntries {cleanup : Nat → Outcome} (hcleanup : ∀ k, cleanup k ≠ .fail)
    (rest : List (Nat × List Tx)) (h : Loading t w rest q) :
    wp (loadEntries cleanup rest) (fun _ => Loading t w []) (fun _ _ => False)
      (fun q' => w.Shrinks t q'.db) q := by
  induction rest generalizing q with
  | nil => exact h
  | cons entry rest ih =>
    obtain ⟨key, batch⟩ := entry
    unfold loadEntries
    rw [wp_bind, wp_modify, wp_bind]
    have hnote : Loading t w ((key, batch) :: rest) (noteSeq key q) :=
      ⟨h.nodup, h.seen, h.covered, ⟨h.idle.inFlight, h.idle.postponed, h.idle.item⟩, h.wal,
        h.source, h.unread⟩
    exact wp_imp (wp_dedupAndEnqueueLocked (hcleanup key) hnote) (fun _ _ h' => ih h')

/-- Legacy entries do not have `t`, so their migration does not touch it. -/
theorem wp_migrateLegacy {env : LoadEnv} (hcleanup : ∀ k, env.cleanup k ≠ .fail)
    (legacy : List (String × List Tx)) (hlegacy : ∀ x ∈ legacy, t ∉ x.2) (h : Loading t w [] q) :
    wp (migrateLegacy env legacy) (fun _ => Loading t w []) (fun _ _ => False)
      (fun q' => w.Shrinks t q'.db) q := by
  induction legacy generalizing q with
  | nil => exact h
  | cons entry rest ih =>
    obtain ⟨key, batch⟩ := entry
    have ht : t ∉ batch := hlegacy (key, batch) List.mem_cons_self
    have hrest : ∀ {q}, Loading t w [] q → wp (migrateLegacy env rest) (fun _ => Loading t w [])
        (fun _ _ => False) (fun q' => w.Shrinks t q'.db) q :=
      fun h' => ih (fun x hx => hlegacy x (List.mem_cons_of_mem _ hx)) h'
    unfold migrateLegacy
    rw [wp_bind, wp_get, wp_bind, wp_attempt]
    unfold persistBatch
    rw [wp_io]
    refine ⟨fun _ => ?_, fun _ => hrest h, fun _ => h.wal⟩
    -- the new entry is there, and the old one is deleted or not
    have hput : ∀ legacy' ⊆ q.db.legacy, Loading t w [(q.nextAddSeq, batch)] { q with
        db := { q.db with
          entries := q.db.entries.put q.nextAddSeq batch
          legacy := legacy' } } := by
      intro legacy' hsub
      have hwal := h.wal.put q.nextAddSeq fun hmem => absurd hmem ht
      refine ⟨h.nodup, h.seen, ?_, ⟨h.idle.inFlight, h.idle.postponed, h.idle.item⟩,
        ⟨hwal.has, fun hl x hx => h.wal.legacy hl x (hsub hx), h.wal.accepted⟩, h.source, ?_⟩
      · intro k b hb hmem
        have hb' : (q.db.entries.put q.nextAddSeq batch).get? k = some b := hb
        rw [OrdMap.get?_put] at hb'
        split at hb'
        · rw [← Option.some.inj hb'] at hmem
          exact absurd hmem ht
        · rcases h.covered k b hb' hmem with hl | hnil
          · exact .inl hl
          · exact absurd hnil List.not_mem_nil
      · rintro x hx hmem
        rw [List.mem_singleton.mp hx] at hmem
        exact absurd hmem ht
    have hkeep : ∀ {q'}, Loading t w [(q.nextAddSeq, batch)] q' →
        wp (dedupAndEnqueueLocked (env.cleanup q.nextAddSeq) batch q.nextAddSeq >>= fun _ =>
            modify (fun bq => { bq with nextAddSeq := (bq.nextAddSeq + 1) % 2 ^ 64 }) >>= fun _ =>
              migrateLegacy env rest)
          (fun _ => Loading t w []) (fun _ _ => False) (fun q' => w.Shrinks t q'.db) q' := by
      intro q' h'
      rw [wp_bind]
      refine wp_imp (wp_dedupAndEnqueueLocked (hcleanup _) h') ?_
      intro _ q2 h2
      rw [wp_bind, wp_modify]
      exact hrest ⟨h2.nodup, h2.seen, h2.covered,
        ⟨h2.idle.inFlight, h2.idle.postponed, h2.idle.item⟩, h2.wal, h2.source, h2.unread⟩
    dsimp only
    rw [wp_bind, wp_attempt, wp_io]
    have hsame := hput q.db.legacy (List.Subset.refl _)
    exact ⟨fun _ => hkeep (hput _ (List.filter_subset_self _)), fun _ => hkeep hsame, fun _ => hsame.wal⟩

variable [DecidableEq Tx]

/-- What a complete load leaves in the queue. -/
structure Loaded (t : Tx) (w : Wal Tx) (q : BatchQueue Tx) : Prop where
  heldOnce : q.HeldOnce t
  idle : q.Idle
  wal : w.Shrinks t q.db
  source : t ∈ q.waitingTxs → w.Has t

theorem Loading.loaded (h : Loading t w [] q) : Loaded t w q := by
  refine ⟨⟨?_, ?_, ?_, ?_⟩, h.idle, h.wal, h.source⟩
  · have hflying : q.flyingTxs = [] := by
      unfold flyingTxs
      rw [h.idle.inFlight]
      rfl
    rw [hflying, List.count_nil]
    exact List.nodup_iff_count_le_one.mp h.nodup.of_map t
  · intro k b hb ht
    rcases h.covered k b hb ht with hl | hnil
    · exact .inl hl
    · exact absurd hnil List.not_mem_nil
  · rw [h.idle.postponed, List.count_nil]
    exact Nat.zero_le _
  · intro i hi
    rw [h.idle.item] at hi
    cases hi

theorem wp_load {env : LoadEnv} (hcleanup : ∀ k, env.cleanup k ≠ .fail) (q : BatchQueue Tx)
    (hlegacy : ∀ x ∈ q.db.legacy, t ∉ x.2) :
    wp (load env) (fun _ => Loaded t q.db) (fun _ q' => q.db.Shrinks t q'.db)
      (fun q' => q.db.Shrinks t q'.db) q := by
  have hstart : Loading t q.db q.db.entries.entries (newBatchQueue q.db q.maxQueueSize) := by
    refine ⟨List.nodup_nil, fun _ hx => absurd hx List.not_mem_nil,
      fun k b hb _ => .inr (OrdMap.mem_entries.mpr hb), ⟨rfl, rfl, rfl⟩, .refl t q.db,
      fun hx => absurd hx List.not_mem_nil, ?_⟩
    rintro ⟨k, b⟩ hx ht
    exact ⟨k, b, OrdMap.mem_entries.mp hx, ht⟩
  unfold load
  rw [wp_bind, wp_modify, wp_bind, wp_io]
  refine ⟨fun _ => ?_, fun _ => .refl t q.db, fun _ => .refl t q.db⟩
  rw [wp_bind, wp_get, wp_bind]
  refine wp_mono (wp_loadEntries hcleanup _ hstart) ?_ (fun _ _ hf => hf.elim) (fun _ hs => hs)
  intro _ q1 h1
  exact wp_mono (wp_migrateLegacy hcleanup q.db.legacy hlegacy h1) (fun _ _ h2 => h2.loaded)
    (fun _ _ hf => hf.elim) (fun _ hs => hs)

/-! ## Dropping what the last block has -/

section
omit [DecidableEq Tx]
variable {included : Finset Nat} {i : QueuedItem Tx} {here kept items : List (QueuedItem Tx)}
variable {m m' : OrdMap Nat (List Tx)}

/-- What the last block does not have of a batch. -/
def remaining (included : Finset Nat) (batch : List Tx) : List Tx :=
  batch.filter fun tx => Transaction.hash tx ∉ included

/-- What one round of the loop keeps of an entry, and what it leaves in the WAL. -/
inductive DropCase (included : Finset Nat) (i : QueuedItem Tx) (m : OrdMap Nat (List Tx)) :
    List (QueuedItem Tx) → OrdMap Nat (List Tx) → Prop
  | keep (h : remaining included i.batch = i.batch) : DropCase included i m [i] m
  | delete (h : remaining included i.batch = []) : DropCase included i m [] (m.delete i.key)
  | put (h : remaining included i.batch ≠ []) :
    DropCase included i m [{ i with batch := remaining included i.batch }]
      (m.put i.key (remaining included i.batch))

theorem DropCase.flatMap (h : DropCase included i m here m') :
    here.flatMap QueuedItem.batch = remaining included i.batch := by
  cases h with
  | keep h => simp [h]
  | delete h => simp [h]
  | put => simp

/-- The loop over the waiting entries keeps `I`, which is about the entries kept so far and those to
come. -/
theorem wp_dropLoop {write : Nat → Outcome}
    {I : List (QueuedItem Tx) → List (QueuedItem Tx) → BatchQueue Tx → Prop}
    {E : BatchQueue Tx → Prop}
    (hstep : ∀ kept i rest q here m, I kept (i :: rest) q →
      DropCase included i q.db.entries here m → I (kept ++ here) rest
        { rollbackSeenLocked (i.batch.filter fun tx => Transaction.hash tx ∈ included) q with
          db := { q.db with entries := m } })
    (hfail : ∀ kept i rest q txs, I kept (i :: rest) q → write i.key ≠ .ok →
      E (rollbackSeenLocked txs q)) (items : List (QueuedItem Tx)) (h : I kept items q) :
    wp (dropLoop write included items) (fun here => I (kept ++ here) []) (fun _ => E) E q := by
  induction items generalizing q kept with
  | nil =>
    show I (kept ++ []) [] q
    rw [List.append_nil]
    exact h
  | cons i rest ih =>
    have hrest : ∀ {here m}, DropCase included i q.db.entries here m →
        wp (dropLoop write included rest >>= fun more => pure (here ++ more))
          (fun here => I (kept ++ here) []) (fun _ => E) E
          { rollbackSeenLocked (i.batch.filter fun tx => Transaction.hash tx ∈ included) q with
            db := { q.db with entries := m } } := by
      intro here m hcase
      rw [wp_bind]
      refine wp_imp (ih (hstep kept i rest q here m h hcase)) fun more q' h' => ?_
      rw [List.append_assoc] at h'
      exact h'
    have hwrite : write i.key ≠ .ok → ∀ txs, E (rollbackSeenLocked txs q) := fun hne txs =>
      hfail kept i rest q txs h hne
    have hsub : List.Sublist (remaining included i.batch) i.batch := List.filter_sublist
    unfold dropLoop
    dsimp only
    rw [wp_bind, wp_modify]
    by_cases hall : (remaining included i.batch).length = i.batch.length
    · rw [if_pos (show (List.filter _ _).length = _ from hall)]
      exact hrest (.keep (hsub.eq_of_length hall))
    · rw [if_neg (show ¬(List.filter _ _).length = _ from hall)]
      by_cases hnil : remaining included i.batch = []
      · rw [if_pos (show List.filter _ _ = _ from hnil), wp_bind, wp_mapError]
        unfold deleteEntry
        rw [wp_io]
        exact ⟨fun _ => hrest (.delete hnil), fun hf => hwrite (by simp [hf]) _,
          fun hc => hwrite (by simp [hc]) _⟩
      · rw [if_neg (show ¬List.filter _ _ = _ from hnil), wp_bind, wp_mapError]
        unfold persistBatch
        rw [wp_io]
        exact ⟨fun _ => hrest (.put hnil), fun hf => hwrite (by simp [hf]) _,
          fun hc => hwrite (by simp [hc]) _⟩

/-- The queue in the loop that started from `q₀` with the entries `all`. -/
structure Dropping (t : Tx) (w : Wal Tx) (included : Finset Nat) (all : List (QueuedItem Tx))
    (q₀ : BatchQueue Tx) (kept items : List (QueuedItem Tx)) (q : BatchQueue Tx) : Prop where
  frame : ∃ seen db, q = { q₀ with txSeen := seen, db := db }
  wal : w.Shrinks t q.db
  covered : ∀ k b, q.db.entries.get? k = some b → t ∈ b → Lists (kept ++ items) k t
  sublist : List.Sublist ((kept ++ items).flatMap QueuedItem.batch) (all.flatMap QueuedItem.batch)
  gone : Transaction.hash t ∈ included → t ∉ kept.flatMap QueuedItem.batch

/-- One round, of which `t` is in the WAL only if it is listed. -/
theorem Dropping.step {all rest : List (QueuedItem Tx)} {q₀ : BatchQueue Tx}
    (hsource : t ∈ all.flatMap QueuedItem.batch → w.Has t)
    (h : Dropping t w included all q₀ kept (i :: rest) q)
    (hcase : DropCase included i q.db.entries here m) (txs : List Tx) :
    Dropping t w included all q₀ (kept ++ here) rest
      { rollbackSeenLocked txs q with db := { q.db with entries := m } } := by
  obtain ⟨seen, db, rfl⟩ := h.frame
  have hflat := hcase.flatMap
  have hsub : List.Sublist (here.flatMap QueuedItem.batch) i.batch := hflat ▸ List.filter_sublist
  have hother : ∀ {k}, k ≠ i.key → Lists (kept ++ i :: rest) k t →
      Lists (kept ++ here ++ rest) k t := by
    rintro k hne ⟨x, hmem, hkey, ht⟩
    refine ⟨x, ?_, hkey, ht⟩
    rcases List.mem_append.mp hmem with hmem | hmem
    · exact List.mem_append_left _ (List.mem_append_left _ hmem)
    · rcases List.mem_cons.mp hmem with rfl | hmem
      · exact absurd hkey.symm hne
      · exact List.mem_append_right _ hmem
  refine ⟨⟨_, _, rfl⟩, ?_, fun k b hb ht => ?_, ?_, fun hin => ?_⟩
  · cases hcase with
    | keep => exact h.wal
    | delete => exact h.wal.delete i.key
    | put =>
      refine h.wal.put i.key fun ht => hsource (h.sublist.subset ?_)
      rw [List.flatMap_append, List.flatMap_cons]
      exact List.mem_append_right _ (List.mem_append_left _ (List.filter_sublist.subset ht))
  · have hb' : m.get? k = some b := hb
    cases hcase with
    | keep =>
      rw [List.append_assoc]
      exact h.covered k b hb' ht
    | delete =>
      rw [OrdMap.get?_delete] at hb'
      split at hb'
      · cases hb'
      · next hne => exact hother hne (h.covered k b hb' ht)
    | put =>
      rw [OrdMap.get?_put] at hb'
      split at hb'
      · next hk =>
        refine ⟨{ i with batch := remaining included i.batch }, by simp, hk.symm, ?_⟩
        rw [Option.some.inj hb']
        exact ht
      · next hne => exact hother hne (h.covered k b hb' ht)
  · refine List.Sublist.trans ?_ h.sublist
    rw [List.append_assoc, List.flatMap_append, List.flatMap_append, List.flatMap_append,
      List.flatMap_cons]
    exact (List.Sublist.refl _).append (hsub.append (List.Sublist.refl _))
  · rw [List.flatMap_append, List.mem_append, not_or, hflat]
    refine ⟨h.gone hin, fun hmem => ?_⟩
    exact of_decide_eq_true (List.mem_filter.mp hmem).2 hin

end

theorem wp_dropIncluded (write : Nat → Outcome) (included : List Tx) (h : Loaded t w q) :
    wp (dropIncluded write included)
      (fun _ q' => Loaded t w q' ∧ (t ∈ included → t ∉ q'.waitingTxs))
      (fun _ q' => w.Shrinks t q'.db) (fun q' => w.Shrinks t q'.db) q := by
  have hflying : q.flyingTxs = [] := by
    unfold flyingTxs
    rw [h.idle.inFlight]
    rfl
  have hcovered : ∀ k b, q.db.entries.get? k = some b → t ∈ b →
      Lists ([] ++ q.queue.toList) k t := by
    intro k b hb ht
    rcases h.heldOnce.covered k b hb ht with hl | hl | hl
    · exact hl
    · rw [h.idle.inFlight] at hl
      obtain ⟨_, hmem, _⟩ := hl
      exact absurd hmem List.not_mem_nil
    · rw [h.idle.item] at hl
      obtain ⟨_, hmem, _⟩ := hl
      exact absurd hmem List.not_mem_nil
  unfold dropIncluded
  rw [wp_bind, wp_get, wp_bind]
  have hstart : Dropping t w (included.map Transaction.hash).toFinset q.queue.toList q []
      q.queue.toList q :=
    ⟨⟨_, _, rfl⟩, h.wal, hcovered, List.Sublist.refl _, fun _ => List.not_mem_nil⟩
  refine wp_imp (wp_dropLoop (fun _ _ _ _ _ _ hd hcase => hd.step h.source hcase _)
    (fun _ _ _ _ _ hd _ => hd.wal) _ hstart) ?_
  rintro kept _ ⟨⟨seen, db, rfl⟩, hwal, hcov, hsub, hno⟩
  rw [List.nil_append, List.append_nil] at hsub
  rw [List.nil_append] at hno
  simp only [List.nil_append, List.append_nil] at hcov
  rw [wp_modify]
  obtain ⟨q', hq'⟩ : ∃ q' : BatchQueue Tx, q' = { q with
    txSeen := seen, db := db, queue := q.queue.replace kept } := ⟨_, rfl⟩
  have hitems : q'.queue.toList = kept := by
    rw [hq']
    exact HeadSlice.toList_replace ..
  have hwaiting : q'.waitingTxs = kept.flatMap QueuedItem.batch := by
    unfold waitingTxs
    rw [hitems]
  have hcount : q'.waitingTxs.count t ≤ q.waitingTxs.count t := by
    rw [hwaiting]
    exact hsub.count_le t
  have hidle : q'.Idle := by
    rw [hq']
    exact ⟨h.idle.inFlight, h.idle.postponed, h.idle.item⟩
  have hflying' : q'.flyingTxs = [] := by
    rw [hq']
    exact hflying
  have hdb : q'.db = db := by rw [hq']
  rw [← hq']
  refine ⟨⟨⟨?_, ?_, ?_, ?_⟩, hidle, ?_, ?_⟩, ?_⟩
  · have hone := h.heldOnce.once
    rw [hflying, List.count_nil] at hone
    rw [hflying', List.count_nil]
    omega
  · intro k b hb ht
    rw [hitems]
    rw [hdb] at hb
    exact .inl (hcov k b hb ht)
  · rw [hidle.postponed, List.count_nil]
    exact Nat.zero_le _
  · intro i hi
    rw [hidle.item] at hi
    cases hi
  · rw [hdb]
    exact hwal
  · rw [hwaiting]
    exact fun ht => h.source (hsub.subset ht)
  · rw [hwaiting]
    intro ht
    exact hno (List.mem_toFinset.mpr (List.mem_map_of_mem ht))

end BatchQueue

namespace Sequencer

variable [DecidableEq Tx] {t : Tx}

/-- What a start leaves in the queue: `t` only if the WAL had it, and not if the last block of
`view` has it. -/
structure QueueLoaded (t : Tx) (w : Wal Tx) (view : ChainView Tx) (q : BatchQueue Tx) : Prop where
  loaded : BatchQueue.Loaded t w q
  reconciled : ∀ txs, view.height ≠ 0 → view.blockTxs = some txs → t ∈ txs → t ∉ q.waitingTxs

theorem newSequencer_queue (cfg : SequencerConfig) {env : StartEnv}
    (hcleanup : ∀ k, env.load.cleanup k ≠ .fail) (view : ChainView Tx) (s : Sequencer Tx)
    (hlegacy : ∀ x ∈ s.queue.db.legacy, t ∉ x.2) :
    wp (newSequencer cfg env view) (fun _ s' => QueueLoaded t s.queue.db view s'.queue)
      (fun _ s' => s.queue.db.Shrinks t s'.queue.db) (fun s' => s.queue.db.Shrinks t s'.queue.db)
      s := by
  have hread : ∀ {s1 : Sequencer Tx}, BatchQueue.Loaded t s.queue.db s1.queue →
      wp (reconcileQueueWithLastBlock env view)
        (fun _ s' => QueueLoaded t s.queue.db view s'.queue)
        (fun _ s' => s.queue.db.Shrinks t s'.queue.db)
        (fun s' => s.queue.db.Shrinks t s'.queue.db) s1 := by
    intro s1 h1
    unfold reconcileQueueWithLastBlock
    rw [wp_bind, wp_get]
    by_cases hsize : s1.queue.size = 0
    · rw [if_pos hsize]
      -- an empty queue has nothing to drop
      refine ⟨h1, fun _ _ _ _ ht => ?_⟩
      have hlen : s1.queue.queue.toList.length = 0 := by
        rw [← HeadSlice.length_eq]
        unfold BatchQueue.size at hsize
        omega
      unfold BatchQueue.waitingTxs at ht
      rw [List.length_eq_zero_iff.mp hlen] at ht
      exact List.not_mem_nil ht
    · rw [if_neg hsize, wp_bind, wp_io]
      refine ⟨fun _ => ?_, fun _ => h1.wal, fun _ => h1.wal⟩
      by_cases hheight : view.height = 0
      · rw [if_pos hheight]
        exact ⟨h1, fun _ hne => absurd hheight hne⟩
      · rw [if_neg hheight]
        cases hblock : view.blockTxs with
        | none => exact h1.wal
        | some txs =>
          cases txs with
          | nil =>
            refine ⟨h1, fun txs _ htxs ht => ?_⟩
            rw [hblock] at htxs
            rw [← Option.some.inj htxs] at ht
            exact absurd ht List.not_mem_nil
          | cons tx rest =>
            show wp (onQueue (BatchQueue.dropIncluded env.dropWrite (tx :: rest))) _ _ _ s1
            unfold onQueue
            rw [wp_zoom]
            refine wp_imp (BatchQueue.wp_dropIncluded env.dropWrite (tx :: rest) h1) ?_
            rintro _ q ⟨hq, hno⟩
            refine ⟨hq, fun txs _ htxs ht => hno ?_⟩
            rw [hblock] at htxs
            rw [Option.some.inj htxs]
            exact ht
  unfold newSequencer
  rw [wp_bind, wp_modify, wp_bind, wp_mapError]
  unfold onQueue
  rw [wp_zoom]
  refine wp_imp (BatchQueue.wp_load hcleanup (blank cfg s.queue.db s.checkpointStore).queue hlegacy)
    ?_
  intro _ q1 h1
  rw [wp_bind, wp_mapError]
  refine wp_imp (hread h1) ?_
  intro _ s2 h2
  rw [wp_bind, wp_io]
  exact ⟨fun _ => h2, fun _ => h2.loaded.wal, fun _ => h2.loaded.wal⟩

end Sequencer

end EvNode
