import EvNode.Properties.Moves
import EvNode.Properties.Reprocess

/-!
# What the retriever keeps of committed blocks

Data stays in `pendingData` until an event of its block from DA is handled. `PipeEvent` drops an event
whose header was seen, so data that is read after its block was committed from P2P stays for good
(`read_after_commit_leaks`).
-/

namespace EvNode

open Crash Proc DARetriever

variable {Tx : Type}

namespace DANode

variable (cfg : DANodeConfig Tx) (b : Blocks Tx)

/-- The header is that of an empty block. -/
def EmptyBlock (header : SignedHeader) : Prop :=
  b.OwnHeader header ∧ isEmptyDataExpected cfg.retriever header = true

def HeaderAbove (height : Nat) (header : SignedHeader) : Prop :=
  b.OwnHeader header ∧
    (isEmptyDataExpected cfg.retriever header = true ∨ height < header.header.height)

def DataAbove (height : Nat) (data : Data Tx) : Prop :=
  b.OwnData cfg.retriever data ∧ height < data.height

/-- P2P offers empty blocks only, and of other blocks only such blobs are read whose block is not
committed. The node has no raft. -/
def Orderly (n : DANode Tx) : Op Tx → Prop
  | .scan env blobs _ => ∀ bz ∈ blobs, Carries cfg.retriever
      (HeaderAbove cfg b n.syncer.store.height) (DataAbove cfg b n.syncer.store.height)
      (blobEnv env n.syncer) bz
  | .syncer (.processHeight _ header _) => EmptyBlock cfg b header
  | .syncer (.pipeEvent _ _) => False
  | .syncer (.recoverFromRaft _ _) => False
  | .syncer _ => True

instance (header : SignedHeader) : Decidable (EmptyBlock cfg b header) :=
  inferInstanceAs (Decidable (b.OwnHeader header ∧
    isEmptyDataExpected cfg.retriever header = true))

instance (height : Nat) : DecidablePred (HeaderAbove cfg b height) := fun header =>
  inferInstanceAs (Decidable (b.OwnHeader header ∧
    (isEmptyDataExpected cfg.retriever header = true ∨ height < header.header.height)))

instance [DecidableEq Tx] (height : Nat) : DecidablePred (DataAbove cfg b height) := fun data =>
  inferInstanceAs (Decidable (b.OwnData cfg.retriever data ∧ height < data.height))

instance [DecidableEq Tx] (n : DANode Tx) (op : DANode.Op Tx) : Decidable (Orderly cfg b n op) := by
  induction op using DANode.Op.casesOn with
  | scan => exact inferInstanceAs (Decidable (∀ _ ∈ _, _))
  | syncer op =>
    induction op using Syncer.Op.casesOn <;> dsimp only [Orderly] <;> infer_instance

/-- A block that is not empty comes from DA, and its data waits until it is committed. -/
def Awaited (n : DANode Tx) (event : DAHeightEvent Tx) : Prop :=
  b.OwnHeader event.header ∧
    (isEmptyDataExpected cfg.retriever event.header = false → event.source = .da ∧
      (n.syncer.store.height < event.header.header.height →
        (n.part.pendingData.get? event.header.header.height).isSome))

/-- Nothing waits at or below the store height. -/
structure Tidy (n : DANode Tx) : Prop where
  holds : Holds (fun header => b.OwnHeader header ∧ n.syncer.store.height < header.header.height)
    (DataAbove cfg b n.syncer.store.height) n.part
  unmatched : ∀ {h header}, n.part.pendingHeaders.get? h = some header →
    dataFor cfg.retriever n.part.pendingData h header = none
  queued : ∀ {event}, n.syncer.Queued event → Awaited cfg b n event
  seen : ∀ {hash}, n.syncer.cache.isHeaderSeen hash = true →
    ∃ h ≤ n.syncer.store.height, hash = cfg.hashes.headerHash (b.header h).header

variable {cfg b} {n : DANode Tx}

/-! ## Steps of the syncer -/

variable {s' : Syncer Tx} {event : DAHeightEvent Tx}

theorem Tidy.withSyncer (h : Tidy cfg b n) (hstore : s'.store = n.syncer.store)
    (hqueued : ∀ {event}, s'.Queued event → Awaited cfg b n event)
    (hseen : ∀ {hash}, s'.cache.isHeaderSeen hash = true → n.syncer.cache.isHeaderSeen hash = true) :
    Tidy cfg b (n.withSyncer s') where
  holds := by
    show Holds (fun header => b.OwnHeader header ∧ s'.store.height < header.header.height)
      (DataAbove cfg b s'.store.height) n.part
    rw [hstore]
    exact h.holds
  unmatched := h.unmatched
  queued := by
    intro event hq
    have hawaited := hqueued hq
    unfold Awaited at hawaited ⊢
    rw [← hstore] at hawaited
    exact hawaited
  seen := by
    intro hash hs
    show ∃ h ≤ s'.store.height, _
    rw [hstore]
    exact h.seen (hseen hs)

theorem Tidy.requeued (h : Tidy cfg b n) {new : DAHeightEvent Tx → Prop}
    (hs : Syncer.Requeued new n.syncer s') (hnew : ∀ {event}, new event → Awaited cfg b n event) :
    Tidy cfg b (n.withSyncer s') := by
  refine h.withSyncer hs.buffered.store (fun hq => (hs.queued hq).elim h.queued hnew) ?_
  unfold CacheManager.isHeaderSeen
  rw [hs.buffered.headerCache]
  exact id

theorem EmptyBlock.awaited (event : DAHeightEvent Tx) (h : EmptyBlock cfg b event.header) :
    Awaited cfg b n event := by
  refine ⟨h.1, fun hnonempty => ?_⟩
  rw [h.2] at hnonempty
  cases hnonempty

theorem get?_removePendingData (r : DARetriever Tx) (height h : Nat) :
    (r.removePendingData height).pendingData.get? h =
      if h = height then none else r.pendingData.get? h :=
  OrdMap.get?_delete ..

theorem dataFor_removePendingData {r : DARetriever Tx} {height h : Nat} {header : SignedHeader}
    (hnone : dataFor cfg.retriever r.pendingData h header = none) :
    dataFor cfg.retriever (r.removePendingData height).pendingData h header = none := by
  unfold dataFor at hnone ⊢
  rw [get?_removePendingData]
  split at hnone
  · cases hnone
  · next hget =>
    rw [hget, ite_self]
    exact hnone

theorem Tidy.removed (h : Tidy cfg b n) {height : Nat} (hle : height ≤ n.syncer.store.height) :
    Tidy cfg b { n with part := n.part.removePendingData height } where
  holds := by
    refine ⟨h.holds.header, fun {k data} hget => ?_⟩
    rw [get?_removePendingData] at hget
    split at hget
    · cases hget
    · exact h.holds.data hget
  unmatched hget := dataFor_removePendingData (h.unmatched hget)
  queued hq := by
    obtain ⟨hown, hda⟩ := h.queued hq
    refine ⟨hown, fun hnonempty => ⟨(hda hnonempty).1, fun hlt => ?_⟩⟩
    dsimp only at hlt ⊢
    rw [get?_removePendingData, if_neg (by omega)]
    exact (hda hnonempty).2 hlt
  seen := h.seen

theorem Tidy.removePendingDAData (h : Tidy cfg b n)
    (hle : event.header.header.height ≤ n.syncer.store.height) :
    Tidy cfg b { n with part := n.part.removePendingDAData event } := by
  unfold DARetriever.removePendingDAData
  split
  · exact h
  · exact h.removed hle

/-- An event whose header was seen is for a committed block. -/
theorem Tidy.height_le_of_seen (h : Tidy cfg b n)
    (hinj : ∀ h h', cfg.hashes.headerHash (b.header h).header =
      cfg.hashes.headerHash (b.header h').header → h = h') (hown : b.OwnHeader event.header)
    (hseen : n.syncer.cache.isHeaderSeen (Syncer.headerHash cfg.toSyncerConfig event) = true) :
    event.header.header.height ≤ n.syncer.store.height := by
  obtain ⟨k, hk, hhash⟩ := h.seen hseen
  have hhash' : cfg.hashes.headerHash (b.header event.header.header.height).header =
      cfg.hashes.headerHash (b.header k).header :=
    (congrArg (fun sh : SignedHeader => cfg.hashes.headerHash sh.header) hown).symm.trans hhash
  rw [hinj _ _ hhash']
  exact hk

variable [Transaction Tx]

theorem Tidy.committed (h : Tidy cfg b n) {env : SyncEnv Tx} {count : Nat}
    (hnext : event.header.header.height = n.syncer.store.height + 1)
    (hawaited : Awaited cfg b n event) :
    Tidy cfg b (n.synced DARetriever.hooks cfg.toSyncerConfig env event n.syncer.lastState count) := by
  obtain ⟨hown, hda⟩ := hawaited
  have hheight : (Syncer.afterCommit cfg.toSyncerConfig env event n.syncer.lastState count
      n.syncer).store.height = event.header.header.height := Syncer.afterCommit_height (by omega)
  have hdata : ∀ k, (n.part.removePendingDAData event).pendingData.get? k =
      if event.source = .da ∧ k = event.header.header.height then none
      else n.part.pendingData.get? k := by
    intro k
    unfold DARetriever.removePendingDAData
    by_cases hsrc : event.source = .da
    · rw [if_neg (not_not.mpr hsrc), get?_removePendingData]
      simp [hsrc]
    · rw [if_pos hsrc, if_neg fun hif => hsrc hif.1]
  have hheaders : (n.part.removePendingDAData event).pendingHeaders = n.part.pendingHeaders := by
    unfold DARetriever.removePendingDAData
    split <;> rfl
  constructor
  · -- the header and the data of this block do not wait any more
    constructor
    · intro k header hget
      have hget : n.part.pendingHeaders.get? k = some header := hheaders ▸ hget
      obtain ⟨hk, hheader, hlt⟩ := h.holds.header hget
      refine ⟨hk, hheader, ?_⟩
      show (Syncer.afterCommit _ _ _ _ _ _).store.height < _
      rw [hheight]
      refine Nat.lt_of_le_of_ne (by omega) fun heq => ?_
      have hsame : header = event.header := by rw [hheader, ← heq, ← hown]
      have hnone := h.unmatched hget
      unfold dataFor at hnone
      rw [hsame] at hk hnone
      cases hempty : isEmptyDataExpected cfg.retriever event.header with
      | true => split at hnone <;> simp_all
      | false =>
        have hsome := (hda hempty).2 (by omega)
        rw [hk] at hsome
        split at hnone
        · cases hnone
        · next hget' =>
          rw [hget'] at hsome
          cases hsome
    · intro k data hget
      have hget : (n.part.removePendingDAData event).pendingData.get? k = some data := hget
      rw [hdata] at hget
      split at hget
      · cases hget
      · next hkeep =>
        obtain ⟨hk, ⟨hdataOwn, hnonempty⟩, hlt⟩ := h.holds.data hget
        refine ⟨hk, ⟨hdataOwn, hnonempty⟩, ?_⟩
        show (Syncer.afterCommit _ _ _ _ _ _).store.height < _
        rw [hheight]
        refine Nat.lt_of_le_of_ne (by omega) fun heq => hkeep ⟨?_, by omega⟩
        rw [← heq, ← hown] at hnonempty
        exact (hda hnonempty).1
  · intro k header hget
    have hget : n.part.pendingHeaders.get? k = some header := hheaders ▸ hget
    show dataFor cfg.retriever (n.part.removePendingDAData event).pendingData k header = none
    have hnone := h.unmatched hget
    unfold dataFor at hnone ⊢
    rw [hdata]
    split at hnone
    · cases hnone
    · next hget' =>
      rw [hget', ite_self]
      exact hnone
  · intro x hq
    obtain ⟨hx, hxda⟩ := h.queued (Syncer.afterCommit_queued hq)
    refine ⟨hx, fun hnonempty => ⟨(hxda hnonempty).1, fun hlt => ?_⟩⟩
    have hlt : (Syncer.afterCommit cfg.toSyncerConfig env event n.syncer.lastState count
      n.syncer).store.height < x.header.header.height := hlt
    rw [hheight] at hlt
    show ((n.part.removePendingDAData event).pendingData.get? _).isSome
    rw [hdata, if_neg (by omega)]
    exact (hxda hnonempty).2 (by omega)
  · intro hash hseen
    show ∃ k ≤ (Syncer.afterCommit _ _ _ _ _ _).store.height, _
    rw [hheight]
    rcases Syncer.afterCommit_seen hseen with hseen | rfl
    · obtain ⟨k, hk, hhash⟩ := h.seen hseen
      exact ⟨k, by omega, hhash⟩
    · exact ⟨_, Nat.le_refl _, congrArg (fun sh : SignedHeader => cfg.hashes.headerHash sh.header) hown⟩

theorem Tidy.handled (h : Tidy cfg b n)
    (hinj : ∀ h h', cfg.hashes.headerHash (b.header h).header =
      cfg.hashes.headerHash (b.header h').header → h = h')
    {env : SyncEnv Tx} (hawaited : Awaited cfg b n event)
    {r : Exit Err Unit} {n' : DANode Tx}
    (hcase : Hooked.EventCase DARetriever.hooks cfg.toSyncerConfig env event n (r, n')) :
    Tidy cfg b n' := by
  cases hcase with
  | skipped hskip =>
    refine h.removePendingDAData ?_
    rcases hskip with hle | hseen
    · exact hle
    · exact h.height_le_of_seen hinj hawaited.1 hseen
  | waits hlt =>
    exact h.requeued (Syncer.requeued_setPendingEvent _ event _) fun heq => heq ▸ hawaited
  | unread => exact h
  | failed event' r s1 hnext hseen hev hr htry r' s' hr' hs' =>
    obtain ⟨hheader, _, hsource, _⟩ := Syncer.withLastDataHash_header _ hev
    have hrejected := htry.rejected hr
    have hafter := hs'.requeued
    refine h.withSyncer (hafter.buffered.store.trans hrejected.store) (fun {x} hq => ?_) ?_
    · rcases hafter.queued hq with hq | rfl
      · exact h.queued (hrejected.queued hq)
      · unfold Awaited
        rw [hheader, hsource]
        exact hawaited
    · unfold CacheManager.isHeaderSeen Cache.isSeen
      rw [hafter.buffered.headerCache]
      intro hash hs
      rw [← hrejected.headerSeen]
      exact hs
  | committed event' count hcan hnext hseen hev hv hm =>
    obtain ⟨hheader, _, hsource, _⟩ := Syncer.withLastDataHash_header _ hev
    refine h.committed (by rw [hheader]; exact hnext) ?_
    unfold Awaited
    rw [hheader, hsource]
    exact hawaited

/-! ## Blobs -/

omit [Transaction Tx] in
theorem Tidy.scanned (h : Tidy cfg b n) {env : ScanEnv} {blobs : List Bytes} {daHeight : Nat}
    (hblobs : Orderly cfg b n (.scan env blobs daHeight))
    (hs : Syncer.Requeued (· ∈ (matched cfg env blobs daHeight n).1)
      { n.syncer with cache := (read cfg env blobs daHeight n).cache } s') :
    Tidy cfg b ⟨s', (matched cfg env blobs daHeight n).2⟩ := by
  have hread : ReadFrom ⟨n.part, n.syncer.cache⟩ (read cfg env blobs daHeight n) :=
    readFrom_decodeBlobs ..
  have hholds : Holds (HeaderAbove cfg b n.syncer.store.height)
      (DataAbove cfg b n.syncer.store.height) (read cfg env blobs daHeight n).retriever :=
    Holds.decodeBlobs (r := ⟨n.part, n.syncer.cache⟩)
      (h.holds.mono (fun hh => ⟨hh.1, .inr hh.2⟩) id) hblobs
  have hstore : s'.store = n.syncer.store := hs.buffered.store
  have hpending : (matched cfg env blobs daHeight n).2.pendingData =
      (read cfg env blobs daHeight n).retriever.pendingData := rfl
  have hwaits : ∀ {k header},
      (matched cfg env blobs daHeight n).2.pendingHeaders.get? k = some header →
      (read cfg env blobs daHeight n).retriever.pendingHeaders.get? k = some header ∧
        dataFor cfg.retriever (read cfg env blobs daHeight n).retriever.pendingData k header =
          none := by
    intro k header hget
    unfold matched at hget
    rw [matchHeaders_get?, Option.filter_eq_some_iff] at hget
    exact ⟨hget.1, Option.isNone_iff_eq_none.mp hget.2⟩
  constructor
  · constructor
    · intro k header hget
      obtain ⟨hget', hnone⟩ := hwaits hget
      obtain ⟨hk, hheader, habove⟩ := hholds.header hget'
      refine ⟨hk, hheader, ?_⟩
      show s'.store.height < _
      rw [hstore]
      refine habove.resolve_left fun hempty => ?_
      -- a header of an empty block has left with its event
      unfold dataFor at hnone
      split at hnone
      · cases hnone
      · rw [hempty] at hnone
        cases hnone
    · intro k data hget
      show _ ∧ DataAbove cfg b s'.store.height data
      rw [hstore]
      exact hholds.data hget
  · exact fun hget => (hwaits hget).2
  · intro x hq
    unfold Awaited
    show _ ∧ (_ → _ ∧ (s'.store.height < _ → _))
    rw [hstore, hpending]
    rcases hs.queued hq with hq | hmem
    · have hq : n.syncer.Queued x := by
        refine hq.imp_right fun ⟨k, hk⟩ => ⟨k, ?_⟩
        rw [← hread.pendingEvents]
        exact hk
      obtain ⟨hown, hda⟩ := h.queued hq
      exact ⟨hown, fun hnonempty => ⟨(hda hnonempty).1, fun hlt =>
        hread.pendingData ((hda hnonempty).2 hlt)⟩⟩
    · obtain ⟨k, header, data, hget, hdata, rfl⟩ := mem_matchHeaders.mp hmem
      obtain ⟨hk, hheader, _⟩ := hholds.header hget
      refine ⟨hheader, fun hnonempty => ⟨rfl, fun _ => ?_⟩⟩
      dsimp only at hnonempty ⊢
      rw [hk]
      rcases dataFor_eq_some.mp hdata with hget' | ⟨_, hempty, _⟩
      · rw [hget']
        rfl
      · rw [hempty] at hnonempty
        cases hnonempty
  · intro hash hseen
    show ∃ k ≤ s'.store.height, _
    rw [hstore]
    refine h.seen ?_
    unfold CacheManager.isHeaderSeen Cache.isSeen at hseen ⊢
    rw [hs.buffered.headerCache] at hseen
    rw [← hread.seen]
    exact hseen

/-! ## Runs -/

omit [Transaction Tx] in
theorem tidy_fresh {env : Syncer.StartEnv} {s : Syncer Tx}
    (hpart : n.part = newDARetriever)
    (hfresh : Syncer.Fresh cfg.toSyncerConfig env s n.syncer) : Tidy cfg b n where
  holds := hpart ▸ holds_newDARetriever
  unmatched hget := by
    rw [hpart] at hget
    cases hget
  queued hq := by
    unfold Syncer.Queued at hq
    rw [hfresh.heightInCh, hfresh.cache] at hq
    rcases hq with hq | ⟨_, hq⟩
    · cases hq
    · cases hq
  seen hseen := by
    rw [hfresh.isHeaderSeen] at hseen
    cases hseen

theorem Tidy.moves (h : Tidy cfg b n)
    (hinj : ∀ h h', cfg.hashes.headerHash (b.header h).header =
      cfg.hashes.headerHash (b.header h').header → h = h')
    {op : Op Tx} (hop : Orderly cfg b n op) {n' : DANode Tx} (hmoves : Moves cfg n op n') :
    Tidy cfg b n' := by
  cases hmoves with
  | scanned hs => exact h.scanned hop hs
  | @syncer op n' hmoves =>
    cases hmoves with
    | idle => exact h
    | requeued hs =>
      refine h.requeued hs fun {event} hoffered => ?_
      cases op with
      | pipeEvent => exact hop.elim
      | processHeight height header data =>
        obtain rfl : event = ⟨header, data, 0, .p2p⟩ := hoffered
        exact EmptyBlock.awaited ⟨header, data, 0, .p2p⟩ hop
      | _ => exact hoffered.elim
    | @handled env event rest r w' hch hcase =>
      have hrest : Tidy cfg b (n.withSyncer { n.syncer with heightInCh := rest }) := by
        refine h.withSyncer rfl (fun hq => h.queued ?_) id
        refine hq.imp_left fun hmem => ?_
        rw [hch]
        exact List.mem_cons_of_mem _ hmem
      have hawaited : Awaited cfg b n event := h.queued (.inl (by rw [hch]; exact List.mem_cons_self))
      exact hrest.handled hinj hawaited hcase
    | raft => exact hop.elim
    | headerMarked =>
      refine h.withSyncer rfl h.queued ?_
      intro hash hs
      unfold CacheManager.isHeaderSeen Cache.isSeen CacheManager.setHeaderDAIncluded at hs
      rw [Cache.setDAIncluded_hashes] at hs
      exact hs
    | dataMarked => exact h.withSyncer rfl h.queued id
    | @deleted height =>
      refine h.withSyncer rfl (fun hq => h.queued ?_) ?_
      · refine hq.imp_right fun ⟨k, hk⟩ => ⟨k, ?_⟩
        have hk : (n.syncer.cache.pendingEvents.delete height).get? k = _ := hk
        rw [OrdMap.get?_delete] at hk
        split at hk
        · cases hk
        · exact hk
      · intro hash hs
        exact Cache.isSeen_of_deleteAllForHeight hs

end DANode

/-- **The retriever does not leak.** In any run of a node without raft in which P2P offers empty blocks
only, and the blobs of other blocks are read before these are committed, nothing waits at or below
the store height. -/
theorem DANode.pending_above_store [Transaction Tx] (cfg : DANodeConfig Tx) (b : Blocks Tx)
    (hinj : ∀ h h', cfg.hashes.headerHash (b.header h).header =
      cfg.hashes.headerHash (b.header h').header → h = h')
    (n : DANode Tx) (ops : List (Op Tx))
    (hrun : Run.Meets (step cfg) (fun l op => Orderly cfg b l.state op) ⟨false, n⟩ ops)
    (hup : (Run.exec (step cfg) ⟨false, n⟩ ops).up = true) {h : Nat}
    (hle : h ≤ (Run.exec (step cfg) ⟨false, n⟩ ops).state.syncer.store.height) :
    (Run.exec (step cfg) ⟨false, n⟩ ops).state.part.pendingHeaders.get? h = none ∧
      (Run.exec (step cfg) ⟨false, n⟩ ops).state.part.pendingData.get? h = none := by
  have htidy : Tidy cfg b (Run.exec (step cfg) ⟨false, n⟩ ops).state :=
    DANode.invariant (Tidy cfg b) (fun _ hpart hfresh => tidy_fresh hpart hfresh)
      (fun hi hop hmoves => hi.moves hinj hop hmoves) ops nofun hrun hup
  constructor
  · refine Option.eq_none_iff_forall_ne_some.mpr fun header hget => ?_
    obtain ⟨hk, _, hlt⟩ := htidy.holds.header hget
    omega
  · refine Option.eq_none_iff_forall_ne_some.mpr fun data hget => ?_
    obtain ⟨hk, _, hlt⟩ := htidy.holds.data hget
    omega

namespace LeakRun

def genesis : Genesis := ⟨"chain", 0, 1, [7], 0, 1, Nat.one_pos, Nat.one_pos⟩

def tx : RawTx := ⟨3, 5⟩

/-- Block 1 has one transaction, the others are empty. -/
def blocks : Blocks RawTx where
  header := fun h => (Header.block [7] h (if h = 1 then [tx] else [])
    (if h = 2 then (Header.block [7] 1 [tx] []).encode else [])).signedBy [7]
  data := fun h => Data.block h [tx]

/-- The header and the data of block 1. -/
def cfg : DANodeConfig RawTx :=
  .symbolic genesis [([1], blocks.header 1)] [([2], (blocks.data 1).signedBy [7])]

def env : SyncEnv RawTx := .plain (.ofBlocks 0 []) .acceptAll

def run (ops : List (DANode.Op RawTx)) : Live (DANode RawTx) :=
  Run.exec (DANode.step cfg) ⟨false, .plain cfg⟩ (.syncer (.start .plain) :: ops)

/-- Block 1 is read from DA, and block 2 comes from P2P. -/
def orderly : List (DANode.Op RawTx) :=
  [.scan (.plain 0) [[2]] 9, .scan (.plain 0) [[1]] 10, .syncer (.processNext env),
    .syncer (.processHeight 2 (blocks.header 2) (Data.block 2 [])), .syncer (.processNext env)]

end LeakRun

open LeakRun in
theorem DANode.pending_above_store_orderly :
    (run orderly).state.syncer.store.height = 2 ∧
      (run orderly).state.part.pendingData.get? 1 = none := by
  have hheight : (run orderly).state.syncer.store.height = 2 := by decide +kernel
  refine ⟨hheight, ?_⟩
  refine (DANode.pending_above_store cfg blocks (fun h h' heq => unary_inj heq) (.plain cfg)
    (.syncer (.start .plain) :: orderly) (by decide +kernel) (by decide +kernel) ?_).2
  exact Nat.le_trans (by decide : 1 ≤ 2) (Nat.le_of_eq hheight.symm)

open LeakRun in
/-- **Data that is read after its block was committed stays.** Block 1 is committed from P2P, and then
its blobs are read from DA: nothing is queued any more, and the data still waits. -/
theorem DANode.read_after_commit_leaks :
    let n := (run [.syncer (.processHeight 1 (blocks.header 1) (blocks.data 1)),
      .syncer (.processNext env), .scan (.plain 0) [[1], [2]] 10]).state
    n.syncer.store.height = 1 ∧ n.syncer.heightInCh = [] ∧
      n.syncer.cache.pendingEvents.entries = [] ∧ (n.part.pendingData.get? 1).isSome = true := by
  decide +kernel

end EvNode
