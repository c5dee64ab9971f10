import EvNode.Properties.Moves
import EvNode.Properties.Validation

/-!
# DA inclusion of committed blocks

`IsHeightDAIncluded` looks the height up in the index of the cache and reads the mark of the hash it
finds. A blob that is accepted for a height overwrites the index there, and for a height that is
committed already the retriever knows no proposer: a header of any key then stands for the block
(`foreign_header_included`).
-/

namespace EvNode

open Crash Proc DARetriever

variable {Tx : Type}

/-! ## One cache -/

/-- The index has the hashes of the committed blocks, and every mark of a hash has a reason. -/
structure Cache.Proven (committed : Nat → Option Bytes) (reason : Bytes → Prop) (c : Cache) : Prop where
  index : ∀ {h key hash}, c.hashByHeight.get? h = some key → committed h = some hash → key = .hash hash
  marks : ∀ {hash d}, c.daIncluded (.hash hash) = some d → reason hash

namespace Cache

variable {committed committed' : Nat → Option Bytes} {reason reason' : Bytes → Prop} {c : Cache}

theorem proven_of_empty (hindex : ∀ h, c.hashByHeight.get? h = none)
    (hmarks : ∀ key, c.daIncluded key = none) : c.Proven committed reason := by
  constructor
  · intro h key hash hget
    rw [hindex] at hget
    cases hget
  · intro hash d hget
    rw [hmarks] at hget
    cases hget

theorem Proven.mono (h : c.Proven committed reason) (hreason : ∀ {hash}, reason hash → reason' hash) :
    c.Proven committed reason' :=
  ⟨h.index, fun hget => hreason (h.marks hget)⟩

theorem Proven.of_le {c' : Cache} (h : c.Proven committed reason)
    (hindex : c'.hashByHeight = c.hashByHeight)
    (hmarks : ∀ {key d}, c'.daIncluded key = some d → c.daIncluded key = some d) :
    c'.Proven committed reason :=
  ⟨fun hget => h.index (hindex ▸ hget), fun hget => h.marks (hmarks hget)⟩

variable {hash : Bytes} {height : Nat}

theorem Proven.setSeen (h : c.Proven committed reason)
    (hother : ∀ k, k ≠ height → committed' k = committed k)
    (hsame : ∀ hash', committed' height = some hash' → hash' = hash) :
    (c.setSeen hash height).Proven committed' reason := by
  refine ⟨fun {k key hash'} hget hstored => ?_, h.marks⟩
  have hget : (c.hashByHeight.put height (.hash hash)).get? k = some key := hget
  rw [OrdMap.get?_put] at hget
  split at hget
  · next hk =>
    rw [hk] at hstored
    rw [hsame hash' hstored]
    exact (Option.some.inj hget).symm
  · next hk => exact h.index hget (hother k hk ▸ hstored)

theorem Proven.setDAIncluded (h : c.Proven committed reason)
    (hreason : reason hash) (hsame : ∀ hash', committed height = some hash' → hash' = hash)
    (daHeight : Nat) : (c.setDAIncluded hash daHeight height).Proven committed reason := by
  constructor
  · intro k key hash' hget hstored
    rw [setDAIncluded_hashByHeight, OrdMap.get?_put] at hget
    split at hget
    · next hk =>
      rw [hk] at hstored
      rw [hsame hash' hstored]
      exact (Option.some.inj hget).symm
    · exact h.index hget hstored
  · intro hash' d hget
    rw [setDAIncluded_daIncluded] at hget
    split at hget
    · next hkey =>
      rw [CacheKey.hash.inj hkey]
      exact hreason
    · split at hget
      · cases hget
      · exact h.marks hget

theorem Proven.deleteAllForHeight (h : c.Proven committed reason) (height : Nat) :
    (c.deleteAllForHeight height).Proven committed reason := by
  unfold Cache.deleteAllForHeight
  split
  · exact h
  · next key _ =>
    constructor
    · intro k key' hash hget
      have hget : (c.hashByHeight.delete height).get? k = some key' := hget
      rw [OrdMap.get?_delete] at hget
      split at hget
      · cases hget
      · exact h.index hget
    · intro hash d hget
      dsimp only at hget
      by_cases hkey : CacheKey.hash hash = key
      · rw [hkey, Function.update_self] at hget
        cases hget
      · rw [Function.update_of_ne hkey] at hget
        exact h.marks hget

/-- A committed block that is reported as included has a reason to be. -/
theorem Proven.reason_of_included (h : c.Proven committed reason)
    (hsome : (c.getDAIncludedByHeight height).isSome = true) (hstored : committed height = some hash) :
    reason hash := by
  unfold getDAIncludedByHeight at hsome
  cases hget : c.hashByHeight.get? height with
  | none =>
    rw [hget] at hsome
    cases hsome
  | some key =>
    rw [hget, Option.bind_some, h.index hget hstored] at hsome
    obtain ⟨d, hd⟩ := Option.isSome_iff_exists.mp hsome
    exact h.marks hd

end Cache

namespace DANode

variable (cfg : DANodeConfig Tx)

def committedHeader (store : Store Tx) (h : Nat) : Option Bytes :=
  (store.getBlockData h).map fun b => cfg.hashes.headerHash b.1.header

/-- The commitment to the committed data, unless the block is empty. -/
def committedData (store : Store Tx) (h : Nat) : Option Bytes :=
  ((store.getBlockData h).map fun b => cfg.hashes.daCommitment b.2.txs).filter
    fun commitment => commitment ≠ cfg.hashes.dataHashForEmptyTxs

/-- A blob was processed that is a header with this hash. -/
def HeaderRead (processed : List (Nat × Bytes)) (hash : Bytes) : Prop :=
  ∃ x ∈ processed, ∃ strictMode header isValidEnvelope,
    decodeHeader cfg.retriever strictMode x.2 = some (header, isValidEnvelope) ∧
      cfg.hashes.headerHash header.header = hash

/-- A blob was processed that is data with this commitment. -/
def DataRead (processed : List (Nat × Bytes)) (commitment : Bytes) : Prop :=
  ∃ x ∈ processed, ∃ data, acceptData cfg.retriever x.2 = some data ∧
    cfg.hashes.daCommitment data.txs = commitment

/-- Headers accepted for a committed height are the committed ones. -/
def HeaderKnown (store : Store Tx) (header : SignedHeader) : Prop :=
  ∀ hash ∈ committedHeader cfg store header.header.height,
    hash = cfg.hashes.headerHash header.header

def DataKnown (store : Store Tx) (data : Data Tx) : Prop :=
  ∀ commitment ∈ committedData cfg store data.height,
    commitment = cfg.hashes.daCommitment data.txs

/-- What is accepted for a committed height is the committed block. A process starts without a
snapshot of its cache, and marks come from blobs only. -/
def Known (n : DANode Tx) : Op Tx → Prop
  | .scan env blobs _ => ∀ bz ∈ blobs, Carries cfg.retriever (HeaderKnown cfg n.syncer.store)
      (DataKnown cfg n.syncer.store) (blobEnv env n.syncer) bz
  | .syncer (.start env) => env.headerSnapshot = [] ∧ env.dataSnapshot = []
  | .syncer (.headerDAIncluded _ _ _) => False
  | .syncer (.dataDAIncluded _ _ _) => False
  | .syncer _ => True

instance (store : Store Tx) : DecidablePred (HeaderKnown cfg store) := fun header =>
  inferInstanceAs (Decidable (∀ hash ∈ committedHeader cfg store header.header.height,
    hash = cfg.hashes.headerHash header.header))

instance (store : Store Tx) : DecidablePred (DataKnown cfg store) := fun data =>
  inferInstanceAs (Decidable (∀ commitment ∈ committedData cfg store data.height,
    commitment = cfg.hashes.daCommitment data.txs))

instance (n : DANode Tx) (op : DANode.Op Tx) : Decidable (Known cfg n op) := by
  induction op using DANode.Op.casesOn with
  | scan => exact inferInstanceAs (Decidable (∀ _ ∈ _, _))
  | syncer op =>
    induction op using Syncer.Op.casesOn <;> dsimp only [Known] <;> infer_instance

/-- Both caches, for the committed blocks and the blobs that were processed. -/
structure Proven (store : Store Tx) (processed : List (Nat × Bytes)) (m : CacheManager Tx) :
    Prop where
  header : m.headerCache.Proven (committedHeader cfg store) (HeaderRead cfg processed)
  data : m.dataCache.Proven (committedData cfg store) (DataRead cfg processed)

variable {cfg} {n : DANode Tx} {store : Store Tx} {processed : List (Nat × Bytes)}
  {m : CacheManager Tx}

/-! ## Blobs -/

theorem HeaderRead.mono {processed' : List (Nat × Bytes)} {hash : Bytes}
    (h : HeaderRead cfg processed hash) (hsub : processed ⊆ processed') :
    HeaderRead cfg processed' hash := by
  obtain ⟨x, hx, h⟩ := h
  exact ⟨x, hsub hx, h⟩

theorem DataRead.mono {processed' : List (Nat × Bytes)} {commitment : Bytes}
    (h : DataRead cfg processed commitment) (hsub : processed ⊆ processed') :
    DataRead cfg processed' commitment := by
  obtain ⟨x, hx, h⟩ := h
  exact ⟨x, hsub hx, h⟩

theorem Proven.markHeader (h : Proven cfg store processed m) {header : SignedHeader}
    (hread : HeaderRead cfg processed (cfg.hashes.headerHash header.header))
    (hknown : HeaderKnown cfg store header) (daHeight : Nat) :
    Proven cfg store processed (markHeader cfg.retriever header daHeight m) :=
  ⟨h.header.setDAIncluded hread hknown daHeight, h.data⟩

theorem Proven.markData (h : Proven cfg store processed m) {data : Data Tx}
    (hread : DataRead cfg processed (cfg.hashes.daCommitment data.txs))
    (hknown : DataKnown cfg store data) (daHeight : Nat) :
    Proven cfg store processed (markData cfg.retriever data daHeight m) :=
  ⟨h.header, h.data.setDAIncluded hread hknown daHeight⟩

theorem Proven.removeHeader (h : Proven cfg store processed m) (hash : Bytes) :
    Proven cfg store processed (m.removeHeaderDAIncluded hash) :=
  ⟨h.header.of_le rfl Syncer.removeDAIncluded_le, h.data⟩

theorem Proven.processBlob {r : Retrieval Tx} {env : BlobEnv Tx} {daHeight : Nat} {bz : Bytes}
    (h : Proven cfg store r.retriever.processed r.cache)
    (hmem : (daHeight, bz) ∈ r.retriever.processed)
    (hbz : Carries cfg.retriever (HeaderKnown cfg store) (DataKnown cfg store) env bz) :
    (processBlob cfg.retriever env daHeight r bz).retriever.processed = r.retriever.processed ∧
      Proven cfg store r.retriever.processed (processBlob cfg.retriever env daHeight r bz).cache := by
  have hheader : ∀ {strictMode header isValidEnvelope},
      acceptHeader cfg.retriever env strictMode bz = some (header, isValidEnvelope) →
      HeaderRead cfg r.retriever.processed (cfg.hashes.headerHash header.header) :=
    fun haccept => ⟨_, hmem, _, _, _, decodeHeader_of_accept haccept, rfl⟩
  have hcase := processBlob_cases cfg.retriever env daHeight r bz
  generalize DARetriever.processBlob cfg.retriever env daHeight r bz = r' at hcase
  cases hcase with
  | ignored => exact ⟨rfl, h⟩
  | headerWaits _ haccept _ =>
    exact ⟨rfl, h.markHeader (hheader haccept) (hbz.header haccept) daHeight⟩
  | headerReplaces _ haccept _ _ | headerDropped _ haccept _ _ =>
    exact ⟨rfl, (h.markHeader (hheader haccept) (hbz.header haccept) daHeight).removeHeader _⟩
  | dataWaits _ _ haccept _ | dataDropped _ _ haccept _ =>
    exact ⟨rfl, h.markData ⟨_, hmem, _, haccept, rfl⟩ (hbz.data haccept) daHeight⟩

theorem Proven.read (h : Proven cfg n.syncer.store n.part.processed n.syncer.cache) {env : ScanEnv}
    {blobs : List Bytes} {daHeight : Nat} (hblobs : Known cfg n (.scan env blobs daHeight)) :
    Proven cfg n.syncer.store (read cfg env blobs daHeight n).retriever.processed
      (read cfg env blobs daHeight n).cache := by
  -- the blobs are logged first, so each one is among those processed
  have hlogged : ∀ (r : Retrieval Tx) (l : List Bytes),
      (∀ bz ∈ l, (daHeight, bz) ∈ r.retriever.processed ∧
        Carries cfg.retriever (HeaderKnown cfg n.syncer.store) (DataKnown cfg n.syncer.store)
          (blobEnv env n.syncer) bz) →
      Proven cfg n.syncer.store r.retriever.processed r.cache →
      Proven cfg n.syncer.store
        (Run.exec (DARetriever.processBlob cfg.retriever (blobEnv env n.syncer) daHeight) r
          l).retriever.processed
        (Run.exec (DARetriever.processBlob cfg.retriever (blobEnv env n.syncer) daHeight) r
          l).cache := by
    intro r l
    induction l generalizing r with
    | nil => exact fun _ h => h
    | cons bz l ih =>
      intro hl h
      obtain ⟨hmem, hbz⟩ := hl bz List.mem_cons_self
      obtain ⟨hprocessed, hproven⟩ := h.processBlob hmem hbz
      refine ih _ (fun bz' hbz' => ?_) (hprocessed ▸ hproven)
      rw [hprocessed]
      exact hl bz' (List.mem_cons_of_mem _ hbz')
  have hsub : n.part.processed ⊆ n.part.processed ++ blobs.map fun bz => (daHeight, bz) :=
    List.subset_append_left _ _
  refine hlogged (logBlobs blobs daHeight ⟨n.part, n.syncer.cache⟩) blobs (fun bz hbz => ⟨?_, ?_⟩) ?_
  · exact List.mem_append_right _ (List.mem_map_of_mem hbz)
  · exact hblobs bz hbz
  · exact ⟨h.header.mono fun hr => hr.mono hsub, h.data.mono fun hr => hr.mono hsub⟩

theorem processed_removePendingDAData (event : DAHeightEvent Tx) (r : DARetriever Tx) :
    (r.removePendingDAData event).processed = r.processed := by
  unfold DARetriever.removePendingDAData
  split <;> rfl

/-! ## Steps of the syncer -/

theorem Proven.of_le {m' : CacheManager Tx} (h : Proven cfg store processed m)
    (hheaderIndex : m'.headerCache.hashByHeight = m.headerCache.hashByHeight)
    (hdataIndex : m'.dataCache.hashByHeight = m.dataCache.hashByHeight)
    (hheaderMarks : ∀ {key d}, m'.headerCache.daIncluded key = some d →
      m.headerCache.daIncluded key = some d)
    (hdataMarks : ∀ {key d}, m'.dataCache.daIncluded key = some d →
      m.dataCache.daIncluded key = some d) : Proven cfg store processed m' :=
  ⟨h.header.of_le hheaderIndex hheaderMarks, h.data.of_le hdataIndex hdataMarks⟩

variable {s : Syncer Tx} {env : SyncEnv Tx} {event : DAHeightEvent Tx}

theorem Proven.buffered {s' : Syncer Tx} (h : Proven cfg s.store processed s.cache)
    (hs : Syncer.Buffered s s') : Proven cfg s'.store processed s'.cache := by
  obtain ⟨_, _, _, rfl⟩ := hs
  exact ⟨h.header, h.data⟩

theorem Proven.rejected {s' : Syncer Tx} (h : Proven cfg s.store processed s.cache)
    (hs : Syncer.Rejected s s') : Proven cfg s'.store processed s'.cache := by
  rw [hs.store]
  exact h.of_le hs.headerIndex hs.dataIndex hs.headerMarks hs.dataMarks

variable [Transaction Tx]

/-- A valid block is committed: both sides are recorded under its height. -/
theorem Proven.committed (h : Proven cfg s.store processed s.cache) {currentState : State} {now : Time}
    {count count' : Nat}
    (hv : Syncer.validateBlock cfg.toSyncerConfig now currentState event.data event.header count =
      (.ok (), count')) :
    Proven cfg
      (Syncer.afterCommit cfg.toSyncerConfig env event currentState count' s).store processed
      (Syncer.afterCommit cfg.toSyncerConfig env event currentState count' s).cache := by
  obtain ⟨_, _, _, hdata⟩ := Syncer.validateBlock_ok hv
  have hcommitment := (validate_ok hdata).2
  constructor
  · rw [Syncer.afterCommit_headerCache]
    refine h.header.setSeen (fun k hk => ?_) fun hash' hstored => ?_
    · unfold committedHeader
      rw [Syncer.afterCommit_getBlockData, if_neg hk]
    · unfold committedHeader at hstored
      rw [Syncer.afterCommit_getBlockData, if_pos rfl] at hstored
      exact (Option.some.inj hstored).symm
  · have hother : ∀ k, k ≠ event.header.header.height →
        committedData cfg (Syncer.afterCommit cfg.toSyncerConfig env event currentState count'
          s).store k = committedData cfg s.store k := by
      intro k hk
      unfold committedData
      rw [Syncer.afterCommit_getBlockData, if_neg hk]
    rw [Syncer.afterCommit_dataCache]
    split
    · refine h.data.setSeen hother fun hash' hstored => ?_
      unfold committedData at hstored
      rw [Syncer.afterCommit_getBlockData, if_pos rfl, Option.filter_eq_some_iff] at hstored
      exact (Option.some.inj hstored.1).symm
    · next hempty =>
      -- an empty block has no commitment of its own
      refine ⟨fun {k key hash} hget hstored => ?_, h.data.marks⟩
      by_cases hk : k = event.header.header.height
      · unfold committedData at hstored
        rw [Syncer.afterCommit_getBlockData, if_pos hk, Option.filter_eq_some_iff] at hstored
        obtain ⟨hsome, hne⟩ := hstored
        rw [Option.map_some, Option.some.injEq] at hsome
        rw [← hsome] at hne
        exact absurd (hcommitment.trans (not_not.mp hempty)) (of_decide_eq_true hne)
      · exact h.data.index hget (hother k hk ▸ hstored)

theorem Proven.tried {w w' : DANode Tx} (h : Proven cfg w.syncer.store w.part.processed w.syncer.cache) {r : Exit Err Unit}
    (hcase : Hooked.TrySyncCase DARetriever.hooks cfg.toSyncerConfig env event w.syncer.lastState w
      (r, w')) : Proven cfg w'.syncer.store w'.part.processed w'.syncer.cache := by
  cases hcase with
  | failed r s hr htry => exact h.rejected (htry.rejected hr)
  | committed count hcan hv hm =>
    show Proven cfg _ (w.part.removePendingDAData event).processed _
    rw [processed_removePendingDAData]
    exact h.committed hv

theorem Proven.handled {w w' : DANode Tx}
    (h : Proven cfg w.syncer.store w.part.processed w.syncer.cache) {r : Exit Err Unit}
    (hcase : Hooked.EventCase DARetriever.hooks cfg.toSyncerConfig env event w (r, w')) :
    Proven cfg w'.syncer.store w'.part.processed w'.syncer.cache := by
  cases hcase with
  | skipped =>
    show Proven cfg _ (w.part.removePendingDAData event).processed _
    rw [processed_removePendingDAData]
    exact h
  | waits => exact ⟨h.header, h.data⟩
  | unread => exact h
  | failed event' r s1 hnext hseen hev hr htry r' s' hr' hs' =>
    have hrejected : Proven cfg s1.store w.part.processed s1.cache := h.rejected (htry.rejected hr)
    exact Proven.buffered (s := { s1 with hasCriticalError := s'.hasCriticalError }) hrejected
      hs'.requeued.buffered
  | committed event' count hcan hnext hseen hev hv hm =>
    show Proven cfg _ (w.part.removePendingDAData event').processed _
    rw [processed_removePendingDAData]
    exact h.committed hv

/-! ## Runs -/

theorem Proven.moves (h : Proven cfg n.syncer.store n.part.processed n.syncer.cache) {op : Op Tx}
    (hop : Known cfg n op) {n' : DANode Tx} (hmoves : Moves cfg n op n') :
    Proven cfg n'.syncer.store n'.part.processed n'.syncer.cache := by
  cases hmoves with
  | @scanned env blobs daHeight s' hs => exact Proven.buffered (h.read hop) hs.buffered
  | syncer hmoves =>
    cases hmoves with
    | idle => exact h
    | requeued hs => exact h.buffered hs.buffered
    | @handled env event rest r w' hch hcase =>
      exact Proven.handled (w := n.withSyncer { n.syncer with heightInCh := rest }) h hcase
    | raft hnext hcase => exact h.tried hcase
    | headerMarked | dataMarked => exact hop.elim
    | @deleted height =>
      exact ⟨h.header.deleteAllForHeight height, h.data.deleteAllForHeight height⟩

omit [Transaction Tx] in
theorem proven_fresh {env : Syncer.StartEnv}
    (henv : env.headerSnapshot = [] ∧ env.dataSnapshot = [])
    (hfresh : Syncer.Fresh cfg.toSyncerConfig env s n.syncer) :
    Proven cfg n.syncer.store n.part.processed n.syncer.cache := by
  rw [hfresh.cache]
  unfold Syncer.newSyncer Cache.restored
  rw [henv.1, henv.2]
  constructor
  · exact Cache.proven_of_empty (fun h => by simp [Cache.empty]) fun key => by simp [Cache.empty]
  · exact Cache.proven_of_empty (fun h => by simp [Cache.empty]) fun key => by simp [Cache.empty]

end DANode

/-- **Inclusion is reported for blocks that were read.** In any run in which what is accepted for a
committed height is the committed block, a height above the DA-included height is reported as
included only if a blob with the hash of its header was processed, and, unless it is empty, one with
the commitment of its data. -/
theorem DANode.included_blocks_read [Transaction Tx] (cfg : DANodeConfig Tx) (n : DANode Tx)
    (ops : List (Op Tx)) (hrun : Run.Meets (step cfg) (fun l op => Known cfg l.state op) ⟨false, n⟩ ops)
    (hup : (Run.exec (step cfg) ⟨false, n⟩ ops).up = true) (daIncludedHeight height : Nat)
    (habove : daIncludedHeight < height) (header : SignedHeader) (data : Data Tx)
    (hstored : (Run.exec (step cfg) ⟨false, n⟩ ops).state.syncer.store.getBlockData height =
      some (header, data))
    (hincluded : isHeightDAIncluded cfg daIncludedHeight height data
      (Run.exec (step cfg) ⟨false, n⟩ ops).state = true) :
    HeaderRead cfg (Run.exec (step cfg) ⟨false, n⟩ ops).state.part.processed
        (cfg.hashes.headerHash header.header) ∧
      (cfg.hashes.daCommitment data.txs ≠ cfg.hashes.dataHashForEmptyTxs →
        DataRead cfg (Run.exec (step cfg) ⟨false, n⟩ ops).state.part.processed
          (cfg.hashes.daCommitment data.txs)) := by
  have hproven : Proven cfg (Run.exec (step cfg) ⟨false, n⟩ ops).state.syncer.store
      (Run.exec (step cfg) ⟨false, n⟩ ops).state.part.processed
      (Run.exec (step cfg) ⟨false, n⟩ ops).state.syncer.cache :=
    DANode.invariant (fun n => Proven cfg n.syncer.store n.part.processed n.syncer.cache)
      (fun henv _ hfresh => proven_fresh henv hfresh) (fun hi hop hmoves => hi.moves hop hmoves)
      ops nofun hrun hup
  generalize (Run.exec (step cfg) ⟨false, n⟩ ops).state = w at hproven hstored hincluded
  unfold isHeightDAIncluded at hincluded
  rw [if_neg (Nat.not_le.mpr habove)] at hincluded
  split at hincluded
  · cases hincluded
  · rw [Bool.and_eq_true, Bool.or_eq_true] at hincluded
    constructor
    · refine hproven.header.reason_of_included hincluded.1 ?_
      unfold committedHeader
      rw [hstored]
      rfl
    · intro hne
      refine hproven.data.reason_of_included (hincluded.2.resolve_left ?_) ?_
      · simpa using hne
      · unfold committedData
        rw [hstored, Option.map_some, Option.filter_some, if_pos (decide_eq_true hne)]

namespace InclusionRun

def genesis : Genesis := ⟨"chain", 0, 1, [7], 0, 1, Nat.one_pos, Nat.one_pos⟩

def tx : RawTx := ⟨3, 5⟩

/-- Block 1 is empty, block 2 has one transaction. -/
def header1 : SignedHeader := (Header.block [7] 1 [] []).signedBy [7]

def header2 : SignedHeader := (Header.block [7] 2 [tx] header1.header.encode).signedBy [7]

/-- The blobs of the two blocks, and a header for height 1 of the key `[8]`. -/
def cfg : DANodeConfig RawTx :=
  .symbolic genesis
    [([1], header1), ([2], header2), ([4], (Header.block [8] 1 [] []).signedBy [8])]
    [([3], (Data.block 2 [tx]).signedBy [7])]

def env : SyncEnv RawTx := .plain (.ofBlocks 0 []) .acceptAll

def run (ops : List (DANode.Op RawTx)) : Live (DANode RawTx) :=
  Run.exec (DANode.step cfg) ⟨false, .plain cfg⟩ (.syncer (.start .plain) :: ops)

/-- Both blocks come from P2P, and are read from DA then. -/
def known : List (DANode.Op RawTx) :=
  [.syncer (.processHeight 1 header1 (Data.block 1 [])), .syncer (.processNext env),
    .syncer (.processHeight 2 header2 (Data.block 2 [tx])), .syncer (.processNext env),
    .scan (.plain 0) [[1], [2], [3]] 10]

end InclusionRun

open InclusionRun in
theorem DANode.included_blocks_read_known :
    isHeightDAIncluded cfg 0 2 (Data.block 2 [tx]) (run known).state = true ∧
      DataRead cfg (run known).state.part.processed (cfg.hashes.daCommitment [tx]) := by
  have hincluded : isHeightDAIncluded cfg 0 2 (Data.block 2 [tx]) (run known).state = true := by
    decide +kernel
  refine ⟨hincluded, ?_⟩
  exact (DANode.included_blocks_read cfg (.plain cfg) (.syncer (.start .plain) :: known)
    (by decide +kernel) (by decide +kernel) 0 2 (by decide) header2 (Data.block 2 [tx])
    (by decide +kernel) hincluded).2 (by decide)

open InclusionRun in
/-- **A header of any key stands for a committed block.** Block 1 is committed from P2P. A header for
height 1 that another key signed is read from DA, and block 1 is reported as included. -/
theorem DANode.foreign_header_included :
    let n := (run [.syncer (.processHeight 1 header1 (Data.block 1 [])), .syncer (.processNext env),
      .scan (.plain 0) [[4]] 10]).state
    n.syncer.store.getBlockData 1 = some (header1, Data.block 1 []) ∧
      isHeightDAIncluded cfg 0 1 (Data.block 1 []) n = true ∧ n.part.processed = [(10, [4])] ∧
      ∀ strictMode, ∀ x ∈ DARetriever.decodeHeader cfg.retriever strictMode [4],
        cfg.hashes.headerHash x.1.header ≠ cfg.hashes.headerHash header1.header := by
  decide +kernel

end EvNode
