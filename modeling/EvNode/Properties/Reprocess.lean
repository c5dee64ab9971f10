import EvNode.Properties.Blobs

/-!
# Reading the blobs of a DA height again

A height is read twice when an inline event is rolled back, or when it is fetched with priority. A
header that is decoded is marked as included before the retriever looks whether one waits already,
and the mark is taken away again if so: also if it is the same header.

`reprocessing_harmless`: on a chain with one block per height, reading blobs again keeps every mark
and yields only the events of these blocks, if no header in them still waits. `reread_header_unmarked`
is the other case.
-/

namespace EvNode

namespace DARetriever

variable {Tx : Type}

/-- The blocks of a chain, by height. -/
structure Blocks (Tx : Type) where
  header : Nat → SignedHeader
  data : Nat → Data Tx

namespace Blocks

variable (cfg : DARetrieverConfig Tx) (b : Blocks Tx)

def OwnHeader (header : SignedHeader) : Prop := header = b.header header.header.height

/-- Data is published for blocks that are not empty. -/
def OwnData (data : Data Tx) : Prop :=
  data = b.data data.height ∧ isEmptyDataExpected cfg (b.header data.height) = false

/-- The blob is a header or data of a block. -/
def Own (bz : Bytes) : Prop :=
  (∀ strictMode, ∀ x ∈ decodeHeader cfg strictMode bz, b.OwnHeader x.1) ∧
    ∀ data ∈ acceptData cfg bz, b.OwnData cfg data

instance : DecidablePred b.OwnHeader := fun header =>
  inferInstanceAs (Decidable (header = b.header header.header.height))

instance [DecidableEq Tx] : DecidablePred (b.OwnData cfg) := fun data =>
  inferInstanceAs (Decidable (data = b.data data.height ∧
    isEmptyDataExpected cfg (b.header data.height) = false))

instance [DecidableEq Tx] : DecidablePred (b.Own cfg) := fun bz =>
  inferInstanceAs (Decidable ((∀ strictMode, ∀ x ∈ decodeHeader cfg strictMode bz, b.OwnHeader x.1) ∧
    ∀ data ∈ acceptData cfg bz, b.OwnData cfg data))

def dataAt (h : Nat) : Data Tx :=
  if isEmptyDataExpected cfg (b.header h) then createEmptyDataForHeader (b.header h) else b.data h

/-- All blobs of the call are of blocks. -/
def OwnOp : Op Tx → Prop
  | .processBlobs _ blobs _ => ∀ bz ∈ blobs, b.Own cfg bz
  | .removePendingData _ => True

instance [DecidableEq Tx] : DecidablePred (b.OwnOp cfg)
  | .processBlobs _ blobs _ => inferInstanceAs (Decidable (∀ bz ∈ blobs, b.Own cfg bz))
  | .removePendingData _ => .isTrue trivial

variable {cfg b} {env : BlobEnv Tx} {daHeight : Nat} {r : Retrieval Tx}

theorem Own.carries {bz : Bytes} (h : b.Own cfg bz) (env : BlobEnv Tx) :
    Carries cfg b.OwnHeader (b.OwnData cfg) env bz :=
  ⟨fun haccept => h.1 _ _ (decodeHeader_of_accept haccept), fun haccept => h.2 _ haccept⟩

theorem OwnOp.carries {op : Op Tx} (h : b.OwnOp cfg op) :
    OpCarries cfg b.OwnHeader (b.OwnData cfg) op := by
  cases op with
  | processBlobs env blobs daHeight => exact fun bz hbz => (h bz hbz).carries env
  | removePendingData => trivial

theorem event_eq {event : DAHeightEvent Tx}
    (h : EventOf cfg b.OwnHeader (b.OwnData cfg) event) :
    event.header = b.header event.header.header.height ∧
      event.data = b.dataAt cfg event.header.header.height := by
  refine ⟨h.header, ?_⟩
  unfold dataAt
  rcases h.data with ⟨⟨hdata, hnonempty⟩, hheight⟩ | ⟨hempty, hdata⟩
  · rw [hheight] at hdata hnonempty
    rw [hnonempty]
    exact hdata
  · rw [← h.header, hempty]
    exact hdata

/-! ## Marks -/

/-- The hashes recorded are those of the blocks. -/
structure Recorded (cfg : DARetrieverConfig Tx) (b : Blocks Tx) (m : CacheManager Tx) : Prop where
  header : ∀ {h key}, m.headerCache.hashByHeight.get? h = some key →
    key = .hash (cfg.hashes.headerHash (b.header h).header)
  data : ∀ {h key}, m.dataCache.hashByHeight.get? h = some key →
    key = .hash (cfg.hashes.daCommitment (b.data h).txs)

variable {m : CacheManager Tx}

theorem recorded_empty : Recorded cfg b .empty := by
  constructor <;> intro h key hget <;> cases hget

theorem OwnHeader.hash_eq {header : SignedHeader} (h : b.OwnHeader header) :
    cfg.hashes.headerHash header.header =
      cfg.hashes.headerHash (b.header header.header.height).header :=
  congrArg (fun sh : SignedHeader => cfg.hashes.headerHash sh.header) h

theorem OwnData.hash_eq {data : Data Tx} (h : b.OwnData cfg data) :
    cfg.hashes.daCommitment data.txs = cfg.hashes.daCommitment (b.data data.height).txs :=
  congrArg (fun d : Data Tx => cfg.hashes.daCommitment d.txs) h.1

theorem Recorded.markHeader (h : Recorded cfg b m) {header : SignedHeader}
    (daHeight : Nat) (hown : b.OwnHeader header) :
    Recorded cfg b (markHeader cfg header daHeight m) :=
  ⟨fun hget => Cache.recorded_setDAIncluded
      (fun h => cfg.hashes.headerHash (b.header h).header) hown.hash_eq h.header hget,
    h.data⟩

theorem Recorded.markData (h : Recorded cfg b m) {data : Data Tx} (daHeight : Nat)
    (hown : b.OwnData cfg data) : Recorded cfg b (markData cfg data daHeight m) :=
  ⟨h.header, fun hget => Cache.recorded_setDAIncluded
      (fun h => cfg.hashes.daCommitment (b.data h).txs) hown.hash_eq h.data hget⟩

theorem Recorded.processBlob (h : Recorded cfg b r.cache) {bz : Bytes} (hbz : b.Own cfg bz) :
    Recorded cfg b (processBlob cfg env daHeight r bz).cache := by
  have hcarries := hbz.carries env
  have hcase := processBlob_cases cfg env daHeight r bz
  generalize DARetriever.processBlob cfg env daHeight r bz = r' at hcase
  cases hcase with
  | ignored => exact h
  | headerWaits _ haccept _ => exact h.markHeader daHeight (hcarries.header haccept)
  | headerReplaces _ haccept _ _ | headerDropped _ haccept _ _ =>
    have hmarked := h.markHeader daHeight (hcarries.header haccept)
    exact ⟨hmarked.header, hmarked.data⟩
  | dataWaits _ _ haccept _ | dataDropped _ _ haccept _ =>
    exact h.markData daHeight (hcarries.data haccept)

/-- What waits and what is recorded are of the blocks. -/
structure Sound (cfg : DARetrieverConfig Tx) (b : Blocks Tx) (r : Retrieval Tx) : Prop where
  holds : Holds b.OwnHeader (b.OwnData cfg) r.retriever
  recorded : Recorded cfg b r.cache

theorem Sound.processBlob (h : Sound cfg b r) {bz : Bytes} (hbz : b.Own cfg bz) :
    Sound cfg b (processBlob cfg env daHeight r bz) :=
  ⟨h.holds.processBlob (hbz.carries env), h.recorded.processBlob hbz⟩

theorem Sound.step (h : Sound cfg b r) {op : Op Tx} (hop : b.OwnOp cfg op) :
    Sound cfg b (step cfg r op).2 := by
  refine ⟨h.holds.step hop.carries, ?_⟩
  cases op with
  | removePendingData => exact h.recorded
  | processBlobs env blobs daHeight =>
    exact Run.invariant (fun r : Retrieval Tx => Recorded cfg b r.cache)
      (fun _ _ h hbz => h.processBlob hbz) blobs (logBlobs blobs daHeight r) h.recorded
      (Run.meets_of_forall hop _)

/-- After any calls: the state, and the events so far. -/
theorem sound_run (ops : List (Op Tx)) (hops : ∀ op ∈ ops, b.OwnOp cfg op) (h : Sound cfg b r) :
    Sound cfg b (Run.final (DARetriever.step cfg) r ops) ∧
      ∀ event ∈ (Run.outputs (DARetriever.step cfg) r ops).flatten,
        EventOf cfg b.OwnHeader (b.OwnData cfg) event := by
  induction ops generalizing r with
  | nil => exact ⟨h, fun event hmem => nomatch hmem⟩
  | cons op ops ih =>
    have hop := hops op List.mem_cons_self
    obtain ⟨hfinal, hevents⟩ := ih (fun op' hop' => hops op' (List.mem_cons_of_mem _ hop')) (h.step hop)
    refine ⟨hfinal, fun event hmem => ?_⟩
    rcases List.mem_append.mp hmem with hmem | hmem
    · exact h.holds.step_events hop.carries hmem
    · exact hevents event hmem

/-! ## Reading again -/

/-- No header waits at the height of the header in the blob. -/
def Unawaited (cfg : DARetrieverConfig Tx) (env : BlobEnv Tx) (r : Retrieval Tx) (bz : Bytes) : Prop :=
  ∀ x ∈ acceptHeader cfg env r.retriever.strictMode bz,
    r.retriever.pendingHeaders.get? x.1.header.height = none

instance (cfg : DARetrieverConfig Tx) (env : BlobEnv Tx) (r : Retrieval Tx) (bz : Bytes) :
    Decidable (Unawaited cfg env r bz) :=
  inferInstanceAs (Decidable (∀ _ ∈ _, _))

/-- Every mark of `m` is in `m'`. -/
structure MarksIn (m m' : CacheManager Tx) : Prop where
  header : ∀ h, (m.getHeaderDAIncludedByHeight h).isSome → (m'.getHeaderDAIncludedByHeight h).isSome
  data : ∀ h, (m.getDataDAIncludedByHeight h).isSome → (m'.getDataDAIncludedByHeight h).isSome

theorem MarksIn.trans {m m' m'' : CacheManager Tx} (h : MarksIn m m') (h' : MarksIn m' m'') :
    MarksIn m m'' :=
  ⟨fun k hk => h'.header k (h.header k hk), fun k hk => h'.data k (h.data k hk)⟩

theorem marksIn_processBlob (h : Sound cfg b r) {bz : Bytes} (hbz : b.Own cfg bz)
    (hnone : Unawaited cfg env r bz) :
    MarksIn r.cache (DARetriever.processBlob cfg env daHeight r bz).cache := by
  have hcarries := hbz.carries env
  have hdata : ∀ {data}, b.OwnData cfg data →
      MarksIn r.cache (DARetriever.markData cfg data daHeight r.cache) := fun hown =>
    ⟨fun _ hk => hk, fun _ hk => Cache.isSome_setDAIncluded
      (fun h => cfg.hashes.daCommitment (b.data h).txs) hown.hash_eq h.recorded.data
      daHeight hk⟩
  have hcase := processBlob_cases cfg env daHeight r bz
  generalize DARetriever.processBlob cfg env daHeight r bz = r' at hcase
  cases hcase with
  | ignored => exact ⟨fun _ hk => hk, fun _ hk => hk⟩
  | headerWaits _ haccept _ =>
    exact ⟨fun _ hk => Cache.isSome_setDAIncluded
      (fun h => cfg.hashes.headerHash (b.header h).header)
      (hcarries.header haccept).hash_eq h.recorded.header daHeight hk, fun _ hk => hk⟩
  | headerReplaces _ haccept hsome _ | headerDropped _ haccept hsome _ =>
    rw [hnone _ haccept] at hsome
    cases hsome
  | dataWaits _ _ haccept _ | dataDropped _ _ haccept _ => exact hdata (hcarries.data haccept)

theorem marksIn_blobs {blobs : List Bytes} (h : Sound cfg b r) (hown : ∀ bz ∈ blobs, b.Own cfg bz)
    (hnone : Run.Meets (DARetriever.processBlob cfg env daHeight) (Unawaited cfg env) r blobs) :
    MarksIn r.cache (Run.exec (DARetriever.processBlob cfg env daHeight) r blobs).cache := by
  induction blobs generalizing r with
  | nil => exact ⟨fun _ hk => hk, fun _ hk => hk⟩
  | cons bz blobs ih =>
    have hbz := hown bz List.mem_cons_self
    exact (marksIn_processBlob h hbz hnone.1).trans
      (ih (h.processBlob hbz) (fun bz' hmem => hown bz' (List.mem_cons_of_mem _ hmem)) hnone.2)

end Blocks

/-- **Reading blobs again does no harm.** After any calls with blobs of the blocks, a call is repeated
while none of its headers waits. Every mark is kept, and all events, before and after, are those of
the blocks. -/
theorem reprocessing_harmless (cfg : DARetrieverConfig Tx) (b : Blocks Tx) (ops : List (Op Tx))
    (hops : ∀ op ∈ ops, b.OwnOp cfg op) (env env' : BlobEnv Tx) (blobs : List Bytes) (daHeight : Nat)
    (hagain : .processBlobs env' blobs daHeight ∈ ops)
    (hnone : Run.Meets (processBlob cfg env daHeight) (Blocks.Unawaited cfg env)
      (logBlobs blobs daHeight (Run.final (step cfg) ⟨newDARetriever, .empty⟩ ops)) blobs) :
    Blocks.MarksIn (Run.final (step cfg) ⟨newDARetriever, .empty⟩ ops).cache
        (processBlobs cfg env blobs daHeight
          (Run.final (step cfg) ⟨newDARetriever, .empty⟩ ops)).2.cache ∧
      ∀ event ∈ (Run.outputs (step cfg) ⟨newDARetriever, .empty⟩ ops).flatten ++
          (processBlobs cfg env blobs daHeight
            (Run.final (step cfg) ⟨newDARetriever, .empty⟩ ops)).1,
        event.header = b.header event.header.header.height ∧
          event.data = b.dataAt cfg event.header.header.height := by
  have hown : ∀ bz ∈ blobs, b.Own cfg bz := hops _ hagain
  obtain ⟨hsound, hevents⟩ := Blocks.sound_run (r := ⟨newDARetriever, .empty⟩) ops hops
    ⟨holds_newDARetriever, Blocks.recorded_empty⟩
  generalize Run.final (step cfg) ⟨newDARetriever, .empty⟩ ops = r at hsound hnone
  constructor
  · exact Blocks.marksIn_blobs (r := logBlobs blobs daHeight r)
      ⟨⟨hsound.holds.header, hsound.holds.data⟩, hsound.recorded⟩ hown hnone
  · intro event hmem
    refine Blocks.event_eq ?_
    rcases List.mem_append.mp hmem with hmem | hmem
    · exact hevents event hmem
    · exact (hsound.holds.decodeBlobs fun bz hbz => (hown bz hbz).carries env).events hmem

namespace ReprocessRun

def tx : RawTx := ⟨3, 5⟩

def blocks : Blocks RawTx where
  header := fun h => (Header.block [7] h [tx] []).signedBy [7]
  data := fun h => Data.block h [tx]

def cfg : DARetrieverConfig RawTx :=
  .symbolic [([1], blocks.header 1)] [([2], (blocks.data 1).signedBy [7])]

def env : BlobEnv RawTx := .plain fun _ => none

def after (calls : List (List Bytes)) : Retrieval RawTx :=
  Run.final (step cfg) ⟨newDARetriever, .empty⟩ (calls.map fun blobs => .processBlobs env blobs 10)

end ReprocessRun

open ReprocessRun in
/-- The block was complete when it was read first, so its header waits no longer. -/
theorem reprocessing_harmless_complete :
    Blocks.MarksIn (after [[[1], [2]]]).cache
      (processBlobs cfg env [[1], [2]] 10 (after [[[1], [2]]])).2.cache :=
  (reprocessing_harmless cfg blocks [.processBlobs env [[1], [2]] 10] (by decide) env env
    [[1], [2]] 10 List.mem_cons_self (by decide)).1

open ReprocessRun in
/-- **A header that is read again while it waits loses its mark.** The header namespace alone is
read, rolled back, and read again with the data: the block is found, its header is not marked. -/
theorem reread_header_unmarked :
    (after [[[1]]]).cache.getHeaderDAIncludedByHeight 1 = some 10 ∧
      (after [[[1]], [[1]]]).cache.getHeaderDAIncludedByHeight 1 = none ∧
      (processBlobs cfg env [[1], [2]] 10 (after [[[1]]])).1.length = 1 ∧
      (after [[[1]], [[1], [2]]]).cache.getHeaderDAIncludedByHeight 1 = none := by
  decide

end DARetriever

end EvNode
