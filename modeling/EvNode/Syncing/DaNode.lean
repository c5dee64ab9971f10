import EvNode.Syncing.DaRetriever
import EvNode.Syncing.Hooked

/-!
# A node that syncs from DA

The syncer and the DA retriever, which share the cache: the retriever marks what it finds on DA, asks
the syncer for the proposer of the next height, and hands complete blocks to `PipeEvent`. The syncer
tells it which data it needs no longer.
-/

namespace EvNode

open Crash Proc

variable {Tx : Type}

structure DANodeConfig (Tx : Type) extends SyncerConfig Tx where
  codec : BlobCodec Tx

def DANodeConfig.retriever (cfg : DANodeConfig Tx) : DARetrieverConfig Tx where
  hashes := cfg.hashes
  scheme := cfg.scheme
  codec := cfg.codec

/-- `removePendingDAData`. -/
def DARetriever.removePendingDAData (event : DAHeightEvent Tx) (r : DARetriever Tx) :
    DARetriever Tx :=
  if event.source ≠ .da then r else r.removePendingData event.header.header.height

def DARetriever.hooks : SyncHooks Tx (DARetriever Tx) where
  started _ := newDARetriever
  skipped event r := r.removePendingDAData event
  committed event _ r := r.removePendingDAData event

abbrev DANode (Tx : Type) := Hooked Tx (DARetriever Tx)

namespace Syncer

/-- `expectedProposerForHeight`: the proposer is known for the next height only. -/
def expectedProposerForHeight (s : Syncer Tx) (height : Nat) : Option Bytes :=
  if height ≠ s.lastState.lastBlockHeight + 1 ∨ s.lastState.nextProposerAddress.length = 0 then none
  else some s.lastState.nextProposerAddress

/-- Pipe events one after the other, as long as `PipeEvent` returns no error. `doneAt` is the number of
events sent before `PipeEvent` finds its context done. -/
def pipeEvents (cfg : SyncerConfig Tx) : Option Nat → List (DAHeightEvent Tx) → Syncer Tx → Syncer Tx
  | _, [], s => s
  | none, event :: events, s => pipeEvents cfg none events (pipeEvent cfg false event s)
  | some (n + 1), event :: events, s => pipeEvents cfg (some n) events (pipeEvent cfg false event s)
  | some 0, event :: events, s =>
    if s.cache.isHeaderSeen (headerHash cfg event) then pipeEvents cfg (some 0) events s
    else pipeEvent cfg true event s

end Syncer

/-- The environment in which the blobs of one DA height are processed. -/
structure ScanEnv where
  now : Time
  range : List (Nat × SignedHeader) → List (Nat × SignedHeader)
  range_perm : ∀ l, (range l).Perm l
  doneAt : Option Nat

def ScanEnv.plain (now : Time) : ScanEnv := ⟨now, id, BlobEnv.perm_id, none⟩

namespace DANode

def blobEnv (env : ScanEnv) (s : Syncer Tx) : BlobEnv Tx where
  now := env.now
  expectedProposer := s.expectedProposerForHeight
  range := env.range
  range_perm := env.range_perm

/-- Blobs of one DA height are processed and the blocks found are piped, as `HandleEvent` and
`fetchAndPipeHeight` do. -/
def scan (cfg : DANodeConfig Tx) (env : ScanEnv) (blobs : List Bytes) (daHeight : Nat)
    (n : DANode Tx) : DANode Tx :=
  let res := DARetriever.processBlobs cfg.retriever (blobEnv env n.syncer) blobs daHeight
    ⟨n.part, n.syncer.cache⟩
  ⟨Syncer.pipeEvents cfg.toSyncerConfig env.doneAt res.1 { n.syncer with cache := res.2.cache },
    res.2.retriever⟩

inductive Op (Tx : Type) where
  | syncer (op : Syncer.Op Tx)
  | scan (env : ScanEnv) (blobs : List Bytes) (daHeight : Nat)

def step [Transaction Tx] (cfg : DANodeConfig Tx) (l : Live (DANode Tx)) : Op Tx → Live (DANode Tx)
  | .syncer op => Hooked.step DARetriever.hooks cfg.toSyncerConfig l op
  | .scan env blobs daHeight =>
    l.call (modify (scan cfg env blobs daHeight) : Proc (DANode Tx) Err Unit)

/-- `Submitter.IsHeightDAIncluded`, for the stored data of the height. -/
def isHeightDAIncluded (cfg : DANodeConfig Tx) (daIncludedHeight height : Nat) (data : Data Tx)
    (n : DANode Tx) : Bool :=
  if height ≤ daIncludedHeight then true
  else if n.syncer.store.height < height then false
  else
    (n.syncer.cache.getHeaderDAIncludedByHeight height).isSome &&
      (cfg.hashes.daCommitment data.txs = cfg.hashes.dataHashForEmptyTxs ||
        (n.syncer.cache.getDataDAIncludedByHeight height).isSome)

end DANode

/-- A node for concrete runs, with blobs from a table. -/
def DANodeConfig.symbolic (genesis : Genesis) (headers : List (Bytes × SignedHeader))
    (data : List (Bytes × SignedData RawTx)) : DANodeConfig RawTx :=
  { SyncerConfig.plain genesis with
    hashes := .symbolic
    scheme := .symbolic
    codec := .table headers data }

def DANode.plain (cfg : DANodeConfig RawTx) : DANode RawTx :=
  ⟨.plain cfg.toSyncerConfig, DARetriever.newDARetriever⟩

end EvNode
