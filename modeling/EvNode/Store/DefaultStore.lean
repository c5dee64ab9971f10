import EvNode.Executing.Store
import EvNode.Lib.KeyValue
import EvNode.Store.Keys

/-!
# The default store

`pkg/store/store.go`, `pkg/store/batch.go` and `pkg/store/keys.go`: the block store with its hash
index and its metadata. Every writing function stages a batch of puts and deletes while it reads the
datastore, and commits the batch atomically. Reads and commits succeed.

The index is keyed by the SHA-256 digest of the stored header bytes, `blobHash`.
-/

namespace EvNode

variable {Tx : Type}

/-- A metadata value: a height in eight bytes, or bytes of another length. -/
inductive MetaValue where
  | height (height : Nat)
  | bytes (bytes : Bytes)
  deriving DecidableEq, Repr

/-! ## Metadata keys -/

/-- The datastore key of `GetMetaKey`. -/
def metaKey (key : Bytes) : Key := newKey (ascii "m" ++ CleanPath.slash :: key)

def daIncludedHeightKey : Bytes := ascii "d"

def lastPrunedBlockHeightKey : Bytes := ascii "lst-prnd-b"

def lastPrunedStateHeightKey : Bytes := ascii "lst-prnd-s"

/-- `strconv.FormatUint(height, 10)`. -/
def decimal (height : Nat) : Bytes :=
  (Nat.toDigits 10 height).map fun c => UInt8.ofNat c.toNat

/-- `HeightToDAHeightKey` with a height. -/
def heightToDAHeightKey (height : Nat) : Bytes :=
  ascii "rhb" ++ CleanPath.slash :: decimal height

/-- `GetHeightToDAHeightHeaderKey`. -/
def heightToDAHeightHeaderKey (height : Nat) : Bytes :=
  heightToDAHeightKey height ++ CleanPath.slash :: ascii "h"

/-- `GetHeightToDAHeightDataKey`. -/
def heightToDAHeightDataKey (height : Nat) : Bytes :=
  heightToDAHeightKey height ++ CleanPath.slash :: ascii "d"

/-- `DefaultStore`: the block store with the index of block hashes and the metadata. -/
structure DefaultStore (Tx : Type) extends Store Tx where
  index : Bytes → Option Nat
  metadata : Key → Option MetaValue

/-- A staged put or delete. A block stands for its header, data and signature keys and the index key
of its header bytes, which are always staged together. -/
inductive BatchOp (Tx : Type) where
  | putHeight (height : Nat)
  | putBlock (header : SignedHeader) (data : Data Tx) (signature : Bytes)
  | deleteBlock (height : Nat) (header : SignedHeader)
  | putState (state : State)
  | deleteState (height : Nat)
  | putMeta (key : Bytes) (value : MetaValue)
  | deleteMeta (key : Bytes)

namespace DefaultStore

def empty : DefaultStore Tx := ⟨.empty, fun _ => none, fun _ => none⟩

/-! ## Reads -/

def getHeader (s : DefaultStore Tx) (height : Nat) : Option SignedHeader :=
  (s.blocks.get? height).map Block.header

def getSignature (s : DefaultStore Tx) (height : Nat) : Option Bytes :=
  (s.blocks.get? height).map Block.signature

def getHeightByHash (s : DefaultStore Tx) (hash : Bytes) : Option Nat := s.index hash

def getBlockByHash (s : DefaultStore Tx) (hash : Bytes) : Option (SignedHeader × Data Tx) :=
  (s.getHeightByHash hash).bind s.getBlockData

def getSignatureByHash (s : DefaultStore Tx) (hash : Bytes) : Option Bytes :=
  (s.getHeightByHash hash).bind s.getSignature

def getMetadata (s : DefaultStore Tx) (key : Bytes) : Option MetaValue := s.metadata (metaKey key)

/-- `getLastPrunedHeight`: 0 when the marker is missing or malformed. -/
def getLastPrunedHeight (s : DefaultStore Tx) (key : Bytes) : Nat :=
  match s.getMetadata key with
  | some (.height height) => height
  | _ => 0

/-! ## Batches -/

section
variable (blobHash : SignedHeader → Bytes)

def applyOp (s : DefaultStore Tx) : BatchOp Tx → DefaultStore Tx
  | .putHeight height => { s with height := height }
  | .putBlock header data signature =>
    { s with
      toStore := s.toStore.saveBlockData header data signature
      index := Function.update s.index (blobHash header) (some header.header.height) }
  | .deleteBlock height header =>
    { s with
      blocks := s.blocks.delete height
      index := Function.update s.index (blobHash header) none }
  | .putState state => { s with toStore := s.toStore.updateState state }
  | .deleteState height => { s with states := s.states.delete height }
  | .putMeta key value => { s with metadata := KeyValue.apply s.metadata ⟨metaKey key, some value⟩ }
  | .deleteMeta key => { s with metadata := KeyValue.apply s.metadata ⟨metaKey key, none⟩ }

def commit (batch : List (BatchOp Tx)) (s : DefaultStore Tx) : DefaultStore Tx :=
  batch.foldl (applyOp blobHash) s

/-- `Batch.SetHeight` reads the height of the store, not of the batch. -/
def setHeight (height : Nat) (s : DefaultStore Tx) : List (BatchOp Tx) :=
  if height ≤ s.height then [] else [.putHeight height]

/-- The batch of a block, as the executor and the syncer fill it. -/
def commitBlock (header : SignedHeader) (data : Data Tx) (signature : Bytes) (state : State)
    (s : DefaultStore Tx) : DefaultStore Tx :=
  s.commit blobHash
    ([.putBlock header data signature] ++ s.setHeight header.header.height ++ [.putState state])

def setMetadata (key : Bytes) (value : MetaValue) (s : DefaultStore Tx) : DefaultStore Tx :=
  s.commit blobHash [.putMeta key value]

def deleteMetadata (key : Bytes) (s : DefaultStore Tx) : DefaultStore Tx :=
  s.commit blobHash [.deleteMeta key]

/-! ## Rollback -/

/-- The DA-included height stops an aggregator and follows anyone else. -/
def rollbackIncluded (height : Nat) (aggregator : Bool) (s : DefaultStore Tx) :
    Except Err (List (BatchOp Tx)) :=
  match s.getMetadata daIncludedHeightKey with
  | some (.height daIncludedHeight) =>
    if height < daIncludedHeight then
      if aggregator then
        .error (.text
          "DA included height is greater than the rollback height: cannot rollback a finalized height")
      else .ok [.putMeta daIncludedHeightKey (.height height)]
    else .ok []
  | _ => .ok []

/-- The loop of `Rollback`, from `currentHeight` down to `height`. -/
def rollbackBlocks (height : Nat) (s : DefaultStore Tx) : Nat → Except Err (List (BatchOp Tx))
  | 0 => .ok []
  | current + 1 =>
    if current + 1 ≤ height then .ok []
    else
      match s.getHeader (current + 1) with
      | none => .error (.text "failed to get header")
      | some header => do
        let rest ← rollbackBlocks height s current
        pure (.deleteBlock (current + 1) header :: .deleteState (current + 1) :: rest)

/-- What `Rollback` stages. -/
def rollbackBatch (height : Nat) (aggregator : Bool) (s : DefaultStore Tx) :
    Except Err (List (BatchOp Tx)) :=
  if s.height ≤ height then
    .error (.text "current height is already less than or equal to rollback height")
  else do
    let included ← s.rollbackIncluded height aggregator
    let blocks ← s.rollbackBlocks height s.height
    pure (included ++ blocks ++ [.putHeight height])

def rollback (height : Nat) (aggregator : Bool) (s : DefaultStore Tx) :
    Except Err (DefaultStore Tx) := do
  let batch ← s.rollbackBatch height aggregator
  pure (s.commit blobHash batch)

/-! ## Pruning -/

/-- What `PruneBlocks` stages for one height. A height without a header is skipped. -/
def pruneBlock (s : DefaultStore Tx) (height : Nat) : List (BatchOp Tx) :=
  match s.getHeader height with
  | none => []
  | some header =>
    [.deleteBlock height header, .deleteMeta (heightToDAHeightHeaderKey height),
      .deleteMeta (heightToDAHeightDataKey height)]

def pruneBlocks (height : Nat) (s : DefaultStore Tx) : DefaultStore Tx :=
  let lastPruned := s.getLastPrunedHeight lastPrunedBlockHeightKey
  if height ≤ lastPruned then s
  else s.commit blobHash
    ((List.range' (lastPruned + 1) (height - lastPruned)).flatMap s.pruneBlock ++
      [.putMeta lastPrunedBlockHeightKey (.height height)])

def pruneStates (height : Nat) (s : DefaultStore Tx) : DefaultStore Tx :=
  let lastPruned := s.getLastPrunedHeight lastPrunedStateHeightKey
  if height ≤ lastPruned then s
  else s.commit blobHash
    ((List.range' (lastPruned + 1) (height - lastPruned)).map .deleteState ++
      [.putMeta lastPrunedStateHeightKey (.height height)])

end

end DefaultStore

end EvNode
