import EvNode.Store.Keys

/-!
# The metadata store of the EVM execution client

`execution/evm/store.go`. A record is kept under a key that embeds the eight raw bytes of its
height, and the height of the last pruned record under a key of its own. Reads and writes of the
datastore succeed.
-/

namespace EvNode

/-- The `Stage` of an `ExecMeta`. -/
inductive ExecStage where
  | started
  | built
  | submitted
  | promoted
  deriving DecidableEq, Repr

/-- `ExecMeta`. -/
structure ExecMeta where
  height : UInt64
  parentHash : Bytes
  payloadID : Bytes
  blockHash : Bytes
  stateRoot : Bytes
  txHash : Bytes
  timestamp : Int
  stage : ExecStage
  updatedAtUnix : Int
  deriving DecidableEq, Repr

/-- What the datastore holds: an encoded `ExecMeta`, or a height in eight bytes. -/
inductive ExecEntry where
  | record (execMeta : ExecMeta)
  | height (height : UInt64)
  deriving DecidableEq, Repr

/-- `EVMStore`. -/
structure EVMStore where
  db : Key → Option ExecEntry

namespace EVMStore

def empty : EVMStore := ⟨fun _ => none⟩

/-- `binary.BigEndian.PutUint64`. -/
def heightBytes (height : UInt64) : Bytes :=
  [7, 6, 5, 4, 3, 2, 1, 0].map fun i => UInt8.ofNat (height.toNat / 256 ^ i)

def evmStorePrefix : Bytes := ascii "evm/"

def lastPrunedExecMetaKey : Key := newKey (evmStorePrefix ++ ascii "last-pruned-execmeta-height")

def execMetaKey (height : UInt64) : Key :=
  newKey (evmStorePrefix ++ ascii "execmeta/" ++ heightBytes height)

def getExecMeta (height : UInt64) (s : EVMStore) : Except Err (Option ExecMeta) :=
  match s.db (execMetaKey height) with
  | none => .ok none
  | some (.record execMeta) => .ok (some execMeta)
  | some (.height _) => .error (.text "failed to unmarshal exec meta")

def saveExecMeta (execMeta : ExecMeta) (s : EVMStore) : EVMStore :=
  ⟨Function.update s.db (execMetaKey execMeta.height) (some (.record execMeta))⟩

/-- The last pruned height, 0 if there is none. -/
def lastPruned (s : EVMStore) : UInt64 :=
  match s.db lastPrunedExecMetaKey with
  | some (.height height) => height
  | _ => 0

/-- The heights of `for h := from + 1; h <= to; h++`. -/
def heightsAfter (start stop : UInt64) : List UInt64 :=
  (List.range' (start.toNat + 1) (stop.toNat - start.toNat)).map UInt64.ofNat

/--
`PruneExec`.

With the largest height the loop never ends (`h <= height` stays true when `h` wraps around), so
nothing is committed.
-/
def pruneExec (height : UInt64) (s : EVMStore) : EVMStore :=
  if height ≤ s.lastPruned then s
  else if height.toNat + 1 = 2 ^ 64 then s
  else
    let db := (heightsAfter s.lastPruned height).foldl
      (fun db h => Function.update db (execMetaKey h) none) s.db
    ⟨Function.update db lastPrunedExecMetaKey (some (.height height))⟩

/-- A call that writes. -/
inductive Op where
  | saveExecMeta (execMeta : ExecMeta)
  | pruneExec (height : UInt64)
  deriving DecidableEq, Repr

def step (s : EVMStore) : Op → EVMStore
  | .saveExecMeta execMeta => s.saveExecMeta execMeta
  | .pruneExec height => s.pruneExec height

end EVMStore

end EvNode
