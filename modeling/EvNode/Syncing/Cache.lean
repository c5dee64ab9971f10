import EvNode.Lib.OrdMap
import EvNode.Types.Block

/-!
# The cache of seen blocks

`block/internal/cache/generic_cache.go` and the parts of `manager.go` that the syncer uses: which
headers and data were seen, where they are included on DA, and the events that wait for an earlier
block. Writing the snapshot is left out; a new cache is restored from the entries of a snapshot.
-/

namespace EvNode

variable {Tx : Type}

/-- `common.EventSource`. The raft retriever leaves it unset. -/
inductive EventSource where
  | da
  | p2p
  | raft
  | unset
  deriving DecidableEq, Repr

/-- `common.DAHeightEvent`. The DA height hints only steer the DA follower and are left out. -/
structure DAHeightEvent (Tx : Type) where
  header : SignedHeader
  data : Data Tx
  daHeight : Nat
  source : EventSource

/-- A key of the cache: a hash, or the placeholder of a restored height. -/
inductive CacheKey where
  | hash (h : Bytes)
  | placeholder (height : Nat)
  deriving DecidableEq, Repr

/-- `cache.Cache`. A missing entry of a Go map reads as the zero value, so the first two maps are
functions. -/
structure Cache where
  hashes : CacheKey → Bool
  daIncluded : CacheKey → Option Nat
  hashByHeight : OrdMap Nat CacheKey
  maxDAHeight : Nat

namespace Cache

def empty : Cache := ⟨fun _ => false, fun _ => none, .empty, 0⟩

def isSeen (c : Cache) (hash : Bytes) : Bool := c.hashes (.hash hash)

def setSeen (c : Cache) (hash : Bytes) (height : Nat) : Cache :=
  { c with
    hashes := Function.update c.hashes (.hash hash) true
    hashByHeight := c.hashByHeight.put height (.hash hash) }

def setMaxDAHeight (c : Cache) (daHeight : Nat) : Cache :=
  if daHeight ≤ c.maxDAHeight then c else { c with maxDAHeight := daHeight }

def setDAIncluded (c : Cache) (hash : Bytes) (daHeight blockHeight : Nat) : Cache :=
  let evicted := match c.hashByHeight.get? blockHeight with
    | some prev => if prev ≠ .hash hash then Function.update c.daIncluded prev none else c.daIncluded
    | none => c.daIncluded
  setMaxDAHeight { c with
    daIncluded := Function.update evicted (.hash hash) (some daHeight)
    hashByHeight := c.hashByHeight.put blockHeight (.hash hash) } daHeight

/-- Where the block at `blockHeight` is included, through the last hash set for that height. -/
def getDAIncludedByHeight (c : Cache) (blockHeight : Nat) : Option Nat :=
  (c.hashByHeight.get? blockHeight).bind c.daIncluded

def removeDAIncluded (c : Cache) (hash : Bytes) : Cache :=
  { c with daIncluded := Function.update c.daIncluded (.hash hash) none }

def deleteAllForHeight (c : Cache) (height : Nat) : Cache :=
  match c.hashByHeight.get? height with
  | none => c
  | some key =>
    { c with
      hashByHeight := c.hashByHeight.delete height
      hashes := Function.update c.hashes key false
      daIncluded := Function.update c.daIncluded key none }

/-- One entry of the snapshot, block height and DA height. -/
def restoreEntry (finalizedHeight : Nat) (c : Cache) (e : Nat × Nat) : Cache :=
  let c := c.setMaxDAHeight e.2
  if e.1 ≤ finalizedHeight then c
  else { c with
    daIncluded := Function.update c.daIncluded (.placeholder e.1) (some e.2)
    hashByHeight := c.hashByHeight.put e.1 (.placeholder e.1) }

/-- `RestoreFromStore`. -/
def restoreFromStore (snapshot : List (Nat × Nat)) (finalizedHeight : Nat) (c : Cache) : Cache :=
  snapshot.foldl (restoreEntry finalizedHeight) c

/-- `RestoreFromStore` into a new cache. -/
def restored (snapshot : List (Nat × Nat)) (finalizedHeight : Nat) : Cache :=
  snapshot.foldl (restoreEntry finalizedHeight) empty

/-- The calls that write to a cache. -/
inductive Op where
  | setSeen (hash : Bytes) (height : Nat)
  | setDAIncluded (hash : Bytes) (daHeight blockHeight : Nat)
  | removeDAIncluded (hash : Bytes)
  | deleteAllForHeight (height : Nat)
  | restoreFromStore (snapshot : List (Nat × Nat)) (finalizedHeight : Nat)

def step (c : Cache) : Op → Cache
  | .setSeen hash height => c.setSeen hash height
  | .setDAIncluded hash daHeight blockHeight => c.setDAIncluded hash daHeight blockHeight
  | .removeDAIncluded hash => c.removeDAIncluded hash
  | .deleteAllForHeight height => c.deleteAllForHeight height
  | .restoreFromStore snapshot finalizedHeight => c.restoreFromStore snapshot finalizedHeight

end Cache

/-- `cache.implementation`, without the cursors of DA submission. -/
structure CacheManager (Tx : Type) where
  headerCache : Cache
  dataCache : Cache
  pendingEvents : OrdMap Nat (DAHeightEvent Tx)

namespace CacheManager

def empty : CacheManager Tx := ⟨.empty, .empty, .empty⟩

def isHeaderSeen (m : CacheManager Tx) (hash : Bytes) : Bool := m.headerCache.isSeen hash

def setHeaderSeen (m : CacheManager Tx) (hash : Bytes) (height : Nat) : CacheManager Tx :=
  { m with headerCache := m.headerCache.setSeen hash height }

def setDataSeen (m : CacheManager Tx) (hash : Bytes) (height : Nat) : CacheManager Tx :=
  { m with dataCache := m.dataCache.setSeen hash height }

def setHeaderDAIncluded (m : CacheManager Tx) (hash : Bytes) (daHeight height : Nat) :
    CacheManager Tx :=
  { m with headerCache := m.headerCache.setDAIncluded hash daHeight height }

def setDataDAIncluded (m : CacheManager Tx) (hash : Bytes) (daHeight height : Nat) :
    CacheManager Tx :=
  { m with dataCache := m.dataCache.setDAIncluded hash daHeight height }

def getHeaderDAIncludedByHeight (m : CacheManager Tx) (height : Nat) : Option Nat :=
  m.headerCache.getDAIncludedByHeight height

def getDataDAIncludedByHeight (m : CacheManager Tx) (height : Nat) : Option Nat :=
  m.dataCache.getDAIncludedByHeight height

def removeHeaderDAIncluded (m : CacheManager Tx) (hash : Bytes) : CacheManager Tx :=
  { m with headerCache := m.headerCache.removeDAIncluded hash }

def removeDataDAIncluded (m : CacheManager Tx) (hash : Bytes) : CacheManager Tx :=
  { m with dataCache := m.dataCache.removeDAIncluded hash }

/-- `DaHeight`: the highest DA height seen across the two caches. -/
def daHeight (m : CacheManager Tx) : Nat := max m.headerCache.maxDAHeight m.dataCache.maxDAHeight

def deleteHeight (m : CacheManager Tx) (height : Nat) : CacheManager Tx where
  headerCache := m.headerCache.deleteAllForHeight height
  dataCache := m.dataCache.deleteAllForHeight height
  pendingEvents := m.pendingEvents.delete height

def setPendingEvent (m : CacheManager Tx) (height : Nat) (event : DAHeightEvent Tx) :
    CacheManager Tx :=
  { m with pendingEvents := m.pendingEvents.put height event }

end CacheManager

end EvNode
