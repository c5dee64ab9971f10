import Mathlib

/-!
# Transactions, times and errors

A transaction is opaque to the sequencers, the executor and the syncer: they read its length and
its SHA-256 digest, and otherwise only carry it. The model keeps it a type variable `Tx` with the
class `Transaction`. Two occurrences of the same bytes can so be two values with one digest.
-/

namespace EvNode

/-- What the code reads of a transaction: `len(tx)`, and `sha256.Sum256(tx)` as a number. -/
class Transaction (Tx : Type) where
  size : Tx → Nat
  hash : Tx → Nat

export Transaction (size)

/-- A transaction given by its digest and its length, for concrete runs. -/
structure RawTx where
  digest : Nat
  length : Nat
  deriving DecidableEq, Repr

instance : Transaction RawTx := ⟨RawTx.length, RawTx.digest⟩

/-- Bytes held for their own sake: hashes, addresses, keys and signatures. -/
abbrev Bytes := List UInt8

instance : LawfulBEq Bytes := inferInstance

/-- `time.Time`, in nanoseconds since the Unix epoch. -/
abbrev Time := Int

/-- `time.Millisecond`. -/
def millisecond : Int := 1000000

/-- The zero `time.Time`, January 1 of year 1. -/
def zeroTime : Time := -62135596800000000000

/-- `ValidationFault`: the side of a header and data pair that is to blame. -/
inductive ValidationFault where
  | header
  | data
  deriving DecidableEq, Repr

/--
The errors of the modelled functions. A sentinel of the source is a constructor;
`fmt.Errorf("msg: %w", err)` is `wrap`, `errors.Join` is `join`, and an error that nothing tests
for is `text`.
-/
inductive Err where
  /-- `ErrInvalidID` -/
  | invalidId
  /-- `ErrQueueFull` -/
  | queueFull
  /-- `ErrNotProposer` -/
  | notProposer
  /-- `ErrNoBatch` -/
  | noBatch
  /-- `ErrNoTransactionsInBatch` -/
  | noTransactionsInBatch
  /-- `ErrHeightFromFuture` -/
  | heightFromFuture
  /-- `ErrBlobNotFound` -/
  | blobNotFound
  /-- `ErrForceInclusionNotConfigured` -/
  | forceInclusionNotConfigured
  /-- `ErrInvalidChainID` -/
  | invalidChainID
  /-- `ErrInvalidBlockHeight` -/
  | invalidBlockHeight
  /-- `ErrInvalidBlockTime` -/
  | invalidBlockTime
  /-- `ErrInvalidLastHeaderHash` -/
  | invalidLastHeaderHash
  /-- `ErrInvalidLastAppHash` -/
  | invalidLastAppHash
  /-- `errInvalidBlock` -/
  | invalidBlock
  /-- `errInvalidState` -/
  | invalidState
  /-- `errMaliciousProposer` -/
  | maliciousProposer
  | text (msg : String)
  | wrap (msg : String) (cause : Err)
  /-- `BlockValidationError` -/
  | blockValidation (fault : ValidationFault) (cause : Err)
  | join (first second : Err)
  deriving DecidableEq, Repr

/-- `errors.Is(e, target)`. -/
def Err.is : Err → Err → Bool
  | .wrap msg cause, target => decide (Err.wrap msg cause = target) || cause.is target
  | .blockValidation fault cause, target =>
    decide (Err.blockValidation fault cause = target) || cause.is target
  | .join first second, target =>
    decide (Err.join first second = target) || first.is target || second.is target
  | e, target => decide (e = target)

/-- `errors.As(e, &vErr)`: the fault of the first `BlockValidationError` in `e`. -/
def Err.fault? : Err → Option ValidationFault
  | .blockValidation fault _ => some fault
  | .wrap _ cause => cause.fault?
  | .join first second => first.fault?.or second.fault?
  | _ => none

/-- `execution.FilterStatus`. -/
inductive FilterStatus where
  | ok
  | remove
  | postpone
  deriving DecidableEq, Repr

/-- `genesis.Genesis`, with what `Validate` checks of the two numbers the model subtracts from. -/
structure Genesis where
  chainID : String
  startTime : Time
  initialHeight : Nat
  proposerAddress : Bytes
  daStartHeight : Nat
  daEpochForcedInclusion : Nat
  initialHeight_pos : 0 < initialHeight
  daEpochForcedInclusion_pos : 0 < daEpochForcedInclusion

end EvNode
