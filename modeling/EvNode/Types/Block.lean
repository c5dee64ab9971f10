import EvNode.Types.Basic

/-!
# Headers, data and chain state

`types/header.go`, `types/signed_header.go`, `types/data.go` and `types/state.go`, as far as block
production reads them. The hash functions are parameters (`Hashes`).
-/

namespace EvNode

/-- `types.Version`. -/
structure Version where
  block : Nat
  app : Nat
  deriving DecidableEq, Repr

/-- `types.Header`. Its memoized hash is left out, and so are the legacy fields, which block
production leaves unset. -/
structure Header where
  height : Nat
  /-- Unix time in nanoseconds. -/
  time : Time
  chainID : String
  version : Version
  lastHeaderHash : Bytes
  dataHash : Bytes
  appHash : Bytes
  validatorHash : Bytes
  proposerAddress : Bytes
  deriving DecidableEq, Repr

/-- `types.SignedHeader`. -/
structure SignedHeader where
  header : Header
  signature : Bytes
  signerPubKey : Bytes
  signerAddress : Bytes
  deriving DecidableEq, Repr

/-- `types.Data` with its metadata. -/
structure Data (Tx : Type) where
  chainID : String
  height : Nat
  time : Time
  lastDataHash : Bytes
  txs : List Tx
  deriving DecidableEq, Repr

/-- `types.State`. -/
structure State where
  version : Version
  chainID : String
  initialHeight : Nat
  lastBlockHeight : Nat
  lastBlockTime : Time
  lastHeaderHash : Bytes
  daHeight : Nat
  appHash : Bytes
  nextProposerAddress : Bytes
  deriving DecidableEq, Repr

/-- The hash functions of `types/hashing.go` and the signature payloads over them. -/
structure Hashes (Tx : Type) where
  headerHash : Header → Bytes
  dataHash : Data Tx → Bytes
  daCommitment : List Tx → Bytes
  /-- `common.DataHashForEmptyTxs` -/
  dataHashForEmptyTxs : Bytes

/-- `State.NextState`. It never fails. -/
def State.nextState {Tx : Type} (hs : Hashes Tx) (s : State) (header : Header)
    (stateRoot nextProposerAddress : Bytes) : State :=
  let nextProposer :=
    if nextProposerAddress.length > 0 then nextProposerAddress else s.nextProposerAddress
  let nextProposer := if nextProposer.length = 0 then header.proposerAddress else nextProposer
  { version := s.version
    chainID := s.chainID
    initialHeight := s.initialHeight
    lastBlockHeight := header.height
    lastBlockTime := header.time
    appHash := stateRoot
    lastHeaderHash := hs.headerHash header
    daHeight := s.daHeight
    nextProposerAddress := nextProposer }

/--
`State.AssertValidSequence`.

A header that does not link to the last header is let through once per process
(`lastHeaderHashErrCount`), so the count goes in and comes out. It is counted before the app hash
is compared.
-/
def State.assertValidSequence (s : State) (header : SignedHeader) (lastHeaderHashErrCount : Nat) :
    Except Err Unit × Nat :=
  if header.header.chainID ≠ s.chainID then (.error .invalidChainID, lastHeaderHashErrCount)
  else if s.lastHeaderHash.length = 0 then (.ok (), lastHeaderHashErrCount)
  else if header.header.height ≠ s.lastBlockHeight + 1 then
    (.error .invalidBlockHeight, lastHeaderHashErrCount)
  else if s.lastBlockTime > header.header.time then
    (.error .invalidBlockTime, lastHeaderHashErrCount)
  else if header.header.lastHeaderHash ≠ s.lastHeaderHash ∧ lastHeaderHashErrCount = 1 then
    (.error .invalidLastHeaderHash, lastHeaderHashErrCount)
  else
    let count :=
      if header.header.lastHeaderHash ≠ s.lastHeaderHash then 1 else lastHeaderHashErrCount
    if header.header.appHash ≠ s.appHash then (.error .invalidLastAppHash, count)
    else (.ok (), count)

end EvNode
