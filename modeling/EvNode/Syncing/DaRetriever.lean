import EvNode.Da.Retriever
import EvNode.Syncing.Cache
import EvNode.Types.Validation

/-!
# The DA retriever

`block/internal/syncing/da_retriever.go`. Blobs of one DA height are decoded into headers and data,
which wait in two maps until both sides of a block are there. Anyone can publish blobs: a header or
data is accepted with any key that signed it, unless the proposer of its height is known.

The encodings are parameters (`BlobCodec`). A call holds the retriever's mutex, so it is one step.
-/

namespace EvNode

variable {Tx : Type}

/-- `types.Metadata`. -/
structure Metadata where
  chainID : String
  height : Nat
  time : Time
  lastDataHash : Bytes
  deriving DecidableEq, Repr

/-- `types.SignedData`, as it is decoded. Without its data part it has neither metadata nor
transactions. -/
structure SignedData (Tx : Type) where
  metadata : Option Metadata
  txs : Option (List Tx)
  signature : Bytes
  signerPubKey : Bytes

/-- The encodings of blobs. `none` is an error. -/
structure BlobCodec (Tx : Type) where
  /-- `SignedHeader.UnmarshalDAEnvelope`, with the signature of the envelope -/
  unmarshalDAEnvelope : Bytes → Option (SignedHeader × Bytes)
  /-- the legacy encoding -/
  unmarshalSignedHeader : Bytes → Option SignedHeader
  /-- `SignedData.UnmarshalBinary` -/
  unmarshalSignedData : Bytes → Option (SignedData Tx)
  /-- `SignedHeader.MarshalBinary` -/
  marshalSignedHeader : SignedHeader → Option Bytes
  /-- `Data.MarshalBinary` -/
  marshalData : Option Metadata → List Tx → Option Bytes

structure DARetrieverConfig (Tx : Type) where
  hashes : Hashes Tx
  scheme : SignatureScheme Tx
  codec : BlobCodec Tx

/-- `daRetriever`. `processed` is a history no function reads: every blob that was processed, with its
DA height. -/
structure DARetriever (Tx : Type) where
  pendingHeaders : OrdMap Nat SignedHeader
  pendingData : OrdMap Nat (Data Tx)
  strictMode : Bool
  processed : List (Nat × Bytes)

/-- The retriever with the cache it shares with the syncer. -/
structure Retrieval (Tx : Type) where
  retriever : DARetriever Tx
  cache : CacheManager Tx

/-- The environment of one call. -/
structure BlobEnv (Tx : Type) where
  now : Time
  /-- `expectedProposer`, where it has an answer -/
  expectedProposer : Nat → Option Bytes
  /-- The order in which Go ranges over `pendingHeaders`. -/
  range : List (Nat × SignedHeader) → List (Nat × SignedHeader)
  range_perm : ∀ l, (range l).Perm l

namespace DARetriever

/-- `NewDARetriever`. -/
def newDARetriever : DARetriever Tx := ⟨.empty, .empty, false, []⟩

def removePendingData (height : Nat) (r : DARetriever Tx) : DARetriever Tx :=
  { r with pendingData := r.pendingData.delete height }

variable (cfg : DARetrieverConfig Tx) (env : BlobEnv Tx)

/-! ## Decoding -/

/-- The header in a blob, and whether a signed envelope was around it. -/
def decodeHeader (strictMode : Bool) (bz : Bytes) : Option (SignedHeader × Bool) :=
  match cfg.codec.unmarshalDAEnvelope bz with
  | none =>
    if strictMode then none
    else (cfg.codec.unmarshalSignedHeader bz).map fun header => (header, false)
  | some (header, envelopeSignature) =>
    if 0 < envelopeSignature.length then
      if header.signerPubKey = [] then none
      else match cfg.codec.marshalSignedHeader header with
        | none => none
        | some payload =>
          if cfg.scheme.verify header.signerPubKey payload envelopeSignature = some true
            then some (header, true) else none
    else some (header, false)

/-- `assertExpectedProposer`. -/
def assertExpectedProposer (header : SignedHeader) : Bool :=
  match env.expectedProposer header.header.height with
  | none => true
  | some expected => expected.length = 0 ∨ header.header.proposerAddress = expected

/-- The checks of `tryDecodeHeader`. -/
def acceptHeader (strictMode : Bool) (bz : Bytes) : Option (SignedHeader × Bool) :=
  match decodeHeader cfg strictMode bz with
  | none => none
  | some (header, isValidEnvelope) =>
    if strictMode ∧ ¬ isValidEnvelope then none
    else match header.header.validateBasic env.now with
      | .error _ => none
      | .ok () =>
        if assertExpectedProposer env header then some (header, isValidEnvelope) else none

/-- An accepted header is marked as included before it is validated. -/
def tryDecodeHeader (bz : Bytes) (daHeight : Nat) (r : Retrieval Tx) :
    Option SignedHeader × Retrieval Tx :=
  match acceptHeader cfg env r.retriever.strictMode bz with
  | none => (none, r)
  | some (header, isValidEnvelope) =>
    (some header,
      { retriever := { r.retriever with
          strictMode := r.retriever.strictMode || isValidEnvelope }
        cache := r.cache.setHeaderDAIncluded (cfg.hashes.headerHash header.header) daHeight
          header.header.height })

/-- `assertValidSignedData`: the signature is valid for the key that comes with it. -/
def assertValidSignedData (signedData : SignedData Tx) : Bool :=
  match signedData.txs with
  | none => false
  | some txs =>
    if signedData.signerPubKey = [] then false
    else match cfg.codec.marshalData signedData.metadata txs with
      | none => false
      | some payload =>
        cfg.scheme.verify signedData.signerPubKey payload signedData.signature = some true

/-- The checks of `tryDecodeData`. -/
def acceptData (bz : Bytes) : Option (Data Tx) :=
  match cfg.codec.unmarshalSignedData bz with
  | none => none
  | some signedData =>
    let txs := signedData.txs.getD []
    if txs.length = 0 ∧ signedData.signature.length = 0 then none
    else if !assertValidSignedData cfg signedData then none
    else signedData.metadata.map fun m => ⟨m.chainID, m.height, m.time, m.lastDataHash, txs⟩

def tryDecodeData (bz : Bytes) (daHeight : Nat) (r : Retrieval Tx) :
    Option (Data Tx) × Retrieval Tx :=
  match acceptData cfg bz with
  | none => (none, r)
  | some data =>
    (some data, { r with
      cache := r.cache.setDataDAIncluded (cfg.hashes.daCommitment data.txs) daHeight data.height })

/-! ## Matching -/

def shouldReplacePendingHeader (existing candidate : SignedHeader) : Bool :=
  match env.expectedProposer candidate.header.height with
  | none => false
  | some expected =>
    expected.length ≠ 0 ∧ existing.header.proposerAddress ≠ expected ∧
      candidate.header.proposerAddress = expected

/-- A decoded header waits, takes the place of one that waits, or is dropped. -/
def addHeader (header : SignedHeader) (r : Retrieval Tx) : Retrieval Tx :=
  let height := header.header.height
  match r.retriever.pendingHeaders.get? height with
  | none =>
    { r with retriever := { r.retriever with
        pendingHeaders := r.retriever.pendingHeaders.put height header } }
  | some existing =>
    if shouldReplacePendingHeader env existing header then
      { retriever := { r.retriever with
          pendingHeaders := r.retriever.pendingHeaders.put height header }
        cache := r.cache.removeHeaderDAIncluded (cfg.hashes.headerHash existing.header) }
    else
      { r with cache := r.cache.removeHeaderDAIncluded (cfg.hashes.headerHash header.header) }

/-- The first data of a height waits, later ones are dropped. -/
def addData (data : Data Tx) (r : Retrieval Tx) : Retrieval Tx :=
  match r.retriever.pendingData.get? data.height with
  | some _ => r
  | none =>
    { r with retriever := { r.retriever with
        pendingData := r.retriever.pendingData.put data.height data } }

def processBlob (daHeight : Nat) (r : Retrieval Tx) (bz : Bytes) : Retrieval Tx :=
  if bz.length = 0 then r
  else match tryDecodeHeader cfg env bz daHeight r with
    | (some header, r) => addHeader cfg env header r
    | (none, r) =>
      match tryDecodeData cfg bz daHeight r with
      | (some data, r) => addData data r
      | (none, r) => r

def isEmptyDataExpected (header : SignedHeader) : Bool :=
  header.header.dataHash.length = 0 ∨ header.header.dataHash = cfg.hashes.dataHashForEmptyTxs

def createEmptyDataForHeader (header : SignedHeader) : Data Tx :=
  ⟨header.header.chainID, header.header.height, header.header.time, [], []⟩

/-- The data of a header that waits, if it is there or can be made. -/
def dataFor (pendingData : OrdMap Nat (Data Tx)) (height : Nat) (header : SignedHeader) :
    Option (Data Tx) :=
  match pendingData.get? height with
  | some data => some data
  | none => if isEmptyDataExpected cfg header then some (createEmptyDataForHeader header) else none

/-- Match headers with data. A header that has found its data waits no longer; the data stays until
its block is handled. -/
def matchHeaders (daHeight : Nat) (r : DARetriever Tx) : List (DAHeightEvent Tx) × DARetriever Tx :=
  let entries := env.range r.pendingHeaders.entries
  (entries.filterMap fun e =>
      (dataFor cfg r.pendingData e.1 e.2).map fun data => ⟨e.2, data, daHeight, .da⟩,
    { r with pendingHeaders := (entries.filter fun e => (dataFor cfg r.pendingData e.1 e.2).isSome
        ).foldl (fun m e => m.delete e.1) r.pendingHeaders })

/-- `processBlobs`. -/
def processBlobs (blobs : List Bytes) (daHeight : Nat) (r : Retrieval Tx) :
    List (DAHeightEvent Tx) × Retrieval Tx :=
  let r := blobs.foldl (processBlob cfg env daHeight) { r with
    retriever := { r.retriever with
      processed := r.retriever.processed ++ blobs.map fun bz => (daHeight, bz) } }
  let matched := matchHeaders cfg env daHeight r.retriever
  (matched.1, { r with retriever := matched.2 })

/-! ## Retrieval -/

/-- `client.RetrieveBlobs` in the header and the data namespace, and whether these are the same. -/
structure BlobAnswers where
  sameNamespace : Bool
  headers : Nat → ResultRetrieve Bytes
  data : Nat → ResultRetrieve Bytes

def validateBlobResponse (res : ResultRetrieve Bytes) : Except Err Unit :=
  match res.code with
  | .error => .error (.text ("DA retrieval failed: " ++ res.message))
  | .heightFromFuture => .error (.wrap "height from future" .heightFromFuture)
  | .notFound => .error (.wrap "blob not found" .blobNotFound)
  | _ => .ok ()

/-- The error of a response, unless it is that there are no blobs. -/
def blobError (res : ResultRetrieve Bytes) : Option Err :=
  match validateBlobResponse res with
  | .error e => if e.is .blobNotFound then none else some e
  | .ok () => none

/-- The blobs of a response that is a success. -/
def successData (res : ResultRetrieve Bytes) : List Bytes :=
  if res.code = .success then res.data else []

/-- `fetchBlobs`. A namespace without blobs is no error unless both are. -/
def fetchBlobs (client : BlobAnswers) (daHeight : Nat) : Except Err (List Bytes) :=
  let headerRes := client.headers daHeight
  if client.sameNamespace then
    match validateBlobResponse headerRes with
    | .error e => .error e
    | .ok () => .ok headerRes.data
  else
    let dataRes := client.data daHeight
    match blobError headerRes with
    | some e => .error e
    | none =>
      match blobError dataRes with
      | some e => .error e
      | none =>
        let combined := successData headerRes ++ successData dataRes
        if combined = [] then .error .blobNotFound else .ok combined

/-- `RetrieveFromDA`. -/
def retrieveFromDA (client : BlobAnswers) (daHeight : Nat) (r : Retrieval Tx) :
    Except Err (List (DAHeightEvent Tx)) × Retrieval Tx :=
  match fetchBlobs client daHeight with
  | .error e => (.error e, r)
  | .ok blobs =>
    let res := processBlobs cfg env blobs daHeight r
    (.ok res.1, res.2)

end DARetriever

/-! ## Concrete blobs

Signatures that carry their key, hashes that are the encodings themselves and blobs that are looked
up in a table, for concrete runs. -/

/-- A height in unary, before other bytes. -/
def unary : Nat → Bytes → Bytes
  | 0, rest => 0 :: rest
  | height + 1, rest => 1 :: unary height rest

theorem unary_inj {h h' : Nat} {rest rest' : Bytes} (heq : unary h rest = unary h' rest') :
    h = h' := by
  induction h generalizing h' with
  | zero =>
    cases h' with
    | zero => rfl
    | succ h' => cases (List.cons.inj heq).1
  | succ h ih =>
    cases h' with
    | zero => cases (List.cons.inj heq).1
    | succ h' => rw [ih (List.cons.inj heq).2]

/-- The fields that tell the headers of concrete runs apart. -/
def Header.encode (h : Header) : Bytes :=
  unary h.height (h.proposerAddress ++ h.dataHash ++ h.lastHeaderHash)

def Data.encode (height : Nat) (txs : List RawTx) : Bytes :=
  unary height (txs.map fun tx => UInt8.ofNat tx.digest)

/-- Only the holder of `key` makes this. -/
def sign (key payload : Bytes) : Bytes := 255 :: (key ++ payload)

def SignatureScheme.symbolic : SignatureScheme RawTx where
  keyAddress := fun key => key
  verify := fun key payload signature => some (signature = sign key payload)
  syncNodeSignatureBytes := none
  marshalBinary := fun h => some h.encode
  marshalBinaryLegacy := fun h => some h.encode

def Hashes.symbolic : Hashes RawTx where
  headerHash := Header.encode
  dataHash := fun d => Data.encode d.height d.txs
  daCommitment := fun txs => txs.map fun tx => UInt8.ofNat tx.digest
  dataHashForEmptyTxs := []

def Header.signedBy (key : Bytes) (h : Header) : SignedHeader := ⟨h, sign key h.encode, key, key⟩

def Data.signedBy (key : Bytes) (d : Data RawTx) : SignedData RawTx :=
  ⟨some ⟨d.chainID, d.height, d.time, d.lastDataHash⟩, some d.txs,
    sign key (Data.encode d.height d.txs), key⟩

/-- Header envelopes are signed with the key in the header. -/
def BlobCodec.table (headers : List (Bytes × SignedHeader))
    (data : List (Bytes × SignedData RawTx)) : BlobCodec RawTx where
  unmarshalDAEnvelope := fun bz =>
    (headers.lookup bz).map fun h => (h, sign h.signerPubKey h.header.encode)
  unmarshalSignedHeader := fun _ => none
  unmarshalSignedData := fun bz => data.lookup bz
  marshalSignedHeader := fun h => some h.header.encode
  marshalData := fun m txs => some (Data.encode ((m.map Metadata.height).getD 0) txs)

def DARetrieverConfig.symbolic (headers : List (Bytes × SignedHeader))
    (data : List (Bytes × SignedData RawTx)) : DARetrieverConfig RawTx :=
  ⟨.symbolic, .symbolic, .table headers data⟩

/-- A block with its header, as the proposer `proposer` makes it one nanosecond after zero. -/
def Header.block (proposer : Bytes) (height : Nat) (txs : List RawTx) (lastHeaderHash : Bytes) :
    Header where
  height := height
  time := 1
  chainID := "chain"
  version := ⟨0, 0⟩
  lastHeaderHash := lastHeaderHash
  dataHash := Hashes.symbolic.daCommitment txs
  appHash := []
  validatorHash := []
  proposerAddress := proposer

def Data.block (height : Nat) (txs : List RawTx) : Data RawTx := ⟨"chain", height, 1, [], txs⟩

theorem BlobEnv.perm_id : ∀ l : List (Nat × SignedHeader), (id l).Perm l := .refl

def BlobEnv.plain (expectedProposer : Nat → Option Bytes) : BlobEnv RawTx :=
  ⟨0, expectedProposer, id, perm_id⟩

end EvNode
