import EvNode.Types.Block

/-!
# Validation of synced blocks

`ValidateBasicWithData` of `types/signed_header.go`, `Validate` of `types/data.go` and
`AssertExpectedProposer` of `types/state.go`. Keys and encodings are parameters
(`SignatureScheme`). Data always comes with its metadata.
-/

namespace EvNode

variable {Tx : Type}

/-- `types.MaxClockDrift`, one minute. -/
def maxClockDrift : Int := 60000000000

/-- The keys, and the payloads a proposer can have signed. -/
structure SignatureScheme (Tx : Type) where
  keyAddress : Bytes → Bytes
  /-- `PubKey.Verify(payload, signature)`, with `none` for an error. -/
  verify : Bytes → Bytes → Bytes → Option Bool
  /-- The custom payload of `SyncNodeSignatureBytesProvider`, if one is set. -/
  syncNodeSignatureBytes : Option (Header → Data Tx → Option Bytes)
  marshalBinary : Header → Option Bytes
  marshalBinaryLegacy : Header → Option Bytes

/-- `Header.ValidateBasic`. -/
def Header.validateBasic (h : Header) (now : Time) : Except Err Unit :=
  if h.proposerAddress.length = 0 then .error (.text "no proposer address")
  else if h.time = 0 then .error (.text "invalid timestamp: timestamp cannot be zero")
  else if now + maxClockDrift < h.time then
    .error (.text "invalid timestamp: timestamp too far in future")
  else .ok ()

namespace SignedHeader

/-- The key is there and has the signer's address. -/
def validateSignerIdentity (scheme : SignatureScheme Tx) (sh : SignedHeader) : Except Err Unit :=
  if sh.signerPubKey = [] then .error (.text "signer public key is missing")
  else if scheme.keyAddress sh.signerPubKey ≠ sh.signerAddress then
    .error (.text "signer address does not match signer public key")
  else .ok ()

/-- Try the payloads in order until one verifies. An empty payload and one that was tried already
are passed over. -/
def tryPayloads (scheme : SignatureScheme Tx) (sh : SignedHeader) (tried : List Bytes) :
    List (Except Err Bytes) → Except Err Unit
  | [] => .error (.text "signature verification failed")
  | .error e :: _ => .error e
  | .ok payload :: rest =>
    if payload.length = 0 ∨ payload ∈ tried then sh.tryPayloads scheme tried rest
    else match scheme.verify sh.signerPubKey payload sh.signature with
      | none => .error (.text "signature")
      | some true => .ok ()
      | some false => sh.tryPayloads scheme (payload :: tried) rest

/-- The payloads the signature is checked against: the custom one, the slim header and the legacy
encoding. -/
def payloads (scheme : SignatureScheme Tx) (sh : SignedHeader) (data : Data Tx) :
    List (Except Err Bytes) :=
  let custom := match scheme.syncNodeSignatureBytes with
    | none => []
    | some provider => [match provider sh.header data with
        | none => .error (.text "custom signature payload provider failed")
        | some bz => .ok bz]
  let encoded (bz : Option Bytes) : Except Err Bytes := match bz with
    | none => .error (.text "marshal header")
    | some bz => .ok bz
  custom ++ [encoded (scheme.marshalBinary sh.header),
    encoded (scheme.marshalBinaryLegacy sh.header)]

def validateBasicWithData (scheme : SignatureScheme Tx) (now : Time) (sh : SignedHeader)
    (data : Data Tx) : Except Err Unit := do
  sh.header.validateBasic now
  if sh.signature.length = 0 then throw (.text "signature is empty")
  sh.validateSignerIdentity scheme
  if sh.header.proposerAddress ≠ sh.signerAddress then
    throw (.text ("proposer address in SignedHeader does not match the proposer address " ++
      "in the validator set"))
  sh.tryPayloads scheme [] (sh.payloads scheme data)

end SignedHeader

/-- `types.Validate`: the data belongs to the header. -/
def validate (hs : Hashes Tx) (header : SignedHeader) (data : Data Tx) : Except Err Unit :=
  if header.header.chainID ≠ data.chainID ∨ header.header.height ≠ data.height ∨
      header.header.time ≠ data.time then .error (.text "header and data do not match")
  else if hs.daCommitment data.txs ≠ header.header.dataHash then
    .error (.text "dataHash from the header does not match with hash of the block's data")
  else .ok ()

/-- `State.AssertExpectedProposer`. -/
def State.assertExpectedProposer (s : State) (header : SignedHeader) : Except Err Unit :=
  if s.nextProposerAddress.length > 0 ∧
      header.header.proposerAddress ≠ s.nextProposerAddress then .error (.text "unexpected proposer")
  else .ok ()

end EvNode
