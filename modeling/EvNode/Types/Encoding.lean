import EvNode.Lib.Protobuf
import EvNode.Types.Block

/-!
# The stored bytes of a header

`types/serialization.go`. A stored header is a `SignedHeader` message, with the `Header` message as
its first field. `Header.Hash` is over the bytes of the second, the index of the store is over the
bytes of the first.
-/

namespace EvNode

open Protobuf

/-- The `Signer` message, which is empty without a public key. -/
def SignedHeader.marshalSigner (sh : SignedHeader) : Bytes :=
  if sh.signerPubKey = [] then []
  else bytesField 1 sh.signerAddress ++ bytesField 2 sh.signerPubKey

/-- `SignedHeader.MarshalBinary` over `Header.MarshalBinary`. -/
def SignedHeader.marshalBinary (marshalHeader : Header → Bytes) (sh : SignedHeader) : Bytes :=
  messageField 1 (marshalHeader sh.header) ++ bytesField 2 sh.signature ++
    messageField 3 sh.marshalSigner

theorem SignedHeader.length_lt_marshalBinary (marshalHeader : Header → Bytes) (sh : SignedHeader) :
    (marshalHeader sh.header).length < (sh.marshalBinary marshalHeader).length := by
  have hlt := length_lt_messageField 1 (marshalHeader sh.header)
  simp only [SignedHeader.marshalBinary, List.length_append]
  omega

/-- The first byte is the tag of the header. -/
theorem SignedHeader.head_marshalBinary (marshalHeader : Header → Bytes) (sh : SignedHeader) :
    (sh.marshalBinary marshalHeader).head? = some 10 := by
  have hhead := @head_messageField 1 (by decide) (marshalHeader sh.header)
  simp only [SignedHeader.marshalBinary, List.append_assoc, List.head?_append, hhead]
  rfl

end EvNode
