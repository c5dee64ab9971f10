import Mathlib

/-!
# Protobuf writer

The bytes of length-delimited fields: a tag, the length as a base 128 varint, the value.
-/

namespace Protobuf

/-- The varint of a natural number, seven bits a byte, the lowest first. -/
def uvarint (n : Nat) : List UInt8 :=
  if n < 128 then [UInt8.ofNat n] else UInt8.ofNat (n % 128 + 128) :: uvarint (n / 128)
termination_by n
decreasing_by exact Nat.div_lt_self (by omega) (by omega)

theorem uvarint_ne_nil (n : Nat) : uvarint n ≠ [] := by
  unfold uvarint
  split <;> simp

/-- The tag of a length-delimited field. -/
def lenTag (field : Nat) : List UInt8 := uvarint (field * 8 + 2)

/-- A field that holds a message and is set. -/
def messageField (field : Nat) (value : List UInt8) : List UInt8 :=
  lenTag field ++ uvarint value.length ++ value

/-- A field that holds bytes. An empty one is not written. -/
def bytesField (field : Nat) (value : List UInt8) : List UInt8 :=
  if value = [] then [] else messageField field value

theorem length_lt_messageField (field : Nat) (value : List UInt8) :
    value.length < (messageField field value).length := by
  have htag := List.length_pos_iff.mpr (uvarint_ne_nil (field * 8 + 2))
  simp only [messageField, lenTag, List.length_append]
  omega

/-- The first byte of a field with a small number. -/
theorem head_messageField {field : Nat} (h : field * 8 + 2 < 128) (value : List UInt8) :
    (messageField field value).head? = some (UInt8.ofNat (field * 8 + 2)) := by
  unfold messageField lenTag
  rw [uvarint, if_pos h]
  simp

end Protobuf
