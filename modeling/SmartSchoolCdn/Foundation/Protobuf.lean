import Mathlib.Algebra.GroupWithZero.Nat
import Mathlib.Data.Nat.Log

/-!
# The wire format of protocol buffers

The encoding of messages: variable-length integers, tags, and the three kinds of fields that
proto3 leaves out when they have their default value.  Bytes are `UInt8`s in the order in which
they are written.

A limit on the length of messages is about the length of the encoding.  The lemmas give that
length for every kind of field as a function of the length of its payload; field numbers below
16 have tags of one byte.
-/

namespace Protobuf

/-! ## Encoding -/

/-- A variable-length integer: seven bits a byte, low bits first, the high bit set in every
byte but the last. -/
def varint (n : ℕ) : List UInt8 :=
  if n < 128 then [n.toUInt8] else (n % 128 + 128).toUInt8 :: varint (n / 128)
termination_by n
decreasing_by omega

/-- The tag of a field. -/
def tag (field wireType : ℕ) : List UInt8 := varint (8 * field + wireType)

/-- A length-delimited field that is always written: an embedded message, or a member of a
`oneof`. -/
def delimited (field : ℕ) (payload : List UInt8) : List UInt8 :=
  tag field 2 ++ varint payload.length ++ payload

/-- A `bytes` or `string` field, left out when it is empty. -/
def bytesField (field : ℕ) (payload : List UInt8) : List UInt8 :=
  if payload.isEmpty then [] else delimited field payload

/-- An integer field, left out when it is zero. -/
def uintField (field n : ℕ) : List UInt8 :=
  if n = 0 then [] else tag field 0 ++ varint n

/-- A repeated field of embedded messages. -/
def repeatedField (field : ℕ) (payloads : List (List UInt8)) : List UInt8 :=
  payloads.flatMap (delimited field)

/-! ## Lengths -/

/-- The length of a variable-length integer. -/
def varintSize (n : ℕ) : ℕ := Nat.log 128 n + 1

/-- The length of a length-delimited field with a short tag. -/
def delimitedSize (payload : ℕ) : ℕ := 1 + varintSize payload + payload

/-- The length of a `bytes` or `string` field with a short tag. -/
def bytesSize (payload : ℕ) : ℕ := if payload = 0 then 0 else delimitedSize payload

/-- The length of an integer field with a short tag. -/
def uintSize (n : ℕ) : ℕ := if n = 0 then 0 else 1 + varintSize n

lemma length_varint (n : ℕ) : (varint n).length = varintSize n := by
  unfold varintSize
  induction n using varint.induct with
  | case1 n hn =>
    rw [varint, if_pos hn, Nat.log_of_lt hn]
    rfl
  | case2 n hn ih =>
    have hstep : Nat.log 128 n = Nat.log 128 (n / 128) + 1 :=
      Nat.log_of_one_lt_of_le (by omega) (by omega)
    rw [varint, if_neg hn, List.length_cons, ih, hstep]

lemma length_tag {field wireType : ℕ} (hfield : field < 16) (htype : wireType < 8) :
    (tag field wireType).length = 1 := by
  have hsmall : 8 * field + wireType < 128 := by omega
  rw [tag, length_varint, varintSize, Nat.log_of_lt hsmall]

lemma length_delimited {field : ℕ} (hfield : field < 16) (payload : List UInt8) :
    (delimited field payload).length = delimitedSize payload.length := by
  rw [delimited, List.length_append, List.length_append, length_tag hfield (by omega),
    length_varint, delimitedSize]

lemma length_bytesField {field : ℕ} (hfield : field < 16) (payload : List UInt8) :
    (bytesField field payload).length = bytesSize payload.length := by
  cases payload with
  | nil => rfl
  | cons b rest =>
    have hne : (b :: rest).length ≠ 0 := by simp
    rw [bytesSize, if_neg hne, ← length_delimited hfield]
    rfl

lemma length_uintField {field : ℕ} (hfield : field < 16) (n : ℕ) :
    (uintField field n).length = uintSize n := by
  unfold uintField uintSize
  split
  · rfl
  · rw [List.length_append, length_tag hfield (by omega), length_varint]

lemma length_repeatedField {field : ℕ} (hfield : field < 16) (payloads : List (List UInt8)) :
    (repeatedField field payloads).length =
      (payloads.map fun payload => delimitedSize payload.length).sum := by
  induction payloads with
  | nil => rfl
  | cons payload rest ih =>
    rw [repeatedField, List.flatMap_cons, List.length_append, length_delimited hfield,
      List.map_cons, List.sum_cons, ← ih, repeatedField]

/-- A field that is written is longer than its payload. -/
lemma lt_bytesSize {payload : ℕ} (h : 0 < payload) : payload < bytesSize payload := by
  unfold bytesSize delimitedSize
  split <;> omega

end Protobuf
