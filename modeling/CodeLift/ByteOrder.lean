-- SUMMARY: Byte orders: integers assembled from bytes and split into them.
import CodeLift.Width

/-!
# Byte orders

`littleEndian` is the value of a byte list whose first byte is the least
significant. A byte order assembles at most 64 bits: of a longer list the bytes
of higher weight drop out.
-/

namespace CodeLift

inductive ByteOrder where
  | little
  | big
  deriving DecidableEq

/-- The value of bytes given from the least significant on. -/
def littleEndian : List UInt8 → Nat
  | [] => 0
  | b :: rest => b.toNat + 256 * littleEndian rest

/-- The low `size` bytes of `value`, from the least significant on. -/
def littleEndianBytes : Nat → Nat → List UInt8
  | 0, _ => []
  | size + 1, value => UInt8.ofNat value :: littleEndianBytes size (value / 256)

/-- The value of bytes given from the least significant on, read as two's complement. -/
def signedLittleEndian (bytes : List UInt8) : Int :=
  (littleEndian bytes : Int).bmod (modulus (8 * bytes.length))

@[simp] theorem length_littleEndianBytes (size value : Nat) :
    (littleEndianBytes size value).length = size := by
  induction size generalizing value with
  | zero => rfl
  | succ size ih => simp [littleEndianBytes, ih]

theorem modulus_eight_mul_succ (size : Nat) :
    modulus (8 * (size + 1)) = 256 * modulus (8 * size) := by
  rw [Nat.mul_add, Nat.add_comm, modulus_add]
  rfl

theorem littleEndian_littleEndianBytes (size value : Nat) :
    littleEndian (littleEndianBytes size value) = value % modulus (8 * size) := by
  induction size generalizing value with
  | zero => simp [littleEndian, littleEndianBytes, Nat.mod_one]
  | succ size ih =>
    rw [modulus_eight_mul_succ, Nat.mod_mul]
    simp [littleEndian, littleEndianBytes, ih]

/-- The first bytes spell the value modulo what they can hold. -/
theorem littleEndian_take (bytes : List UInt8) (size : Nat) :
    littleEndian (bytes.take size) = littleEndian bytes % modulus (8 * size) := by
  induction size generalizing bytes with
  | zero => simp [littleEndian, Nat.mod_one]
  | succ size ih =>
    cases bytes with
    | nil => simp [littleEndian]
    | cons b rest =>
      have hb : b.toNat < 256 := b.toNat_lt
      have hlow : (b.toNat + 256 * littleEndian rest) % 256 = b.toNat := by omega
      have hhigh : (b.toNat + 256 * littleEndian rest) / 256 = littleEndian rest := by omega
      rw [List.take_succ_cons, littleEndian, littleEndian, ih, modulus_eight_mul_succ, Nat.mod_mul,
        hlow, hhigh]

/-- The bytes from the least significant on. -/
def ByteOrder.arrange (order : ByteOrder) (bytes : List UInt8) : List UInt8 :=
  match order with
  | .little => bytes
  | .big => bytes.reverse

@[simp] theorem ByteOrder.length_arrange (order : ByteOrder) (bytes : List UInt8) :
    (order.arrange bytes).length = bytes.length := by
  cases order with
  | little => rfl
  | big => exact List.length_reverse

@[simp] theorem ByteOrder.arrange_arrange (order : ByteOrder) (bytes : List UInt8) :
    order.arrange (order.arrange bytes) = bytes := by
  cases order with
  | little => rfl
  | big => exact List.reverse_reverse bytes

/-- The unsigned integer that the bytes spell, modulo 2^64. -/
def ByteOrder.assemble (order : ByteOrder) (bytes : List UInt8) : Nat :=
  littleEndian (order.arrange bytes) % modulus 64

/-- The low `size` bytes of `value` in this order. -/
def ByteOrder.split (order : ByteOrder) (value size : Nat) : List UInt8 :=
  order.arrange (littleEndianBytes size value)

@[simp] theorem ByteOrder.length_split (order : ByteOrder) (value size : Nat) :
    (order.split value size).length = size := by
  simp [split]

/-- At most eight bytes are assembled in full. -/
theorem ByteOrder.assemble_eq (order : ByteOrder) {bytes : List UInt8} (h : bytes.length ≤ 8) :
    order.assemble bytes = littleEndian (order.arrange bytes) := by
  have htake := littleEndian_take (order.arrange bytes) 8
  rw [List.take_of_length_le (by rwa [length_arrange])] at htake
  exact htake.symm

end CodeLift
