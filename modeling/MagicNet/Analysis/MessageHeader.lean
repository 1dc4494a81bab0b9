import MagicNet.Model.MessageHeader

/-!
# When a header comes out as it went in

The copies of the size take the 31 bytes behind the id, from and to a variable of four bytes, so
they leave it for every message.  The four bytes that count are right all the same, and give the
size back as far as the mask of 20 bits has let it through.
-/

set_option autoImplicit false

namespace MagicNet.Foundation.Memory

variable {m : Memory} {off : ℕ} {bs : List UInt8}

/-- What has been written is read again from where the writing began. -/
theorem load_store_prefix {n : ℕ} (h : n ≤ bs.length) :
    (m.store off bs).load off n = bs.take n := by
  apply List.ext_getElem
  · rw [load_length, List.length_take]
    omega
  · intro k hk hk'
    rw [load_length] at hk
    have hlt : k < bs.length := by omega
    simp [load, store, hlt]

/-- What stands before is as it was. -/
theorem store_before {i : ℕ} (h : i < off) : m.store off bs i = m i := by
  rw [store, if_neg]
  omega

/-- A shorter load is the beginning of a longer one. -/
theorem take_load {len n : ℕ} (h : n ≤ len) : (m.load off len).take n = m.load off n := by
  rw [load, load, ← List.map_take, List.take_range, Nat.min_eq_left h]

end MagicNet.Foundation.Memory

namespace MagicNet.Header

open MagicNet.Foundation

/-- The size as it is packed. -/
def packed (sz : BitVec 64) : BitVec 32 :=
  ((sz &&& MESSAGE_EXT_SZ_MASK).setWidth 32) <<< MESSAGE_EXT_ID_BYTES

namespace Call

variable {k : Call}

/-- The first byte of the header is the id.
SOURCE: module/message.h:43-60 -/
theorem ext_id : k.encoded.1._ext 0 = k.msgId := by
  simp only [encoded, getMessage]
  rw [Memory.store_before (by decide)]
  rfl

/-- The four bytes behind the id are those of the packed size. -/
theorem ext_size : k.encoded.1._ext.load MESSAGE_EXT_ID_BYTES sizeof_size =
    bytesLE sizeof_size (packed k.sz).toNat := by
  have hext : k.encoded.1._ext.load MESSAGE_EXT_ID_BYTES sizeof_size =
      ((k.stack.store k.tmpsize (bytesLE sizeof_size (packed k.sz).toNat)).load k.tmpsize
        MESSAGE_EXT_SZ_BYTES).take sizeof_size :=
    Memory.load_store_prefix (by rw [Memory.load_length]; decide)
  rw [hext, Memory.take_load (by decide), Memory.load_store_prefix (by simp)]
  simp

/-- **The id** is always right. -/
theorem decodedId_eq : k.decodedId.1 = k.msgId := ext_id

/-- **The size** is the packed one, shifted back. -/
theorem decodedSize_eq : k.decodedSize.1 = packed k.sz >>> MESSAGE_EXT_ID_BYTES := by
  have hword : ((k.stack'.store k.msgSize (bytesLE sizeof_size 0)).store k.msgSize
      (k.encoded.1._ext.load MESSAGE_EXT_ID_BYTES MESSAGE_EXT_SZ_BYTES)).loadWord sizeof_size
        k.msgSize = packed k.sz := by
    rw [Memory.loadWord_eq_iff, Memory.load_store_prefix (by rw [Memory.load_length]; decide),
      Memory.take_load (by decide)]
    exact ext_size
  rw [decodedSize, getMessageSize]
  exact congrArg (fun v : BitVec 32 => v >>> MESSAGE_EXT_ID_BYTES) hword

end Call

/-- What the mask lets through is not lost in the shift. -/
theorem unpacked (sz : BitVec 64) :
    (packed sz >>> MESSAGE_EXT_ID_BYTES).toNat = sz.toNat % 2 ^ 20 := by
  have hmask : sz.toNat &&& 0xFFFFF = sz.toNat % 2 ^ 20 := Nat.and_two_pow_sub_one_eq_mod _ 20
  have hlt : sz.toNat % 2 ^ 20 < 2 ^ 20 := Nat.mod_lt _ (by decide)
  simp only [packed, MESSAGE_EXT_SZ_MASK, MESSAGE_EXT_ID_BYTES, BitVec.toNat_ushiftRight,
    BitVec.toNat_shiftLeft, BitVec.toNat_setWidth, BitVec.toNat_and, Nat.shiftLeft_eq,
    Nat.shiftRight_eq_div_pow]
  have hlit : BitVec.toNat (0xFFFFF : BitVec 64) = 0xFFFFF := by decide
  rw [hlit, hmask]
  omega

/-- The size comes back exactly when it fits into the mask. -/
theorem decodedSize_iff {k : Call} :
    k.decodedSize.1.toNat = k.sz.toNat ↔ k.sz.toNat < 2 ^ 20 := by
  rw [Call.decodedSize_eq, unpacked]
  constructor
  · intro heq
    rw [← heq]
    exact Nat.mod_lt _ (by decide)
  · exact Nat.mod_eq_of_lt

/-- The copy of the size leaves the variable. -/
theorem not_inside (k : Call) :
    ¬ ∀ c ∈ k.encoded.2 ++ k.decodedId.2 ++ k.decodedSize.2, c.Inside := by
  intro hall
  have hcopy : (⟨MESSAGE_EXT_MAX - MESSAGE_EXT_ID_BYTES, sizeof_size, MESSAGE_EXT_SZ_BYTES⟩ : Copy) ∈
      k.encoded.2 ++ k.decodedId.2 ++ k.decodedSize.2 := by
    simp [Call.encoded, getMessage]
  exact absurd (hall _ hcopy) (by decide)

/-- **The header never makes the round trip within its bounds**, whatever the message: each time the
size is packed or unpacked, bytes beyond the variable are copied.  As far as the values go, the id is
always right, and the size exactly when it is below 2^20.
SOURCE: module/message.h:9-12, 43-71 -/
theorem header_leaves_variable (k : Call) :
    ¬ k.RoundTrips ∧ (k.Returns ↔ k.sz.toNat < 2 ^ 20) := by
  constructor
  · intro h
    exact not_inside k h.inside
  · constructor
    · intro h
      exact decodedSize_iff.mp h.size
    · intro hlt
      exact ⟨Call.decodedId_eq, decodedSize_iff.mpr hlt⟩

/-- A message of 2^20 bytes, on stacks of zeros. -/
def megabyte : Call where
  stack := fun _ => 0
  tmpsize := 64
  ext := fun _ => 0
  msgId := 4
  src := 1
  dst := 2
  session := 0
  data := 0
  sz := 0x100000
  stack' := fun _ => 0
  msgSize := 64

/-- Its size comes back as 0. -/
theorem megabyte_lost : ¬ ∀ k : Call, k.RoundTrips := by
  intro hall
  have hsize := decodedSize_iff.mp (hall megabyte).size
  exact absurd hsize (by decide)

end MagicNet.Header
