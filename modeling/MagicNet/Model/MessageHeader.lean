import MagicNet.Foundation.ByteLayout

/-!
# The header of a message

`messageApi` packs the id and the size of a message into the 32 bytes of `_ext`: the id into the
first one, and the size, shifted left, behind it.  Both ways go through a local variable of four
bytes, and the number of bytes copied is worked out from the size of `_ext`.

The stack is byte memory with the variable somewhere in it, so that a copy that goes on past the
variable has bytes to read and write; each copy is also noted, with the room that there is in the
objects at both ends.  What `memcpy` writes is what was there before it.

SOURCE: module/message.h:9-12, 26-32, 43-71
-/

set_option autoImplicit false

namespace MagicNet.Header

open MagicNet.Foundation

def MESSAGE_EXT_MAX : ℕ := 32
def MESSAGE_EXT_ID_BYTES : ℕ := 1
def MESSAGE_EXT_SZ_BYTES : ℕ := MESSAGE_EXT_MAX - 1
def MESSAGE_EXT_SZ_MASK : BitVec 64 := 0xFFFFF

/-- `_ext` is read at the offsets below `MESSAGE_EXT_MAX`. -/
structure Message where
  _src : BitVec 32
  _dst : BitVec 32
  _session : BitVec 32
  _data : BitVec 64
  _ext : Memory

/-- A `memcpy` of `n` bytes, and the bytes that there are in the objects from where it writes and
from where it reads. -/
structure Copy where
  dst : ℕ
  src : ℕ
  n : ℕ
deriving DecidableEq

/-- It stays inside both. -/
def Copy.Inside (k : Copy) : Prop := k.n ≤ k.dst ∧ k.n ≤ k.src

instance (k : Copy) : Decidable k.Inside := inferInstanceAs (Decidable (_ ∧ _))

/-- `sizeof(uint8_t)` and `sizeof(uint32_t)`, of the local variables. -/
abbrev sizeof_msgId : ℕ := 1
abbrev sizeof_size : ℕ := 4

/-- `getMessage`, with `tmpsize` at the address `tmpsize` of the stack and `_ext` not initialised.
SOURCE: module/message.h:43-57 -/
def getMessage (stack : Memory) (tmpsize : ℕ) (ext : Memory) (msgId : UInt8)
    (src dst session : BitVec 32) (data sz : BitVec 64) : Message × List Copy :=
  let size : BitVec 32 := (sz &&& MESSAGE_EXT_SZ_MASK).setWidth 32
  let size := size <<< MESSAGE_EXT_ID_BYTES
  let stack := stack.store tmpsize (bytesLE sizeof_size size.toNat)
  let ext := ext.store 0 [msgId]
  let ext := ext.store MESSAGE_EXT_ID_BYTES (stack.load tmpsize MESSAGE_EXT_SZ_BYTES)
  (⟨src, dst, session, data, ext⟩,
    [⟨MESSAGE_EXT_MAX, sizeof_msgId, MESSAGE_EXT_ID_BYTES⟩,
      ⟨MESSAGE_EXT_MAX - MESSAGE_EXT_ID_BYTES, sizeof_size, MESSAGE_EXT_SZ_BYTES⟩])

/-- SOURCE: module/message.h:59-63 -/
def getMessageId (msg : Message) : UInt8 × List Copy :=
  (msg._ext 0, [⟨sizeof_msgId, MESSAGE_EXT_MAX, sizeof_msgId⟩])

/-- `getMessageSize`, with `msgSize` at the address `msgSize` of the stack.
SOURCE: module/message.h:65-71 -/
def getMessageSize (stack : Memory) (msgSize : ℕ) (msg : Message) : BitVec 32 × List Copy :=
  let stack := stack.store msgSize (bytesLE sizeof_size 0)
  let stack := stack.store msgSize (msg._ext.load MESSAGE_EXT_ID_BYTES MESSAGE_EXT_SZ_BYTES)
  (stack.loadWord sizeof_size msgSize >>> MESSAGE_EXT_ID_BYTES,
    [⟨sizeof_size, MESSAGE_EXT_MAX - MESSAGE_EXT_ID_BYTES, MESSAGE_EXT_SZ_BYTES⟩])

/-! ## What is asked of it -/

/-- A call of `getMessage` and what it finds on the stack; then the stack of `getMessageSize`. -/
structure Call where
  stack : Memory
  tmpsize : ℕ
  ext : Memory
  msgId : UInt8
  src : BitVec 32
  dst : BitVec 32
  session : BitVec 32
  data : BitVec 64
  sz : BitVec 64
  stack' : Memory
  msgSize : ℕ

namespace Call

variable (k : Call)

def encoded : Message × List Copy :=
  getMessage k.stack k.tmpsize k.ext k.msgId k.src k.dst k.session k.data k.sz

def decodedId : UInt8 × List Copy := getMessageId k.encoded.1

def decodedSize : BitVec 32 × List Copy := getMessageSize k.stack' k.msgSize k.encoded.1

/-- The id and the size come out as they went in. -/
structure Returns : Prop where
  id : k.decodedId.1 = k.msgId
  size : k.decodedSize.1.toNat = k.sz.toNat

/-- And no copy leaves the variable or `_ext`. -/
structure RoundTrips : Prop extends Returns k where
  inside : ∀ c ∈ k.encoded.2 ++ k.decodedId.2 ++ k.decodedSize.2, c.Inside

end Call

end MagicNet.Header
