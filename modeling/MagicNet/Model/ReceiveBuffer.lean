import MagicNet.Foundation.System
import MagicNet.Model.SocketHandle

/-!
# The receive buffer of a socket

A `socketOper` keeps what it has received as a chain of nodes, each with a block of bytes, of which
the first `_offset` of the head have been read.  `pushData` puts a block at the end; `doRead`,
`doReadLine` and `doReadAll` take bytes from the front and give the nodes back that they empty.

The counts are 32 bits wide, some signed and some not, and the conversions between them are those of
the source.  A read or a write outside a block, a walk past the last node and an `int` that overflows
give `none`.

SOURCE: api/socket.cc:20-31, 86-98, 152-203, 231-262, 265-361
-/

set_option autoImplicit false

namespace MagicNet.Receive

open MagicNet.Foundation MagicNet.Network

/-- `_size` and `_offset` are `uint32_t`; `nodes` are the blocks of the chain from `_head` on. -/
structure Buffer where
  _size : ℕ
  _offset : ℕ
  nodes : List (List UInt8)
  deriving DecidableEq, Repr

/-! ## Blocks -/

/-- `n` bytes of a block from `offset` on. -/
def bytesAt (data : List UInt8) (offset : ℕ) (n : ℤ) : Option (List UInt8) :=
  if 0 ≤ n ∧ offset + n ≤ data.length then some ((data.drop offset).take n.toNat) else none

/-- `out` with the bytes written over it from `start` on. -/
def overwrite (out : List UInt8) (start : ℕ) (bytes : List UInt8) : List UInt8 :=
  out.take start ++ bytes ++ out.drop (start + bytes.length)

/-- `memcpy(out + start, data + offset, n)`. -/
def memcpy (out : List UInt8) (start : ℕ) (data : List UInt8) (offset : ℕ) (n : ℤ) :
    Option (List UInt8) :=
  (bytesAt data offset n).bind fun bytes =>
    if start + bytes.length ≤ out.length then some (overwrite out start bytes) else none

/-- `current->_sz - offset`, both `uint32_t`. -/
def restOf (current : List UInt8) (offset : ℕ) : ℕ := toUint32 (current.length - offset)

/-! ## Taking bytes off the front -/

/-- The loop of `popBuffer` and of `popString`: nodes are emptied and freed until `sz` bytes have been
taken.  The two differ in what they do with a node, `copy current offset sz bytes`, where `bytes`
are those left in the node.  What is returned are the nodes left and the new `_offset`. -/
def popNodes {β : Type} (copy : List UInt8 → ℕ → ℤ → ℤ → β → Option β) :
    List (List UInt8) → ℕ → ℤ → β → Option (β × List (List UInt8) × ℕ)
  | [], _, _, _ => none
  | current :: rest, offset, sz, b =>
    let bytes := toInt32 (restOf current offset)
    (copy current offset sz bytes b).bind fun b =>
      if sz ≤ bytes then
        if bytes = sz then some (b, rest, 0)
        else some (b, current :: rest, toUint32 (offset + sz))
      else if sz - bytes = 0 then some (b, rest, 0)
      else popNodes copy rest 0 (sz - bytes) b

/-- The bytes of a node that `popBuffer` copies, after the `offset` ones it has copied already. -/
def copyOut (current : List UInt8) (offset : ℕ) (sz bytes : ℤ) :
    List UInt8 × ℕ → Option (List UInt8 × ℕ)
  | (out, written) =>
    (memcpy out written current offset (min sz bytes)).map fun out =>
      (out, written + (min sz bytes).toNat)

/-- The bytes of a node that `popString` appends: the last `skip` of the `sz` are left out. -/
def appendTo (skip : ℤ) (current : List UInt8) (offset : ℕ) (sz bytes : ℤ) (b : List UInt8) :
    Option (List UInt8) :=
  if skip < sz then (bytesAt current offset (min (sz - skip) bytes)).map fun read => b ++ read
  else some b

namespace Buffer

variable (b : Buffer)

/-- The head's node goes back to the pool. -/
def freeBufferNode : Buffer := { b with _offset := 0, nodes := b.nodes.tail }

/-- Where bytes are left in the head after `outLen` of them, they are copied; where none is left the
node is freed; and where there are too few the loop goes on to the next nodes. -/
def popBuffer (outBuffer : List UInt8) (outLen : ℤ) : Option (List UInt8 × Buffer) :=
  match b.nodes with
  | [] => none
  | current :: _ =>
    if toUint32 outLen < restOf current b._offset then
      (memcpy outBuffer 0 current b._offset outLen).map fun outBuffer =>
        (outBuffer, { b with _offset := toUint32 (b._offset + outLen) })
    else if toUint32 outLen = restOf current b._offset then some (outBuffer, b.freeBufferNode)
    else
      (popNodes copyOut b.nodes b._offset outLen (outBuffer, 0)).map fun r =>
        (r.1.1, { b with nodes := r.2.1, _offset := r.2.2 })

/-- The result, and what becomes of `outBuffer` and of the buffer. -/
def doRead (outBuffer : List UInt8) (outLen : ℤ) : Option (ℤ × List UInt8 × Buffer) :=
  if b._size < toUint32 outLen ∨ outLen = 0 then some (-1, outBuffer, b)
  else
    (b.popBuffer outBuffer outLen).map fun r =>
      (outLen, r.1, { r.2 with _size := toUint32 (r.2._size - outLen) })

def popString (sz skip : ℤ) : Option (List UInt8 × Buffer) :=
  match b.nodes with
  | [] => none
  | current :: _ =>
    if toUint32 sz < restOf current b._offset then
      (bytesAt current b._offset (sz - skip)).map fun read =>
        (read, { b with _offset := toUint32 (b._offset + sz) })
    else if toUint32 sz = restOf current b._offset then
      (bytesAt current b._offset (sz - skip)).map fun read => (read, b.freeBufferNode)
    else
      (popNodes (appendTo skip) b.nodes b._offset sz []).map fun r =>
        (r.1, { b with nodes := r.2.1, _offset := r.2.2 })

end Buffer

/-! ## The search for a separator -/

/-- The separator stands at `start` of the first node, or begins there and goes on in the next
ones. -/
def checkSep : List (List UInt8) → ℕ → List UInt8 → Option Bool
  | [], _, _ => none
  | node :: rest, start, sep =>
    let sz := toInt32 (restOf node start)
    if sep.length ≤ sz then (bytesAt node start sep.length).map fun read => read = sep
    else if sz < 0 then none
    else
      (bytesAt node start sz).bind fun read =>
        if read = sep.take sz.toNat then checkSep rest 0 (sep.drop sz.toNat) else some false

/-- The loop of `doReadLine` from byte `i` on, which is the one at `start` of the first node; the
first argument is what is left until `++i` overflows. -/
def searchSep (size : ℕ) (sep : List UInt8) :
    ℕ → List (List UInt8) → ℕ → ℕ → Option (Option ℕ)
  | 0, _, _, _ => none
  | _ + 1, [], _, _ => some none
  | left + 1, current :: rest, start, i =>
    if toUint32 (size - sep.length) < i then some none
    else
      (checkSep (current :: rest) start sep).bind fun found =>
        if found then some (some i)
        else if start + 1 = current.length then
          if rest = [] then some none else searchSep size sep left rest 0 (i + 1)
        else searchSep size sep left (current :: rest) (start + 1) (i + 1)

/-- What `doReadLine` returns as a `boost::any`. -/
inductive Line where
  | empty
  | found
  | line (bytes : List UInt8)
  deriving DecidableEq, Repr

namespace Buffer

variable (b : Buffer)

/-- The separator as `checkSep` reads it, with its length as an `int`; a negative one makes `memcmp`
read outside it. -/
def sepOf (sep : List UInt8) : Option (List UInt8) :=
  if toInt32 sep.length < 0 then none else some (sep.take (toInt32 sep.length).toNat)

/-- Where the separator is found, if it is. -/
def findSep (sep : List UInt8) : Option (Option ℕ) :=
  (sepOf sep).bind fun sep => searchSep b._size sep (2 ^ 31) b.nodes b._offset 0

def doReadLine (check : Bool) (sep : List UInt8) : Option (Line × Buffer) :=
  if b.nodes = [] then some (.empty, b)
  else
    (b.findSep sep).bind fun found =>
      match found with
      | none => some (.empty, b)
      | some i =>
        if check then some (.found, b)
        else
          (b.popString (toInt32 (i + sep.length)) (toInt32 sep.length)).map fun r =>
            (.line r.1, { r.2 with _size := toUint32 (r.2._size - (i + sep.length)) })

/-- What the loop of `doReadAll` appends for the nodes. -/
def readNodes : List (List UInt8) → ℕ → Option (List UInt8)
  | [], _ => some []
  | current :: rest, offset =>
    (bytesAt current offset (restOf current offset)).bind fun read =>
      (readNodes rest 0).map fun b => read ++ b

/-- The loop that frees nodes while there is one. -/
def freeNodes : Buffer :=
  { b with _offset := if b.nodes = [] then b._offset else 0, nodes := [] }

def doReadAll : Option (List UInt8 × Buffer) :=
  (readNodes b.nodes b._offset).map fun read => (read, { b.freeNodes with _size := 0 })

def pushData (data : List UInt8) : Buffer :=
  { b with nodes := b.nodes ++ [data], _size := toUint32 (b._size + data.length) }

def clearBuffer : Buffer := { b.freeNodes with _size := 0 }

end Buffer

/-! ## Runs -/

inductive Event where
  | pushData (data : List UInt8)
  | doRead (outBuffer : List UInt8) (outLen : ℤ)
  | doReadLine (check : Bool) (sep : List UInt8)
  | doReadAll
  | clearBuffer
  deriving DecidableEq, Repr

/-- The size of a block is a `uint32_t`, and none is empty; `outLen` is an `int`. -/
def step (b : Buffer) : Event → Option Buffer
  | .pushData data => if 0 < data.length ∧ data.length < 2 ^ 32 then some (b.pushData data) else none
  | .doRead outBuffer outLen =>
    if -2 ^ 31 ≤ outLen ∧ outLen < 2 ^ 31 then (b.doRead outBuffer outLen).map fun r => r.2.2
    else none
  | .doReadLine check sep => (b.doReadLine check sep).map Prod.snd
  | .doReadAll => b.doReadAll.map Prod.snd
  | .clearBuffer => some b.clearBuffer

/-- The buffer of a new `socketOper`. -/
def start : Buffer := { _size := 0, _offset := 0, nodes := [] }

def system : System Buffer Event where
  init b := b = start
  step := step

@[simp] theorem system_step : system.step = step := rfl

end MagicNet.Receive
