import MagicNet.Foundation.Chain
import MagicNet.Model.ReceiveBuffer

/-!
# The nodes of a receive buffer

The receive buffer of `Model.ReceiveBuffer` with its pointers: the nodes are in a memory, linked by
`_next` from `_head` on, with `_tail` at the last of them.  A node that `freeBufferNode` takes off the
front goes to `gBufferPool`, which all sockets have in common, and comes from there again; the others
take nodes, write to them and give them back at any time between the operations.

The blocks are numbered as they are pushed, and the numbers of those freed are noted.  A null pointer
that is followed gives `none`, and so does a loop that has seen more nodes than there are.

SOURCE: api/socket.cc:18-98, 152-203, 231-361
-/

set_option autoImplicit false

namespace MagicNet.BufferChain

open MagicNet.Foundation MagicNet.Network
open MagicNet.Receive (memcpy bytesAt popNodes copyOut appendTo Line Buffer)

/-- A block that `_data` points to. -/
structure Block where
  id : ℕ
  bytes : List UInt8
  deriving DecidableEq, Repr

structure Node where
  _data : Option Block
  _sz : ℕ
  _next : Option ℕ
  deriving DecidableEq, Repr

structure SocketBuffer where
  _size : ℕ
  _offset : ℕ
  _head : Option ℕ
  _tail : Option ℕ
  deriving DecidableEq, Repr

/-- `count` nodes have been allocated, `pools` and `pool` are the size of `gBufferPool` and its first
element, and `others` are the nodes that other sockets hold. -/
structure State where
  node : ℕ → Node
  count : ℕ
  pools : ℕ
  pool : Option ℕ
  others : List ℕ
  m_buffer : SocketBuffer
  pushed : ℕ
  freed : List ℕ

def SOCKET_LARGE_PAGE_NODE : ℕ := 12

namespace State

variable (s : State)

def next (a : ℕ) : Option ℕ := (s.node a)._next

/-- The bytes that `_data` points to. -/
def bytes (a : ℕ) : List UInt8 := ((s.node a)._data.map Block.bytes).getD []

def setNode (a : ℕ) (n : Node) : State := { s with node := Function.update s.node a n }

def setOffset (offset : ℕ) : State := { s with m_buffer := { s.m_buffer with _offset := offset } }

def setSize (size : ℕ) : State := { s with m_buffer := { s.m_buffer with _size := size } }

/-! ## The pool -/

/-- The nodes follow those there are, each linked to the next. -/
def newBufferPool (num : ℕ) : State :=
  { s with
    node := fun a =>
      if s.count ≤ a ∧ a < s.count + num then
        { _data := none, _sz := 0, _next := if a + 1 < s.count + num then some (a + 1) else none }
      else s.node a
    count := s.count + num }

/-- The number of nodes allocated when `gBufferPool` has the size `ztb`. -/
def poolSize (ztb : ℕ) : ℕ :=
  let ztb := if ztb = 0 then 1 else ztb
  if ztb ≤ SOCKET_LARGE_PAGE_NODE - 3 then 8 * 2 ^ ztb else 8 * 2 ^ (SOCKET_LARGE_PAGE_NODE - 3)

/-- The end of `popBufferPool`. -/
def takeNode (freeNode : ℕ) : State :=
  { s with pool := s.next freeNode }.setNode freeNode { s.node freeNode with _next := none }

/-- SOURCE: api/socket.cc:55-78 -/
def popBufferPool : ℕ × State :=
  match s.pool with
  | some freeNode => (freeNode, s.takeNode freeNode)
  | none =>
    let t := { s.newBufferPool (poolSize s.pools) with pools := s.pools + 1 }
    (s.count, t.takeNode s.count)

def pushBufferNode (ptrNode : ℕ) : State :=
  { s.setNode ptrNode { s.node ptrNode with _next := s.pool } with pool := some ptrNode }

/-! ## The ends of the chain -/

/-- SOURCE: api/socket.cc:86-98 -/
def freeBufferNode : Option State :=
  s.m_buffer._head.map fun freeNode =>
    let head := s.next freeNode
    let t := { s with
      m_buffer := { s.m_buffer with
        _offset := 0
        _head := head
        _tail := if head = none then none else s.m_buffer._tail }
      freed := s.freed ++ ((s.node freeNode)._data.map Block.id).toList }
    (t.setNode freeNode { s.node freeNode with _data := none, _sz := 0 }).pushBufferNode freeNode

/-- SOURCE: api/socket.cc:231-252 -/
def pushData (data : List UInt8) : Option State :=
  let freeNode := s.popBufferPool.1
  let t := s.popBufferPool.2
  let t := { t.setNode freeNode { t.node freeNode with
    _data := some ⟨s.pushed, data⟩, _sz := data.length } with pushed := s.pushed + 1 }
  let size := toUint32 (s.m_buffer._size + data.length)
  match s.m_buffer._head, s.m_buffer._tail with
  | none, none =>
    some { t with m_buffer := { s.m_buffer with
      _size := size, _head := some freeNode, _tail := some freeNode } }
  | some _, some tail =>
    some { t.setNode tail { t.node tail with _next := some freeNode } with
      m_buffer := { s.m_buffer with _size := size, _tail := some freeNode } }
  -- the assertion of an empty buffer, and `_tail->_next` of one that is not
  | none, some _ | some _, none => none

/-! ## Taking bytes off the front -/

/-- `current->_sz - m_buffer._offset` -/
def restOf (current : ℕ) : ℕ := toUint32 ((s.node current)._sz - s.m_buffer._offset)

/-- The loop of `popBuffer` and of `popString`, of which `n` rounds are left.
SOURCE: api/socket.cc:292-318, 336-358 -/
def popLoop {β : Type} (copy : List UInt8 → ℕ → ℤ → ℤ → β → Option β) :
    ℕ → State → ℤ → β → Option (β × State)
  | 0, _, _, _ => none
  | n + 1, s, sz, x =>
    s.m_buffer._head.bind fun current =>
      let bytes := toInt32 (s.restOf current)
      (copy (s.bytes current) s.m_buffer._offset sz bytes x).bind fun x =>
        if sz ≤ bytes then
          let t := s.setOffset (toUint32 (s.m_buffer._offset + sz))
          if bytes = sz then t.freeBufferNode.map fun t => (x, t) else some (x, t)
        else
          s.freeBufferNode.bind fun t =>
            if sz - bytes = 0 then some (x, t) else popLoop copy n t (sz - bytes) x

/-- SOURCE: api/socket.cc:321-361 -/
def popBuffer (outBuffer : List UInt8) (outLen : ℤ) : Option (List UInt8 × State) :=
  s.m_buffer._head.bind fun current =>
    if toUint32 outLen < s.restOf current then
      (memcpy outBuffer 0 (s.bytes current) s.m_buffer._offset outLen).map fun outBuffer =>
        (outBuffer, s.setOffset (toUint32 (s.m_buffer._offset + outLen)))
    else if toUint32 outLen = s.restOf current then
      s.freeBufferNode.map fun t => (outBuffer, t)
    else
      (popLoop copyOut (s.count + 1) s outLen (outBuffer, 0)).map fun r => (r.1.1, r.2)

def doRead (outBuffer : List UInt8) (outLen : ℤ) : Option (ℤ × List UInt8 × State) :=
  if s.m_buffer._size < toUint32 outLen ∨ outLen = 0 then some (-1, outBuffer, s)
  else
    (s.popBuffer outBuffer outLen).map fun r =>
      (outLen, r.1, r.2.setSize (toUint32 (r.2.m_buffer._size - outLen)))

/-- SOURCE: api/socket.cc:278-319 -/
def popString (sz skip : ℤ) : Option (List UInt8 × State) :=
  s.m_buffer._head.bind fun current =>
    if toUint32 sz < s.restOf current then
      (bytesAt (s.bytes current) s.m_buffer._offset (sz - skip)).map fun read =>
        (read, s.setOffset (toUint32 (s.m_buffer._offset + sz)))
    else if toUint32 sz = s.restOf current then
      (bytesAt (s.bytes current) s.m_buffer._offset (sz - skip)).bind fun read =>
        s.freeBufferNode.map fun t => (read, t)
    else popLoop (appendTo skip) (s.count + 1) s sz []

/-- The buffer as it is read along the links. -/
def buffer : Buffer where
  _size := s.m_buffer._size
  _offset := s.m_buffer._offset
  nodes := (walk s.next s.m_buffer._head s.count).map s.bytes

/-- The search only reads. -/
def doReadLine (check : Bool) (sep : List UInt8) : Option (Line × State) :=
  if s.m_buffer._head = none then some (.empty, s)
  else
    (s.buffer.findSep sep).bind fun found =>
      match found with
      | none => some (.empty, s)
      | some i =>
        if check then some (.found, s)
        else
          (s.popString (toInt32 (i + sep.length)) (toInt32 sep.length)).map fun r =>
            (.line r.1, r.2.setSize (toUint32 (r.2.m_buffer._size - (i + sep.length))))

/-- The loop of `doReadAll`. -/
def readLoop : ℕ → State → List UInt8 → Option (List UInt8 × State)
  | 0, _, _ => none
  | n + 1, s, b =>
    match s.m_buffer._head with
    | none => some (b, s)
    | some current =>
      (bytesAt (s.bytes current) s.m_buffer._offset (s.restOf current)).bind fun read =>
        s.freeBufferNode.bind fun t => readLoop n t (b ++ read)

def doReadAll : Option (List UInt8 × State) :=
  (readLoop (s.count + 1) s []).map fun r => (r.1, r.2.setSize 0)

/-- The loop of `clearBuffer`. -/
def clearLoop : ℕ → State → Option State
  | 0, _ => none
  | n + 1, s =>
    match s.m_buffer._head with
    | none => some s
    | some _ => s.freeBufferNode.bind (clearLoop n)

def clearBuffer : Option State := (clearLoop (s.count + 1) s).map fun t => t.setSize 0

end State

/-! ## Runs -/

/-- An operation on the buffer, or what another socket does: it takes a node from the pool, writes to
one that it holds, or gives it back. -/
inductive Event where
  | oper (e : Receive.Event)
  | take
  | write (a : ℕ) (n : Node)
  | give (a : ℕ)
  deriving DecidableEq, Repr

def oper (s : State) : Receive.Event → Option State
  | .pushData data =>
    if 0 < data.length ∧ data.length < 2 ^ 32 then s.pushData data else none
  | .doRead outBuffer outLen =>
    if -2 ^ 31 ≤ outLen ∧ outLen < 2 ^ 31 then (s.doRead outBuffer outLen).map fun r => r.2.2
    else none
  | .doReadLine check sep => (s.doReadLine check sep).map Prod.snd
  | .doReadAll => s.doReadAll.map Prod.snd
  | .clearBuffer => s.clearBuffer

def step (s : State) : Event → Option State
  | .oper e => oper s e
  | .take =>
    some { s.popBufferPool.2 with others := s.popBufferPool.1 :: s.others }
  | .write a n => if a ∈ s.others then some (s.setNode a n) else none
  | .give a =>
    if a ∈ s.others then some ({ s with others := s.others.erase a }.pushBufferNode a) else none

/-- A new `socketOper`; of the pool nothing has been used yet. -/
structure Starts (s : State) : Prop where
  m_buffer : s.m_buffer = ⟨0, 0, none, none⟩
  pool : s.pool = none
  others : s.others = []
  pushed : s.pushed = 0
  freed : s.freed = []

def system : System State Event where
  init := Starts
  step := step

@[simp] theorem system_step : system.step = step := rfl

/-- The buffer holds less than `2 ^ 31` bytes after a block is put in. -/
def Fits (s : State) : Event → Prop
  | .oper (.pushData data) => s.m_buffer._size + data.length < 2 ^ 31
  | _ => True

instance (s : State) : DecidablePred (Fits s)
  | .oper (.pushData _) => inferInstanceAs (Decidable (_ < _))
  | .oper (.doRead _ _) | .oper (.doReadLine _ _) | .oper .doReadAll | .oper .clearBuffer
  | .take | .write _ _ | .give _ => isTrue trivial

/-! ## How a buffer is laid out -/

/-- The blocks that the nodes hold. -/
def State.ids (s : State) (l : List ℕ) : List ℕ :=
  l.filterMap fun a => (s.node a)._data.map Block.id

/-- The nodes from `_head` on are `l`, and `_tail` is the last of them; `_size` is the sum of their
sizes less `_offset`, which is smaller than the first, or 0; and each block that has been pushed
either is in a node or has been freed, once. -/
structure Laid (s : State) (l : List ℕ) : Prop where
  chain : Chain s.next s.m_buffer._head l
  tail : s.m_buffer._tail = l.getLast?
  size : s.m_buffer._size + s.m_buffer._offset = (l.map fun a => (s.node a)._sz).sum
  offset : ∀ a ∈ l.head?, s.m_buffer._offset < (s.node a)._sz
  empty : l = [] → s.m_buffer._offset = 0
  freed : s.freed ++ s.ids l = List.range s.pushed

end MagicNet.BufferChain
