import MagicNet.Model.BufferChain

/-!
# The pool of the buffer nodes

All sockets with the memory that they have in common, the nodes and `gBufferPool`.  The operations of
`Model.BufferChain` are cut where they lock `gBufferMutex` and where a round of their loops begins: a
step is a call of `popBufferPool` or of `pushBufferNode`, or what an operation does from one cut to the
next.  The steps of the sockets come in any order; the operations on one socket are those of the actor
that it belongs to, and come one after another.

What an operation returns is left out.  A step that the source does not survive gives `none`.

SOURCE: api/socket.cc:18-98, 152-203, 231-361
-/

set_option autoImplicit false

namespace MagicNet.NodePool

open MagicNet.Foundation MagicNet.Network
open MagicNet.BufferChain (Block Node SocketBuffer)
open MagicNet.Receive (memcpy bytesAt copyOut appendTo)

/-- The loops with their variables, where `taken` is what `_size` is to be less by, and the end of
`doRead` and of `doReadLine`. -/
inductive Loop where
  | popBuffer (taken sz : ℤ) (out : List UInt8 × ℕ)
  | popString (taken skip sz : ℤ) (b : List UInt8)
  | doReadAll (b : List UInt8)
  | clearBuffer
  | finish (taken : ℤ)
  deriving DecidableEq, Repr

/-- Where the operation on a socket is: before `popBufferPool` or after it, before `pushBufferNode`, or
where a round begins. -/
inductive Pc where
  | idle
  | popBufferPool (data : List UInt8)
  | attach (data : List UInt8) (freeNode : ℕ)
  | pushBufferNode (freeNode : ℕ) (k : Loop)
  | loop (k : Loop)
  deriving DecidableEq, Repr

/-! ## The steps of one socket -/

/-- `pushData` from the return of `popBufferPool` on.
SOURCE: api/socket.cc:232-251 -/
def attach (v : BufferChain.State) (data : List UInt8) (freeNode : ℕ) : Option BufferChain.State :=
  let t := { v.setNode freeNode { v.node freeNode with
    _data := some ⟨v.pushed, data⟩, _sz := data.length } with pushed := v.pushed + 1 }
  let size := toUint32 (v.m_buffer._size + data.length)
  match v.m_buffer._head, v.m_buffer._tail with
  | none, none =>
    some { t with m_buffer := { v.m_buffer with
      _size := size, _head := some freeNode, _tail := some freeNode } }
  | some _, some tail =>
    some { t.setNode tail { t.node tail with _next := some freeNode } with
      m_buffer := { v.m_buffer with _size := size, _tail := some freeNode } }
  | none, some _ | some _, none => none

/-- `freeBufferNode` up to the call of `pushBufferNode`.
SOURCE: api/socket.cc:86-96 -/
def detach (v : BufferChain.State) : Option (ℕ × BufferChain.State) :=
  v.m_buffer._head.map fun freeNode =>
    let head := v.next freeNode
    let t := { v with
      m_buffer := { v.m_buffer with
        _offset := 0
        _head := head
        _tail := if head = none then none else v.m_buffer._tail }
      freed := v.freed ++ ((v.node freeNode)._data.map Block.id).toList }
    (freeNode, t.setNode freeNode { v.node freeNode with _data := none, _sz := 0 })

/-- A call of `freeBufferNode`, with which the operation goes on at `k`. -/
def freeBufferNode (v : BufferChain.State) (k : Loop) : Option (BufferChain.State × Pc) :=
  (detach v).map fun r => (r.2, .pushBufferNode r.1 k)

/-- A round of the loop of `popBuffer` and of `popString`. -/
def popRound {β : Type} (copy : List UInt8 → ℕ → ℤ → ℤ → β → Option β) (next : ℤ → β → Loop)
    (v : BufferChain.State) (taken sz : ℤ) (x : β) : Option (BufferChain.State × Pc) :=
  v.m_buffer._head.bind fun current =>
    let bytes := toInt32 (v.restOf current)
    (copy (v.bytes current) v.m_buffer._offset sz bytes x).bind fun x =>
      if sz ≤ bytes then
        let t := v.setOffset (toUint32 (v.m_buffer._offset + sz))
        if bytes = sz then freeBufferNode t (.finish taken) else some (t, .loop (.finish taken))
      else freeBufferNode v (if sz - bytes = 0 then .finish taken else next (sz - bytes) x)

def round (v : BufferChain.State) : Loop → Option (BufferChain.State × Pc)
  | .popBuffer taken sz out => popRound copyOut (.popBuffer taken) v taken sz out
  | .popString taken skip sz b => popRound (appendTo skip) (.popString taken skip) v taken sz b
  | .doReadAll b =>
    match v.m_buffer._head with
    | none => some (v.setSize 0, .idle)
    | some current =>
      (bytesAt (v.bytes current) v.m_buffer._offset (v.restOf current)).bind fun read =>
        freeBufferNode v (.doReadAll (b ++ read))
  | .clearBuffer =>
    match v.m_buffer._head with
    | none => some (v.setSize 0, .idle)
    | some _ => freeBufferNode v .clearBuffer
  | .finish taken => some (v.setSize (toUint32 (v.m_buffer._size - taken)), .idle)

/-! ## The first steps -/

def doRead (v : BufferChain.State) (outBuffer : List UInt8) (outLen : ℤ) :
    Option (BufferChain.State × Pc) :=
  if v.m_buffer._size < toUint32 outLen ∨ outLen = 0 then some (v, .idle)
  else
    v.m_buffer._head.bind fun current =>
      if toUint32 outLen < v.restOf current then
        (memcpy outBuffer 0 (v.bytes current) v.m_buffer._offset outLen).map fun _ =>
          (v.setOffset (toUint32 (v.m_buffer._offset + outLen)), .loop (.finish outLen))
      else if toUint32 outLen = v.restOf current then freeBufferNode v (.finish outLen)
      else some (v, .loop (.popBuffer outLen outLen (outBuffer, 0)))

def popString (v : BufferChain.State) (taken sz skip : ℤ) : Option (BufferChain.State × Pc) :=
  v.m_buffer._head.bind fun current =>
    if toUint32 sz < v.restOf current then
      (bytesAt (v.bytes current) v.m_buffer._offset (sz - skip)).map fun _ =>
        (v.setOffset (toUint32 (v.m_buffer._offset + sz)), .loop (.finish taken))
    else if toUint32 sz = v.restOf current then
      (bytesAt (v.bytes current) v.m_buffer._offset (sz - skip)).bind fun _ =>
        freeBufferNode v (.finish taken)
    else some (v, .loop (.popString taken skip sz []))

def doReadLine (v : BufferChain.State) (check : Bool) (sep : List UInt8) :
    Option (BufferChain.State × Pc) :=
  if v.m_buffer._head = none then some (v, .idle)
  else
    (v.buffer.findSep sep).bind fun found =>
      match found with
      | none => some (v, .idle)
      | some i =>
        if check then some (v, .idle)
        else popString v (i + sep.length) (toInt32 (i + sep.length)) (toInt32 sep.length)

/-- The call of an operation; the size of a block is a `uint32_t` and `outLen` an `int`. -/
def begin (v : BufferChain.State) : Receive.Event → Option (BufferChain.State × Pc)
  | .pushData data => if data.length < 2 ^ 32 then some (v, .popBufferPool data) else none
  | .doRead outBuffer outLen =>
    if -2 ^ 31 ≤ outLen ∧ outLen < 2 ^ 31 then doRead v outBuffer outLen else none
  | .doReadLine check sep => doReadLine v check sep
  | .doReadAll => some (v, .loop (.doReadAll []))
  | .clearBuffer => some (v, .loop .clearBuffer)

/-- The next step of the operation. -/
def advance (v : BufferChain.State) : Pc → Option (BufferChain.State × Pc)
  | .idle => none
  | .popBufferPool data => some (v.popBufferPool.2, .attach data v.popBufferPool.1)
  | .attach data freeNode => (attach v data freeNode).map fun t => (t, .idle)
  | .pushBufferNode freeNode k => some (v.pushBufferNode freeNode, .loop k)
  | .loop k => round v k

/-! ## All sockets -/

structure Socket where
  m_buffer : SocketBuffer
  pushed : ℕ
  freed : List ℕ
  pc : Pc
  deriving DecidableEq, Repr

/-- `count` nodes have been allocated; `pools` and `pool` are the size of `gBufferPool` and its first
element. -/
structure State (ι : Type*) where
  node : ℕ → Node
  count : ℕ
  pools : ℕ
  pool : Option ℕ
  socket : ι → Socket

variable {ι : Type*}

namespace State

def next (s : State ι) (a : ℕ) : Option ℕ := (s.node a)._next

/-- What the operations on the socket work on. -/
def view (s : State ι) (i : ι) : BufferChain.State where
  node := s.node
  count := s.count
  pools := s.pools
  pool := s.pool
  others := []
  m_buffer := (s.socket i).m_buffer
  pushed := (s.socket i).pushed
  freed := (s.socket i).freed

/-- What they have made of it. -/
def put [DecidableEq ι] (s : State ι) (i : ι) (r : BufferChain.State × Pc) : State ι where
  node := r.1.node
  count := r.1.count
  pools := r.1.pools
  pool := r.1.pool
  socket := Function.update s.socket i ⟨r.1.m_buffer, r.1.pushed, r.1.freed, r.2⟩

end State

/-- An operation is called on a socket, or makes its next step. -/
inductive Event (ι : Type*) where
  | call (i : ι) (e : Receive.Event)
  | run (i : ι)

def step [DecidableEq ι] (s : State ι) : Event ι → Option (State ι)
  | .call i e => if (s.socket i).pc = .idle then (begin (s.view i) e).map (s.put i) else none
  | .run i => (advance (s.view i) (s.socket i).pc).map (s.put i)

/-- No node has been allocated, and the sockets have received nothing. -/
structure Starts (s : State ι) : Prop where
  count : s.count = 0
  pools : s.pools = 0
  pool : s.pool = none
  socket : ∀ i, s.socket i = ⟨⟨0, 0, none, none⟩, 0, [], .idle⟩

def system [DecidableEq ι] : System (State ι) (Event ι) where
  init := Starts
  step := step

/-! ## Where the nodes stand -/

/-- The nodes of the pool are `free`, and those of the sockets `chains`: no node stands in them twice,
and all of those allocated while no operation is in progress; and a node that `popBufferPool` would
return stands in no chain. -/
structure Pooled (s : State ι) (free : List ℕ) (chains : ι → List ℕ) : Prop where
  pool : Chain s.next s.pool free
  head : ∀ i, Chain s.next (s.socket i).m_buffer._head (chains i)
  tail : ∀ i, (s.socket i).m_buffer._tail = (chains i).getLast?
  free_once : free.Nodup
  chain_once : ∀ i, (chains i).Nodup
  free_or_chain : ∀ i, free.Disjoint (chains i)
  one_chain : ∀ i j, i ≠ j → (chains i).Disjoint (chains j)
  allocated : ∀ a, (a ∈ free ∨ ∃ i, a ∈ chains i) → a < s.count
  everywhere : (∀ i, (s.socket i).pc = .idle) → ∀ a < s.count, a ∈ free ∨ ∃ i, a ∈ chains i
  popped : ∀ i j, (s.view i).popBufferPool.1 ∉ chains j

end MagicNet.NodePool
