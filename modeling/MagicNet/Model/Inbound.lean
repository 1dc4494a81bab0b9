import MagicNet.Model.SlotHandlers
import MagicNet.Model.SocketSuspend

/-!
# From the descriptor to the caller

What `recv` gives the poll thread becomes a `DATA` message of the actor that owns the socket; the
actor takes the messages one by one out of its mailbox and `onData` puts the bytes into the socket's
buffer, from which the calls that read take them.  The actor has any number of sockets, and the
messages of all of them are in the one mailbox.

A connection keeps what each `recv` has returned for it, and in order what has left the buffer: what a
call gave its caller, and what was thrown away with the buffer or for want of a socket.  The actor stays
registered.

SOURCE: network/socketSystem.cc:77-85, 720-768, api/socket.cc:112, 152-203, 395-413, 446-528, 608-682,
714-721
-/

set_option autoImplicit false

namespace MagicNet.Inbound

open MagicNet.Foundation MagicNet.Network
open MagicNet.Receive (Buffer Line)
open MagicNet.Suspend (Request)

/-- What has become of bytes: a call has given them to its caller, or they are gone. -/
inductive Fate where
  | returned
  | dropped
  deriving DecidableEq, Repr

/-- What a `recv` has returned, and whether the slot was half closed: `doRecvProc` frees the bytes then,
and forwards them otherwise. -/
structure Chunk where
  halfClosed : Bool
  bytes : List UInt8
  deriving DecidableEq, Repr

/-- The slot on the side of the poll thread, and the socket on that of the actor. -/
structure Connection where
  slot : Slot
  socket : Suspend.State
  received : List Chunk
  out : List (Fate × List UInt8)

namespace Connection

variable (c : Connection)

/-- The bytes received that have gone to the actor. -/
def forwarded : List UInt8 :=
  (c.received.filter fun r => !r.halfClosed).flatMap Chunk.bytes

/-- The bytes received that `doRecvProc` has freed. -/
def freed : List UInt8 := (c.received.filter Chunk.halfClosed).flatMap Chunk.bytes

@[simp] theorem forwarded_mk (slot : Slot) (socket : Suspend.State) (out : List (Fate × List UInt8)) :
    forwarded ⟨slot, socket, c.received, out⟩ = c.forwarded := rfl

@[simp] theorem freed_mk (slot : Slot) (socket : Suspend.State) (out : List (Fate × List UInt8)) :
    freed ⟨slot, socket, c.received, out⟩ = c.freed := rfl

end Connection

/-- `mailbox` are the `DATA` messages, each the handle and the buffer. -/
structure State where
  conns : ℤ → Connection
  mailbox : List (ℤ × List UInt8)

/-! ## What the calls give their callers -/

/-- The bytes of `outBuffer` that the result of `doRead` says have been read. -/
def readGives (b : Buffer) (outBuffer : List UInt8) (outLen : ℤ) : List UInt8 :=
  match b.doRead outBuffer outLen with
  | none => []
  | some (ret, out, _) => if ret = -1 then [] else out.take ret.toNat

/-- The line, and the separator that is cut off it. -/
def withSep (sep : List UInt8) : Line → List UInt8
  | .line bytes => bytes ++ sep
  | _ => []

def lineGives (b : Buffer) (sep : List UInt8) : List UInt8 :=
  ((b.doReadLine false sep).map fun r => withSep sep r.1).getD []

def allGives (b : Buffer) : List UInt8 := (b.doReadAll.map Prod.fst).getD []

/-- What a call returns with when it does not wait, as `Suspend.State.tryRead`. -/
def tryGives (k : Suspend.State) : Request → List UInt8
  | .doRead outBuffer outLen => readGives k.m_buffer outBuffer outLen
  | .doReadLine sep =>
    if (k.m_buffer.doReadLine false sep).map Prod.fst = some .empty then
      if k.m_connected then [] else allGives k.m_buffer
    else lineGives k.m_buffer sep

/-- What a call returns with that has waited, as `Suspend.State.afterRead`. -/
def afterGives (k : Suspend.State) : Request → List UInt8
  | .doRead outBuffer outLen =>
    if (k.m_buffer.doRead outBuffer outLen).map Prod.fst = some (-1) then
      readGives k.m_buffer outBuffer (toInt32 k.m_buffer._size)
    else readGives k.m_buffer outBuffer outLen
  | .doReadLine sep =>
    if k.m_connected then lineGives k.m_buffer sep else allGives k.m_buffer

/-- The bytes of a buffer that is cleared. -/
def cleared (b : Buffer) : List UInt8 := b.nodes.flatten.drop b._offset

/-- `onData` finds more bytes than the limit, and nobody waits for a number of bytes. -/
def overflows (k : Suspend.State) (data : List UInt8) : Bool :=
  match k.m_readRequired with
  | .int _ => false
  | _ => k.m_bufferLimit ≠ 0 ∧ toUint32 k.m_bufferLimit < (k.m_buffer.pushData data)._size

/-- The coroutine in `makeSocket` finds the socket disconnected and takes it out of the pool; it is the
last that has it, and `~socketOper` clears the buffer. -/
def destroys (k : Suspend.State) : Suspend.Event → Bool
  | .resumeConnector => !k.m_connected && k.reader.isNone && k.closer.isNone
  | _ => false

/-- What an event of the socket takes out of its buffer. -/
def leaves (k : Suspend.State) : Suspend.Event → List (Fate × List UInt8)
  | .read q => [(.returned, tryGives k q)]
  | .resumeReader => k.reader.toList.map fun r => (.returned, afterGives k r.request)
  | .doClose => if k.pooled ∧ ¬ k.m_connected then [(.dropped, cleared k.m_buffer)] else []
  | .resumeCloser => [(.dropped, cleared k.m_buffer)]
  | .onData data =>
    if ¬ k.pooled then [(.dropped, data)]
    else if overflows k data then [(.dropped, cleared (k.m_buffer.pushData data))]
    else []
  | .resumeConnector =>
    if destroys k .resumeConnector then [(.dropped, cleared k.m_buffer)] else []
  | _ => []

/-- The socket after an event, `k'` being what its calls and messages make of it. -/
def after (k : Suspend.State) (e : Suspend.Event) (k' : Suspend.State) : Suspend.State :=
  if destroys k e then { k' with m_buffer := k'.m_buffer.clearBuffer } else k'

/-! ## Runs -/

namespace State

variable (s : State)

def update (id : ℤ) (c : Connection) : State :=
  { s with conns := Function.update s.conns id c }

/-- `doRecvProc` for `data`, and `onSocketData`.
SOURCE: network/socketSystem.cc:77-85, 720-768 -/
def recv (id : ℤ) (data : List UInt8) : Option State :=
  let c := s.conns id
  if 0 < data.length ∧ data.length ≤ c.slot.s.m_recvBufferSize then
    (c.slot.doRecvProc (.bytes data.length)).map fun r =>
      let halfClosed := decide (c.slot.s.m_state = .HALFCLOSE)
      let t := s.update id { c with slot := r.1, received := c.received ++ [⟨halfClosed, data⟩] }
      if halfClosed then t else { t with mailbox := s.mailbox ++ [(id, data)] }
  else none

/-- An event of the socket `id`. -/
def onSocket (id : ℤ) (e : Suspend.Event) : Option State :=
  let c := s.conns id
  (Suspend.step c.socket e).map fun k =>
    s.update id { c with socket := after c.socket e k, out := c.out ++ leaves c.socket e }

/-- `socketApi::doShutdown`, whose request is any of the poll thread's.
SOURCE: api/socket.cc:714-721 -/
def doShutdown (id : ℤ) : Option State :=
  let c := s.conns id
  if c.socket.failed then none
  else if c.socket.pooled then
    some (s.update id { c with
      socket := { c.socket with m_buffer := c.socket.m_buffer.clearBuffer }
      out := c.out ++ [(.dropped, cleared c.socket.m_buffer)] })
  else some s

/-- The messages for the socket that have not been dispatched. -/
def inFlight (id : ℤ) : List UInt8 :=
  ((s.mailbox.filter fun m => m.1 = id).map Prod.snd).flatten

end State

/-- `recv` is a successful read of the poll thread, `slot` any other handler of it for the slot,
`dispatch` the dispatch of the first message, and `call` an event of a socket of the actor, or
`doShutdown`. -/
inductive Event where
  | recv (id : ℤ) (data : List UInt8)
  | slot (id : ℤ) (c : Slot)
  | dispatch
  | call (id : ℤ) (e : Suspend.Event)
  | doShutdown (id : ℤ)

def step (s : State) : Event → Option State
  | .recv id data => s.recv id data
  | .slot id c => some (s.update id { s.conns id with slot := c })
  | .dispatch =>
    match s.mailbox with
    | [] => none
    | (id, data) :: rest => { s with mailbox := rest }.onSocket id (.onData data)
  | .call id e =>
    match e with
    | .onData _ => none
    | e => s.onSocket id e
  | .doShutdown id => s.doShutdown id

/-- A handle the actor has no socket for. -/
structure Unknown (k : Suspend.State) : Prop where
  pooled : k.pooled = false
  m_buffer : k.m_buffer = Receive.start

/-- The sockets are those for which `START` has been handled. -/
structure Starts (s : State) : Prop where
  sockets : ∀ id, Suspend.Starts (s.conns id).socket ∨ Unknown (s.conns id).socket
  received : ∀ id, (s.conns id).received = []
  out : ∀ id, (s.conns id).out = []
  mailbox : s.mailbox = []

def system : System State Event where
  init := Starts
  step := step

@[simp] theorem system_step : system.step = step := rfl

end MagicNet.Inbound
