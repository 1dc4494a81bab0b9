import MagicNet.Model.SocketHandle

/-!
# The poll thread's handlers of one slot

`socketSystem` works on a slot through its `socketHandle`, its registration with the poller
`m_iocp` and the messages it forwards to the owner of the socket.  The handlers of the send and
close requests and of a write event run on the poll thread, each under the slot's `m_mutex`.
Where an assertion of the source fails the result is `none`.

SOURCE: network/socketSystem.cc:534-568, 581-612, 774-820
-/

set_option autoImplicit false

namespace MagicNet.Network

/-- A message forwarded by `getEventFunc(type)(opaque, handle, ud, ..)`. -/
structure Message where
  type : SocketMessageType
  opaqueId : ℕ
  handle : ℤ
  ud : ℕ
  deriving DecidableEq, Repr

/-- A slot with its side of the poller (whether its descriptor is registered, and whether the last
`doToWrite` enabled write events), of the kernel (the bytes taken) and of the owner (the messages
forwarded), both oldest first. -/
structure Slot where
  s : SocketHandle
  registered : Bool
  toWrite : Bool
  kernel : List UInt8
  messages : List Message
  deriving DecidableEq, Repr

structure RequestClose where
  _handle : ℤ
  _shutdown : ℤ
  _opaque : ℕ
  deriving DecidableEq, Repr

/-- The block is the caller's, so `_data` is its content. -/
structure RequestSend where
  _handle : ℤ
  _sz : ℤ
  _data : List UInt8
  deriving DecidableEq, Repr

namespace Slot

/-- `m_iocp->doToWrite` has no effect on a descriptor that is not registered. -/
def doToWrite (c : Slot) (enable : Bool) : Slot :=
  if c.registered then { c with toWrite := enable } else c

/-- `getEventFunc(type)(opaque, handle, ud, ..)`. -/
def forward (c : Slot) (type : SocketMessageType) (opaqueId : ℕ) (handle : ℤ) (ud : ℕ) : Slot :=
  { c with messages := c.messages ++ [⟨type, opaqueId, handle, ud⟩] }

/-- `s->doSend()` on the slot: what the kernel takes, and whether it returned
`M_SOCKET_CLOSE`. -/
def doSend (c : Slot) (answers : List Answer) : Slot × Bool :=
  let r := c.s.doSend answers
  ({ c with s := r.handle, kernel := c.kernel ++ r.bytes }, r.closed)

/-- The `doClose` of the slot is that of `Model.SocketHandle`, with the `::close` of the system. -/
def forceClose (c : Slot) : Option Slot :=
  match c.s.m_state with
  | .INVALID => some c
  | .RESERVE => none
  | .PACCEPT | .PLISTEN => some { c with s := c.s.doClose }
  | _ => some { c with s := c.s.doClose, registered := false, toWrite := false }

/-- `forceClose`, and the `CLOSE` message that follows it. -/
def closeAndForward (c : Slot) (opaqueId : ℕ) (handle : ℤ) : Option Slot :=
  c.forceClose.map (·.forward .M_SOCKET_CLOSE opaqueId handle 0)

/-- The append of `doRequestSend`: write events are enabled when the queue was empty. -/
def appendRequest (c : Slot) (request : RequestSend) : Slot :=
  let appended := { c with s := c.s.appendSendQs request._data request._sz }
  if c.s.isSendQEmpty ∧ c.s.m_state = .CONNECTED then appended.doToWrite true else appended

/-- The end of `doRequestSend`: the owner is warned of a long queue. -/
def warnOwner (c : Slot) (handle : ℤ) : Slot :=
  let warn := c.s.getWarning
  let c := { c with s := warn.2 }
  if 0 < warn.1 then c.forward .M_SOCKET_WARNING c.s.m_opaque handle warn.1 else c

def doRequestSend (c : Slot) (request : RequestSend) : Slot :=
  match c.s.m_state with
  | .INVALID | .HALFCLOSE | .PACCEPT | .PLISTEN | .LISTEN => c
  | _ =>
    if c.s.m_handle ≠ request._handle then c
    else (c.appendRequest request).warnOwner request._handle

def doRequestClose (c : Slot) (request : RequestClose) (answers : List Answer) : Option Slot :=
  if c.s.m_state = .INVALID ∨ c.s.m_handle ≠ request._handle then
    some (c.forward .M_SOCKET_CLOSE request._opaque request._handle 0)
  else
    let (c, failed) := if c.s.isSending then c.doSend answers else (c, false)
    if failed then c.closeAndForward request._opaque request._handle
    else if request._shutdown ≠ 0 ∨ c.s.isSending = false then
      c.closeAndForward request._opaque request._handle
    else some { c with s := { c.s with m_state := .HALFCLOSE } }

/-- The case in which its `try_lock` succeeds. -/
def doSendProc (c : Slot) (answers : List Answer) : Option Slot :=
  let (t, failed) := c.doSend answers
  if failed then t.closeAndForward c.s.m_opaque c.s.m_handle
  else
    let t := if t.s.isSendQEmpty then t.doToWrite false else t
    if t.s.m_state = .HALFCLOSE then t.closeAndForward c.s.m_opaque c.s.m_handle else some t

/-- A write event of the poll loop: nothing is done for a slot that is closed. -/
def writeEvent (c : Slot) (answers : List Answer) : Option Slot :=
  if c.s.m_state = .INVALID then some c else c.doSendProc answers

end Slot

end MagicNet.Network
