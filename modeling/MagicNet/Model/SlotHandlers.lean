import MagicNet.Model.SocketSystem
import MagicNet.Model.Poll

/-!
# The life of a slot on the poll thread

The handlers of the start and connect requests and of the events of `m_iocp`, on a slot as in
`Model.SocketSystem`.  What the operating system answers is an argument: the addresses and
sockets of a connect request, whether `epoll_ctl` registers a descriptor, the results of
`accept`, `recv` and `getsockopt`.  A descriptor that is closed is no longer registered, and
a new one is not registered yet; `socketWrap::close`, whose body calls itself, is read as the `::close`
that it stands for.

SOURCE: network/socketSystem.cc:409-532, 628-772, 807-916, network/iocpEpoll.cc:17-28
-/

set_option autoImplicit false

namespace MagicNet.Network

open MagicNet.Poll (IocpEvent)

structure RequestStart where
  _handle : ℤ
  _opaque : ℕ
  deriving DecidableEq, Repr

/-- `_addr` and `_port` only go to `getAddrInfo`. -/
structure RequestConnect where
  _handle : ℤ
  _opaque : ℕ
  deriving DecidableEq, Repr

/-- One address of `doRequestConnect`: no socket for it; or a connect that fails, is in progress, or
is done at once. -/
inductive Attempt where
  | noSocket
  | refused
  | inProgress (sock : ℕ)
  | connected (sock : ℕ)
  deriving DecidableEq, Repr

/-- What `getAddrInfo` gives: an error, or one address or more. -/
inductive AddrInfo where
  | fails
  | addresses (first : Attempt) (rest : List Attempt)
  deriving DecidableEq, Repr

/-- The result of `accept` and of the `getReserve` for the accepted connection.  `exhausted` is an
`EMFILE` or `ENFILE`. -/
inductive Accepted where
  | exhausted
  | fails
  | noSlot
  | client (handle : ℤ)
  deriving DecidableEq, Repr

/-- The result of `recv`: `retry` is an `EINTR` or an `EAGAIN`. -/
inductive Received where
  | bytes (n : ℕ)
  | endOfStream
  | retry
  | fails
  deriving DecidableEq, Repr

/-- What the operating system answers while one event is handled.  `busy` says that the `try_lock` of
`doSendProc` fails. -/
structure Answers where
  error : Bool
  accepted : Accepted
  received : Received
  sends : List Answer
  busy : Bool
  deriving DecidableEq, Repr

/-- The loop over the addresses: the last `sock`, and whether the last `status` is 0. -/
def connectLoop : List Attempt → ℤ → Bool → ℤ × Bool
  | [], sock, zero => (sock, zero)
  | .noSocket :: rest, _, zero => connectLoop rest (-1) zero
  | .refused :: rest, _, _ => connectLoop rest INVALID_SOCKET false
  | .inProgress sock :: _, _, _ => (sock, false)
  | .connected sock :: _, _, _ => (sock, true)

/-- The `sock` and the `status == 0` with which `doRequestConnect` goes on to the registration, if
it does. -/
def AddrInfo.descriptor : AddrInfo → Option (ℤ × Bool)
  | .fails => none
  | .addresses first rest =>
    let r := connectLoop (first :: rest) INVALID_SOCKET true
    if r.1 < 0 then none else some r

namespace Slot

def setState (c : Slot) (state : SocketState) : Slot := { c with s := c.s.setState state }

/-- `doInit` with a descriptor that is not registered. -/
def initWith (c : Slot) (opaqueId : ℕ) (handle sock : ℤ) : Slot :=
  { c with s := c.s.doInit opaqueId handle sock .TCP, registered := false, toWrite := false }

/-- `doRest` takes the slot's descriptor from it. -/
def doRest (c : Slot) : Slot := { c with s := c.s.doRest, registered := false, toWrite := false }

def doRequestStart (c : Slot) (request : RequestStart) (registers : Bool) : Option Slot :=
  if c.s.m_state = .INVALID ∨ c.s.m_handle ≠ request._handle then
    some (c.forward .M_SOCKET_ERROR request._opaque request._handle 0)
  else
    match c.s.m_state with
    | .PACCEPT | .PLISTEN =>
      if registers = false then
        c.forceClose.map (·.forward .M_SOCKET_ERROR request._opaque request._handle 0)
      else
        let t : Slot := { c with registered := true, toWrite := false }
        some ((t.setState (if c.s.m_state = .PACCEPT then .CONNECTED else .LISTEN)).forward
          .M_SOCKET_START request._opaque request._handle 0)
    | .CONNECTED => some (c.forward .M_SOCKET_START request._opaque request._handle 0)
    | _ => some c

/-- The label `_FAILED` of `doRequestConnect`. -/
def failConnect (c : Slot) (request : RequestConnect) : Slot :=
  (c.setState .INVALID).forward .M_SOCKET_ERROR request._opaque request._handle 0

def doRequestConnect (c : Slot) (request : RequestConnect) (info : AddrInfo) (registers : Bool) :
    Slot :=
  match AddrInfo.descriptor info with
  | none => c.failConnect request
  | some (sock, zero) =>
    -- `m_iocp->doRegister(sock, s) != 0`; the descriptor is then closed
    if registers then c.failConnect request
    else
      let c := c.initWith request._opaque request._handle sock
      if zero then
        (c.setState .CONNECTED).forward .M_SOCKET_START request._opaque request._handle 0
      else (c.setState .CONNECTING).doToWrite true

def doConnectProc (c : Slot) (error : Bool) : Option Slot :=
  let handle := c.s.m_handle
  let opaqueId := c.s.m_opaque
  if error then c.forceClose.map (·.forward .M_SOCKET_ERROR opaqueId handle 0)
  else
    let c := c.setState .CONNECTED
    let c := if c.s.isSending then c else c.doToWrite false
    some (c.forward .M_SOCKET_START opaqueId handle 0)

/-- `doAcceptProc` on the slot that listens. -/
def doAcceptProc (c : Slot) : Accepted → Slot
  | .exhausted => c.forward .M_SOCKET_ERROR c.s.m_opaque c.s.m_handle 0
  | .fails | .noSlot => c
  | .client handle => c.forward .M_SOCKET_ACCEPT c.s.m_opaque c.s.m_handle handle.toNat

/-- `doAcceptProc` on the slot of the accepted connection, with the message that announces it on the
listening handle; `none` when the assertion fails. -/
def acceptClient (c : Slot) (opaqueId : ℕ) (listener clientHandle sock : ℤ) : Option Slot :=
  if c.s.m_state = .RESERVE then
    some ((c.initWith opaqueId clientHandle sock).forward .M_SOCKET_ACCEPT opaqueId listener
      clientHandle.toNat)
  else none

/-- `doSocketListen` from its assertion on. -/
def listen (c : Slot) (opaqueId : ℕ) (handle sock : ℤ) : Option Slot :=
  if c.s.m_state = .RESERVE then some ((c.initWith opaqueId handle sock).setState .PLISTEN)
  else none

/-- The new size of the receive buffer after `n` bytes. -/
def recvBufferSize (bufferSize n : ℕ) : ℕ :=
  if n = bufferSize then toUint32 (bufferSize * 2)
  else if bufferSize > 128 ∧ n * 2 > bufferSize then bufferSize / 2
  else bufferSize

/-- The slot, and whether `M_SOCKET_CLOSE` or `M_SOCKET_ERROR` is returned. -/
def doRecvProc (c : Slot) : Received → Option (Slot × Bool)
  | .retry => some (c, false)
  | .fails =>
    c.forceClose.map fun t => (t.forward .M_SOCKET_ERROR c.s.m_opaque c.s.m_handle 0, true)
  | .endOfStream =>
    c.forceClose.map fun t => (t.forward .M_SOCKET_CLOSE c.s.m_opaque c.s.m_handle 0, true)
  | .bytes n =>
    if c.s.m_state = .HALFCLOSE then some (c, false)
    else
      let t : Slot :=
        { c with s := { c.s with m_recvBufferSize := recvBufferSize c.s.m_recvBufferSize n } }
      some (t.forward .M_SOCKET_DATA c.s.m_opaque c.s.m_handle 0, false)

/-- The last two cases of the poll loop: `iserror` and `iseof`. -/
def doErrorEvent (c : Slot) (type : SocketMessageType) : Option Slot :=
  c.forceClose.map (·.forward type c.s.m_opaque c.s.m_handle 0)

/-- One event of the poll loop: the slot, and the event again when its other half is still to be
handled. -/
def pollEvent (c : Slot) (e : IocpEvent) (os : Answers) : Option (Slot × Option IocpEvent) :=
  match c.s.m_state with
  | .CONNECTING => (c.doConnectProc os.error).map (·, none)
  | .LISTEN => some (c.doAcceptProc os.accepted, none)
  | .INVALID => some (c, none)
  | _ =>
    if e.isread then
      (c.doRecvProc os.received).map fun r =>
        (r.1, if e.iswrite ∧ r.2 = false then some { e with isread := false } else none)
    else if e.iswrite then
      if os.busy then some (c, none) else (c.doSendProc os.sends).map (·, none)
    else if e.iserror then (c.doErrorEvent .M_SOCKET_ERROR).map (·, none)
    else if e.iseof then (c.doErrorEvent .M_SOCKET_CLOSE).map (·, none)
    else some (c, none)

end Slot

end MagicNet.Network
