import Mathlib.Tactic

/-!
# A slot of the socket table

`socketHandle`: the state of one socket and its unsent bytes, which stand in two places.
`m_curSender` is the buffer a caller could not send whole, `m_sendQs` the buffers the poll
thread has queued.  A buffer is a heap block with its size and the offset of the first byte that
is not sent yet; `m_curSender._data == nullptr` is `none`.

The kernel's side of a send is a list of answers, one for each call of `::send`.

SOURCE: network/socketHandle.h, network/socketHandle.cc, network/socketWrap.h:28-34, 56-84
-/

set_option autoImplicit false

namespace MagicNet.Network

inductive SocketState where
  | INVALID | RESERVE | PLISTEN | LISTEN | CONNECTING | CONNECTED | HALFCLOSE | PACCEPT | BIND
  deriving DecidableEq, Repr

inductive SocketProtocol where
  | TCP | UDP | UDPv6 | UNKNOWN
  deriving DecidableEq, Repr

inductive SocketMessageType where
  | M_SOCKET_DATA | M_SOCKET_START | M_SOCKET_CLOSE | M_SOCKET_ACCEPT | M_SOCKET_ERROR
  | M_SOCKET_EXIT | M_SOCKET_UDP | M_SOCKET_WARNING
  deriving DecidableEq, Repr

def SOCKET_HANDLE_TAG16 (handle : ℤ) : ℕ := (handle / 65536 % 65536).toNat

def WARNING_SIZE : ℕ := 1024 * 1024

def SOCKET_HANDLE_INVALID : ℤ := -1

def INVALID_SOCKET : ℤ := 0

def MAX_SOCKET : ℕ := 65536

/-- The conversion to `uint32_t`. -/
def toUint32 (x : ℤ) : ℕ := (x % 2 ^ 32).toNat

/-- The conversion to `int32_t`. -/
def toInt32 (x : ℤ) : ℤ := x.bmod (2 ^ 32)

def SOCKET_GET (handle : ℤ) : ℕ := toUint32 handle % MAX_SOCKET

/-- `socketHandle::sendData`: `_ptr` is an offset in the block `_data`. -/
structure SendData where
  _data : List UInt8
  _ptr : ℕ
  _sz : ℕ
  deriving DecidableEq, Repr

/-- The bytes of a buffer that are not sent yet. -/
def SendData.unsent (d : SendData) : List UInt8 := (d._data.take d._sz).drop d._ptr

/-- An answer of the kernel to a call of `::send`: it takes `n` of the bytes it is given, or all of
them when they are fewer; or it fails, for one of the two reasons that `doSend` knows or any
other. -/
inductive Answer where
  | takes (n : ℕ)
  | EINTR
  | EAGAIN
  | fails
  deriving DecidableEq, Repr

structure SocketHandle where
  m_handle : ℤ
  m_opaque : ℕ
  m_sock : ℤ
  m_curSender : Option SendData
  m_sendIn : ℕ
  m_sendQs : List SendData
  m_sendBytes : ℕ
  m_sendWarn : ℕ
  m_recvBufferSize : ℕ
  m_proto : SocketProtocol
  m_state : SocketState
  deriving DecidableEq, Repr

namespace SocketHandle

def doInit (s : SocketHandle) (opaqueId : ℕ) (handle sock : ℤ) (proto : SocketProtocol) :
    SocketHandle :=
  { s with
    m_handle := handle
    m_opaque := opaqueId
    m_sock := sock
    m_proto := proto
    m_sendBytes := 0
    m_sendWarn := WARNING_SIZE
    m_recvBufferSize := 128
    m_sendIn := SOCKET_HANDLE_TAG16 handle * 2 ^ 16 }

/-- `m_sendQs` and `m_recvBufferSize` stay as they are. -/
def doRest (s : SocketHandle) : SocketHandle :=
  { s with
    m_handle := SOCKET_HANDLE_INVALID
    m_opaque := 0
    m_sock := INVALID_SOCKET
    m_sendIn := 0
    m_sendBytes := 0
    m_sendWarn := WARNING_SIZE
    m_proto := .UNKNOWN
    m_state := .INVALID
    m_curSender := none }

def setHandle (s : SocketHandle) (val : ℤ) : SocketHandle :=
  { s with m_handle := val, m_sendIn := SOCKET_HANDLE_TAG16 val * 2 ^ 16 }

def setState (s : SocketHandle) (val : SocketState) : SocketHandle := { s with m_state := val }

/-- The last test is `(m_sendIn && 0xFFFF) != 0`. -/
def isSending (s : SocketHandle) : Bool :=
  s.m_curSender.isSome && !s.m_sendQs.isEmpty && s.m_sendIn != 0

def isCanSend (s : SocketHandle) (handle : ℤ) : Bool :=
  s.m_handle == handle && !s.isSending && s.m_state == .CONNECTED

def isSendQEmpty (s : SocketHandle) : Bool := s.m_sendQs.isEmpty

/-- The returned value, or `none` where the loop only spins. -/
def incSendIn (s : SocketHandle) : Option (ℤ × SocketHandle) :=
  if s.m_proto ≠ .TCP then some (0, s)
  else if s.m_sendIn / 2 ^ 16 = SOCKET_HANDLE_TAG16 s.m_handle then
    if s.m_sendIn % 2 ^ 16 = 0xffff then none
    else some (0, { s with m_sendIn := s.m_sendIn + 1 })
  else some (-1, s)

/-- Whatever `m_curSender` held is overwritten. -/
def setCurrentSendBuffer (s : SocketHandle) (data : List UInt8) (ptr : ℕ) (sz : ℕ) :
    SocketHandle :=
  { s with m_curSender := some { _data := data, _ptr := ptr, _sz := toUint32 sz } }

def appendSendQs (s : SocketHandle) (data : List UInt8) (sz : ℤ) : SocketHandle :=
  { s with
    m_sendQs := s.m_sendQs ++ [{ _data := data, _ptr := 0, _sz := toUint32 sz }]
    m_sendBytes := toUint32 (s.m_sendBytes + sz) }

def getWarning (s : SocketHandle) : ℕ × SocketHandle :=
  if s.m_sendBytes > WARNING_SIZE ∧ s.m_sendBytes > s.m_sendWarn then
    (if s.m_sendBytes % 1024 = 0 then s.m_sendBytes / 1024 else s.m_sendBytes / 1024 + 1,
      { s with m_sendWarn :=
          if s.m_sendWarn = 0 then WARNING_SIZE * 2 else toUint32 (s.m_sendWarn * 2) })
  else (0, s)

/-- `socketWrap::close`, whose body calls itself (network/socketWrap.cc:57-63), is read as the `::close`
that it stands for. -/
def doClose (s : SocketHandle) : SocketHandle :=
  { s with m_sendQs := [], m_state := .INVALID, m_curSender := none }

/-! ## Sending -/

/-- What a call of `doSend` leaves: the handle, the bytes the kernel has taken, the buffers freed,
and whether it returned `M_SOCKET_CLOSE`. -/
structure Sent where
  handle : SocketHandle
  bytes : List UInt8
  freed : List SendData
  closed : Bool

/-- The loops of `doSend` over `m_sendQs`.  A kernel that has no more answers would block. -/
def sendLoop : List Answer → SocketHandle → Sent
  | [], s => { handle := s, bytes := [], freed := [], closed := false }
  | answer :: answers, s =>
    match s.m_sendQs with
    | [] => { handle := s, bytes := [], freed := [], closed := false }
    | tmp :: rest =>
      match answer with
      | .EINTR => sendLoop answers s
      | .EAGAIN => { handle := s, bytes := [], freed := [], closed := false }
      | .fails => { handle := s, bytes := [], freed := [], closed := true }
      | .takes n =>
        let sz := min n tmp.unsent.length
        let m_sendBytes := toUint32 (s.m_sendBytes - sz)
        if tmp._ptr + sz = tmp._sz then
          let r := sendLoop answers { s with m_sendQs := rest, m_sendBytes := m_sendBytes }
          { r with bytes := tmp.unsent.take sz ++ r.bytes, freed := tmp :: r.freed }
        else
          { handle := { s with
              m_sendQs := { tmp with _ptr := tmp._ptr + sz } :: rest
              m_sendBytes := m_sendBytes }
            bytes := tmp.unsent.take sz
            freed := []
            closed := false }

/-- The start of `doSend`: a current buffer goes to the front of the queue. -/
def pushCurSender (s : SocketHandle) : SocketHandle :=
  match s.m_curSender with
  | none => s
  | some buf => { s with m_sendQs := buf :: s.m_sendQs, m_curSender := none }

def doSend (s : SocketHandle) (answers : List Answer) : Sent := sendLoop answers s.pushCurSender

/-- The bytes of the slot that are not sent yet: those of `m_curSender`, then those of
`m_sendQs`. -/
def unsent (s : SocketHandle) : List UInt8 :=
  (s.m_curSender.toList ++ s.m_sendQs).flatMap SendData.unsent

end SocketHandle

end MagicNet.Network
