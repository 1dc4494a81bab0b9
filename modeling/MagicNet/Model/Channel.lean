import MagicNet.Foundation.ByteLayout
import MagicNet.Foundation.System

/-!
# The command channel

A caller of the socket system fills the union of a `requestPacket` on its stack, and `doSend`
writes the packet to the pipe from `header[0]` on.  The poll thread's `doProccess` reads the two
bytes of the header, then as many bytes as the header says into an array of its own, and hands
the array to the handler of the command as a request.

With the alignment of LP64 the packet has its header at 0, six bytes of padding, and the union
at 8.  Everything the caller does not write (the padding, the holes of the structures, the rest
of the union) holds whatever was on the stack, and so does the reader's array: both are
parameters.  The writes of a pipe of at most `PIPE_BUF` bytes are atomic, so the writers'
threads matter only through the order of their writes.
-/

set_option autoImplicit false

namespace MagicNet.Channel

open MagicNet.Foundation

/-! ## The requests
SOURCE: network/socketChannel.h:17-61 -/

structure RequestExit where
  _opaque : BitVec 64
deriving DecidableEq

structure RequestStart where
  _handle : BitVec 32
  _opaque : BitVec 64
deriving DecidableEq

/-- `_addr` is the string, without its NUL. -/
structure RequestConnect where
  _handle : BitVec 32
  _port : BitVec 32
  _opaque : BitVec 64
  _addr : List UInt8
deriving DecidableEq

structure RequestSend where
  _handle : BitVec 32
  _sz : BitVec 32
  _data : BitVec 64
deriving DecidableEq

structure RequestSetopt where
  _handle : BitVec 32
  _what : BitVec 32
  _value : BitVec 32
deriving DecidableEq

structure RequestClose where
  _handle : BitVec 32
  _shutdown : BitVec 32
  _opaque : BitVec 64
deriving DecidableEq

inductive Request where
  | connect (request : RequestConnect)
  | start (request : RequestStart)
  | send (request : RequestSend)
  | setopt (request : RequestSetopt)
  | close (request : RequestClose)
  | exit (request : RequestExit)
deriving DecidableEq

/-- A member of four bytes (`int32_t`). -/
def int32 (offset : ℕ) (v : BitVec 32) : Field := ⟨offset, bytesLE 4 v.toNat⟩

/-- A member of eight bytes (`uintptr_t`, a pointer). -/
def uintptr (offset : ℕ) (v : BitVec 64) : Field := ⟨offset, bytesLE 8 v.toNat⟩

namespace Request

def letter : Request → Char
  | connect _ => 'C'
  | start _ => 'S'
  | send _ => 'D'
  | setopt _ => 'T'
  | close _ => 'K'
  | exit _ => 'X'

/-- The `len` given to `doSend`: `sizeof` the structure, and the string's length for `connect`. -/
def len : Request → ℕ
  | connect r => 24 + r._addr.length
  | start _ => 16
  | send _ => 16
  | setopt _ => 12
  | close _ => 16
  | exit _ => 8

/-- The members the callers set, in their order, at the offsets of LP64.
SOURCE: network/socketSystem.cc:162-335 -/
def fields : Request → List Field
  | connect r =>
    [uintptr 8 r._opaque, int32 0 r._handle, int32 4 r._port, ⟨16, r._addr⟩,
      ⟨16 + r._addr.length, [0]⟩]
  | start r => [int32 0 r._handle, uintptr 8 r._opaque]
  | send r => [int32 0 r._handle, int32 4 r._sz, uintptr 8 r._data]
  | setopt r => [int32 0 r._handle, int32 4 r._what, int32 8 r._value]
  | close r => [int32 0 r._handle, int32 4 r._shutdown, uintptr 8 r._opaque]
  | exit r => [uintptr 0 r._opaque]

/-- What the callers pass on: `doSocketConnect` takes a C string, and refuses one that is too
long; the others pass on any values. -/
def Accepted : Request → Prop
  | connect r => 0 ∉ r._addr ∧ ¬ r._addr.length + 24 ≥ 256
  | _ => True

/-- The members of the request in the reader's array, as the type the command is cast to.  The
address is `none` when the array has no NUL from `_addr` on. -/
def read (command : Char) (data : Memory) : Option Request :=
  match command with
  | 'C' => (data.cstring 16 240).map fun addr =>
    connect ⟨data.loadWord 4 0, data.loadWord 4 4, data.loadWord 8 8, addr⟩
  | 'S' => some (start ⟨data.loadWord 4 0, data.loadWord 8 8⟩)
  | 'D' | 'P' => some (send ⟨data.loadWord 4 0, data.loadWord 4 4, data.loadWord 8 8⟩)
  | 'T' => some (setopt ⟨data.loadWord 4 0, data.loadWord 4 4, data.loadWord 4 8⟩)
  | 'K' => some (close ⟨data.loadWord 4 0, data.loadWord 4 4, data.loadWord 8 8⟩)
  | 'X' => some (exit ⟨data.loadWord 8 0⟩)
  | _ => none

end Request

/-! ## Writing -/

/-- A `requestPacket`: the header, the padding behind it, and the union with all that follows. -/
structure RequestPacket where
  header : UInt8 × UInt8
  padding : Memory
  u : Memory

/-- The packet's memory: the union is aligned to 8. -/
def RequestPacket.memory (p : RequestPacket) : Memory := fun i =>
  if i = 0 then p.header.1
  else if i = 1 then p.header.2
  else if i < 8 then p.padding (i - 2)
  else p.u (i - 8)

/-- The bytes `doSend` writes to the pipe.
SOURCE: network/socketChannel.cc:54-58 -/
def doSend (request : RequestPacket) (type : Char) (len : ℕ) : List UInt8 :=
  RequestPacket.memory { request with header := (UInt8.ofNat type.toNat, UInt8.ofNat len) }
    |>.load 0 (len + 2)

/-- A request that a caller sends, and the packet on its stack before it is filled. -/
structure Call where
  request : Request
  accepted : request.Accepted
  packet : RequestPacket

namespace Call

def filled (c : Call) : RequestPacket :=
  { c.packet with u := fill c.packet.u c.request.fields }

def wire (c : Call) : List UInt8 := doSend c.filled c.request.letter c.request.len

end Call

/-! ## Reading -/

/-- Which handlers of the channel have been registered. -/
structure Handlers where
  m_startFunc : Bool
  m_connectFunc : Bool
  m_sendFunc : Bool
  m_setoptFunc : Bool
  m_closeFunc : Bool

/-- The handlers that `socketSystem::doStart` registers.
SOURCE: network/socketSystem.cc:135-147 -/
def doStart : Handlers :=
  { m_startFunc := false, m_connectFunc := true, m_sendFunc := true, m_setoptFunc := true
    m_closeFunc := true }

/-- What `doProccess` does with the command: its handler is called with the array read as the
command's request, or the handler's `std::function` is empty; the command is `X`, or unknown. -/
inductive Outcome where
  | called (request : Option Request)
  | badFunctionCall
  | exit
  | unknown
deriving DecidableEq

/-- One call of `doProccess`: the letter, the bytes taken from the pipe, the reader's array and
what became of the command. -/
structure Delivery where
  command : Char
  taken : ℕ
  data : Memory
  outcome : Outcome

/-- The `switch` of `doProccess`. -/
def dispatch (h : Handlers) (command : Char) (data : Memory) : Outcome :=
  let call := fun registered : Bool =>
    if registered then .called (Request.read command data) else .badFunctionCall
  match command with
  | 'D' | 'P' => call h.m_sendFunc
  | 'S' => call h.m_startFunc
  | 'K' => call h.m_closeFunc
  | 'C' => call h.m_connectFunc
  | 'T' => call h.m_setoptFunc
  | 'X' => .exit
  | _ => .unknown

/-- `doProccess`, up to the handler's return: `data` is the array before the read.  `none` when a
read is short, against the assertion of `doRecv`.
SOURCE: network/socketChannel.cc:126-174 -/
def doProccess (h : Handlers) (data : Memory) (pipe : List UInt8) :
    Option (Delivery × List UInt8) :=
  match pipe with
  | command :: bytes :: rest =>
    if bytes.toNat ≤ rest.length then
      let data := data.store 0 (rest.take bytes.toNat)
      let command := Char.ofNat command.toNat
      some (⟨command, 2 + bytes.toNat, data, dispatch h command data⟩, rest.drop bytes.toNat)
    else none
  | _ => none

/-! ## Runs -/

/-- The pipe; what the threads have sent, in the order of their writes; and what the calls of
`doProccess` delivered. -/
structure State where
  pipe : List UInt8
  sent : List Call
  handled : List (Option Delivery)

/-- A thread's `doSend` writes its packet; the poll thread finds the pipe readable and calls
`doProccess`, with `data` in its array. -/
inductive Event where
  | doSend (call : Call)
  | doProccess (data : Memory)

def step (s : State) : Event → Option State
  | .doSend call => some { s with pipe := s.pipe ++ call.wire, sent := s.sent ++ [call] }
  | .doProccess data =>
    if s.pipe = [] then none
    else
      match Channel.doProccess doStart data s.pipe with
      | none => some { s with handled := s.handled ++ [none] }
      | some (delivery, rest) =>
        some { s with pipe := rest, handled := s.handled ++ [some delivery] }

def system : System State Event where
  init s := s.pipe = [] ∧ s.sent = [] ∧ s.handled = []
  step := step

end MagicNet.Channel
