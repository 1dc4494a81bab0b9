import MagicNet.Foundation.System
import MagicNet.Model.SocketHandle

/-!
# The blocks a message carries

A message carries a heap block as `_data`, and the block of a socket message points to another one,
its `_buffer`.  The functions below are those a message passes through from its sender to the end of
its path, read for the calls of `util::memory::free` they make, oldest first; `free(nullptr)` frees
nothing.

A `DATA` buffer that is stored in a `socketOper` leaves that path for the list of the
`socketOper`, whose nodes are taken off at the front by `freeBufferNode`.

SOURCE: network/socketSystem.cc:23-53, module/actorSystem.cc:114-143, module/actor.cc:8-15, 126-154,
module/actorComponent.cc:214-298, module/actorComponent.h:120-153, api/socket.cc:78-92, 230-251,
446-509, util/queue.h:22-33
-/

set_option autoImplicit false

namespace MagicNet.Payload

open MagicNet.Foundation MagicNet.Network

/-- The blocks of one message: the one its sender has given, the copy `doSendMessage` makes of a
string, the `_buffer` of a socket message, and what a block that is no socket message has in the
place of one. -/
inductive Block where
  | data
  | copy
  | buffer
  | wild
  deriving DecidableEq, Repr

/-- A `socketMessage` with a `_buffer` or with `nullptr`. -/
structure SocketMessage where
  _type : SocketMessageType
  hasBuffer : Bool
  deriving DecidableEq, Repr

def SocketMessage._buffer (m : SocketMessage) : Option Block :=
  if m.hasBuffer then some .buffer else none

inductive MessageId where
  | M_ID_ERROR | M_ID_TIMEOUT | M_ID_RESOUE | M_ID_TEXT | M_ID_SOCKET | M_ID_QUIT
  | other
  deriving DecidableEq, Repr

/-- What the sender passes as `data`. -/
inductive Data where
  | null
  | socketMessage (m : SocketMessage)
  | other
  deriving DecidableEq, Repr

/-- A `_data` that is not `nullptr`. -/
structure Carried where
  block : Block
  message : Option SocketMessage
  deriving DecidableEq, Repr

/-- The senders.  All but the first two call `doSendMessage` and leave it at that. -/
inductive Send where
  | forwardMessage (m : SocketMessage)
  | doSend (msgId : MessageId) (data : Data) (sz : ℕ)
  | direct (msgId : MessageId) (data : Data) (sz : ℕ)
  deriving DecidableEq, Repr

/-- The `_dispatch` of a protocol: `nullptr`, or one of the two functions that are registered. -/
inductive DispatchFunc where
  | null
  | staticErrorDispatch
  | staticSocketDispatch
  deriving DecidableEq, Repr

/-- What becomes of a message: its destination is missing; it is in the queue of an actor that is
destroyed; the actor has no component; or the component runs it.  Then `protocol` is what
`getProtocol` finds, and `known` whether `getSocket` finds the socket. -/
inductive Outcome where
  | missing
  | dropped
  | noComponent
  | run (protocol : Option DispatchFunc) (known : Bool)
  deriving DecidableEq, Repr

/-- The frees of a path, and whether it has stored the buffer in a `socketOper`. -/
structure Trace where
  frees : List Block
  stored : Bool
  deriving DecidableEq, Repr

def free (p : Option Block) : List Block := p.toList

/-- What `doSendMessage` puts in the message: a string is duplicated. -/
def duplicate (data : Data) (sz : ℕ) : Option Carried :=
  match data with
  | .null => none
  | .socketMessage m => some (if sz = 0 then ⟨.copy, none⟩ else ⟨.data, some m⟩)
  | .other => some ⟨if sz = 0 then .copy else .data, none⟩

/-- The block the sender has passed. -/
def Data.block : Data → Option Block
  | .null => none
  | _ => some .data

def onData (m : SocketMessage) (known : Bool) : Trace :=
  if known then { frees := [], stored := true } else { frees := free m._buffer, stored := false }

/-- The `switch` frees nothing for the other types; the buffer is freed after it. -/
def staticSocketDispatch (c : Carried) (known : Bool) : Trace :=
  match c.message with
  | none => { frees := [.wild, c.block], stored := false }
  | some m =>
    if m._type = .M_SOCKET_DATA then
      let t := onData m known
      { t with frees := t.frees ++ [c.block] }
    else { frees := free m._buffer ++ [c.block], stored := false }

def dispatchMessage (msgId : MessageId) (protocol : Option DispatchFunc) (known : Bool)
    (c : Option Carried) : Trace :=
  match msgId with
  | .M_ID_RESOUE | .M_ID_TIMEOUT | .M_ID_QUIT => { frees := [], stored := false }
  | _ =>
    match protocol, c with
    | some .staticSocketDispatch, some c => staticSocketDispatch c known
    | _, _ => { frees := [], stored := false }

/-- `actor::dispatch` of a message that has been pushed; `doRun` returns 1.  The destructor of the
queue calls the `local_dropevent` of `util::queue`, which does nothing. -/
def dispatch (msgId : MessageId) (c : Option Carried) : Outcome → Trace
  | .missing | .dropped => { frees := [], stored := false }
  | .noComponent => { frees := free (c.map Carried.block), stored := false }
  | .run protocol known =>
    let t := dispatchMessage msgId protocol known c
    { t with frees := t.frees ++ free (c.map Carried.block) }

namespace Send

/-- The message's `_data`. -/
def carried : Send → Option Carried
  | .forwardMessage m => duplicate (.socketMessage m) 24
  | .doSend _ data sz | .direct _ data sz => duplicate data sz

def msgId : Send → MessageId
  | .forwardMessage _ => .M_ID_SOCKET
  | .doSend msgId _ _ | .direct msgId _ _ => msgId

/-- What the sender frees when `doSendMessage` returns -1. -/
def failed : Send → List Block
  | .forwardMessage m => free m._buffer ++ [.data]
  | .doSend _ data _ => free data.block
  | .direct _ _ _ => []

/-- The path of the message. -/
def path (s : Send) (outcome : Outcome) : Trace :=
  if outcome = .missing then { frees := s.failed, stored := false }
  else dispatch s.msgId s.carried outcome

end Send

/-! ## The buffers of a socket -/

/-- The nodes of a `socketBuffer` from `_head` on, by the blocks they hold, with the blocks that
have been pushed and those that have been freed, oldest first. -/
structure Buffers where
  nodes : List ℕ
  pushed : List ℕ
  freed : List ℕ
  deriving DecidableEq, Repr

/-- `pushData`, and a call of `freeBufferNode`: the functions that read or clear a buffer make it
for the head of a list that is not empty. -/
inductive BufferEvent where
  | pushData (data : ℕ)
  | freeBufferNode
  deriving DecidableEq, Repr

def bufferStep (b : Buffers) : BufferEvent → Option Buffers
  | .pushData data =>
    some { b with nodes := b.nodes ++ [data], pushed := b.pushed ++ [data] }
  | .freeBufferNode =>
    match b.nodes with
    | [] => none
    | freeNode :: rest => some { b with nodes := rest, freed := b.freed ++ [freeNode] }

def buffers : System Buffers BufferEvent where
  init b := b.nodes = [] ∧ b.pushed = [] ∧ b.freed = []
  step := bufferStep

end MagicNet.Payload
