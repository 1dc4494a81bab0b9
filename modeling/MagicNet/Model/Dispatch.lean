import MagicNet.Model.Component
import MagicNet.Model.SocketHandle

/-!
# The messages of an actor and the handlers that take them

What an actor's mailbox is given, by the event functions of the poll thread and by `doSendMessage`,
and what `dispatchMessage` and the handlers below it do with the pointers and functions they find:
a member of a `socketMessage` is read, a string is made of a pointer, with or without a size, or
compared with one, a `std::function` is called.

Of a socket there is what the handlers look at.  `onData` and the contents of its buffers are left
out, and what is written to the log; a null pointer that is only formatted makes `fmt` throw, which
`SYSLOG_ERROR` catches.

SOURCE: network/socketSystem.cc:23-128, 409-441, 443-590, 615-829, 879-920, module/message.h:43-71,
module/actorSystem.cc:114-143, module/actorComponent.cc:13-22, 183-372, api/socket.cc:395-413,
446-578, 593-602, 665-682
-/

set_option autoImplicit false

namespace MagicNet.Dispatch

open MagicNet.Foundation MagicNet.Network

def M_ID_ERROR : ℕ := 1
def M_ID_TIMEOUT : ℕ := 2
def M_ID_RESOUE : ℕ := 3
def M_ID_TEXT : ℕ := 4
def M_ID_SOCKET : ℕ := 5
def M_ID_QUIT : ℕ := 6

/-- `_buffer` is `nullptr` or a C string; that of `DATA` is not looked at as one. -/
structure SocketMessage where
  _type : SocketMessageType
  _id : ℤ
  _ext : ℤ
  _buffer : Option String
  deriving DecidableEq, Repr

/-- `_data` is `nullptr`, or a block, and what the block is when it is read as a `socketMessage`.
`msgId` and `msgSz` are what `getMessage` puts into `_ext`; reading them back is `Model.MessageHeader`'s. -/
structure Message where
  _src : ℕ
  _session : ℤ
  msgId : ℕ
  msgSz : ℕ
  _data : Option SocketMessage
  deriving DecidableEq, Repr

/-! ## The senders -/

/-- The calls of the event functions: `startUnknown` and `started` are in `doRequestStart`,
`connected` in `doRequestConnect` and `doConnectProc`, with no text where `inetNtop` fails, `accepted`
in `doAcceptProc`, with the same, `received` in `doRecvProc` and `warned` in `doRequestSend`; `failed`
are all other errors, for which there is a text of `strerror`, `gai_strerror` or their own, and
`closed` all calls for `CLOSE`. -/
inductive EventCall where
  | startUnknown
  | started (text : String)
  | connected (addr : Option String)
  | accepted (clientHandle : ℤ) (ipAddr : Option String)
  | received (buffer : String) (n : ℕ)
  | warned (warnRet : ℕ)
  | failed (err : String)
  | closed
  deriving DecidableEq, Repr

/-- `doMessageGen`, with the `_ext` its caller sets; a string is duplicated. -/
def doMessageGen (type : SocketMessageType) (handle : ℤ) (data : Option String) (ext : ℤ) :
    SocketMessage :=
  { _type := type, _id := handle, _ext := ext, _buffer := data }

def EventCall.message (handle : ℤ) : EventCall → SocketMessage
  | .startUnknown => doMessageGen .M_SOCKET_ERROR handle none 0
  | .started text => doMessageGen .M_SOCKET_START handle (some text) 0
  | .connected addr => doMessageGen .M_SOCKET_START handle addr 0
  | .accepted clientHandle ipAddr => doMessageGen .M_SOCKET_ACCEPT handle ipAddr clientHandle
  | .received buffer n => doMessageGen .M_SOCKET_DATA handle (some buffer) n
  | .warned warnRet => doMessageGen .M_SOCKET_WARNING handle none warnRet
  | .failed err => doMessageGen .M_SOCKET_ERROR handle (some err) 0
  | .closed => doMessageGen .M_SOCKET_CLOSE handle none 0

/-- Who has put a message into the mailbox: `forwardMessage`, for the poll thread, or any other call of
`doSendMessage`.  The `sz` of a block is the one `doSendMessage` passes on: its length as a string where
the caller gives none. -/
inductive Sent where
  | forward (handle : ℤ) (call : EventCall)
  | send (src : ℕ) (session : ℤ) (msgId : ℕ) (data : Option SocketMessage) (sz : ℕ)
  deriving DecidableEq, Repr

/-- `sizeof(struct socketMessage)` -/
def socketMessageSize : ℕ := 24

/-- The message; the id is a `uint8_t`, and `MESSAGE_EXT_SZ_MASK` leaves 20 bits of the size. -/
def Sent.message : Sent → Message
  | .forward handle call =>
    { _src := 0, _session := 0, msgId := M_ID_SOCKET, msgSz := socketMessageSize
      _data := some (call.message handle) }
  | .send src session msgId data sz =>
    { _src := src, _session := session, msgId := msgId % 2 ^ 8, msgSz := sz % 2 ^ 20, _data := data }

/-! ## The receiver -/

/-- The `_dispatch` of a protocol: `nullptr`, one of the two functions there are, or another. -/
inductive DispatchFunc where
  | null
  | staticErrorDispatch
  | staticSocketDispatch
  | other
  deriving DecidableEq, Repr

/-- `_msgId` is an `int8_t`. -/
structure MessageProtocol where
  _msgId : ℤ
  _dispatch : DispatchFunc
  deriving DecidableEq, Repr

/-- `m_connecting`, which is empty, or `true`, or the text of an error. -/
inductive Connecting where
  | empty
  | true
  | error (err : String)
  deriving DecidableEq, Repr

/-- `m_func` says that the function is not empty. -/
structure SocketOper where
  m_connected : Bool
  m_connecting : Connecting
  m_func : Bool
  deriving DecidableEq, Repr

def SocketOper.isConnecting (k : SocketOper) : Bool := k.m_connecting ≠ .empty

/-- `aborted` is a process that has ended. -/
structure State where
  m_handle : ℕ
  mailbox : List Sent
  cpt : Component.State
  m_proto : List MessageProtocol
  gSocketPool : ℤ → Option SocketOper
  aborted : Bool

/-- What a handler does with a pointer that may be null, or with a function that may be empty; the
first argument says that it is not.  `string` reads a C string: `strcmp`, or `std::string(ptr)`; `bytes`
is `std::string(ptr, sz)`. -/
inductive Use where
  | member (msg : Bool)
  | string (ptr : Bool)
  | bytes (ptr : Bool) (sz : ℕ)
  | call (func : Bool)
  deriving DecidableEq, Repr

/-- `std::string(nullptr, 0)` is an empty string; of a null pointer with a size it throws. -/
def Use.safe : Use → Bool
  | .member b | .string b | .call b => b
  | .bytes b sz => b || sz == 0

namespace State

variable (s : State)

def getSocket (id : ℤ) : Option SocketOper := s.gSocketPool id

def addSocket (id : ℤ) (k : SocketOper) : State :=
  { s with gSocketPool := Function.update s.gSocketPool id (some k) }

def removeSocket (id : ℤ) : State :=
  { s with gSocketPool := Function.update s.gSocketPool id none }

def getProtocol (msgId : ℤ) : Option DispatchFunc :=
  (s.m_proto.find? fun p => p._msgId = msgId).map MessageProtocol._dispatch

def doRegisterProtocol (proto : MessageProtocol) : State :=
  { s with m_proto :=
      if s.m_proto.any fun p => p._msgId = proto._msgId then
        s.m_proto.map fun p => if p._msgId = proto._msgId then proto else p
      else s.m_proto ++ [proto] }

/-! ## The handlers of a socket -/

def onAccept (id : ℤ) : List Use :=
  match s.getSocket id with
  | none => []
  | some k => [.call k.m_func]

def onStart (id : ℤ) : State :=
  match s.getSocket id with
  | none => s
  | some k => s.addSocket id { k with m_connected := true }

def onError (id : ℤ) (err : Option String) : List Use × State :=
  match s.getSocket id with
  | none => ([], s)
  | some k =>
    if k.m_connected then ([], s.addSocket id { k with m_connected := false })
    else if k.isConnecting then
      ([.string err.isSome],
        s.addSocket id { k with m_connecting := .error (err.getD ""), m_connected := false })
    else ([], s.addSocket id { k with m_connected := false })

def onClose (id : ℤ) : State :=
  match s.getSocket id with
  | none => s
  | some k => s.addSocket id { k with m_connected := false }

/-- SOURCE: api/socket.cc:446-482 -/
def staticSocketDispatch (data : Option SocketMessage) : List Use × State :=
  match data with
  | none => ([.member false], s)
  | some msg =>
    match msg._type with
    | .M_SOCKET_ACCEPT => (.member true :: s.onAccept msg._id, s)
    | .M_SOCKET_START => ([.member true], s.onStart msg._id)
    | .M_SOCKET_CLOSE => ([.member true], s.onClose msg._id)
    | .M_SOCKET_ERROR =>
      let r := s.onError msg._id msg._buffer
      (.member true :: r.1, r.2)
    | _ => ([.member true], s)

/-! ## The handlers of a component -/

/-- `unknownResponse` and `unknownRequest`: `std::string((const char *)msg, sz)`. -/
def unknown (msg : Message) : List Use := [.bytes msg._data.isSome msg.msgSz]

/-- `doSendMessage` of an `M_ID_ERROR` with an empty string, which becomes a block of four bytes, to the
source itself, which `assert(msg->_dst)` wants to be there. -/
def sendError (source : ℕ) (session : ℤ) : State :=
  if source = 0 then { s with aborted := true }
  else if source = s.m_handle then
    { s with mailbox := s.mailbox ++
        [.send source session M_ID_ERROR (some (doMessageGen .M_SOCKET_DATA 0 none 0)) 4] }
  else s

/-- What is done without a protocol, and `unknownDispatch`. -/
def noDispatch (msg : Message) : List Use × State :=
  if msg._session ≠ 0 then ([], s.sendError msg._src msg._session) else (unknown msg, s)

/-- `strcmp(er._message, "")`, where no coroutine waits for the session. -/
def errorDispatch (msg : Message) : List Use × State :=
  match s.cpt.getSusped msg._session with
  | none => ([.string msg._data.isSome], s)
  | some _ => ([], { s with cpt := s.cpt.errorDispatch msg._session })

/-- SOURCE: module/actorComponent.cc:210-295 -/
def dispatchMessage (msg : Message) : List Use × State :=
  if msg.msgId = M_ID_RESOUE then
    let t := { s with cpt := s.cpt.resoueDispatch msg._session }
    match (s.cpt.getSusped msg._session).bind Component.CoEntry._entry with
    | none => (unknown msg, t)
    | some _ => ([], t)
  else if msg.msgId = M_ID_TIMEOUT then
    let t := { s with cpt := s.cpt.timeoutDispatch msg._session }
    match s.cpt.getSusped msg._session with
    | none => (unknown msg, t)
    | some co => (if co._func then [.call co._func] else unknown msg, t)
  else if msg.msgId = M_ID_QUIT then ([], s)
  else
    match s.getProtocol msg.msgId with
    | none | some .null => s.noDispatch msg
    | some .staticErrorDispatch => s.errorDispatch msg
    | some .staticSocketDispatch => s.staticSocketDispatch msg._data
    | some .other => ([], s)

/-- The dispatch of the first message. -/
def dispatch : Option (List Use × State) :=
  match s.mailbox with
  | [] => none
  | sent :: rest => some ({ s with mailbox := rest }.dispatchMessage sent.message)

end State

/-! ## Runs -/

/-- `component` is a call in the component, other than the dispatch of a message.  `makeSocket` is the
call up to its suspension, and `socketMade` what it does after. -/
inductive Event where
  | put (sent : Sent)
  | dispatch
  | component (e : Component.Event)
  | doRegisterProtocol (proto : MessageProtocol)
  | makeSocket (id : ℤ) (func : Bool)
  | socketMade (id : ℤ)
  | doClose (id : ℤ)
  deriving DecidableEq, Repr

/-- The events of a component that are the dispatch of a message. -/
def Dispatched : Component.Event → Prop
  | .resoue _ | .timeout _ | .error _ => True
  | _ => False

instance : DecidablePred Dispatched
  | .resoue _ | .timeout _ | .error _ => isTrue trivial
  | .genEntryId | .doWait | .doWakeup _ | .doTimeout _ | .resume _ | .doReturn _
  | .callbackReturn _ => isFalse id

def act (s : State) : Event → Option State
  | .put sent => some { s with mailbox := s.mailbox ++ [sent] }
  | .dispatch => s.dispatch.map fun r =>
    if r.1.all Use.safe then r.2 else { s with aborted := true }
  | .component e =>
    if Dispatched e then none else (Component.step s.cpt e).map fun cpt => { s with cpt := cpt }
  | .doRegisterProtocol proto => some (s.doRegisterProtocol proto)
  | .makeSocket id func =>
    some (s.addSocket id { m_connected := false, m_connecting := .true, m_func := func })
  | .socketMade id =>
    (s.getSocket id).map fun k =>
      if k.m_connected then s.addSocket id { k with m_connecting := .empty } else s.removeSocket id
  | .doClose id => some (s.removeSocket id)

def step (s : State) (e : Event) : Option State := if s.aborted then none else act s e

/-- The component after `actorComponent::doInit`; the sockets are those of all actors. -/
structure Starts (s : State) : Prop where
  mailbox : s.mailbox = []
  cpt : Component.system.init s.cpt
  m_proto : s.m_proto = [⟨M_ID_RESOUE, .null⟩, ⟨M_ID_ERROR, .staticErrorDispatch⟩]
  aborted : s.aborted = false

def system : System State Event where
  init := Starts
  step := step

/-! ## Messages that the handlers accept -/

/-- The dispatch of the first message makes no string of a null pointer and compares none, calls no
empty function, and reads no message through a null pointer. -/
def Accepts (s : State) (e : Event) (_ : State) : Prop :=
  e = .dispatch → ∀ r, s.dispatch = some r → ∀ u ∈ r.1, u.safe = true

/-- The socket takes the message: one of its calls for `ACCEPT` finds a function, and it gets no error
without a text before it is connected. -/
def FitsSocket (s : State) (msg : SocketMessage) : Prop :=
  match msg._type with
  | .M_SOCKET_ACCEPT => ∀ k ∈ s.getSocket msg._id, k.m_func = true
  | .M_SOCKET_ERROR => msg._buffer = none → ∀ k ∈ s.getSocket msg._id,
      k.m_connected = true ∨ k.m_connecting = .empty
  | _ => True

/-- What a message without data needs: no size, or to find, for `RESOUE`, an entry with a coroutine, for
`TIMEOUT`, one with a function, and where there is no protocol a session; for `ERROR`, any entry. -/
def FitsEmpty (s : State) (session : ℤ) (msgId msgSz : ℕ) : Prop :=
  if msgId = M_ID_RESOUE then
    msgSz = 0 ∨ (s.cpt.getSusped session).bind Component.CoEntry._entry ≠ none
  else if msgId = M_ID_TIMEOUT then
    msgSz = 0 ∨ ∃ co ∈ s.cpt.getSusped session, co._func = true
  else if msgId = M_ID_QUIT then True
  else
    match s.getProtocol msgId with
    | none | some .null => msgSz = 0 ∨ session ≠ 0
    | some .staticErrorDispatch => s.cpt.getSusped session ≠ none
    | some .staticSocketDispatch => False
    | some .other => True

/-- The message is for the handlers of sockets. -/
def ForSocket (s : State) (msgId : ℕ) : Prop :=
  msgId ≠ M_ID_RESOUE ∧ msgId ≠ M_ID_TIMEOUT ∧ msgId ≠ M_ID_QUIT ∧
    s.getProtocol msgId = some .staticSocketDispatch

/-- Of the messages of the poll thread, the error of `doRequestStart` for a handle that is not in use,
and those of `doAcceptProc`, need a socket that fits; of the others those without data need what
`FitsEmpty` says, and a message for a socket fits as those of the poll thread do. -/
def Fits (s : State) : Sent → Prop
  | .forward handle call =>
    s.getProtocol M_ID_SOCKET = some .staticSocketDispatch →
      match call with
      | .startUnknown => ∀ k ∈ s.getSocket handle, k.m_connected = true ∨ k.m_connecting = .empty
      | .accepted _ _ => ∀ k ∈ s.getSocket handle, k.m_func = true
      | _ => True
  | .send _ session msgId data sz =>
    match data with
    | none => FitsEmpty s session (msgId % 2 ^ 8) (sz % 2 ^ 20)
    | some msg => ForSocket s (msgId % 2 ^ 8) → FitsSocket s msg

/-- The first message fits when it is dispatched. -/
def Cond (s : State) (e : Event) : Prop := e = .dispatch → ∀ sent ∈ s.mailbox.head?, Fits s sent

end MagicNet.Dispatch
