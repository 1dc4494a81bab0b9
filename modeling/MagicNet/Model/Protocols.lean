import MagicNet.Model.MessageHeader

/-!
# The protocols of a component

A component has a table of protocols, each with the functions that pack, unpack and handle the messages
of one id.  `doSend` packs a message with the sender's protocol, `doSendMessage` puts its id and size
into the header, and `dispatchMessage` of the receiver looks for its own protocol of the id it finds
there.  In the table the id is an `int8_t`, in the header a byte, and in between an `int`.

The functions are given by what they make of their arguments.  The two components may have different
tables; what they leave to others, the sessions and the timers, is only named.  Each decode of a size
writes past its variable; what it writes there is taken to be read by nobody.

SOURCE: module/actorComponent.h:27-36, 122-152, module/actorComponent.cc:183-295,
module/actorSystem.cc:125-143, module/message.h:43-71
-/

set_option autoImplicit false

namespace MagicNet.Protocols

open MagicNet.Foundation

variable {A B D : Type}

def M_ID_TIMEOUT : BitVec 32 := 2
def M_ID_RESOUE : BitVec 32 := 3
def M_ID_QUIT : BitVec 32 := 6

/-- `A` are the arguments that are packed, `B` what comes of unpacking, and `D` the functions that
handle it. -/
structure MessageProtocol (A B D : Type) where
  _msgId : BitVec 8
  _dispatch : Option D
  _pack : Option (A → BitVec 64 × BitVec 64)
  _unpack : Option (BitVec 64 → BitVec 32 → B)

/-- The comparison of an `int8_t` with an `int`. -/
def MessageProtocol.is (p : MessageProtocol A B D) (msgId : BitVec 32) : Bool :=
  p._msgId.signExtend 32 == msgId

def getProtocol (m_proto : List (MessageProtocol A B D)) (msgId : BitVec 32) :
    Option (MessageProtocol A B D) :=
  m_proto.find? fun p => p.is msgId

/-- The protocol found is written over, and otherwise the new one comes to the end. -/
def doRegisterProtocol (proto : MessageProtocol A B D) :
    List (MessageProtocol A B D) → List (MessageProtocol A B D)
  | [] => [proto]
  | p :: m_proto =>
    if p.is (proto._msgId.signExtend 32) then proto :: m_proto
    else p :: doRegisterProtocol proto m_proto

/-- The table after these registrations. -/
def registered (protos : List (MessageProtocol A B D)) : List (MessageProtocol A B D) :=
  protos.foldl (fun m_proto proto => doRegisterProtocol proto m_proto) []

/-! ## Sending -/

/-- What is there besides: the length of the string at an address, the block of its copy, and what
`getMessage` and `getMessageSize` find on the stack. -/
structure Place where
  strlen : BitVec 64 → BitVec 64
  copy : BitVec 64
  stack : Memory
  tmpsize : ℕ
  ext : Memory
  stack' : Memory
  msgSize : ℕ

/-- A size of 0 stands for that of a string, which is copied.
SOURCE: module/actorSystem.cc:127-138 -/
def carried (w : Place) (data sz : BitVec 64) : BitVec 64 × BitVec 64 :=
  if data ≠ 0 ∧ sz = 0 then (w.copy, if w.strlen data = 0 then 4 else w.strlen data)
  else (data, sz)

/-- The message, with the way it is read. -/
def doSendMessage (w : Place) (src dst msgId session : BitVec 32) (data sz : BitVec 64) :
    Header.Call where
  stack := w.stack
  tmpsize := w.tmpsize
  ext := w.ext
  msgId := ⟨msgId.setWidth 8⟩
  src := src
  dst := dst
  session := session
  data := (carried w data sz).1
  sz := (carried w data sz).2
  stack' := w.stack'
  msgSize := w.msgSize

/-- `none` is an id that has no protocol, or none that packs. -/
def doSend (w : Place) (m_proto : List (MessageProtocol A B D)) (handle msgId dst session : BitVec 32)
    (parm : A) : Option Header.Call :=
  match getProtocol m_proto msgId with
  | none => none
  | some proto =>
    proto._pack.map fun pack =>
      doSendMessage w handle dst msgId session (pack parm).1 (pack parm).2

/-! ## Dispatching -/

/-- `handled` is a call of the protocol's function with what was unpacked, `crash` one of a null
`_unpack`, `error` an `M_ID_ERROR` sent to the sender, in its own name, and `unknownRequest` what is
only logged. -/
inductive Dispatched (B D : Type) where
  | resoue (session : BitVec 32)
  | timeout (session : BitVec 32)
  | quit (dst : BitVec 32)
  | handled (dispatch : D) (session src : BitVec 32) (data : B)
  | crash
  | error (session src : BitVec 32)
  | unknownRequest (msgId session src : BitVec 32) (data : BitVec 64) (sz : BitVec 32)
  | unknownDispatch (msgId session src : BitVec 32) (data : BitVec 64) (sz : BitVec 32)

/-- From `getProtocol` on. -/
def dispatchProtocol (msgId session src : BitVec 32) (data : BitVec 64) (sz : BitVec 32) :
    Option (MessageProtocol A B D) → Dispatched B D
  | none => if session ≠ 0 then .error session src else .unknownRequest msgId session src data sz
  | some p =>
    match p._dispatch with
    | none => .unknownDispatch msgId session src data sz
    | some f =>
      match p._unpack with
      | none => .crash
      | some unpack => .handled f session src (unpack data sz)

/-- SOURCE: module/actorComponent.cc:210-295 -/
def dispatchMessage (m_proto : List (MessageProtocol A B D)) (k : Header.Call) : Dispatched B D :=
  let msg := k.encoded.1
  let msgId := k.decodedId.1.toBitVec.setWidth 32
  if msgId = M_ID_RESOUE then .resoue msg._session
  else if msgId = M_ID_TIMEOUT then .timeout msg._session
  else if msgId = M_ID_QUIT then .quit msg._dst
  else
    dispatchProtocol msgId msg._session msg._src msg._data k.decodedSize.1
      (getProtocol m_proto msgId)

/-! ## What it comes to -/

/-- The protocol that was registered last for an id. -/
def last (protos : List (MessageProtocol A B D)) (msgId : BitVec 32) :
    Option (MessageProtocol A B D) :=
  protos.reverse.find? fun p => p.is msgId

end MagicNet.Protocols
