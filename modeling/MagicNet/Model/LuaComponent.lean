import Mathlib.Logic.Function.Basic
import MagicNet.Foundation.System
import MagicNet.Model.LuaCall
import MagicNet.Model.Protocols

/-!
# The Lua component

The component `lnlua` overrides `unknownDispatch`: it gives the message to a function that it finds in
the registry of its Lua state, and answers it itself where it finds none.  A script is to leave that
function there by a call of `Actor:callback`, which `lua_core_actor_callback` serves.  But
`dispatchMessage` comes to `unknownDispatch` with the messages only that have a protocol without a
`_dispatch`; one that has no protocol is answered at once.

The stack is that of the main thread, a list from its top.  What a script does is known by its calls
of `callback`, by the values it writes into the registry itself, through the library `debug`, and by
the end of the function that is called; a script runs while the component is launched and in the calls
it gets, and of these only one runs at a time.  What the functions of the protocols do is left out.
`none` is a pop below the bottom of the stack, or the call of a null `_unpack`.

SOURCE: src/component/lnlua/src/lnlua.cc:59-97, lualib/auto/luaCoreAuto.cc:56-88,
module/actorComponent.cc:13-21, 195-295, 315-327
-/

set_option autoImplicit false

namespace MagicNet.LuaComponent

open MagicNet.Foundation MagicNet.LuaCall MagicNet.Protocols

variable {A B D : Type}

/-- What `dispatchMessage` has read of a message. -/
structure Message where
  msgId : BitVec 32
  session : BitVec 32
  source : BitVec 32
  msg : BitVec 64
  sz : BitVec 32
deriving DecidableEq, Repr

/-- `LUA_STACK_FIX_CALLBACK` -/
def LUA_STACK_FIX_CALLBACK : Value := .string "luastack_fix_type_callback".toList

abbrev Registry := Value → Value

/-! ## The API -/

/-- The value at an index that counts from the bottom, 1 being the bottom. -/
def absindex (stack : Stack) (idx : ℕ) : Option Value := stack.reverse[idx - 1]?

def lua_settop (stack : Stack) (n : ℕ) : Stack :=
  List.replicate (n - stack.length) .nil ++ stack.drop (stack.length - n)

/-- Pops a value and, below it, its key; `nil` is no key. -/
def lua_rawset (registry : Registry) : Stack → Option Registry
  | value :: key :: _ => if key = .nil then none else some (Function.update registry key value)
  | _ => none

def isFunction : Value → Bool
  | .function _ => true
  | _ => false

/-! ## Leaving the function -/

/-- What `callback` makes of the registry when it is called with a stack; `none` is an error.  The key
is pushed on top of the function, and `lua_settop` takes it off again.
SOURCE: lualib/auto/luaCoreAuto.cc:56-88 -/
def lua_core_actor_callback (registry : Registry) (LS : Stack) : Option Registry :=
  let argc : ℤ := LS.length - 1
  if argc = 1 then
    if ((absindex LS 2).map isFunction).getD false then
      let LS := LUA_STACK_FIX_CALLBACK :: LS
      let LS := lua_settop LS 2
      lua_rawset registry LS
    else none
  else none

/-! ## Giving a message to it -/

/-- `calling` is the message whose call goes on.  `routed` has each message with the function it was
given to, or with `nil`, and `errors` the sources and sessions that `M_ID_ERROR` was sent to. -/
structure State (A B D : Type) where
  m_proto : List (MessageProtocol A B D)
  stack : Stack
  registry : Registry
  calling : Option Message
  routed : List (Message × Value)
  errors : List (BitVec 32 × BitVec 32)

namespace State

variable (s : State A B D)

/-- A message that nobody wants: `actorComponent::unknownDispatch`, and `dispatchMessage` where there
is no protocol; what goes to the log is left out. -/
def refuse (msg : Message) : State A B D :=
  { s with
    routed := s.routed ++ [(msg, .nil)]
    errors := if msg.session ≠ 0 then s.errors ++ [(msg.source, msg.session)] else s.errors }

/-- `lnlua::unknownDispatch` up to `lua_pcall`. -/
def unknownDispatch (msg : Message) : State A B D :=
  let stack := s.registry LUA_STACK_FIX_CALLBACK :: s.stack
  if index stack (-1) = some .nil ∨ lua_isfunction stack (-1) = false then
    { s with stack := lua_pop stack 1 }.refuse msg
  else
    { s with
      stack := [.number msg.sz.toNat, .object msg.msg.toNat, .number msg.source.toNat,
        .number msg.session.toInt, .number msg.msgId.toInt] ++ stack
      calling := some msg
      routed := s.routed ++ [(msg, s.registry LUA_STACK_FIX_CALLBACK)] }

/-- `actorComponent::dispatchMessage`; the ids that it keeps to itself, and those whose protocol has a
function, do not come to a script. -/
def dispatchMessage (msg : Message) : Option (State A B D) :=
  if msg.msgId = M_ID_RESOUE ∨ msg.msgId = M_ID_TIMEOUT ∨ msg.msgId = M_ID_QUIT then some s
  else
    match dispatchProtocol msg.msgId msg.session msg.source msg.msg msg.sz
      (getProtocol s.m_proto msg.msgId) with
    | .error _ _ | .unknownRequest _ _ _ _ _ => some (s.refuse msg)
    | .unknownDispatch _ _ _ _ _ => some (s.unknownDispatch msg)
    | .crash => none
    | .handled _ _ _ _ | .resoue _ | .timeout _ | .quit _ => some s

/-- `lua_pcall` with five arguments and no results takes these and the function, and pushes an
object, whatever the message handler at index 1 made of it, only in case of an error; `lua_pop` comes
in each case. -/
def pcallReturned (called : Called) : Option (State A B D) :=
  let stack := match called with
    | .ok _ => s.stack.drop 6
    | .error object => object :: s.stack.drop 6
  if stack = [] then none else some { s with stack := lua_pop stack 1, calling := none }

end State

/-- `setRegistry` is a write through `debug.getregistry`. -/
inductive Event (A B D : Type) where
  | doRegisterProtocol (proto : MessageProtocol A B D)
  | callback (args : Stack)
  | setRegistry (key value : Value)
  | dispatchMessage (msg : Message)
  | pcallReturned (called : Called)

def step (s : State A B D) : Event A B D → Option (State A B D)
  | .doRegisterProtocol proto =>
    some { s with m_proto := doRegisterProtocol proto s.m_proto }
  | .callback args =>
    some { s with registry := (lua_core_actor_callback s.registry args).getD s.registry }
  | .setRegistry key value =>
    some { s with registry := (lua_rawset s.registry [value, key]).getD s.registry }
  | .dispatchMessage msg => if s.calling = none then s.dispatchMessage msg else none
  | .pcallReturned called => if s.calling = none then none else s.pcallReturned called

def M_ID_ERROR : BitVec 32 := 1

/-- The protocols that `actorComponent::doInit` registers; the second one handles the errors.
SOURCE: module/actorComponent.cc:13-21 -/
def doInit (errorDispatch : D) (errorUnPack : BitVec 64 → BitVec 32 → B) :
    List (MessageProtocol A B D) :=
  registered
    [⟨M_ID_RESOUE.setWidth 8, none, none, none⟩,
      ⟨M_ID_ERROR.setWidth 8, some errorDispatch, none, some errorUnPack⟩]

/-- The component before its launch: the state is new, with any values on its stack, and the protocols
are those of `doInit`. -/
structure Starts (s : State A B D) : Prop where
  m_proto : ∃ errorDispatch errorUnPack, s.m_proto = doInit errorDispatch errorUnPack
  registry : s.registry LUA_STACK_FIX_CALLBACK = .nil
  calling : s.calling = none
  routed : s.routed = []
  errors : s.errors = []

def system : System (State A B D) (Event A B D) where
  init := Starts
  step := step

/-! ## What it comes to -/

/-- The value that an event leaves for the component: `callback` stores the function under its first
argument, which is what it is called upon. -/
def Event.leaves : Event A B D → Option Value
  | .callback [.function f, self] => if self = LUA_STACK_FIX_CALLBACK then some (.function f) else none
  | .setRegistry key value => if key = LUA_STACK_FIX_CALLBACK then some value else none
  | _ => none

/-- The table after an event. -/
def Event.protocols (m_proto : List (MessageProtocol A B D)) :
    Event A B D → List (MessageProtocol A B D)
  | .doRegisterProtocol proto => Protocols.doRegisterProtocol proto m_proto
  | _ => m_proto

/-- What a message is given to, when the value left is `left`: a function, if its protocol has none of
its own; `nil`, if that is no function or there is no protocol; nothing, if it does not come so
far. -/
def givenTo (m_proto : List (MessageProtocol A B D)) (left : Value) (msg : Message) : Option Value :=
  if msg.msgId = M_ID_RESOUE ∨ msg.msgId = M_ID_TIMEOUT ∨ msg.msgId = M_ID_QUIT then none
  else
    match getProtocol m_proto msg.msgId with
    | none => some .nil
    | some p =>
      match p._dispatch with
      | none => some (if isFunction left then left else .nil)
      | some _ => none

/-- The messages of a run with the functions they are given to, when the value left is `left`. -/
def routes (m_proto : List (MessageProtocol A B D)) (left : Value) :
    List (Event A B D) → List (Message × Value)
  | [] => []
  | .dispatchMessage msg :: es =>
    ((givenTo m_proto left msg).map fun value => (msg, value)).toList ++ routes m_proto left es
  | e :: es => routes (e.protocols m_proto) (e.leaves.getD left) es

/-- The stack without the function and the arguments of the call that goes on. -/
def State.prior (s : State A B D) : Stack := if s.calling = none then s.stack else s.stack.drop 6

/-- The calls that have ended without an error. -/
def successes (es : List (Event A B D)) : ℕ :=
  es.countP fun
    | .pcallReturned (.ok _) => true
    | _ => false

/-- The answer to a message that is given to no function. -/
def errorOf (routed : Message × Value) : Option (BitVec 32 × BitVec 32) :=
  if routed.2 = .nil ∧ routed.1.session ≠ 0 then some (routed.1.source, routed.1.session) else none

end MagicNet.LuaComponent
