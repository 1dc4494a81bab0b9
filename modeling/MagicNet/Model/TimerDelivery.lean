import MagicNet.Model.Component

/-!
# The way of a timer to its function

`actorComponent::doTimeout` enters the function under a new session and sets a timer of the clock,
which gets the session; when it goes off it sends the actor an `M_ID_TIMEOUT` with it; the dispatch of
that message calls the function.  Other actors may send messages of any kind, with any session, also an
`M_ID_TIMEOUT` (`lua_core_actor_send` takes any), and the coroutines of the component go on in between.

`armed` are the sessions of the timers that the clock has yet to call, once each; `mailbox` has the
next message first.  `set` are the sessions that were given to functions, `called` those whose function
has been called, in order, and `answered` those of the `M_ID_RESOUE` and `M_ID_ERROR` messages
that have been dispatched.

SOURCE: module/actorComponent.cc:29-53, 69-79, 210-262, 342-364, module/actor.cc:71-81, 97-114,
126-154, lualib/auto/luaCoreAuto.cc:90-131
-/

set_option autoImplicit false

namespace MagicNet.TimerDelivery

open MagicNet.Foundation MagicNet.Component

inductive Msg where
  | timeout (session : ℤ)
  | resoue (session : ℤ)
  | error (session : ℤ)
  | other
  deriving DecidableEq, Repr

structure State where
  cpt : Component.State
  calls : ℕ
  armed : List ℤ
  mailbox : List Msg
  set : List ℤ
  called : List ℤ
  answered : List ℤ

/-- What the coroutines of the component do by themselves. -/
def Local : Component.Event → Bool
  | .genEntryId | .doWait | .doWakeup _ | .resume _ | .doReturn _ | .callbackReturn _ => true
  | .doTimeout _ | .resoue _ | .timeout _ | .error _ => false

/-- A step of a coroutine; a call of `doTimeout`; the clock calls a timer's function; another actor
sends a message; the next message is dispatched. -/
inductive Event where
  | coroutine (e : Component.Event)
  | doTimeout (func : Bool)
  | fire (session : ℤ)
  | doSendMessage (msg : Msg)
  | dispatch
  deriving DecidableEq, Repr

/-- The dispatch of a message that has been popped. -/
def dispatchMessage (s : State) : Msg → State
  | .timeout session =>
    { s with
      cpt := s.cpt.timeoutDispatch session
      called :=
        if ∃ co ∈ s.cpt.getSusped session, co._func = true then s.called ++ [session]
        else s.called }
  | .resoue session =>
    { s with cpt := s.cpt.resoueDispatch session, answered := session :: s.answered }
  | .error session =>
    { s with cpt := s.cpt.errorDispatch session, answered := session :: s.answered }
  | .other => s

def step (s : State) : Event → Option State
  | .coroutine e =>
    if Local e then
      (Component.step s.cpt e).map fun cpt =>
        { s with cpt := cpt, calls := if e = .doWait then s.calls + 1 else s.calls }
    else none
  | .doTimeout func =>
    let session := genSession s.cpt.m_session
    let t := { s with cpt := s.cpt.doTimeout func, calls := s.calls + 1 }
    match s.cpt.getSusped session with
    | some _ => some t
    | none =>
      some { t with
        armed := session :: s.armed
        set := if func then session :: s.set else s.set }
  | .fire session =>
    if session ∈ s.armed then
      some { s with
        armed := s.armed.erase session
        mailbox := s.mailbox ++ [.timeout session] }
    else none
  | .doSendMessage msg => some { s with mailbox := s.mailbox ++ [msg] }
  | .dispatch =>
    match s.mailbox with
    | [] => none
    | msg :: mailbox => some (dispatchMessage { s with mailbox := mailbox } msg)

/-- A component just created, with an empty mailbox. -/
structure Starts (s : State) : Prop where
  cpt : Component.system.init s.cpt
  calls : s.calls = 0
  armed : s.armed = []
  mailbox : s.mailbox = []
  set : s.set = []
  called : s.called = []
  answered : s.answered = []

def system : System State Event where
  init := Starts
  step := step

@[simp] theorem system_step : system.step = step := rfl

/-- Less than 2^31 - 1 sessions have been given out before the call, and an `M_ID_TIMEOUT` comes from
the clock only. -/
def Cond (s : State) : Event → Prop
  | .doTimeout _ | .coroutine .doWait => s.calls + 1 < 2 ^ 31
  | .doSendMessage (.timeout _) => False
  | _ => True

instance (s : State) : ∀ e, Decidable (Cond s e)
  | .doTimeout _ | .coroutine .doWait => inferInstanceAs (Decidable (_ < _))
  | .doSendMessage (.timeout _) => isFalse id
  | .fire _ | .dispatch => isTrue trivial
  | .doSendMessage (.resoue _) | .doSendMessage (.error _) | .doSendMessage .other => isTrue trivial
  | .coroutine .genEntryId | .coroutine (.doWakeup _) | .coroutine (.resume _)
  | .coroutine (.doReturn _) | .coroutine (.callbackReturn _) | .coroutine (.doTimeout _)
  | .coroutine (.resoue _) | .coroutine (.timeout _) | .coroutine (.error _) => isTrue trivial

end MagicNet.TimerDelivery
