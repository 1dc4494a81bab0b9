import MagicNet.Foundation.System
import MagicNet.Model.SendPath
import MagicNet.Model.SlotHandlers
import Mathlib.Logic.Function.Basic

/-!
# The sends in flight on a slot

Any number of threads call `doSocketSend` for a slot, with its handle or with an older one.  A call
that cannot write to the socket itself counts a request with `incSendIn`, a loop around a
compare-and-swap of `m_sendIn`, and then writes it to the pipe.  The poll thread handles the requests
of the pipe, and the events and the other requests of the slot, which keeps its handle.

A step is one access of a thread to the slot, to its `m_mutex` or to the pipe, or one handler of the
poll thread.  The handlers of the requests hold `m_mutex`; of those of the events, the ones that close
the slot wait for it, and `doSendProc` tries it.  An assertion that fails ends the process.

SOURCE: network/socketSystem.cc:250-303, 534-568, 581-612, 628-917,
network/socketHandle.cc:125-158
-/

set_option autoImplicit false

namespace MagicNet.SendCount

open MagicNet.Foundation MagicNet.Network
open MagicNet.Poll (IocpEvent)
open MagicNet.SendPath (acceptsSend directWrite)

/-- A call of `doSocketSend`. -/
structure Call where
  handle : ℤ
  data : List UInt8
  deriving DecidableEq, Repr

/-- Where a thread is: in no call; at `try_lock`; at `isCanSend`, with `m_mutex`; at the load of
`m_sendIn`; at the compare-and-swap, with the value loaded; or at `m_channel->doSend`. -/
inductive Pc where
  | idle
  | tryLock (call : Call)
  | holds (call : Call)
  | load (call : Call)
  | swap (call : Call) (sendIn : ℕ)
  | write (call : Call)
  deriving DecidableEq, Repr

variable {T : Type}

/-- The slot, the thread that has its `m_mutex`, the threads, and the `'D'` requests in the pipe,
oldest first. -/
structure State (T : Type) where
  c : Slot
  m_mutex : Option T
  pc : T → Pc
  pipe : List RequestSend

/-- The steps of a call, and the handlers of the poll thread: `request` takes a `'D'` request from the
pipe, `close` is a close request, and `getEvent` an event of the batch. -/
inductive Event (T : Type) where
  | call (t : T) (call : Call)
  | tryLock (t : T)
  | direct (t : T) (answer : Answer)
  | load (t : T)
  | swap (t : T)
  | write (t : T)
  | request
  | close (request : RequestClose) (answers : List Answer)
  | getEvent (e : IocpEvent) (os : Answers)
  deriving DecidableEq, Repr

namespace State

variable [DecidableEq T] (s : State T)

/-- The thread goes on to another point. -/
def goto (t : T) (pc : Pc) : State T := { s with pc := Function.update s.pc t pc }

/-- A handler of the poll thread that waits for `m_mutex`. -/
def handler (c : Option Slot) : Option (State T) :=
  if s.m_mutex = none then c.map fun c => { s with c := c } else none

/-- A handler of an event that leaves the slot `c` can run. -/
def admits (os : Answers) (c : Slot) : Prop :=
  os.busy = s.m_mutex.isSome ∧
    (s.m_mutex.isSome = true → c.s.m_state = .INVALID → s.c.s.m_state = .INVALID)

instance (os : Answers) (c : Slot) : Decidable (s.admits os c) :=
  inferInstanceAs (Decidable (_ ∧ _))

end State

def requestOf (call : Call) : RequestSend :=
  { _handle := call.handle, _sz := toInt32 call.data.length, _data := call.data }

def step [DecidableEq T] (s : State T) : Event T → Option (State T)
  | .call t call =>
    if s.pc t = .idle ∧ SOCKET_GET call.handle = SOCKET_GET s.c.s.m_handle then
      some (s.goto t (if acceptsSend s.c.s.m_state then .tryLock call else .idle))
    else none
  | .tryLock t =>
    match s.pc t with
    | .tryLock call =>
      if s.m_mutex = none then some { s.goto t (.holds call) with m_mutex := some t }
      else some (s.goto t (.load call))
    | _ => none
  | .direct t answer =>
    match s.pc t with
    | .holds call =>
      if s.c.s.isCanSend call.handle then
        some { s.goto t .idle with c := directWrite s.c call.data answer, m_mutex := none }
      else some { s.goto t (.load call) with m_mutex := none }
    | _ => none
  | .load t =>
    match s.pc t with
    | .load call =>
      if s.c.s.m_proto ≠ .TCP then some (s.goto t (.write call))
      else if s.c.s.m_sendIn / 2 ^ 16 = SOCKET_HANDLE_TAG16 s.c.s.m_handle then
        if s.c.s.m_sendIn % 2 ^ 16 = 0xffff then some s
        else some (s.goto t (.swap call s.c.s.m_sendIn))
      else some (s.goto t .idle)
    | _ => none
  | .swap t =>
    match s.pc t with
    | .swap call sendIn =>
      if s.c.s.m_sendIn = sendIn then
        some { s.goto t (.write call) with
          c := { s.c with s := { s.c.s with m_sendIn := sendIn + 1 } } }
      else some (s.goto t (.load call))
    | _ => none
  | .write t =>
    match s.pc t with
    | .write call => some { s.goto t .idle with pipe := s.pipe ++ [requestOf call] }
    | _ => none
  | .request =>
    match s.pipe with
    | r :: rest => { s with pipe := rest }.handler (some (s.c.doRequestSend r))
    | [] => none
  | .close request answers => s.handler (s.c.doRequestClose request answers)
  | .getEvent e os =>
    match s.c.pollEvent e os with
    | some (c, _) => if s.admits os c then some { s with c := c } else none
    | none => none

/-- A TCP slot whose `m_sendIn` is as `doInit` and `setHandle` leave it. -/
structure Starts (s : State T) : Prop where
  proto : s.c.s.m_proto = .TCP
  sendIn : s.c.s.m_sendIn = SOCKET_HANDLE_TAG16 s.c.s.m_handle * 2 ^ 16
  mutex : s.m_mutex = none
  pc : ∀ t, s.pc t = .idle
  pipe : s.pipe = []

def system (T : Type) [DecidableEq T] : System (State T) (Event T) where
  init := Starts
  step := step

@[simp] theorem system_step (T : Type) [DecidableEq T] : (system T).step = step := rfl

/-! ## What is in flight -/

/-- The handle of the request that a thread has counted and not written yet. -/
def Pc.counted : Pc → Option ℤ
  | .write call => some call.handle
  | _ => none

/-- The `'D'` requests for the slot's handle that are counted and not handled. -/
def State.outstanding [Fintype T] (s : State T) : ℕ :=
  s.pipe.countP (fun r => r._handle = s.c.s.m_handle) +
    ∑ t, if (s.pc t).counted = some s.c.s.m_handle then 1 else 0

end MagicNet.SendCount
