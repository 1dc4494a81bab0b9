import MagicNet.Foundation.System
import Mathlib.Data.List.AList

/-!
# The coroutines a component waits with

A coroutine that calls `actorComponent::doWait` is entered in two tables: `m_suspedSession`, by the
session a response will carry, and `m_suspedSleep`, by the id of its `coEntry`.  A timer is entered
in the first only.  The handlers of `M_ID_RESOUE`, `M_ID_TIMEOUT` and `M_ID_ERROR` take entries
out again and wake the coroutine; what a resumed `doWait` still finds it takes out itself.  The
collector asks for the sizes of both.

An event is one call, up to the yield of a `doWait` or the start of a timer's callback; the return
of each is an event of its own.  `waiting` are the calls of `doWait` between the two, `timers` the
sessions whose callback has not been called and `calling` those whose callback has not returned.

SOURCE: module/actorComponent.cc:29-181, 210-262, 342-364, module/actorComponent.h:69-91,
module/actor.cc:83-95, module/actorSystem.cc:79-85, 148-151, operation/worker.cc:119-168
-/

set_option autoImplicit false

namespace MagicNet.Component

open MagicNet.Foundation

/-- `_entry` stands for the task and its `_supperId`: the suspension it was made for, or nothing
for the `suspendEntry` of a timer.  `_func` is `_func != nullptr`. -/
structure CoEntry where
  _id : ℕ
  _entry : Option ℕ
  _func : Bool
  deriving DecidableEq, Repr

/-- A suspension: not woken, woken and not run again, or run again (`taskState::runnable`). -/
inductive Phase where
  | blocked
  | woken
  | resumed
  deriving DecidableEq, Repr

/-- A call of `doWait`, from its entry to its return. -/
structure Waiter where
  session : ℤ
  _id : ℕ
  entry : ℕ
  deriving DecidableEq, Repr

/-- `m_entryId` is that of the actor system; `suspends` counts the suspensions made so far. -/
structure State where
  m_session : ℤ
  m_entryId : ℕ
  m_suspedSession : AList fun _ : ℤ => CoEntry
  m_suspedSleep : AList fun _ : ℕ => ℤ
  suspends : ℕ
  phase : ℕ → Phase
  waiting : List Waiter
  timers : List ℤ
  calling : List ℤ

/-- `genEntryId` is `doGenEntryId` for another component.  The list of calls in progress is indexed
by `i`. -/
inductive Event where
  | genEntryId
  | doWait
  | doWakeup (co : CoEntry)
  | doTimeout (func : Bool)
  | resoue (session : ℤ)
  | timeout (session : ℤ)
  | error (session : ℤ)
  | resume (i : ℕ)
  | doReturn (i : ℕ)
  | callbackReturn (session : ℤ)
  deriving DecidableEq, Repr

/-! ## Sessions and ids -/

/-- `++m_session` on 32 bits, and 1 where that is not positive. -/
def genSession (m_session : ℤ) : ℤ :=
  let session := Int.bmod (m_session + 1) (2 ^ 32)
  if session ≤ 0 then 1 else session

def doGenEntryId (m_entryId : ℕ) : ℕ := (m_entryId + 1) % 2 ^ 64

namespace State

variable (s : State)

/-! ## The tables -/

def getSusped (session : ℤ) : Option CoEntry := s.m_suspedSession.lookup session

/-- `none` is the error of a repeated session. -/
def insertSusped (session : ℤ) (co : CoEntry) : Option State :=
  match s.m_suspedSession.lookup session with
  | some _ => none
  | none => some { s with m_suspedSession := s.m_suspedSession.insert session co }

def removeSusped (session : ℤ) : State :=
  { s with m_suspedSession := s.m_suspedSession.erase session }

def getSleepSusped (co : CoEntry) : ℤ := (s.m_suspedSleep.lookup co._id).getD (-1)

def insertSleepSusped (session : ℤ) (co : CoEntry) : State :=
  { s with m_suspedSleep := s.m_suspedSleep.insert co._id session }

def removeSleepSusped (entryId : ℕ) : State :=
  { s with m_suspedSleep := s.m_suspedSleep.erase entryId }

/-- The number of entries, which the source counts in a `size_t`. -/
def suspedSize : ℕ := s.m_suspedSession.entries.length + s.m_suspedSleep.entries.length

/-- The number of entries as an `int32_t`. -/
def getSuspedSize : ℤ := Int.bmod s.suspedSize (2 ^ 32)

def isSuspedEmpty : Prop := s.getSuspedSize = 0

instance : Decidable s.isSuspedEmpty := inferInstanceAs (Decidable (_ = _))

/-- `worker::wakeup`: nothing happens to a suspension that is over, or without a task. -/
def wakeup : Option ℕ → State
  | none => s
  | some entry =>
    if s.phase entry = .blocked then { s with phase := Function.update s.phase entry .woken }
    else s

/-! ## The calls -/

/-- `doCreateCo`, and `doWait` up to the yield, or to the end where the session is repeated. -/
def doWait : State :=
  let session := genSession s.m_session
  let co : CoEntry := { _id := doGenEntryId s.m_entryId, _entry := some s.suspends, _func := false }
  let t := { s with
    m_session := session
    m_entryId := co._id
    suspends := s.suspends + 1
    phase := Function.update s.phase s.suspends .blocked }
  match t.insertSusped session co with
  | none => t
  | some t =>
    let w : Waiter := { session := session, _id := co._id, entry := s.suspends }
    { t.insertSleepSusped session co with waiting := t.waiting ++ [w] }

def doWakeup (co : CoEntry) : State :=
  if s.getSleepSusped co = -1 then s else s.wakeup co._entry

def doTimeout (func : Bool) : State :=
  let session := genSession s.m_session
  let co : CoEntry := { _id := doGenEntryId s.m_entryId, _entry := none, _func := func }
  let t := { s with m_session := session, m_entryId := co._id }
  match t.insertSusped session co with
  | none => t
  | some t => { t with timers := if func then session :: t.timers else t.timers }

/-- The dispatch of an `M_ID_RESOUE`. -/
def resoueDispatch (session : ℤ) : State :=
  match s.getSusped session with
  | none => s
  | some co =>
    match co._entry with
    | none => s.removeSusped session
    | some entry =>
      if s.phase entry = .resumed then s.removeSusped session
      else (s.removeSusped session).wakeup (some entry)

/-- The dispatch of an `M_ID_TIMEOUT`, up to the call of the timer's function. -/
def timeoutDispatch (session : ℤ) : State :=
  match s.getSusped session with
  | none => s
  | some co =>
    if co._func then
      { s with timers := s.timers.erase session, calling := session :: s.calling }
    else s

def errorDispatch (session : ℤ) : State :=
  match s.getSusped session with
  | none => s
  | some co => ((s.removeSleepSusped co._id).removeSusped session).wakeup co._entry

/-- The two removals of a `doWait` that runs again. -/
def afterYield (w : Waiter) : State := (s.removeSleepSusped w._id).removeSusped w.session

end State

/-! ## Steps -/

def step (s : State) : Event → Option State
  | .genEntryId => some { s with m_entryId := doGenEntryId s.m_entryId }
  | .doWait => some s.doWait
  | .doWakeup co => some (s.doWakeup co)
  | .doTimeout func => some (s.doTimeout func)
  | .resoue session => some (s.resoueDispatch session)
  | .timeout session => some (s.timeoutDispatch session)
  | .error session => some (s.errorDispatch session)
  | .resume i =>
    match s.waiting[i]? with
    | some w =>
      if s.phase w.entry = .woken then
        some { s with phase := Function.update s.phase w.entry .resumed }
      else none
    | none => none
  | .doReturn i =>
    match s.waiting[i]? with
    | some w =>
      if s.phase w.entry = .resumed then
        some { s.afterYield w with waiting := s.waiting.eraseIdx i }
      else none
    | none => none
  | .callbackReturn session =>
    if session ∈ s.calling then
      some { s.removeSusped session with calling := s.calling.erase session }
    else none

/-- A component just created; the actor system may have given out any number of ids before. -/
def start (m_entryId : ℕ) : State :=
  { m_session := 0, m_entryId := m_entryId, m_suspedSession := ∅, m_suspedSleep := ∅, suspends := 0,
    phase := fun _ => .blocked, waiting := [], timers := [], calling := [] }

def system : System State Event where
  init s := ∃ m_entryId, s = start m_entryId
  step := step

@[simp] theorem system_step : system.step = step := rfl

/-! ## What the steps do -/

variable {s s' : State}

/-- A coroutine that was woken runs.
SOURCE: module/actorComponent.cc:86-95 -/
theorem step_resume {i : ℕ} : step s (.resume i) = some s' ↔
    ∃ w, s.waiting[i]? = some w ∧ s.phase w.entry = .woken ∧
      s' = { s with phase := Function.update s.phase w.entry .resumed } := by
  simp only [step]
  cases s.waiting[i]? with
  | none => simp
  | some w => simp [eq_comm (a := s')]

/-- Its `doWait` returns and forgets it.
SOURCE: module/actorComponent.cc:43-53 -/
theorem step_doReturn {i : ℕ} : step s (.doReturn i) = some s' ↔
    ∃ w, s.waiting[i]? = some w ∧ s.phase w.entry = .resumed ∧
      s' = { s.afterYield w with waiting := s.waiting.eraseIdx i } := by
  simp only [step]
  cases s.waiting[i]? with
  | none => simp
  | some w => simp [eq_comm (a := s')]

/-- A timer's function returns, and its session is forgotten.
SOURCE: module/actorComponent.cc:210-295 -/
theorem step_callbackReturn {session : ℤ} : step s (.callbackReturn session) = some s' ↔
    session ∈ s.calling ∧
      s' = { s.removeSusped session with calling := s.calling.erase session } := by
  simp [step, eq_comm (a := s')]

end MagicNet.Component
