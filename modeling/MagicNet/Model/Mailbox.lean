import MagicNet.Foundation.System
import Mathlib.Logic.Function.Basic
import Mathlib.Data.List.Count

/-!
# The mailboxes of the actors and the work queue

`actor::push` puts a message in `m_mqs` and, when `m_inglobal` is not set, posts the handle to
`actorWorker::m_works`; `actorWorker::doDispatch` turns each posted handle into a scheduler task,
and the task calls `actor::dispatch`, which handles one message and posts the handle again.
Any number of threads push, and any number of scheduler threads run `dispatch`.

A step is one section under the lock of `m_mqs` or of `m_works`, one `createTask`, or one step
of a handler.  `push` holds the lock of `m_mqs` from its test of `m_inglobal` to the end, so its
post and its write of `m_inglobal` are two steps with the lock held in between.  The actors of
the model stay registered, as `getGrab` of a posted handle needs.

SOURCE: module/actor.cc:71-81, 126-154, module/actorWorker.cc:20-45, module/actorWorker.h:16-19
-/

set_option autoImplicit false

namespace MagicNet.Mailbox

open MagicNet.Foundation

/-- A call of `actor::dispatch` that has not posted the handle again: at `m_mqs.pop(&msg)`, or in
`m_cpt->doRun(&msg)` up to `doRegiserWork`, where the handler may have suspended it. -/
inductive Frame (M : Type) where
  | looking
  | handling (msg : M)
  | suspended (msg : M)
  deriving DecidableEq, Repr

/-- One actor; `m_cpt` is `m_cpt != nullptr`.  Of the calls in progress on it, `pushing` counts
those of `push` that have queued their message, `locked` says that one of them has posted the
handle and still holds the lock of `m_mqs`, and `running` are those of `dispatch`.  `ran` collects
the messages given to `doRun`, oldest first. -/
structure Actor (M : Type) where
  m_inglobal : Bool
  m_cpt : Bool
  m_mqs : List M
  locked : Bool
  pushing : ℕ
  running : List (Frame M)
  ran : List M

/-- `dispatching` is the handle `actorWorker::doDispatch` has popped and not yet made a task of,
`tasks` the handles of the tasks that have not run yet. -/
structure State (H M : Type) where
  actors : H → Actor M
  m_works : List H
  dispatching : Option H
  tasks : List H

/-- The three steps of `push`: `m_mqs.push(msg)`; the test of `m_inglobal` under the lock, with the
post of the handle; and the write of `m_inglobal`.  The two of `actorWorker::doDispatch`:
`m_works.pop(&handle)` and `createTask`.  The steps of the scheduler's threads: the start of a task;
and, for the `i`-th running `dispatch`, its `m_mqs.pop(&msg)` with what it does with the message,
the return of the handler with the second post, and the handler's suspending and going on.  Last,
`actor::doInit` sets `m_cpt`. -/
inductive Event (H M : Type) where
  | enqueue (h : H) (msg : M)
  | post (h : H)
  | mark (h : H)
  | popWork
  | createTask
  | startTask (h : H)
  | pop (h : H) (i : ℕ)
  | repost (h : H) (i : ℕ)
  | suspend (h : H) (i : ℕ)
  | resume (h : H) (i : ℕ)
  | setComponent (h : H)
  deriving DecidableEq, Repr

variable {H M : Type} [DecidableEq H]

def State.set (s : State H M) (h : H) (a : Actor M) : State H M :=
  { s with actors := Function.update s.actors h a }

/-- The actor that is set. -/
@[simp] theorem set_actors_self (s : State H M) (h : H) (a : Actor M) :
    (s.set h a).actors h = a := by
  simp [State.set]

/-- The other actors stay. -/
theorem set_actors_of_ne (s : State H M) {h h' : H} (a : Actor M) (hne : h ≠ h') :
    (s.set h' a).actors h = s.actors h := by
  simp [State.set, Function.update_of_ne hne]

@[simp] theorem set_m_works (s : State H M) (h : H) (a : Actor M) :
    (s.set h a).m_works = s.m_works := rfl

@[simp] theorem set_dispatching (s : State H M) (h : H) (a : Actor M) :
    (s.set h a).dispatching = s.dispatching := rfl

@[simp] theorem set_tasks (s : State H M) (h : H) (a : Actor M) :
    (s.set h a).tasks = s.tasks := rfl

/-- The handle goes to `actorWorker::m_works`. -/
def State.doRegiserWork (s : State H M) (h : H) : State H M :=
  { s with m_works := s.m_works ++ [h] }

/-- One pop of the `i`-th running `dispatch` on an actor. -/
def dispatchPop (a : Actor M) (i : ℕ) : Actor M :=
  match a.m_mqs with
  | [] => { a with running := a.running.eraseIdx i }
  | msg :: rest =>
    if a.m_cpt then
      { a with m_mqs := rest, running := a.running.set i (.handling msg), ran := a.ran ++ [msg] }
    else { a with m_mqs := rest }

def step (s : State H M) : Event H M → Option (State H M)
  | .enqueue h msg =>
    let a := s.actors h
    if a.locked then none
    else some (s.set h { a with m_mqs := a.m_mqs ++ [msg], pushing := a.pushing + 1 })
  | .post h =>
    let a := s.actors h
    if a.locked = false ∧ 0 < a.pushing then
      if a.m_inglobal then some (s.set h { a with pushing := a.pushing - 1 })
      else some ((s.doRegiserWork h).set h { a with locked := true })
    else none
  | .mark h =>
    let a := s.actors h
    if a.locked then
      some (s.set h { a with m_inglobal := true, locked := false, pushing := a.pushing - 1 })
    else none
  | .popWork =>
    match s.dispatching, s.m_works with
    | none, h :: rest => some { s with m_works := rest, dispatching := some h }
    | _, _ => none
  | .createTask =>
    match s.dispatching with
    | some h => some { s with dispatching := none, tasks := h :: s.tasks }
    | none => none
  | .startTask h =>
    let a := s.actors h
    if h ∈ s.tasks then
      some (State.set { s with tasks := s.tasks.erase h } h
        { a with running := a.running ++ [.looking] })
    else none
  | .pop h i =>
    let a := s.actors h
    if a.locked = false then
      match a.running[i]? with
      | some .looking => some (s.set h (dispatchPop a i))
      | _ => none
    else none
  | .repost h i =>
    let a := s.actors h
    match a.running[i]? with
    | some (.handling _) =>
      some ((s.doRegiserWork h).set h { a with running := a.running.eraseIdx i })
    | _ => none
  | .suspend h i =>
    let a := s.actors h
    match a.running[i]? with
    | some (.handling msg) => some (s.set h { a with running := a.running.set i (.suspended msg) })
    | _ => none
  | .resume h i =>
    let a := s.actors h
    match a.running[i]? with
    | some (.suspended msg) => some (s.set h { a with running := a.running.set i (.handling msg) })
    | _ => none
  | .setComponent h => some (s.set h { s.actors h with m_cpt := true })

/-! ## What the steps do -/

variable {s s' : State H M} {h : H}

/-- A message enters the mailbox.
SOURCE: module/actor.cc:71-81 -/
theorem step_enqueue {msg : M} : step s (.enqueue h msg) = some s' ↔
    (s.actors h).locked = false ∧ s' = s.set h { s.actors h with
      m_mqs := (s.actors h).m_mqs ++ [msg], pushing := (s.actors h).pushing + 1 } := by
  simp [step, eq_comm (a := s')]

/-- The push ends: the actor is marked already, or will be.
SOURCE: module/actor.cc:71-81 -/
theorem step_post : step s (.post h) = some s' ↔
    ((s.actors h).locked = false ∧ 0 < (s.actors h).pushing) ∧
      ((s.actors h).m_inglobal = true ∧
          s' = s.set h { s.actors h with pushing := (s.actors h).pushing - 1 } ∨
        (s.actors h).m_inglobal = false ∧
          s' = (s.doRegiserWork h).set h { s.actors h with locked := true }) := by
  cases hg : (s.actors h).m_inglobal <;> simp [step, hg, eq_comm (a := s')]

/-- The actor is marked, and its handle is in the worker's queue.
SOURCE: module/actor.cc:71-81 -/
theorem step_mark : step s (.mark h) = some s' ↔
    (s.actors h).locked = true ∧ s' = s.set h { s.actors h with
      m_inglobal := true, locked := false, pushing := (s.actors h).pushing - 1 } := by
  simp [step, eq_comm (a := s')]

/-- The worker takes a handle.
SOURCE: module/actorWorker.cc:20-45 -/
theorem step_popWork : step s .popWork = some s' ↔
    s.dispatching = none ∧ ∃ h rest, s.m_works = h :: rest ∧
      s' = { s with m_works := rest, dispatching := some h } := by
  cases hd : s.dispatching <;> cases hw : s.m_works <;> simp [step, hd, hw, eq_comm (a := s')]

/-- It creates a task for the actor.
SOURCE: module/actorWorker.cc:20-45 -/
theorem step_createTask : step s .createTask = some s' ↔
    ∃ h, s.dispatching = some h ∧ s' = { s with dispatching := none, tasks := h :: s.tasks } := by
  cases hd : s.dispatching <;> simp [step, hd, eq_comm (a := s')]

/-- The task begins to look at the mailbox.
SOURCE: module/actor.cc:126-154 -/
theorem step_startTask : step s (.startTask h) = some s' ↔
    h ∈ s.tasks ∧ s' = State.set { s with tasks := s.tasks.erase h } h
      { s.actors h with running := (s.actors h).running ++ [.looking] } := by
  simp [step, eq_comm (a := s')]

/-- It takes the front message for the component, drops it where there is none, or ends.
SOURCE: module/actor.cc:126-154 -/
theorem step_pop {i : ℕ} : step s (.pop h i) = some s' ↔
    (s.actors h).locked = false ∧ (s.actors h).running[i]? = some .looking ∧
      s' = s.set h (dispatchPop (s.actors h) i) := by
  simp only [step]
  split
  · next hl => split <;> simp_all [eq_comm (a := s')]
  · next hl => simp [hl]

/-- When the handler has returned the handle is in the worker's queue again.
SOURCE: module/actor.cc:126-154 -/
theorem step_repost {i : ℕ} : step s (.repost h i) = some s' ↔
    (∃ msg, (s.actors h).running[i]? = some (.handling msg)) ∧
      s' = (s.doRegiserWork h).set h
        { s.actors h with running := (s.actors h).running.eraseIdx i } := by
  simp only [step]
  split <;> simp_all [eq_comm (a := s')]

/-- The handler is suspended.
SOURCE: module/actorComponent.cc:86-95 -/
theorem step_suspend {i : ℕ} : step s (.suspend h i) = some s' ↔
    ∃ msg, (s.actors h).running[i]? = some (.handling msg) ∧
      s' = s.set h
        { s.actors h with running := (s.actors h).running.set i (.suspended msg) } := by
  simp only [step]
  split <;> simp_all [eq_comm (a := s')]

/-- It goes on.
SOURCE: module/actorComponent.cc:86-95 -/
theorem step_resume {i : ℕ} : step s (.resume h i) = some s' ↔
    ∃ msg, (s.actors h).running[i]? = some (.suspended msg) ∧
      s' = s.set h
        { s.actors h with running := (s.actors h).running.set i (.handling msg) } := by
  simp only [step]
  split <;> simp_all [eq_comm (a := s')]

/-- `doInit` gives the actor its component.
SOURCE: module/actor.cc:31-69 -/
theorem step_setComponent : step s (.setComponent h) = some s' ↔
    s' = s.set h { s.actors h with m_cpt := true } := by
  simp [step, eq_comm (a := s')]

/-! ## Runs -/

/-- An actor just registered. -/
def Actor.fresh (M : Type) : Actor M :=
  { m_inglobal := false, m_cpt := false, m_mqs := [], locked := false, pushing := 0, running := [],
    ran := [] }

/-- Nothing has been pushed yet. -/
def start (H M : Type) : State H M :=
  { actors := fun _ => Actor.fresh M, m_works := [], dispatching := none, tasks := [] }

def system (H M : Type) [DecidableEq H] : System (State H M) (Event H M) where
  init s := s = start H M
  step := step

@[simp] theorem system_step (H M : Type) [DecidableEq H] : (system H M).step = step := rfl

/-! ## Dispatch tokens -/

/-- The actor of `h` holds a dispatch token: its handle is with the actor worker, or a task for
it exists, or a `dispatch` of it runs that has not posted the handle again. -/
def HoldsToken (s : State H M) (h : H) : Prop :=
  h ∈ s.m_works ∨ s.dispatching = some h ∨ h ∈ s.tasks ∨ (s.actors h).running ≠ []

instance (s : State H M) (h : H) : Decidable (HoldsToken s h) :=
  inferInstanceAs (Decidable (_ ∨ _ ∨ _ ∨ ¬ (s.actors h).running = []))

/-- A `dispatch` of `h` finds the mailbox empty. -/
def EmptyPop (h : H) (s : State H M) (e : Event H M) : Prop :=
  (∃ i, e = .pop h i) ∧ (s.actors h).m_mqs = []

/-- In the run of `es` from `s`, a message is queued for `h` after a `dispatch` of `h` has found
the mailbox empty. -/
def PushedAfterEmptyPop (h : H) : State H M → List (Event H M) → Prop
  | _, [] => False
  | s, e :: es =>
    (EmptyPop h s e ∧ ∃ msg, Event.enqueue h msg ∈ es) ∨
      ∃ s', step s e = some s' ∧ PushedAfterEmptyPop h s' es

end MagicNet.Mailbox
