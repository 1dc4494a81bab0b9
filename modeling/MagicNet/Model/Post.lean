import MagicNet.Foundation.System

/-!
# `util::post`: the thread that runs a function each time it is posted

`post::defaultExecute` waits on `m_cv` at the top of each round and then runs `m_func`;
`post::doPost` notifies when `m_sleep` says that the thread waits.  The users of the class,
`actorWorker` and `logSystem`, put an item in a `util::queue` and then call `doPost`, and their
`m_func` pops items until the queue is empty.  One step of the model is one section that holds
`m_mtx` or the lock of the queue, or one test of `m_shutdown` outside it.

SOURCE: util/post.cc, module/actorWorker.h:16-19, module/actorWorker.cc:20-45,
log/logSystem.cc:34-61
-/

set_option autoImplicit false

namespace MagicNet.Post

open MagicNet.Foundation

/-- Where the post thread is in `defaultExecute`: at the test of `while (!m_shutdown)`; in the
loop, before it takes `m_mtx`; blocked in `m_cv.wait(lck)` with no notification pending; notified
or woken spuriously, before it has `m_mtx` again; after `--m_sleep`, at the second test of
`m_shutdown`; in `m_func`, at its next `pop`; or out of `defaultExecute`. -/
inductive Pc where
  | top
  | enter
  | waiting
  | notified
  | check
  | running
  | exited
  deriving DecidableEq, Repr

/-- One `post` and the queue its function drains, both oldest item first; `posting` counts the
producers that have pushed their item and have not returned from `doPost`, and `handled` collects
the items that `m_func` has handled. -/
structure State (α : Type) where
  pc : Pc
  m_sleep : ℕ
  m_shutdown : Bool
  queue : List α
  posting : ℕ
  handled : List α
  deriving Repr

/-- A producer's call begins with `push` and ends with `doPost`; `doShutdown` is the call up to its
`join`, and `spurious` a spurious wake-up.  The others are the thread's: its test at the top of the
loop, the section in which it counts itself in `m_sleep` and waits, the one in which it has `m_mtx`
again and leaves `m_sleep`, its test before it calls `m_func`, and a `pop` of `m_func`. -/
inductive Event (α : Type) where
  | push (item : α)
  | doPost
  | loop
  | sleep
  | spurious
  | wake
  | check
  | pop
  | doShutdown
  deriving DecidableEq, Repr

variable {α : Type}

/-- `m_cv.notify_one()`: only this thread ever waits on `m_cv`. -/
def notify (s : State α) : State α :=
  if s.pc = .waiting then { s with pc := .notified } else s

def doPost (s : State α) : State α :=
  if 0 < s.m_sleep then notify s else s

/-- `breaks` tells the two users of the class apart: `actorWorker::doDispatch` leaves
its loop after an item when the post is shut down, `logSystem::doDispatch` does not. -/
def step (breaks : Bool) (s : State α) : Event α → Option (State α)
  | .push item => some { s with queue := s.queue ++ [item], posting := s.posting + 1 }
  | .doPost =>
    if 0 < s.posting then some (doPost { s with posting := s.posting - 1 }) else none
  | .loop =>
    if s.pc = .top then some { s with pc := if s.m_shutdown then .exited else .enter } else none
  | .sleep =>
    if s.pc = .enter then
      if s.m_shutdown then
        -- `++m_sleep` and `--m_sleep` with nothing in between
        some { s with pc := .check }
      else some { s with pc := .waiting, m_sleep := s.m_sleep + 1 }
    else none
  | .spurious => if s.pc = .waiting then some { s with pc := .notified } else none
  | .wake =>
    if s.pc = .notified then some { s with pc := .check, m_sleep := s.m_sleep - 1 } else none
  | .check =>
    if s.pc = .check then some { s with pc := if s.m_shutdown then .top else .running } else none
  | .pop =>
    if s.pc = .running then
      match s.queue with
      | [] => some { s with pc := .top }
      | item :: rest =>
        some { s with
          pc := if breaks && s.m_shutdown then .top else .running
          queue := rest
          handled := s.handled ++ [item] }
    else none
  | .doShutdown => some (notify { s with m_shutdown := true })

/-! ## What each step does -/

variable {breaks : Bool} {s s' : State α}

/-- An item enters the queue.
SOURCE: util/post.cc:28-33 -/
theorem step_push {item : α} : step breaks s (.push item) = some s' ↔
    s' = { s with queue := s.queue ++ [item], posting := s.posting + 1 } := by
  simp [step, eq_comm (a := s')]

/-- `doPost` wakes the thread that sleeps.
SOURCE: util/post.cc:28-33 -/
theorem step_doPost : step breaks s .doPost = some s' ↔
    0 < s.posting ∧ s' = doPost { s with posting := s.posting - 1 } := by
  simp [step, eq_comm (a := s')]

/-- The thread tests `m_shutdown` and goes on.
SOURCE: util/post.cc:35-50 -/
theorem step_loop : step breaks s .loop = some s' ↔
    s.pc = .top ∧ s' = { s with pc := if s.m_shutdown then .exited else .enter } := by
  simp [step, eq_comm (a := s')]

/-- It goes to sleep where nothing tells it not to.
SOURCE: util/post.cc:35-50 -/
theorem step_sleep : step breaks s .sleep = some s' ↔
    s.pc = .enter ∧
      (s.m_shutdown = true ∧ s' = { s with pc := .check } ∨
        s.m_shutdown = false ∧ s' = { s with pc := .waiting, m_sleep := s.m_sleep + 1 }) := by
  cases hd : s.m_shutdown <;> simp [step, hd, eq_comm (a := s')]

/-- It may be woken by nobody.
SOURCE: util/post.cc:35-50 -/
theorem step_spurious : step breaks s .spurious = some s' ↔
    s.pc = .waiting ∧ s' = { s with pc := .notified } := by
  simp [step, eq_comm (a := s')]

/-- It has been woken.
SOURCE: util/post.cc:35-50 -/
theorem step_wake : step breaks s .wake = some s' ↔
    s.pc = .notified ∧ s' = { s with pc := .check, m_sleep := s.m_sleep - 1 } := by
  simp [step, eq_comm (a := s')]

/-- It tests `m_shutdown` again before it works.
SOURCE: util/post.cc:35-50 -/
theorem step_check : step breaks s .check = some s' ↔
    s.pc = .check ∧ s' = { s with pc := if s.m_shutdown then .top else .running } := by
  simp [step, eq_comm (a := s')]

/-- A pop of `m_func` finds the queue empty and ends the round, or handles the first item. -/
theorem step_pop : step breaks s .pop = some s' ↔
    s.pc = .running ∧
      (s.queue = [] ∧ s' = { s with pc := .top } ∨
        ∃ item rest, s.queue = item :: rest ∧
          s' = { s with
            pc := if breaks && s.m_shutdown then .top else .running
            queue := rest
            handled := s.handled ++ [item] }) := by
  cases hq : s.queue <;> simp [step, hq, eq_comm (a := s')]

/-- `doShutdown` sets the flag and wakes the thread.
SOURCE: util/post.cc:16-26 -/
theorem step_doShutdown : step breaks s .doShutdown = some s' ↔
    s' = notify { s with m_shutdown := true } := by
  simp [step, eq_comm (a := s')]

/-! ## Runs and lost wake-ups -/

/-- A post just constructed, whose thread has not run yet. -/
def start : State α :=
  { pc := .top, m_sleep := 0, m_shutdown := false, queue := [], posting := 0, handled := [] }

def system (α : Type) (breaks : Bool) : System (State α) (Event α) where
  init s := s = start
  step := step breaks

@[simp] theorem system_step (α : Type) (breaks : Bool) : (system α breaks).step = step breaks := rfl

/-- The state a lost wake-up leaves: before shutdown the thread waits with no notification
pending, every `doPost` call has returned, and the queue is not empty. -/
def Lost (s : State α) : Prop :=
  s.m_shutdown = false ∧ s.pc = .waiting ∧ s.posting = 0 ∧ s.queue ≠ []

/-- The thread has made its last pop of the round, or has made none yet, and does not wait yet:
`m_sleep` is 0 and `m_func` will not look at the queue before the next `m_cv.wait`. -/
def PastLastPop (s : State α) : Prop := s.pc = .top ∨ s.pc = .enter

/-- Before shutdown, the last `doPost` in progress does not test `m_sleep` while the queue holds
an item and the thread is past its last pop and not yet waiting. -/
def Heard (s : State α) (e : Event α) : Prop :=
  e = .doPost → s.m_shutdown = false → s.posting = 1 → s.queue ≠ [] → ¬ PastLastPop s

end MagicNet.Post
