import MagicNet.Foundation.System

/-!
# How a worker of the scheduler goes to sleep

One worker, no dispatcher thread.  `worker::process` pops `m_runnableQueue`, moves the new tasks
over when it is empty, and calls `waitCondition` when nothing came.  `waitCondition` reads
`m_notified` and writes `m_waiting` under the lock of `m_runnableQueue`; `addTask` and
`notifyCondition` read `m_waiting` and write `m_notified` under the lock of `m_newQueue`.  The
two locks are different, so the sections of the two sides interleave: a step of the model is
one read or write of a flag, one operation of a queue, or the wait itself.

Nobody else takes the lock of `m_runnableQueue` here, so the model keeps no owner for it; the
owner of the lock of `m_newQueue` is the call in progress.

SOURCE: operation/worker.cc:21-39, 60-79, 168, 178-215
-/

set_option autoImplicit false

namespace MagicNet.WorkerSleep

open MagicNet.Foundation

/-- Where the worker is.  In `process`: at the test of the `while`, at `m_runnableQueue.pop()`, in
`SwapIn` of the task popped, at the first test of `m_runnableQueue.empty()`.  In `moveRunnable`: at
`popBackAll`, at the push of the list taken; then at the second test of `empty()`.  In
`waitCondition`: at the test of `m_notified`, at `m_notified = false` (it was true), at
`m_waiting = true` (it was false), past that, blocked in `m_cv.wait` with no notification pending, notified or woken spuriously.  Or `process` has
returned. -/
inductive Pc (τ : Type) where
  | loop
  | pop
  | running (tk : τ)
  | testEmpty
  | take
  | put (taken : List τ)
  | testAgain
  | enter
  | clearing
  | checked
  | marked
  | blocked
  | notified
  | exited

/-- The two calls that take the lock of `m_newQueue` and give a signal. -/
inductive Call where
  | addTask
  | notifyCondition
  deriving DecidableEq, Repr

/-- `holder` is the call that holds the lock of `m_newQueue`, with the `m_waiting` it has read. -/
structure State (τ : Type) where
  pc : Pc τ
  m_notified : Bool
  m_waiting : Bool
  m_runnableQueue : List τ
  m_newQueue : List τ
  holder : Option (Call × Option Bool)
  m_shutdown : Bool

/-- A call takes the lock of `m_newQueue` (`addTask` then pushes its task), reads `m_waiting`, and
in `signal` notifies or sets `m_notified`, releases the lock and returns.  `work` is the next step
of the worker, `spurious` a spurious wake-up, `shutdown` that of the scheduler. -/
inductive Event (τ : Type) where
  | addTask (tk : τ)
  | notifyCondition
  | readWaiting
  | signal
  | shutdown
  | work
  | spurious

variable {τ : Type}

/-- `m_cv.notify_all()`: only the worker ever waits on `m_cv`. -/
def notifyAll (s : State τ) : State τ :=
  match s.pc with
  | .blocked => { s with pc := .notified }
  | _ => s

/-- The end of a call that has read `waiting` from `m_waiting`. -/
def signal (s : State τ) (waiting : Bool) : State τ :=
  if waiting then notifyAll { s with holder := none }
  else { s with m_notified := true, holder := none }

/-- The next step of the worker; a blocked or exited one has none. -/
def work (s : State τ) : Option (State τ) :=
  match s.pc with
  | .loop => some { s with pc := if s.m_shutdown then .exited else .pop }
  | .pop =>
    match s.m_runnableQueue with
    | [] => some { s with pc := .testEmpty }
    | tk :: rest => some { s with pc := .running tk, m_runnableQueue := rest }
  | .running _ => some { s with pc := .testEmpty }
  | .testEmpty => some { s with pc := if s.m_runnableQueue.isEmpty then .take else .testAgain }
  | .take =>
    -- `popBackAll` waits for the lock of `m_newQueue`
    if s.holder.isNone then some { s with pc := .put s.m_newQueue, m_newQueue := [] } else none
  | .put taken =>
    some { s with pc := .testAgain, m_runnableQueue := s.m_runnableQueue ++ taken }
  | .testAgain => some { s with pc := if s.m_runnableQueue.isEmpty then .enter else .loop }
  | .enter => some { s with pc := if s.m_notified then .clearing else .checked }
  | .clearing => some { s with pc := .loop, m_notified := false }
  | .checked => some { s with pc := .marked, m_waiting := true }
  | .marked => some { s with pc := .blocked }
  | .notified => some { s with pc := .loop, m_waiting := false }
  | .blocked | .exited => none

def step (s : State τ) : Event τ → Option (State τ)
  | .addTask tk =>
    if s.holder.isNone then
      some { s with m_newQueue := s.m_newQueue ++ [tk], holder := some (.addTask, none) }
    else none
  | .notifyCondition =>
    if s.holder.isNone then some { s with holder := some (.notifyCondition, none) } else none
  | .readWaiting =>
    match s.holder with
    | some (call, none) => some { s with holder := some (call, some s.m_waiting) }
    | _ => none
  | .signal =>
    match s.holder with
    | some (_, some waiting) => some (signal s waiting)
    | _ => none
  | .shutdown => some { s with m_shutdown := true }
  | .work => work s
  | .spurious =>
    match s.pc with
    | .blocked => some { s with pc := .notified }
    | _ => none

/-! ## What the steps of the calls do -/

variable {s s' : State τ}

/-- `addTask` takes the lock of `m_newQueue` and pushes its task.
SOURCE: operation/worker.cc:21-29, 31-39 -/
theorem step_addTask {tk : τ} : step s (.addTask tk) = some s' ↔
    s.holder = none ∧
      s' = { s with m_newQueue := s.m_newQueue ++ [tk], holder := some (.addTask, none) } := by
  simp [step, eq_comm (a := s')]

/-- `notifyCondition` takes that lock.
SOURCE: operation/worker.cc:72-79 -/
theorem step_notifyCondition : step s .notifyCondition = some s' ↔
    s.holder = none ∧ s' = { s with holder := some (.notifyCondition, none) } := by
  simp [step, eq_comm (a := s')]

/-- The call reads `m_waiting`.
SOURCE: operation/worker.cc:21-29, 31-39, 72-79 -/
theorem step_readWaiting : step s .readWaiting = some s' ↔
    ∃ call, s.holder = some (call, none) ∧
      s' = { s with holder := some (call, some s.m_waiting) } := by
  rcases hh : s.holder with _ | ⟨call, _ | read⟩ <;> simp [step, hh, eq_comm (a := s')]

/-- It notifies or sets `m_notified`, and releases the lock.
SOURCE: operation/worker.cc:21-29, 31-39, 72-79 -/
theorem step_signal : step s .signal = some s' ↔
    ∃ call waiting, s.holder = some (call, some waiting) ∧ s' = signal s waiting := by
  rcases hh : s.holder with _ | ⟨call, _ | read⟩
  · simp [step, hh]
  · simp [step, hh]
  · constructor
    · intro h
      exact ⟨call, read, rfl, (by simpa [step, hh] using h.symm)⟩
    · rintro ⟨call', read', heq, rfl⟩
      obtain ⟨rfl, rfl⟩ : call = call' ∧ read = read' := by simpa using heq
      simp [step, hh]

/-- The scheduler is told to stop.
SOURCE: operation/scheduler.cc:53-67 -/
theorem step_shutdown : step s .shutdown = some s' ↔ s' = { s with m_shutdown := true } := by
  simp [step, eq_comm (a := s')]

/-- A wake-up by nobody.
SOURCE: operation/worker.cc:60-70 -/
theorem step_spurious : step s .spurious = some s' ↔
    s.pc = .blocked ∧ s' = { s with pc := .notified } := by
  cases hpc : s.pc <;> simp [step, hpc, eq_comm (a := s')]

/-! ## Runs and lost wake-ups -/

/-- A worker just constructed, whose thread has not run yet. -/
def start : State τ :=
  { pc := .loop, m_notified := false, m_waiting := false, m_runnableQueue := [], m_newQueue := [],
    holder := none, m_shutdown := false }

def system (τ : Type) : System (State τ) (Event τ) where
  init s := s = start
  step := step

@[simp] theorem system_step (τ : Type) : (system τ).step = step := rfl

/-- An `addTask` call is in progress. -/
def Adding (s : State τ) : Prop := ∃ read, s.holder = some (.addTask, read)

/-- The state a lost wake-up leaves: the worker is blocked with no notification pending, every
`addTask` has returned, and a task is queued. -/
def Lost (s : State τ) : Prop :=
  s.pc = .blocked ∧ ¬ Adding s ∧ (s.m_newQueue ≠ [] ∨ s.m_runnableQueue ≠ [])

/-- The worker does not react to what the call does with the `m_waiting` it has read: it notifies
a worker that has not reached `m_cv.wait` yet, or sets `m_notified` after the worker has read it
and before the worker is woken. -/
def Deaf (waiting : Bool) : Pc τ → Prop
  | .checked => waiting = false
  | .marked => True
  | .blocked => waiting = false
  | _ => False

/-- No `addTask` gives its signal to a worker that does not react to it. -/
def Heard (s : State τ) (e : Event τ) : Prop :=
  ∀ waiting, e = .signal → s.holder = some (.addTask, some waiting) → ¬ Deaf waiting s.pc

end MagicNet.WorkerSleep
