import MagicNet.Foundation.Custody
import MagicNet.Foundation.System

/-!
# Workers, their tasks and their queues

A worker takes a task from the front of its `m_runnableQueue` and switches to the task's
context.  The task runs until it gives the worker back: it may suspend first, which puts it into
the wait queue and gives out an entry for `wakeup`, it may just yield, or it may be done.  The
worker then reads the task's `_state` and forgets the task.  When the runnable queue is empty
the worker refills it from `m_newQueue`.  A waker may come at any moment after the entry has been
given out, so also while the task still runs; and the dispatcher steals tasks from the queues of
one worker and adds them to the new queue of another.

Each event is one section under a lock, or one step of a thread that others can see.  The
reference counts, `m_gccQueue`'s collection and the sleeping of a worker are left out; the
dispatcher's choice of victims and shares is any.
-/

set_option autoImplicit false

namespace MagicNet.Worker

open MagicNet.Foundation

inductive TaskState where
  | runnable
  | block
  | done
deriving DecidableEq

/-- `_supperId` is a `uint64_t` that goes up by one with each suspension and each wake-up: no run comes
to the end of it. -/
structure Task where
  _state : TaskState
  _supperId : ℕ
  _lpWorker : Option ℕ

/-- The lists a task can be in.  `moving` is the list in the hands of a worker's `moveRunnable`;
`steal_list` and `tasks` are the dispatcher's. -/
inductive Place where
  | m_newQueue (w : ℕ)
  | m_runnableQueue (w : ℕ)
  | m_waitQueue (w : ℕ)
  | moving (w : ℕ)
  | steal_list
  | tasks
deriving DecidableEq

/-- Where a worker is in `process`: at `m_runnableQueue.pop()`; with a task popped, before the
task's `_state` and `_lpWorker` are set; in the task's context; at the `switch`, `SwapIn` having
returned; at `m_runnableQueue.empty()`; in `moveRunnable`, before and after the new queue is
taken. -/
inductive Pc where
  | top
  | popped (tk : ℕ)
  | executing (tk : ℕ)
  | returned (tk : ℕ)
  | check
  | refill
  | moving
deriving DecidableEq

def Pc.m_runnable : Pc → Option ℕ
  | .popped tk | .executing tk | .returned tk => some tk
  | _ => none

/-- A waker that has read the task's `_lpWorker` and is about to take that worker's lock. -/
structure Waker where
  wrk : ℕ
  tk : ℕ
  id : ℕ
deriving DecidableEq

/-- `created` counts the tasks, `issued` collects the entries that `suspend` has returned, and
`stealing` is the worker in whose `steal(0)` the dispatcher is. -/
structure State where
  queue : Place → List ℕ
  pc : ℕ → Pc
  m_gccQueue : ℕ → List ℕ
  tasks : ℕ → Task
  created : ℕ
  issued : List (ℕ × ℕ)
  wakers : List Waker
  stealing : Option ℕ

/-- `createTask` pushes a new task to the worker's new queue.  The next seven are the worker's and
its task's: `swapIn` sets the task's `_state` and `_lpWorker` before the context runs; the task may
call `suspend`, or its function returns, which a suspended task's does not before it has given the
worker back (`finish`: `_state` is `done`); with `swapOut` its context is saved and `SwapIn`
returns; then come the `switch` over its `_state` and the test `m_runnableQueue.empty()`.
`takeNew` and `moveRunnable` are the two queue operations of `moveRunnable`.

A thread that calls `wakeup` reads the task's `_lpWorker` first, and `wakeupBySelf` is its section
under that worker's lock, with the test of the id that counts.  `steal` is the dispatcher's
`steal(n)` with `n > 0`; `stealNew` and `stealRunnable` are the two sections of its `steal(0)`, the
second with the appends to `tasks`; `addTask` is `tasks.cut(n)` and the `addTask` of that part. -/
inductive Event where
  | createTask (w : ℕ)
  | pop (w : ℕ)
  | swapIn (w : ℕ)
  | suspend (w : ℕ)
  | finish (w : ℕ)
  | swapOut (w : ℕ)
  | switch (w : ℕ)
  | check (w : ℕ)
  | takeNew (w : ℕ)
  | moveRunnable (w : ℕ)
  | wakeup (tk id : ℕ)
  | wakeupBySelf (waker : Waker)
  | steal (w n : ℕ)
  | stealNew (w : ℕ)
  | stealRunnable
  | addTask (w n : ℕ)
deriving DecidableEq

namespace State

def setPc (s : State) (w : ℕ) (pc : Pc) : State := { s with pc := Function.update s.pc w pc }

def setTask (s : State) (tk : ℕ) (t : Task) : State :=
  { s with tasks := Function.update s.tasks tk t }

def push (s : State) (p : Place) (tk : ℕ) : State :=
  { s with queue := Function.update s.queue p (s.queue p ++ [tk]) }

/-- A part of a list goes to the end of another one. -/
def move (s : State) (p p' : Place) (moved rest : List ℕ) : State :=
  { s with queue := moveTable s.queue p p' moved rest }

def moveAll (s : State) (p p' : Place) : State := s.move p p' (s.queue p) []

end State

/-- SOURCE: operation/worker.h:121-134, operation/worker.cc:120-166, 178-247,
operation/task.cc:17-31, operation/scheduler.cc:80-100, util/deque.h:116-225 -/
def step (s : State) : Event → Option State
  | .createTask w =>
    some { (s.setTask s.created ⟨.runnable, 0, none⟩).push (.m_newQueue w) s.created with
      created := s.created + 1 }
  | .pop w =>
    match s.pc w, s.queue (.m_runnableQueue w) with
    | .top, [] => some (s.setPc w .check)
    | .top, tk :: rest =>
      some { s.setPc w (.popped tk) with
        queue := Function.update s.queue (.m_runnableQueue w) rest }
    | _, _ => none
  | .swapIn w =>
    match s.pc w with
    | .popped tk =>
      some ((s.setTask tk { s.tasks tk with _state := .runnable, _lpWorker := some w }).setPc w
        (.executing tk))
    | _ => none
  | .suspend w =>
    match s.pc w with
    | .executing tk =>
      match (s.tasks tk)._lpWorker with
      | some wrk =>
        -- the assertions of `suspendBySelf`
        if (s.pc wrk).m_runnable = some tk ∧ (s.tasks tk)._state = .runnable then
          let id := (s.tasks tk)._supperId + 1
          some { (s.setTask tk { s.tasks tk with _state := .block, _supperId := id }).push
            (.m_waitQueue wrk) tk with issued := (tk, id) :: s.issued }
        else none
      | none => none
    | _ => none
  | .finish w =>
    match s.pc w with
    | .executing tk =>
      if (s.tasks tk)._state = .runnable then
        some (s.setTask tk { s.tasks tk with _state := .done })
      else none
    | _ => none
  | .swapOut w =>
    match s.pc w with
    | .executing tk => some (s.setPc w (.returned tk))
    | _ => none
  | .switch w =>
    match s.pc w with
    | .returned tk =>
      match (s.tasks tk)._state with
      | .runnable | .block => some (s.setPc w .check)
      | .done =>
        some { s.setPc w .check with
          m_gccQueue := Function.update s.m_gccQueue w (s.m_gccQueue w ++ [tk]) }
    | _ => none
  | .check w =>
    if s.pc w = .check then
      some (s.setPc w (if s.queue (.m_runnableQueue w) = [] then .refill else .top))
    else none
  | .takeNew w =>
    if s.pc w = .refill then
      some ((s.moveAll (.m_newQueue w) (.moving w)).setPc w .moving)
    else none
  | .moveRunnable w =>
    if s.pc w = .moving then
      some ((s.moveAll (.moving w) (.m_runnableQueue w)).setPc w .top)
    else none
  | .wakeup tk id =>
    if (tk, id) ∈ s.issued then
      match (s.tasks tk)._lpWorker with
      | some wrk => some { s with wakers := ⟨wrk, tk, id⟩ :: s.wakers }
      | none => some s
    else none
  | .wakeupBySelf waker =>
    if waker ∈ s.wakers then
      let s := { s with wakers := s.wakers.erase waker }
      let t := s.tasks waker.tk
      if waker.id = t._supperId then
        -- `eraseUnLock` takes the task for a member of the list
        if waker.tk ∈ s.queue (.m_waitQueue waker.wrk) then
          some ((s.setTask waker.tk { t with _supperId := t._supperId + 1 }).move
            (.m_waitQueue waker.wrk) (.m_runnableQueue waker.wrk) [waker.tk]
            ((s.queue (.m_waitQueue waker.wrk)).erase waker.tk))
        else none
      else some s
    else none
  | .steal w n =>
    let l := s.queue (.m_newQueue w)
    if 0 < n ∧ s.stealing = none then
      -- `popBack` takes nothing from a list of one task, and at least one from a longer list;
      -- its argument is a `uint32_t`
      if l.length ≤ 1 then some s
      else
        let rest := l.length - max 1 (n % 2 ^ 32)
        some (s.move (.m_newQueue w) .tasks (l.drop rest) (l.take rest))
    else none
  | .stealNew w =>
    if s.stealing = none then
      some { s.moveAll (.m_newQueue w) .steal_list with stealing := some w }
    else none
  | .stealRunnable =>
    match s.stealing with
    | some w =>
      some { (s.moveAll (.m_runnableQueue w) .tasks).moveAll .steal_list .tasks with
        stealing := none }
    | none => none
  | .addTask w n =>
    if s.stealing = none then
      some (s.move .tasks (.m_newQueue w) ((s.queue .tasks).take n) ((s.queue .tasks).drop n))
    else none

/-! ## What the steps do -/

section Steps

variable {s s' : State} {w : ℕ}

/-- A new task stands at the end of the worker's new queue.
SOURCE: operation/scheduler.cc:69-76, operation/worker.cc:21-29, 31-39 -/
theorem step_createTask : step s (.createTask w) = some s' ↔
    s' = { (s.setTask s.created ⟨.runnable, 0, none⟩).push (.m_newQueue w) s.created with
      created := s.created + 1 } := by
  simp [step, eq_comm (a := s')]

/-- The worker takes the front of its runnable queue, if there is one.
SOURCE: operation/worker.cc:178-215 -/
theorem step_pop : step s (.pop w) = some s' ↔
    s.pc w = .top ∧
      (s.queue (.m_runnableQueue w) = [] ∧ s' = s.setPc w .check ∨
        ∃ tk rest, s.queue (.m_runnableQueue w) = tk :: rest ∧
          s' = { s.setPc w (.popped tk) with
            queue := Function.update s.queue (.m_runnableQueue w) rest }) := by
  cases hpc : s.pc w <;> cases hq : s.queue (.m_runnableQueue w) <;>
    simp [step, hpc, hq, eq_comm (a := s')]

/-- It switches to the task, which is then its own.
SOURCE: operation/worker.cc:178-215 -/
theorem step_swapIn : step s (.swapIn w) = some s' ↔
    ∃ tk, s.pc w = .popped tk ∧
      s' = (s.setTask tk { s.tasks tk with _state := .runnable, _lpWorker := some w }).setPc w
        (.executing tk) := by
  cases hpc : s.pc w <;> simp [step, hpc, eq_comm (a := s')]

/-- The task suspends: it stands in the wait queue of its worker.
SOURCE: operation/worker.cc:120-129 -/
theorem step_suspend : step s (.suspend w) = some s' ↔
    ∃ tk wrk, s.pc w = .executing tk ∧ (s.tasks tk)._lpWorker = some wrk ∧
      ((s.pc wrk).m_runnable = some tk ∧ (s.tasks tk)._state = .runnable) ∧
        s' = { (s.setTask tk { s.tasks tk with
            _state := .block, _supperId := (s.tasks tk)._supperId + 1 }).push
              (.m_waitQueue wrk) tk with
          issued := (tk, (s.tasks tk)._supperId + 1) :: s.issued } := by
  cases hpc : s.pc w with
  | executing tk =>
    cases hwrk : (s.tasks tk)._lpWorker <;> simp [step, hpc, hwrk, eq_comm (a := s')]
  | _ => simp [step, hpc]

/-- The task's function has returned.
SOURCE: operation/task.cc:17-31 -/
theorem step_finish : step s (.finish w) = some s' ↔
    ∃ tk, s.pc w = .executing tk ∧ (s.tasks tk)._state = .runnable ∧
      s' = s.setTask tk { s.tasks tk with _state := .done } := by
  cases hpc : s.pc w <;> simp [step, hpc, eq_comm (a := s')]

/-- The task gives the worker back.
SOURCE: operation/worker.h:128-134 -/
theorem step_swapOut : step s (.swapOut w) = some s' ↔
    ∃ tk, s.pc w = .executing tk ∧ s' = s.setPc w (.returned tk) := by
  cases hpc : s.pc w <;> simp [step, hpc, eq_comm (a := s')]

/-- The worker reads the task's `_state`; a finished task goes into `m_gccQueue`.
SOURCE: operation/worker.cc:178-215 -/
theorem step_switch : step s (.switch w) = some s' ↔
    ∃ tk, s.pc w = .returned tk ∧
      ((s.tasks tk)._state ≠ .done ∧ s' = s.setPc w .check ∨
        (s.tasks tk)._state = .done ∧ s' = { s.setPc w .check with
          m_gccQueue := Function.update s.m_gccQueue w (s.m_gccQueue w ++ [tk]) }) := by
  cases hpc : s.pc w with
  | returned tk => cases hst : (s.tasks tk)._state <;> simp [step, hpc, hst, eq_comm (a := s')]
  | _ => simp [step, hpc]

/-- It tests whether its runnable queue is empty.
SOURCE: operation/worker.cc:178-215 -/
theorem step_check : step s (.check w) = some s' ↔
    s.pc w = .check ∧
      s' = s.setPc w (if s.queue (.m_runnableQueue w) = [] then .refill else .top) := by
  simp [step, eq_comm (a := s')]

/-- It takes the whole new queue.
SOURCE: operation/worker.cc:168 -/
theorem step_takeNew : step s (.takeNew w) = some s' ↔
    s.pc w = .refill ∧ s' = (s.moveAll (.m_newQueue w) (.moving w)).setPc w .moving := by
  simp [step, eq_comm (a := s')]

/-- It puts it at the end of the runnable queue.
SOURCE: operation/worker.cc:168 -/
theorem step_moveRunnable : step s (.moveRunnable w) = some s' ↔
    s.pc w = .moving ∧ s' = (s.moveAll (.moving w) (.m_runnableQueue w)).setPc w .top := by
  simp [step, eq_comm (a := s')]

/-- A waker reads the task's `_lpWorker`.
SOURCE: operation/worker.cc:131-141 -/
theorem step_wakeup {tk id : ℕ} : step s (.wakeup tk id) = some s' ↔
    (tk, id) ∈ s.issued ∧
      ((s.tasks tk)._lpWorker = none ∧ s' = s ∨
        ∃ wrk, (s.tasks tk)._lpWorker = some wrk ∧
          s' = { s with wakers := ⟨wrk, tk, id⟩ :: s.wakers }) := by
  cases hwrk : (s.tasks tk)._lpWorker <;> simp [step, hwrk, eq_comm (a := s')]

/-- A waker whose entry is no longer current only goes away. -/
theorem step_wakeupBySelf {k : Waker} : step s (.wakeupBySelf k) = some s' ↔
    k ∈ s.wakers ∧
      (k.id ≠ (s.tasks k.tk)._supperId ∧ s' = { s with wakers := s.wakers.erase k } ∨
        k.id = (s.tasks k.tk)._supperId ∧ k.tk ∈ s.queue (.m_waitQueue k.wrk) ∧
          s' = { (s.setTask k.tk
            { s.tasks k.tk with _supperId := (s.tasks k.tk)._supperId + 1 }).move
              (.m_waitQueue k.wrk) (.m_runnableQueue k.wrk) [k.tk]
              ((s.queue (.m_waitQueue k.wrk)).erase k.tk) with
            wakers := s.wakers.erase k }) := by
  by_cases hid : k.id = (s.tasks k.tk)._supperId <;>
    simp [step, hid, State.move, State.setTask, eq_comm (a := s')]

/-- `steal(n)` takes the end of the new queue, and nothing of the runnable queue.
SOURCE: operation/worker.cc:217-247 -/
theorem step_steal {n : ℕ} (h : step s (.steal w n) = some s') : s' = s ∨
    ∃ rest, s' = s.move (.m_newQueue w) .tasks ((s.queue (.m_newQueue w)).drop rest)
      ((s.queue (.m_newQueue w)).take rest) := by
  simp only [step, Option.ite_none_right_eq_some] at h
  obtain ⟨-, h⟩ := h
  split at h
  · exact .inl (Option.some.inj h).symm
  · exact .inr ⟨_, (Option.some.inj h).symm⟩

/-- `steal(0)` takes the new queue.
SOURCE: operation/worker.cc:217-247 -/
theorem step_stealNew : step s (.stealNew w) = some s' ↔
    s.stealing = none ∧
      s' = { s.moveAll (.m_newQueue w) .steal_list with stealing := some w } := by
  simp [step, eq_comm (a := s')]

/-- And then the runnable queue.
SOURCE: operation/worker.cc:217-247 -/
theorem step_stealRunnable : step s .stealRunnable = some s' ↔
    ∃ w, s.stealing = some w ∧
      s' = { (s.moveAll (.m_runnableQueue w) .tasks).moveAll .steal_list .tasks with
        stealing := none } := by
  cases hw : s.stealing <;> simp [step, hw, eq_comm (a := s')]

/-- A part of the stolen tasks goes to the end of a worker's new queue.
SOURCE: operation/worker.cc:21-29, 31-39, operation/scheduler.cc:103-219 -/
theorem step_addTask {n : ℕ} : step s (.addTask w n) = some s' ↔
    s.stealing = none ∧
      s' = s.move .tasks (.m_newQueue w) ((s.queue .tasks).take n) ((s.queue .tasks).drop n) := by
  simp [step, eq_comm (a := s')]

end Steps

/-! ## Runs -/

/-- Workers at the top of their loops, without tasks. -/
structure Starts (s : State) : Prop where
  queue : ∀ p, s.queue p = []
  pc : ∀ w, s.pc w = .top
  created : s.created = 0
  issued : s.issued = []
  wakers : s.wakers = []
  stealing : s.stealing = none

def system : System State Event where
  init := Starts
  step := step

/-! ## Tasks that are lost, and tasks that run twice -/

/-- The worker holds the task: it has popped it, or the task's context runs on it. -/
def Pc.Holds (pc : Pc) (tk : ℕ) : Prop := pc = .popped tk ∨ pc = .executing tk

/-- A task that is not done and that no worker holds stands in a queue, or in a list on its way
between two queues. -/
def NoneLost (s : State) : Prop :=
  ∀ tk < s.created, (s.tasks tk)._state ≠ .done → (∀ w, ¬ (s.pc w).Holds tk) → Stored s.queue tk

/-- No task runs on two workers. -/
def NoneTwice (s : State) : Prop :=
  ∀ w w' tk, s.pc w = .executing tk → s.pc w' = .executing tk → w = w'

/-- A task that gives its worker back has been suspended or is done; and `steal(0)` does not find
in the runnable queue the task that the queue's worker is running. -/
structure Cond (s : State) (e : Event) : Prop where
  swapOut : ∀ w tk, e = .swapOut w → s.pc w = .executing tk → (s.tasks tk)._state ≠ .runnable
  steal : ∀ w tk, e = .stealRunnable → s.stealing = some w → s.pc w = .executing tk →
    tk ∉ s.queue (.m_runnableQueue w)

end MagicNet.Worker
