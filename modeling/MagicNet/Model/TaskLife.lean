import MagicNet.Foundation.RefCount
import MagicNet.Model.Worker

/-!
# The references of a task

A task is created with one reference, and each list it is pushed to takes another one: `pushUnlock`
counts it, and `popUnlock`, `eraseUnLock` and `list::erase` give it back.  The bulk operations hand
the nodes of one list to another and leave the counts alone.  A waker, and the component that a
response comes to, hold a task by an `incursivePtr` made from the weak pointer of a suspend entry.

A finished task goes to its worker's `m_gccQueue`.  When that has more than 16 tasks, the worker takes
them all before it adds the next one: it gives up the reference that each was created with, and then
clears the list, which gives up the list's.

The workers and their queues are those of `Model.Worker`.  The lock of a weak pointer is one step:
the second reference it takes on the way it gives back at once.

SOURCE: util/shared_ptr.h:22-148, 255-269, util/deque.h:33-154, util/list.h:86-110,
operation/scheduler.cc:65-83, operation/worker.cc:100-166, 180-236, module/actorComponent.cc:229-250
-/

set_option autoImplicit false

namespace MagicNet.TaskLife

open MagicNet.Foundation
open MagicNet.Worker (Place Pc Waker)

/-- The list `l` of a `gc` that has begun, and what its first loop has still to come to. -/
structure Gc where
  l : List ℕ
  todo : List ℕ
  deriving DecidableEq

/-- `refs` has the `_reference` of each task and the tasks that `releaseTask` has deleted; `ptrs` the
task of each `incursivePtr`, but for those of the wakers in `sched`; `dropped` the tasks whose first
reference a `gc` has given up. -/
structure State where
  sched : Worker.State
  refs : RefCount ℕ
  ptrs : List ℕ
  gc : ℕ → Gc
  dropped : List ℕ

/-- `lock` makes an `incursivePtr` from the weak pointer of an entry, and `reset` is the end of one.
`gcTake`, `gcDrop` and `gcErase` are the steps of a worker's `gc`: its `popBackAll`, one round of its
loop, and one of its `clear`. -/
inductive Event where
  | sched (e : Worker.Event)
  | lock (tk : ℕ)
  | reset (tk : ℕ)
  | gcTake (w : ℕ)
  | gcDrop (w : ℕ)
  | gcErase (w : ℕ)
  deriving DecidableEq

namespace State

def incrementRef (s : State) (tk : ℕ) : State := { s with refs := s.refs.incr tk }

/-- The releaser that runs when the count comes to zero is `releaseTask`. -/
def decrementRef (s : State) (tk : ℕ) : State := { s with refs := s.refs.decr tk }

end State

/-- The references that a step of a worker, a waker or the dispatcher takes and gives back; `t` is
what it makes of the queues. -/
def counted (s : State) (t : Worker.State) : Worker.Event → Option State
  | .createTask _ =>
    -- `addTask` pushes the new task
    some ({ s with sched := t, refs := s.refs.make s.sched.created }.incrementRef s.sched.created)
  | .pop w =>
    match t.pc w with
    | .popped tk => some ({ s with sched := t }.decrementRef tk)
    | _ => some { s with sched := t }
  | .suspend w =>
    match t.pc w with
    | .executing tk => some ({ s with sched := t }.incrementRef tk)
    | _ => some { s with sched := t }
  | .switch w =>
    match s.sched.pc w with
    | .returned tk =>
      if (s.sched.tasks tk)._state = .done then
        -- a `gc` comes first when the queue is long, and has come to its end
        if (s.sched.m_gccQueue w).length ≤ 16 ∧ (s.gc w).l = [] then
          some ({ s with sched := t }.incrementRef tk)
        else none
      else some { s with sched := t }
    | _ => none
  | .wakeup tk _ =>
    if tk ∈ s.ptrs then
      match (s.sched.tasks tk)._lpWorker with
      | some _ => some { s with sched := t, ptrs := s.ptrs.erase tk }
      | none => some { s with sched := t }
    else none
  | .wakeupBySelf k =>
    let u : State := { s with sched := t, ptrs := k.tk :: s.ptrs }
    if k.id = (s.sched.tasks k.tk)._supperId then some ((u.decrementRef k.tk).incrementRef k.tk)
    else some u
  | _ => some { s with sched := t }

def step (s : State) : Event → Option State
  | .sched e => (Worker.step s.sched e).bind fun t => counted s t e
  | .lock tk =>
    if s.sched.issued.any fun entry => entry.1 = tk then
      if s.refs.count tk = 0 then some s
      else some { s.incrementRef tk with ptrs := tk :: s.ptrs }
    else none
  | .reset tk =>
    if tk ∈ s.ptrs then some { s.decrementRef tk with ptrs := s.ptrs.erase tk } else none
  | .gcTake w =>
    match s.sched.pc w with
    | .returned tk =>
      let l := s.sched.m_gccQueue w
      if (s.sched.tasks tk)._state = .done ∧ 16 < l.length ∧ (s.gc w).l = [] then
        some { s with
          sched := { s.sched with m_gccQueue := Function.update s.sched.m_gccQueue w [] }
          gc := Function.update s.gc w ⟨l, l⟩ }
      else none
    | _ => none
  | .gcDrop w =>
    match s.gc w with
    | ⟨l, tk :: todo⟩ =>
      some { s.decrementRef tk with
        gc := Function.update s.gc w ⟨l, todo⟩
        dropped := tk :: s.dropped }
    | _ => none
  | .gcErase w =>
    match s.gc w with
    | ⟨tk :: l, []⟩ => some { s.decrementRef tk with gc := Function.update s.gc w ⟨l, []⟩ }
    | _ => none

structure Starts (s : State) : Prop where
  sched : Worker.Starts s.sched
  m_gccQueue : ∀ w, s.sched.m_gccQueue w = []
  deleted : s.refs.deleted = []
  ptrs : s.ptrs = []
  gc : ∀ w, s.gc w = ⟨[], []⟩
  dropped : s.dropped = []

def system : System State Event where
  init := Starts
  step := step

@[simp] theorem system_step : system.step = step := rfl

/-- Workers without tasks. -/
def start : State where
  sched :=
    { queue := fun _ => [], pc := fun _ => .top, m_gccQueue := fun _ => []
      tasks := fun _ => ⟨.runnable, 0, none⟩, created := 0, issued := [], wakers := []
      stealing := none }
  refs := ⟨fun _ => 0, []⟩
  ptrs := []
  gc _ := ⟨[], []⟩
  dropped := []

/-- A scheduler that has just been started. -/
theorem start_starts : Starts start :=
  ⟨⟨fun _ => rfl, fun _ => rfl, rfl, rfl, rfl, rfl⟩, fun _ => rfl, rfl, rfl, fun _ => rfl, rfl⟩

/-! ## What the steps do -/

section Steps

variable {s s' : State} {w tk : ℕ}

/-- A step of the workers, and the references that it makes and drops.
SOURCE: operation/worker.cc:178-215 -/
theorem step_sched {e : Worker.Event} : step s (.sched e) = some s' ↔
    ∃ t, Worker.step s.sched e = some t ∧ counted s t e = some s' := by
  simp [step, Option.bind_eq_some_iff]

/-- A waker locks the weak pointer of its entry.
SOURCE: operation/worker.cc:131-141 -/
theorem step_lock : step s (.lock tk) = some s' ↔ (∃ id, (tk, id) ∈ s.sched.issued) ∧
    (s.refs.count tk = 0 ∧ s' = s ∨
      s.refs.count tk ≠ 0 ∧ s' = { s.incrementRef tk with ptrs := tk :: s.ptrs }) := by
  have hissued : (s.sched.issued.any fun entry => entry.1 = tk) = true ↔
      ∃ id, (tk, id) ∈ s.sched.issued := by
    simp [List.any_eq_true]
  by_cases hzero : s.refs.count tk = 0 <;> simp [step, hissued, hzero, eq_comm (a := s')]

/-- And drops the pointer it got.
SOURCE: operation/worker.cc:131-141 -/
theorem step_reset : step s (.reset tk) = some s' ↔
    tk ∈ s.ptrs ∧ s' = { s.decrementRef tk with ptrs := s.ptrs.erase tk } := by
  simp [step, eq_comm (a := s')]

/-- A worker takes its finished tasks when there are enough.
SOURCE: operation/worker.cc:170-176, 178-215 -/
theorem step_gcTake : step s (.gcTake w) = some s' ↔ ∃ tk, s.sched.pc w = .returned tk ∧
    ((s.sched.tasks tk)._state = .done ∧ 16 < (s.sched.m_gccQueue w).length ∧
      (s.gc w).l = []) ∧
    s' = { s with
      sched := { s.sched with m_gccQueue := Function.update s.sched.m_gccQueue w [] }
      gc := Function.update s.gc w ⟨s.sched.m_gccQueue w, s.sched.m_gccQueue w⟩ } := by
  cases hpc : s.sched.pc w <;> simp [step, hpc, eq_comm (a := s')]

/-- It drops the reference of each.
SOURCE: operation/worker.cc:170-176 -/
theorem step_gcDrop : step s (.gcDrop w) = some s' ↔ ∃ tk todo, (s.gc w).todo = tk :: todo ∧
    s' = { s.decrementRef tk with
      gc := Function.update s.gc w ⟨(s.gc w).l, todo⟩, dropped := tk :: s.dropped } := by
  cases hgc : s.gc w with
  | mk l todo => cases todo <;> simp [step, hgc, eq_comm (a := s')]

/-- And the list drops its own.
SOURCE: operation/worker.cc:170-176 -/
theorem step_gcErase : step s (.gcErase w) = some s' ↔ ∃ tk l, s.gc w = ⟨tk :: l, []⟩ ∧
    s' = { s.decrementRef tk with gc := Function.update s.gc w ⟨l, []⟩ } := by
  cases hgc : s.gc w with
  | mk l todo => cases l <;> cases todo <;> simp [step, hgc, eq_comm (a := s')]

end Steps

end MagicNet.TaskLife
