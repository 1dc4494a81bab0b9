import MagicNet.Foundation.OneShot
import MagicNet.Model.Worker

/-!
# The contexts of the tasks

`Model.Worker` says which task a worker executes, and takes for granted that control goes there and
back.  Here it is the contexts that take it there.  A task's context has, in `m_ctx`, the handle of what
its stack goes on with; a thread has, in its `tls_context`, the handle of the worker's `process`.
`SwapIn` jumps to the one, and whoever goes on there puts the handle it gets into the other;
`SwapOut` jumps to the other, and `SwapIn`, which goes on, puts the handle it gets into the first.
The jump and the write after it are two steps: in between, `m_ctx` still has the handle that was jumped
to.

`make_fcontext` and `jump_fcontext` are a parameter `K`, and what they promise is
`Coroutines.Lawful`.  A handle is good for one jump: `used` notes that `m_ctx` has been jumped to since it
was written, and there is no step for a jump to it then; nor is there one for a jump to a task whose
function has returned, which would run off the end of its stack, or for a jump to a new context with the
data of another one.

The memory of the stacks and the page that guards each are left out.

SOURCE: operation/context.h:13-57, operation/task.cc:11-37, operation/worker.h:121-134
-/

set_option autoImplicit false

namespace MagicNet.Context

open MagicNet.Foundation
open MagicNet.Worker (Pc)

/-- What a saved context goes on with: the function that `make_fcontext` was given for the task's
stack; the task's `SwapOut`, from which, when the task's function has returned, there is nothing to
go on with; and, in the `process` of the worker `wrk`, the `SwapIn` of the task's context. -/
inductive Code where
  | entry (tk : ℕ)
  | swapOut (tk : ℕ) (ended : Bool)
  | swapIn (wrk tk : ℕ)
deriving DecidableEq

/-- What a thread executes: the `process` of a worker; its `SwapIn`, in which `jump_fcontext` has
returned with a handle that has not been written yet; a task. -/
inductive Control (η : Type) where
  | process (wrk : ℕ)
  | returned (wrk tk : ℕ) (fctx : η)
  | task (tk : ℕ)
deriving DecidableEq

/-- The thread `w` is the one the worker `w` has started, and has it as its current worker. -/
structure State (κ η : Type) where
  workers : Worker.State
  contexts : κ
  control : ℕ → Control η
  m_ctx : ℕ → η
  used : ℕ → Bool
  tls_context : ℕ → Option η

section

variable {κ η : Type} (K : Coroutines Code κ η)

namespace State

variable (s : State κ η)

/-- What goes on upon the thread `w` gets the handle `fctx` of what has jumped to it, and its data. -/
def land (w : ℕ) (code : Code) (fctx : η) (data : Option ℕ) : Option (State κ η) :=
  match code with
  | .entry tk =>
    -- the function that is called is that of the context in `trans.data`
    if data = some tk then
      some { s with
        tls_context := Function.update s.tls_context w (some fctx)
        control := Function.update s.control w (.task tk) }
    else none
  | .swapOut tk ended =>
    if ended then none
    else some { s with
      tls_context := Function.update s.tls_context w (some fctx)
      control := Function.update s.control w (.task tk) }
  | .swapIn wrk tk => some { s with control := Function.update s.control w (.returned wrk tk fctx) }

/-- The thread `w` jumps away from the code `k`. -/
def jump_fcontext (w : ℕ) (k : Code) (target : η) (data : Option ℕ) : Option (State κ η) :=
  let r := K.jump s.contexts k target
  { s with contexts := r.2.2 }.land w r.1 r.2.1 data

/-- The task is given a stack and, in `m_ctx`, the handle to begin with. -/
def make_fcontext (tk : ℕ) : State κ η :=
  let r := K.make s.contexts (.entry tk)
  { s with
    contexts := r.2
    m_ctx := Function.update s.m_ctx tk r.1
    used := Function.update s.used tk false }

/-- `SwapIn` up to its jump. -/
def swapIn (w tk : ℕ) : Option (State κ η) :=
  match s.control w with
  | .process wrk =>
    if s.used tk then none
    else
      { s with used := Function.update s.used tk true }.jump_fcontext K w (.swapIn wrk tk)
        (s.m_ctx tk) (some tk)
  | _ => none

/-- `SwapIn` after its jump. -/
def setCtx (w : ℕ) : Option (State κ η) :=
  match s.control w with
  | .returned wrk tk fctx => some { s with
      m_ctx := Function.update s.m_ctx tk fctx
      used := Function.update s.used tk false
      control := Function.update s.control w (.process wrk) }
  | _ => none

/-- `SwapOut`, which the task comes to by way of `coYield` of its thread's worker. -/
def swapOut (w : ℕ) : Option (State κ η) :=
  match s.control w, s.tls_context w with
  | .task tk, some fctx =>
    let ended := (s.workers.tasks tk)._state = .done
    s.jump_fcontext K w (.swapOut tk ended) fctx none
  | _, _ => none

/-- What a step of the workers does to the contexts, and which code takes it. -/
def act : Worker.Event → Option (State κ η)
  | .createTask _ => some (s.make_fcontext K s.workers.created)
  | .swapIn w =>
    match s.workers.pc w with
    | .popped tk => s.swapIn K w tk
    | _ => none
  | .suspend w | .finish w =>
    match s.control w with
    | .task _ => some s
    | _ => none
  | .swapOut w => s.setCtx w
  | .pop w | .switch w | .check w | .takeNew w | .moveRunnable w =>
    match s.control w with
    | .process wrk => if wrk = w then some s else none
    | _ => none
  | .wakeup _ _ | .wakeupBySelf _ | .steal _ _ | .stealNew _ | .stealRunnable | .addTask _ _ =>
    some s

end State

/-- `coYield w` is the jump of `SwapOut`; the others are the steps of the workers, where `swapOut` is
what is left of `SwapIn`. -/
inductive Event where
  | coYield (w : ℕ)
  | work (e : Worker.Event)
deriving DecidableEq

/-- SOURCE: operation/context.h:39-52, operation/worker.h:121-134, operation/worker.cc:178-205 -/
def step (s : State κ η) : Event → Option (State κ η)
  | .coYield w =>
    match (s.workers.pc w).m_runnable with
    | some _ => s.swapOut K w
    | none => none
  | .work e =>
    match s.act K e, Worker.step s.workers e with
    | some t, some workers => some { t with workers := workers }
    | _, _ => none

/-- Each thread is in the `process` of its worker, and there are no contexts yet. -/
structure Starts (saved : κ → η → Option Code) (s : State κ η) : Prop where
  workers : Worker.Starts s.workers
  control : ∀ w, s.control w = .process w
  saved : ∀ h, saved s.contexts h = none

def system (saved : κ → η → Option Code) : System (State κ η) Event where
  init := Starts saved
  step := step K

end

/-- The steps that take a worker's step: the task jumps before the worker's `SwapIn` comes to its
end. -/
def carry : Worker.Event → List Event
  | .swapOut w => [.coYield w, .work (.swapOut w)]
  | e => [.work e]

/-- No worker switches to a task that another one executes. -/
def Alone (s : Worker.State) (e : Worker.Event) : Prop :=
  ∀ w tk, e = .swapIn w → s.pc w = .popped tk → ∀ w', s.pc w' ≠ .executing tk

end MagicNet.Context
