import MagicNet.Model.Dispatcher

/-!
# One iteration of the dispatcher by itself

The steps of `dispatcherWork` with no worker's step among them.  A load that it reads is then the
number of tasks that stand in the worker's two queues, and an iteration goes on from there to where
the loop starts again.  Its second half begins at `balance`.

SOURCE: operation/scheduler.cc:103-211, operation/worker.cc:56-58, 217-247
-/

set_option autoImplicit false

namespace MagicNet.Dispatcher

open MagicNet.Foundation MagicNet.Util

namespace State

/-- `m_runnableQueue.size() + m_newQueue.size()`. -/
def getRunnableNum (s : State) (w : ℕ) : ℕ :=
  (s.ends (.m_runnableQueue w)).m_count + (s.ends (.m_newQueue w)).m_count

/-- The tasks that the worker has to run. -/
def runnables (s : State) (w : ℕ) : List ℕ :=
  s.items (.m_newQueue w) ++ s.items (.m_runnableQueue w)

/-- The worker whose load the next step reads. -/
def looked (s : State) : Option ℕ :=
  match s.pc with
  | .busy i | .loads i => s.m_works i
  | .share _ _ (kv :: _) _ | .reload (kv :: _) => some kv.2
  | .balance => s.loadMaps.getLast?.map (·.2)
  | _ => none

end State

/-- A step of an iteration.  The load that it reads is the worker's when the step is done: `share`
reads it after it has added the tasks, and the other steps that read one move no task. -/
def alone (s : State) (r : Reads) : Option State :=
  if s.pc = .top then none
  else do
    let s' ← dispatch s r
    if s.looked.all (fun w => r.load = s'.getRunnableNum w) then some s' else none

/-- The iterations, from any state that the workers and the dispatcher have come to. -/
def iteration : System State Reads where
  init s := ∃ s₀ r, system.Reachable s₀ ∧ s₀.pc = .top ∧ dispatch s₀ r = some s
  step := alone

/-- The second half of an iteration, from its start to the end. -/
structure IdlePhase (s : State) (rs : List Reads) (s' : State) : Prop where
  run : iteration.run s rs = some s'
  pc : s'.pc = .top

/-! ## What is asked of it -/

/-- The tasks that the worker has no more. -/
def removed (s s' : State) (w : ℕ) : List ℕ := (s.runnables w).filter (· ∉ s'.runnables w)

/-- No worker loses more than half of its tasks, rounded down, and a worker with one task keeps it,
and gets no other. -/
structure AtMostHalf (s s' : State) : Prop where
  half : ∀ w, (removed s s' w).length ≤ s.getRunnableNum w / 2
  single : ∀ w, s.getRunnableNum w = 1 →
    s'.items (.m_newQueue w) = s.items (.m_newQueue w) ∧
      s'.items (.m_runnableQueue w) = s.items (.m_runnableQueue w)

/-- The least load in the map is 0, and not all are, and the worker that comes last has one task. -/
def OneTask (s : State) : Prop :=
  (∃ kv, s.loadMaps.head? = some kv ∧ kv.1 = 0) ∧ s.loadMaps.least.length ≠ s.loadMaps.length ∧
    ∃ max, s.loadMaps.getLast? = some max ∧ s.getRunnableNum max.2 = 1

end MagicNet.Dispatcher
