import MagicNet.Model.IdleBalance

/-!
# Sharing out stolen tasks

The part of an iteration in which the tasks of the busy workers, all of them in `tasks`, are shared
out among the least loaded workers, from the end of the thefts to the start of the second half.  The
workers may go on meanwhile.

SOURCE: operation/scheduler.cc:144-177
-/

set_option autoImplicit false

namespace MagicNet.Dispatcher

open MagicNet.Foundation MagicNet.Util

/-- The stolen tasks are handed out here. -/
def Pc.handsOut : Pc → Bool
  | .share .busy .. | .leftover .busy _ => true
  | _ => false

/-- The run goes from the end of the thefts to the first time that the second half begins. -/
structure Redistribution (s : State) (es : List Event) (s' : State) : Prop where
  pc : s.pc = .busyings []
  run : system.run s es = some s'
  inside : system.Meets (fun t _ => t.pc ≠ .balance) s es
  ends : s'.pc = .balance

/-- The dispatcher adds no stolen task to the queue of a worker that it found busy. -/
def KeepsOut (s : State) (e : Event) (s' : State) : Prop :=
  ∀ r, e = .dispatch r → s.pc.handsOut → ∀ kv ∈ s.busyings,
    s'.items (.m_newQueue kv.1) = s.items (.m_newQueue kv.1)

/-- The first of the least loaded workers, one for each of the stolen tasks, were not busy. -/
def State.RangeRests (s : State) : Prop :=
  ∀ kv ∈ s.loadMaps.least.take (s.items .tasks).length, kv.2 ∉ s.busyings.map Prod.fst

/-- `loadMaps` has an entry for each worker, with the number of tasks that it has to run. -/
structure State.MapOfWorkers (s : State) : Prop where
  workers : (s.loadMaps.map Prod.snd).Perm (List.range s.works)
  loads : ∀ kv ∈ s.loadMaps, kv.1 = s.getRunnableNum kv.2

end MagicNet.Dispatcher
