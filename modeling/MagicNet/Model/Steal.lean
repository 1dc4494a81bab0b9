import MagicNet.Model.TwoWayList

/-!
# Taking tasks from a worker

`worker::steal` with nothing in between: the worker's two queues over the links of all tasks, and
the list of tasks that is returned.  It gives nothing where the code would follow a null pointer or
where an assertion fails.

SOURCE: operation/worker.cc:217-247
-/

set_option autoImplicit false

namespace MagicNet.Steal

open MagicNet.Util

variable {A : Type}

/-- The links of the tasks, and the queues of one worker. -/
structure State (A : Type) where
  mem : Memory A
  m_newQueue : Ends A
  m_runnableQueue : Ends A

/-- The new queue has the tasks `new` and the runnable queue the tasks `runnable`, first ones first,
and none of them stands twice. -/
structure Contents (s : State A) (new runnable : List A) : Prop where
  m_newQueue : s.m_newQueue.Exact s.mem new
  m_runnableQueue : s.m_runnableQueue.Exact s.mem runnable
  nodup : (new ++ runnable).Nodup

variable [DecidableEq A]

instance (s : State A) (new runnable : List A) : Decidable (Contents s new runnable) :=
  decidable_of_iff (s.m_newQueue.Exact s.mem new ∧ s.m_runnableQueue.Exact s.mem runnable ∧
      (new ++ runnable).Nodup)
    ⟨fun h => ⟨h.1, h.2.1, h.2.2⟩, fun h => ⟨h.m_newQueue, h.m_runnableQueue, h.nodup⟩⟩

/-- The queues after `steal(n)`, and the list that it returns.  The argument of `popBack` is a
`uint32_t`. -/
def steal (s : State A) (n : ℕ) : Option (State A × Ends A) :=
  if 0 < n then do
    s.m_newQueue.assertLink s.mem
    let (mem, m_newQueue, steal_list) ← s.m_newQueue.popBackUnlock s.mem (n % 2 ^ 32)
    m_newQueue.assertLink mem
    if 0 ≤ steal_list.m_count then some (⟨mem, m_newQueue, s.m_runnableQueue⟩, steal_list)
    else do
      let (mem, m_runnableQueue, steal_list_2) ←
        s.m_runnableQueue.popBackUnlock mem ((n - steal_list.m_count) % 2 ^ 32)
      let (mem, steal_list_2, steal_list) ← steal_list_2.append mem steal_list
      steal_list.destroy
      some (⟨mem, m_newQueue, m_runnableQueue⟩, steal_list_2)
  else do
    s.m_newQueue.assertLink s.mem
    let (m_newQueue, steal_list) := s.m_newQueue.popBackAllUnlock
    m_newQueue.assertLink s.mem
    let (m_runnableQueue, steal_list_2) := s.m_runnableQueue.popBackAllUnlock
    let (mem, steal_list_2, steal_list) ← steal_list_2.append s.mem steal_list
    steal_list.destroy
    some (⟨mem, m_newQueue, m_runnableQueue⟩, steal_list_2)

/-! ## What is asked of it -/

/-- The tasks that `n` should take from the two queues: the last ones of the new queue, and where
there are too few the last ones of the runnable queue. -/
def asked (new runnable : List A) (n : ℕ) : List A :=
  new.drop (new.length - n) ++ runnable.drop (runnable.length - (n - new.length))

/-- What is returned is those tasks, and the others stay where they are. -/
structure Takes (new runnable : List A) (n : ℕ) (s' : State A) (returned : Ends A) : Prop where
  returned : ∃ l, returned.Exact s'.mem l ∧ l.Perm (asked new runnable n)
  m_newQueue : s'.m_newQueue.Exact s'.mem (new.take (new.length - n))
  m_runnableQueue : s'.m_runnableQueue.Exact s'.mem
    (runnable.take (runnable.length - (n - new.length)))

/-- The queues are both empty; or the new queue has several tasks, at least `n` of them or all there
are, and `n` is the same as a `uint32_t`, or still no less than they are. -/
def Enough (new runnable : List A) (n : ℕ) : Prop :=
  new = [] ∧ runnable = [] ∨
    2 ≤ new.length ∧ (n ≤ new.length ∨ runnable = []) ∧ (n < 2 ^ 32 ∨ new.length ≤ n % 2 ^ 32)

instance (new runnable : List A) (n : ℕ) : Decidable (Enough new runnable n) :=
  inferInstanceAs (Decidable (_ ∨ _))

end MagicNet.Steal
