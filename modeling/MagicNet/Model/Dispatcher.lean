import MagicNet.Model.TwoWayList
import MagicNet.Model.Worker

/-!
# The dispatcher and the workers' queues

The dispatcher notes the workers that have been with one task for too long, reads the loads of all
workers, takes away the busy workers' tasks and shares them out among the least loaded; then, when
some workers have nothing to do, it takes a part of the tasks of the most loaded worker and shares
them out among those.

The queues are two-way lists here, linked through the tasks, and the workers of `Model.Worker` run
on them: their steps that touch no queue are the ones there.  A step of the dispatcher is one
section under a queue's lock with the local work around it.  Loads are read without a lock, while
the queues change, and what makes a worker busy is the clock; so any number may be read as a load
and any worker may be found busy.

SOURCE: operation/scheduler.cc:103-211, operation/worker.cc:25-43, 52-54, 217-247
-/

set_option autoImplicit false

namespace MagicNet.Dispatcher

open MagicNet.Foundation MagicNet.Util
open MagicNet.Worker (Place Task Waker)

/-! ## The load map -/

/-- The entries of a `multimap<size_t, size_t>`, by their loads: a load and a worker's index. -/
abbrev LoadMap := List (ℕ × ℕ)

namespace LoadMap

/-- A new entry comes after those with the same load. -/
def insert (m : LoadMap) (kv : ℕ × ℕ) : LoadMap :=
  m.takeWhile (·.1 ≤ kv.1) ++ kv :: m.dropWhile (·.1 ≤ kv.1)

/-- `equal_range(begin()->first)`: the least loaded workers. -/
def least : LoadMap → List (ℕ × ℕ)
  | [] => []
  | kv :: m => kv :: m.takeWhile (·.1 = kv.1)

/-- The entries after that range. -/
def others : LoadMap → List (ℕ × ℕ)
  | [] => []
  | kv :: m => m.dropWhile (·.1 = kv.1)

end LoadMap

/-- `size / n`, or 1 where that is 0. -/
def average (size n : ℕ) : Option ℕ :=
  if n = 0 then none else some (if size / n = 0 then 1 else size / n)

/-! ## The states -/

/-- Whom `steal` returns to: the loop over the busy workers, with those that are left; or the
second half of the iteration, which asks for `n` tasks for the workers in the range. -/
inductive Caller where
  | busyings (kvs : List (ℕ × ℕ))
  | waiting (n : ℕ) (range : List (ℕ × ℕ))
deriving DecidableEq

/-- The argument of `steal`. -/
def Caller.n : Caller → ℕ
  | .busyings _ => 0
  | .waiting n _ => n

/-- The two times that tasks are shared out. -/
inductive Phase where
  | busy
  | waiting
deriving DecidableEq

/-- Where the dispatcher is: at the top of its loop; in the two loops over the workers; in the loop
over the busy workers; in `steal`, at its first `assertLink`, at the `popBack` or `popBackAll` of the
new queue, at the second `assertLink`, at the `popBackAll` of the runnable queue; in the loop over
the least loaded workers, `it` being those that are left; at the `addTask` of what is left over;
in the loop that reads their loads again; before the second half; in it, with the stolen tasks;
after the shutdown. -/
inductive Pc where
  | top
  | busy (i : ℕ)
  | loads (i : ℕ)
  | busyings (kvs : List (ℕ × ℕ))
  | assertLink (w : ℕ) (caller : Caller)
  | popNew (w : ℕ) (caller : Caller)
  | assertAgain (w : ℕ) (caller : Caller)
  | popRunnable (w : ℕ) (caller : Caller)
  | share (phase : Phase) (range it : List (ℕ × ℕ)) (avg : ℕ)
  | leftover (phase : Phase) (range : List (ℕ × ℕ))
  | reload (it : List (ℕ × ℕ))
  | balance
  | stolen (range : List (ℕ × ℕ))
  | stopped
deriving DecidableEq

/-- Where `steal` returns to. -/
def Caller.after : Caller → Pc
  | .busyings kvs => .busyings kvs
  | .waiting _ range => .stolen range

/-- The worker in whose `steal(0)` the dispatcher is, between its two sections. -/
def Pc.stealing : Pc → Option ℕ
  | .assertAgain w caller | .popRunnable w caller => if caller.n = 0 then some w else none
  | _ => none

/-- `works` is `m_works.size()`, and `ends` gives the workers' queues and the local lists.  The next
fields are the workers', with `worker` for the places in their loops; the last are the locals of
`dispatcherWork`. -/
structure State where
  works : ℕ
  mem : Memory ℕ
  ends : Place → Ends ℕ
  worker : ℕ → Worker.Pc
  m_gccQueue : ℕ → List ℕ
  tasks : ℕ → Task
  created : ℕ
  issued : List (ℕ × ℕ)
  wakers : List Waker
  pc : Pc
  busyings : List (ℕ × ℕ)
  loadMaps : LoadMap
  newLoadMaps : LoadMap

/-- What a step of the dispatcher reads: the flag of the shutdown, whether the worker it looks at is
busy, and the load it finds. -/
structure Reads where
  shutdown : Bool
  busy : Bool
  load : ℕ

inductive Event where
  | work (e : Worker.Event)
  | collect (tk : ℕ) (prev next : Option ℕ)
  | dispatch (r : Reads)

namespace State

/-- What stands in a queue or a list. -/
def items (s : State) (p : Place) : List ℕ := (s.ends p).items s.mem

/-- The workers' state, without the links. -/
def workers (s : State) : Worker.State where
  queue := s.items
  pc := s.worker
  m_gccQueue := s.m_gccQueue
  tasks := s.tasks
  created := s.created
  issued := s.issued
  wakers := s.wakers
  stealing := s.pc.stealing

/-- The workers have gone on, and the queues are as they were. -/
def setWorkers (s : State) (t : Worker.State) : State :=
  { s with
    worker := t.pc
    m_gccQueue := t.m_gccQueue
    tasks := t.tasks
    created := t.created
    issued := t.issued
    wakers := t.wakers }

def setEnds (s : State) (mem : Memory ℕ) (p : Place) (q : Ends ℕ) : State :=
  { s with mem := mem, ends := Function.update s.ends p q }

def setWorker (s : State) (w : ℕ) (pc : Worker.Pc) : State :=
  { s with worker := Function.update s.worker w pc }

/-- The index into `m_works`. -/
def m_works (s : State) (i : ℕ) : Option ℕ := if i < s.works then some i else none

end State

/-! ## The workers' steps -/

/-- A step of the workers, of their tasks or of a waker. -/
def work (s : State) : Worker.Event → Option State
  | .createTask w => do
    let (mem, q) ← (s.ends (.m_newQueue w)).pushUnlock s.mem s.created
    some { s.setEnds mem (.m_newQueue w) q with
      tasks := Function.update s.tasks s.created ⟨.runnable, 0, none⟩
      created := s.created + 1 }
  | .pop w =>
    if s.worker w = .top then do
      let (mem, q, tk) ← (s.ends (.m_runnableQueue w)).popUnlock s.mem
      some ((s.setEnds mem (.m_runnableQueue w) q).setWorker w
        (match tk with
          | some tk => .popped tk
          | none => .check))
    else none
  | .suspend w =>
    match s.worker w with
    | .executing tk =>
      match (s.tasks tk)._lpWorker with
      | some wrk =>
        -- the assertions of `suspendBySelf`
        if (s.worker wrk).m_runnable = some tk ∧ (s.tasks tk)._state = .runnable then do
          let id := (s.tasks tk)._supperId + 1
          let (mem, q) ← (s.ends (.m_waitQueue wrk)).pushUnlock s.mem tk
          some { s.setEnds mem (.m_waitQueue wrk) q with
            tasks := Function.update s.tasks tk
              { s.tasks tk with _state := .block, _supperId := id }
            issued := (tk, id) :: s.issued }
        else none
      | none => none
    | _ => none
  | .check w =>
    if s.worker w = .check then
      some (s.setWorker w
        (if (s.ends (.m_runnableQueue w)).m_head = none then .refill else .top))
    else none
  | .takeNew w =>
    if s.worker w = .refill then
      let (q, l) := (s.ends (.m_newQueue w)).popBackAllUnlock
      some (((s.setEnds s.mem (.m_newQueue w) q).setEnds s.mem (.moving w) l).setWorker w .moving)
    else none
  | .moveRunnable w =>
    if s.worker w = .moving then do
      let (mem, q, l) ←
        (s.ends (.m_runnableQueue w)).pushListUnlock s.mem (s.ends (.moving w))
      l.destroy
      some (((s.setEnds mem (.moving w) l).setEnds mem (.m_runnableQueue w) q).setWorker w .top)
    else none
  | .wakeupBySelf waker =>
    if waker ∈ s.wakers then
      let s := { s with wakers := s.wakers.erase waker }
      let t := s.tasks waker.tk
      if waker.id = t._supperId then do
        let (mem, wait) ← (s.ends (.m_waitQueue waker.wrk)).eraseUnLock s.mem waker.tk
        let (mem, q) ← (s.ends (.m_runnableQueue waker.wrk)).pushUnlock mem waker.tk
        some { (s.setEnds mem (.m_waitQueue waker.wrk) wait).setEnds mem
            (.m_runnableQueue waker.wrk) q with
          tasks := Function.update s.tasks waker.tk { t with _supperId := t._supperId + 1 } }
      else some s
    else none
  | .swapIn w => (Worker.step s.workers (.swapIn w)).map s.setWorkers
  | .finish w => (Worker.step s.workers (.finish w)).map s.setWorkers
  | .swapOut w => (Worker.step s.workers (.swapOut w)).map s.setWorkers
  | .switch w => (Worker.step s.workers (.switch w)).map s.setWorkers
  | .wakeup tk id => (Worker.step s.workers (.wakeup tk id)).map s.setWorkers
  -- the dispatcher's
  | .steal _ _ | .stealNew _ | .stealRunnable | .addTask _ _ => none

/-! ## The dispatcher's steps -/

/-- `popBack(n)` of the new queue, whose argument is a `uint32_t`, or `popBackAll`.  What `popBack`
gives is returned as it is, and is the caller's `tasks`. -/
def popNew (s : State) (w : ℕ) (caller : Caller) : Option State :=
  if 0 < caller.n then do
    let (mem, q, l) ← (s.ends (.m_newQueue w)).popBackUnlock s.mem (caller.n % 2 ^ 32)
    some { (s.setEnds mem (.m_newQueue w) q).setEnds mem .tasks l with
      pc := .assertAgain w caller }
  else
    let (q, l) := (s.ends (.m_newQueue w)).popBackAllUnlock
    some { (s.setEnds s.mem (.m_newQueue w) q).setEnds s.mem .steal_list l with
      pc := .assertAgain w caller }

/-- The list that `steal` returns is appended to `tasks`, or it is `tasks`. -/
def Caller.receive (mem : Memory ℕ) (tasks returned : Ends ℕ) :
    Caller → Option (Memory ℕ × Ends ℕ × Ends ℕ)
  | .busyings _ => tasks.append mem returned
  | .waiting _ _ => some (mem, returned, .zero)

/-- `popBackAll` of the runnable queue, whose tasks go before those of the new queue. -/
def popRunnable (s : State) (w : ℕ) (caller : Caller) : Option State := do
  let (q, steal_list_2) := (s.ends (.m_runnableQueue w)).popBackAllUnlock
  let (mem, steal_list_2, steal_list) ← steal_list_2.append s.mem (s.ends .steal_list)
  steal_list.destroy
  let (mem, tasks, returned) ← caller.receive mem (s.ends .tasks) steal_list_2
  returned.destroy
  some { ((s.setEnds mem (.m_runnableQueue w) q).setEnds mem .steal_list steal_list).setEnds mem
      .tasks tasks with pc := caller.after }

/-- Only the first time is a load map made for what follows. -/
def Phase.note (newLoadMaps : LoadMap) (kv : ℕ × ℕ) : Phase → LoadMap
  | .busy => newLoadMaps.insert kv
  | .waiting => newLoadMaps

/-- One round of the loop over the least loaded workers. -/
def share (s : State) (phase : Phase) (range : List (ℕ × ℕ)) (avg load : ℕ) :
    List (ℕ × ℕ) → Option State
  | [] => some { s with pc := .leftover phase range }
  | kv :: it => do
    let (mem, tasks, in_) ← (s.ends .tasks).cut s.mem avg
    if in_.m_head = none then do
      in_.destroy
      some { s.setEnds mem .tasks tasks with pc := .leftover phase range }
    else do
      let w ← s.m_works kv.2
      let (mem, q, in_) ← (s.ends (.m_newQueue w)).pushListUnlock mem in_
      in_.destroy
      some { (s.setEnds mem .tasks tasks).setEnds mem (.m_newQueue w) q with
        pc := .share phase range it avg
        newLoadMaps := phase.note s.newLoadMaps (load, kv.2) }

/-- `if (!tasks.empty()) m_works[range.first->second]->addTask(std::move(tasks))`. -/
def addLeftover (s : State) (range : List (ℕ × ℕ)) : Option State :=
  if (s.ends .tasks).m_head = none then some s
  else do
    let kv ← range.head?
    let w ← s.m_works kv.2
    let (mem, q, tasks) ← (s.ends (.m_newQueue w)).pushListUnlock s.mem (s.ends .tasks)
    some ((s.setEnds mem .tasks tasks).setEnds mem (.m_newQueue w) q)

/-- `tasks` goes out of scope. -/
def leave (s : State) (pc : Pc) : Option State := do
  (s.ends .tasks).destroy
  some { s with pc := pc }

/-- SOURCE: operation/scheduler.cc:103-201 -/
def dispatch (s : State) (r : Reads) : Option State :=
  match s.pc with
  | .top =>
    if r.shutdown then some { s with pc := .stopped }
    else some { s with pc := .busy 0, busyings := [], loadMaps := [], newLoadMaps := [] }
  | .busy i =>
    if i < s.works then
      some { s with
        pc := .busy (i + 1)
        busyings := if r.busy then s.busyings ++ [(i, r.load)] else s.busyings }
    else some { s with pc := .loads 0 }
  | .loads i =>
    if i < s.works then
      some { s with pc := .loads (i + 1), loadMaps := s.loadMaps.insert (r.load, i) }
    else some { s.setEnds s.mem .tasks .zero with pc := .busyings s.busyings }
  | .busyings (kv :: kvs) => do
    let w ← s.m_works kv.1
    some { s with pc := .assertLink w (.busyings kvs) }
  | .busyings [] =>
    if (s.ends .tasks).m_head = none then leave s .balance
    else do
      let range := s.loadMaps.least
      let avg ← average (s.ends .tasks).m_count range.length
      some { s with
        pc := .share .busy range range avg
        newLoadMaps := s.loadMaps.others.foldl LoadMap.insert [] }
  | .assertLink w caller => do
    (s.ends (.m_newQueue w)).assertLink s.mem
    some { s with pc := .popNew w caller }
  | .popNew w caller => popNew s w caller
  | .assertAgain w caller => do
    (s.ends (.m_newQueue w)).assertLink s.mem
    some { s with pc := if 0 < caller.n then caller.after else .popRunnable w caller }
  | .popRunnable w caller => popRunnable s w caller
  | .share phase range it avg => share s phase range avg r.load it
  | .leftover phase range => do
    let s ← addLeftover s range
    match phase with
    | .busy => some { s with pc := .reload range }
    | .waiting => leave s .top
  | .reload (kv :: it) => do
    let w ← s.m_works kv.2
    some { s with pc := .reload it, newLoadMaps := s.newLoadMaps.insert (r.load, w) }
  | .reload [] =>
    leave { s with loadMaps := s.newLoadMaps, newLoadMaps := s.loadMaps } .balance
  | .balance =>
    match s.loadMaps with
    | [] => none
    | kv :: _ =>
      let range := s.loadMaps.least
      if kv.1 ≠ 0 ∨ range.length = s.loadMaps.length then some { s with pc := .top }
      else do
        let max ← s.loadMaps.getLast?
        let maxP ← s.m_works max.2
        let stealN := min (r.load / 2) (range.length * 1024)
        some { s with pc := .assertLink maxP (.waiting stealN range) }
  | .stolen range =>
    if (s.ends .tasks).m_head = none then leave s .top
    else do
      let avg ← average (s.ends .tasks).m_count range.length
      some { s with pc := .share .waiting range range avg }
  | .stopped => some s

/-! ## Runs -/

/-- The queues are empty and the workers at the top of their loops.  `doStart` starts the dispatcher
after the workers, and does not when there is only one. -/
structure Starts (s : State) : Prop where
  works : 0 < s.works
  ends : ∀ p, s.ends p = .zero
  worker : ∀ w, s.worker w = .top
  created : s.created = 0
  issued : s.issued = []
  wakers : s.wakers = []
  pc : s.pc = .top
  busyings : s.busyings = []
  loadMaps : s.loadMaps = []
  newLoadMaps : s.newLoadMaps = []

/-- `m_gccQueue` links tasks that are done (`collect`): it writes what it likes to their links. -/
def step (s : State) : Event → Option State
  | .work e => work s e
  | .collect tk prev next =>
    if (s.tasks tk)._state = .done then
      some { s with mem :=
        ⟨Function.update s.mem._prev tk prev, Function.update s.mem._next tk next⟩ }
    else none
  | .dispatch r => dispatch s r

def system : System State Event where
  init := Starts
  step := step

/-- The queues of the workers with the lists on their way between two of them, and the lists of the
dispatcher. -/
def places (works : ℕ) : Finset Place :=
  (Finset.range works).biUnion
    (fun w => {.m_newQueue w, .m_runnableQueue w, .m_waitQueue w, .moving w}) ∪
    {.steal_list, .tasks}

/-- The tasks that stand there. -/
def queued (s : State) : Multiset ℕ := tally (places s.works) s.items

end MagicNet.Dispatcher
