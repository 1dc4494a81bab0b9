import MagicNet.Foundation.System

/-!
# How the dispatcher looks for a worker that is stuck

`process` counts the tasks it switches to in `m_nts`.  The dispatcher compares the count with the
copy that it made when it last marked the worker, and the clock with the time of that mark:
`isBusy`, and `restBusy` when that has returned true.  The clock goes in hundredths of a second
(`timestamp::getTime`), and `_single_timeout_us` is in microseconds.

A step is one write of the worker that the dispatcher can see, one of the two calls, or one `tick`.
The machine's integers are kept as their 64 bits: `m_ntsTick + _single_timeout_us` is an `int64_t`,
which is compared with the clock as a `uint64_t`.

SOURCE: operation/worker.cc:41-52, 178-205, operation/scheduler.cc:112-120, operation/clock.cc:93-105,
util/timestamp.h:35-50
-/

set_option autoImplicit false

namespace MagicNet.BusyMark

open MagicNet.Foundation

/-- Where `process` is: before `m_ntsTick` is set; at `m_runnableQueue.pop()`; with a task popped,
before `++m_nts`; in the task. -/
inductive Pc where
  | start
  | top
  | popped
  | executing
deriving DecidableEq

/-- `marking` says that `isBusy` has returned true and `restBusy` is to come.  The last three are
what is said of the worker: whether it has had one task, with `m_nts` unchanged, ever since the last
mark; whether it has switched to another since; and the hundredths of a second that the clock has
gone on since. -/
structure State where
  pc : Pc
  m_runnable : Option ℕ
  m_nts : BitVec 64
  m_ntsMark : BitVec 64
  m_ntsTick : BitVec 64
  m_current : BitVec 64
  m_current_point : BitVec 64
  marking : Bool
  same : Bool
  switched : Bool
  elapsed : ℕ

/-- `switch` is the one over the `_state` of the task that has returned, which sets `m_runnable` to
null in each case.  `tick ct` is a tick at which `getTime` is `ct`. -/
inductive Event where
  | begin
  | pop (tk : Option ℕ)
  | count
  | switch
  | isBusy
  | restBusy
  | tick (ct : BitVec 64)
deriving DecidableEq

/-- `_single_timeout_us` -/
abbrev Timeout := BitVec 32

/-- SOURCE: operation/worker.cc:41-47 -/
def State.isBusy (timeout : Timeout) (s : State) : Bool :=
  if s.m_ntsMark = s.m_nts then false
  else s.m_ntsTick + timeout.setWidth 64 < s.m_current

/-- SOURCE: operation/clock.cc:93-105 -/
def State.tick (s : State) (ct : BitVec 64) : State :=
  if ct < s.m_current_point then { s with m_current_point := ct }
  else if ct ≠ s.m_current_point then
    let diff := (ct - s.m_current_point).setWidth 32
    { s with
      m_current_point := ct
      m_current := s.m_current + diff.setWidth 64
      elapsed := s.elapsed + diff.toNat }
  else s

def step (timeout : Timeout) (s : State) : Event → Option State
  | .begin => if s.pc = .start then some { s with pc := .top, m_ntsTick := s.m_current } else none
  | .pop tk =>
    if s.pc = .top then
      some { s with
        pc := if tk.isSome then .popped else .top
        m_runnable := tk
        same := false }
    else none
  | .count =>
    if s.pc = .popped then
      some { s with pc := .executing, m_nts := s.m_nts + 1, same := false, switched := true }
    else none
  | .switch =>
    if s.pc = .executing then some { s with pc := .top, m_runnable := none, same := false }
    else none
  | .isBusy => if s.marking then none else some { s with marking := s.isBusy timeout }
  | .restBusy =>
    if s.marking then
      some { s with
        m_ntsMark := s.m_nts
        m_ntsTick := s.m_current
        marking := false
        same := s.m_runnable.isSome
        switched := false
        elapsed := 0 }
    else none
  | .tick ct => some (s.tick ct)

/-- A worker as its constructor leaves it, which counts as the first mark; the clock shows any time. -/
structure Starts (s : State) : Prop where
  pc : s.pc = .start
  m_runnable : s.m_runnable = none
  m_nts : s.m_nts = 0
  m_ntsMark : s.m_ntsMark = 0
  m_ntsTick : s.m_ntsTick = 0
  marking : s.marking = false
  same : s.same = false
  switched : s.switched = false
  elapsed : s.elapsed = 0

def system (timeout : Timeout) : System State Event where
  init := Starts
  step := step timeout

/-! ## What is asked of `isBusy` -/

/-- The worker has been executing one task since before the last mark, and that was more than
`_single_timeout_us` microseconds ago. -/
def Stuck (timeout : Timeout) (s : State) : Prop :=
  s.same = true ∧ timeout.toNat < s.elapsed * 10000

instance (timeout : Timeout) (s : State) : Decidable (Stuck timeout s) :=
  inferInstanceAs (Decidable (_ ∧ _))

/-- A call of `isBusy` returns true when the worker is stuck, and false when it has switched tasks
since the last mark or has none. -/
def Right (timeout : Timeout) (s : State) (e : Event) (_ : State) : Prop :=
  e = .isBusy →
    (Stuck timeout s → s.isBusy timeout = true) ∧
      (s.switched = true ∨ s.m_runnable = none → s.isBusy timeout = false)

/-- A call of `isBusy` does not find the worker stuck; and if it finds another count than the one
that was marked, the clock is not past `m_ntsTick + _single_timeout_us`, as plain numbers. -/
def Cond (timeout : Timeout) (s : State) (e : Event) : Prop :=
  e = .isBusy →
    ¬ Stuck timeout s ∧
      (s.m_ntsMark ≠ s.m_nts → s.m_current ≤ s.m_ntsTick + timeout.setWidth 64)

instance (timeout : Timeout) (s : State) (e : Event) : Decidable (Cond timeout s e) :=
  inferInstanceAs (Decidable (_ → _))

end MagicNet.BusyMark
