import MagicNet.Foundation.CondVar
import MagicNet.Foundation.System

/-!
# The lock of readers and writers

`util::wrMutex` has two counts and a flag under `m_counterMutex` and one condition variable for each
side.  A writer counts itself in `m_writeCount` before it waits, and readers only come in while that
is 0.

A step is one section under `m_counterMutex`: a call up to its return or to its `wait`, or the test a
thread makes when it comes back from `wait`.  A thread that has been unblocked gets the mutex at some
time, and any other may have come before.

SOURCE: util/mutex.h:10-50
-/

set_option autoImplicit false

namespace MagicNet.Util.WrMutex

open MagicNet.Foundation

/-- `reading` and `writing` are the threads that hold the lock; one that holds it twice is there
twice. -/
structure State (T : Type) where
  m_readCount : ℕ
  m_writeCount : ℕ
  m_inWriteFlag : Bool
  m_condRead : CondVar T
  m_condWrite : CondVar T
  reading : List T
  writing : List T

/-- The four methods, and for each condition variable a spurious wake-up and the test of the
predicate by a thread that comes back.  `choice` is the thread a `notify_one` picks. -/
inductive Event (T : Type) where
  | lock_read (t : T)
  | lock_write (t : T)
  | release_read (t : T) (choice : Option T)
  | release_write (t : T) (choice : Option T)
  | wakeRead (t : T)
  | wakeWrite (t : T)
  | againRead (t : T) (w : Wake)
  | againWrite (t : T) (w : Wake)

variable {T : Type}

/-- The predicate of `m_condRead`. -/
def State.CanRead (s : State T) : Prop := s.m_writeCount = 0

/-- The predicate of `m_condWrite`. -/
def State.CanWrite (s : State T) : Prop := s.m_readCount = 0 ∧ s.m_inWriteFlag = false

instance (s : State T) : Decidable s.CanRead := inferInstanceAs (Decidable (_ = _))

instance (s : State T) : Decidable s.CanWrite := inferInstanceAs (Decidable (_ ∧ _))

/-- The loop of `m_condRead.wait` at its test, and the rest of `lock_read`. -/
def State.enterRead (s : State T) (t : T) : State T :=
  if s.CanRead then { s with m_readCount := s.m_readCount + 1, reading := t :: s.reading }
  else { s with m_condRead := s.m_condRead.wait t }

/-- The loop of `m_condWrite.wait` at its test, and the rest of `lock_write`. -/
def State.enterWrite (s : State T) (t : T) : State T :=
  if s.CanWrite then { s with m_inWriteFlag := true, writing := t :: s.writing }
  else { s with m_condWrite := s.m_condWrite.wait t }

variable [DecidableEq T]

def step (s : State T) : Event T → Option (State T)
  | .lock_read t => some (s.enterRead t)
  | .lock_write t => some ({ s with m_writeCount := s.m_writeCount + 1 }.enterWrite t)
  | .release_read t choice =>
    if t ∈ s.reading then
      let s := { s with m_readCount := s.m_readCount - 1, reading := s.reading.erase t }
      if s.m_readCount = 0 ∧ 0 < s.m_writeCount then
        (s.m_condWrite.notifyOne choice).map fun c => { s with m_condWrite := c }
      else some s
    else none
  | .release_write t choice =>
    if t ∈ s.writing then
      let s := { s with
        m_writeCount := s.m_writeCount - 1
        m_inWriteFlag := false
        writing := s.writing.erase t }
      if s.m_writeCount = 0 then some { s with m_condRead := s.m_condRead.notifyAll }
      else (s.m_condWrite.notifyOne choice).map fun c => { s with m_condWrite := c }
    else none
  | .wakeRead t => (s.m_condRead.spurious t).map fun c => { s with m_condRead := c }
  | .wakeWrite t => (s.m_condWrite.spurious t).map fun c => { s with m_condWrite := c }
  | .againRead t w =>
    (s.m_condRead.leave t w).map fun c => { s with m_condRead := c }.enterRead t
  | .againWrite t w =>
    (s.m_condWrite.leave t w).map fun c => { s with m_condWrite := c }.enterWrite t

/-- A lock just constructed. -/
def start : State T :=
  { m_readCount := 0, m_writeCount := 0, m_inWriteFlag := false, m_condRead := .empty,
    m_condWrite := .empty, reading := [], writing := [] }

def system (T : Type) [DecidableEq T] : System (State T) (Event T) where
  init s := s = start
  step := step

@[simp] theorem system_step (T : Type) [DecidableEq T] : (system T).step = step := rfl

/-! ## What the steps do -/

variable {s s' : State T}

/-- The last reader that leaves wakes a writer.
SOURCE: util/mutex.h:27-32 -/
theorem step_release_read {t : T} {choice : Option T} :
    step s (.release_read t choice) = some s' ↔ t ∈ s.reading ∧
      (¬ (s.m_readCount - 1 = 0 ∧ 0 < s.m_writeCount) ∧
          s' = { s with m_readCount := s.m_readCount - 1, reading := s.reading.erase t } ∨
        (s.m_readCount - 1 = 0 ∧ 0 < s.m_writeCount) ∧
          ∃ c, s.m_condWrite.notifyOne choice = some c ∧ s' = { s with
            m_readCount := s.m_readCount - 1, reading := s.reading.erase t, m_condWrite := c }) := by
  by_cases hmem : t ∈ s.reading
  · by_cases hlast : s.m_readCount - 1 = 0 ∧ 0 < s.m_writeCount <;>
      simp [step, hmem, hlast, eq_comm (a := s')]
  · simp [step, hmem]

/-- A writer that leaves wakes the next writer, or the readers.
SOURCE: util/mutex.h:33-41 -/
theorem step_release_write {t : T} {choice : Option T} :
    step s (.release_write t choice) = some s' ↔ t ∈ s.writing ∧
      (s.m_writeCount - 1 = 0 ∧ s' = { s with
          m_writeCount := s.m_writeCount - 1, m_inWriteFlag := false
          writing := s.writing.erase t, m_condRead := s.m_condRead.notifyAll } ∨
        s.m_writeCount - 1 ≠ 0 ∧
          ∃ c, s.m_condWrite.notifyOne choice = some c ∧ s' = { s with
            m_writeCount := s.m_writeCount - 1, m_inWriteFlag := false
            writing := s.writing.erase t, m_condWrite := c }) := by
  by_cases hmem : t ∈ s.writing
  · by_cases hlast : s.m_writeCount - 1 = 0 <;> simp [step, hmem, hlast, eq_comm (a := s')]
  · simp [step, hmem]

/-- A waiting reader is woken by nobody.
SOURCE: util/mutex.h:15-19 -/
theorem step_wakeRead {t : T} : step s (.wakeRead t) = some s' ↔
    ∃ c, s.m_condRead.spurious t = some c ∧ s' = { s with m_condRead := c } := by
  simp [step, eq_comm (a := s')]

/-- A waiting writer is.
SOURCE: util/mutex.h:20-26 -/
theorem step_wakeWrite {t : T} : step s (.wakeWrite t) = some s' ↔
    ∃ c, s.m_condWrite.spurious t = some c ∧ s' = { s with m_condWrite := c } := by
  simp [step, eq_comm (a := s')]

/-- A reader that was woken tests again.
SOURCE: util/mutex.h:15-19 -/
theorem step_againRead {t : T} {w : Wake} : step s (.againRead t w) = some s' ↔
    ∃ c, s.m_condRead.leave t w = some c ∧ s' = { s with m_condRead := c }.enterRead t := by
  simp [step, eq_comm (a := s')]

/-- A writer that was woken does.
SOURCE: util/mutex.h:20-26 -/
theorem step_againWrite {t : T} {w : Wake} : step s (.againWrite t w) = some s' ↔
    ∃ c, s.m_condWrite.leave t w = some c ∧ s' = { s with m_condWrite := c }.enterWrite t := by
  simp [step, eq_comm (a := s')]

end MagicNet.Util.WrMutex
