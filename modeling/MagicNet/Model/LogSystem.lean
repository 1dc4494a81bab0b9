import MagicNet.Model.Post

/-!
# The log system and its shutdown

`logSystem::doLog` puts a line in `m_mqs` and posts; the log thread is a `util::post` whose function
`doDispatch` passes lines to `m_log->doLog` until the queue is empty.  `logSystem::doShutdown` shuts
the post down, waits for its thread and deletes `m_log`.

The post of `Model.Post` is a part of the state, and its steps are steps of the system.  Lines are
numbered in the order in which they enter the queue.

SOURCE: log/logSystem.cc:14-61, util/post.cc
-/

set_option autoImplicit false

namespace MagicNet.LogSystem

open MagicNet.Foundation

/-- `m_log` is `m_log != nullptr`; `entered` are the lines that have entered the queue, oldest first,
and `logging` the numbers of those whose `doLog` has not returned.  `due` are the numbers of those
whose `doLog` had returned when `doShutdown` was called, once it has been. -/
structure State (Line : Type) where
  post : Post.State Line
  m_log : Bool
  entered : List Line
  logging : List ℕ
  due : Option (List ℕ)

/-- The steps of the log thread. -/
inductive ThreadStep where
  | loop
  | sleep
  | spurious
  | wake
  | check
  | pop
  deriving DecidableEq, Repr

def ThreadStep.event (Line : Type) : ThreadStep → Post.Event Line
  | .loop => .loop
  | .sleep => .sleep
  | .spurious => .spurious
  | .wake => .wake
  | .check => .check
  | .pop => .pop

/-- A call of `doLog`: `m_mqs.push` and `m_pid.doPost`, the second for the line of a number.  A call
of `logSystem::doShutdown`: its beginning, the section of `post::doShutdown` that sets `m_shutdown`,
and, after the `join`, the `delete` of `m_log` with which it returns. -/
inductive Event (Line : Type) where
  | push (line : Line)
  | doPost (number : ℕ)
  | call
  | doShutdown
  | delete
  | thread (t : ThreadStep)
  deriving DecidableEq, Repr

variable {Line : Type}

/-- The lines whose `doLog` has returned. -/
def State.returned (s : State Line) : List ℕ :=
  (List.range s.entered.length).filter fun k => k ∉ s.logging

def step (s : State Line) : Event Line → Option (State Line)
  | .push line =>
    if s.m_log then
      (Post.step false s.post (.push line)).map fun p =>
        { s with
          post := p
          entered := s.entered ++ [line]
          logging := s.logging ++ [s.entered.length] }
    else none
  | .doPost number =>
    if number ∈ s.logging then
      (Post.step false s.post .doPost).map fun p =>
        { s with post := p, logging := s.logging.erase number }
    else none
  | .call => if s.due = none then some { s with due := some s.returned } else none
  | .doShutdown =>
    if s.due ≠ none ∧ s.post.m_shutdown = false then
      (Post.step false s.post .doShutdown).map fun p => { s with post := p }
    else none
  | .delete =>
    if s.post.m_shutdown ∧ s.post.pc = .exited then some { s with m_log := false } else none
  | .thread t => (Post.step false s.post (t.event Line)).map fun p => { s with post := p }

/-- The log system after `doStart`. -/
def start : State Line :=
  { post := Post.start, m_log := true, entered := [], logging := [], due := none }

def system (Line : Type) : System (State Line) (Event Line) where
  init s := s = start
  step := step

@[simp] theorem system_step (Line : Type) : (system Line).step = step := rfl

/-! ## What the steps do -/

variable {s s' : State Line}

/-- A line enters the queue while there is a log.
SOURCE: log/logSystem.cc:48-61 -/
theorem step_push {line : Line} : step s (.push line) = some s' ↔
    s.m_log = true ∧ s' = { s with
      post := { s.post with queue := s.post.queue ++ [line], posting := s.post.posting + 1 }
      entered := s.entered ++ [line]
      logging := s.logging ++ [s.entered.length] } := by
  simp [step, Post.step, eq_comm (a := s')]

/-- Its call wakes the log thread.
SOURCE: util/post.cc:28-33 -/
theorem step_doPost {number : ℕ} : step s (.doPost number) = some s' ↔
    number ∈ s.logging ∧ 0 < s.post.posting ∧ s' = { s with
      post := Post.doPost { s.post with posting := s.post.posting - 1 }
      logging := s.logging.erase number } := by
  simp [step, Post.step, eq_comm (a := s')]

/-- `doShutdown` is called, and the lines logged before it are due.
SOURCE: log/logSystem.cc:25-31 -/
theorem step_call : step s .call = some s' ↔
    s.due = none ∧ s' = { s with due := some s.returned } := by
  simp [step, eq_comm (a := s')]

/-- It tells the log thread to end.
SOURCE: util/post.cc:16-26 -/
theorem step_doShutdown : step s .doShutdown = some s' ↔
    s.due ≠ none ∧ s.post.m_shutdown = false ∧
      s' = { s with post := Post.notify { s.post with m_shutdown := true } } := by
  simp [step, Post.step, and_assoc, eq_comm (a := s')]

/-- When that has ended, the log is deleted.
SOURCE: log/logSystem.cc:25-31 -/
theorem step_delete : step s .delete = some s' ↔
    (s.post.m_shutdown = true ∧ s.post.pc = .exited) ∧ s' = { s with m_log := false } := by
  simp [step, eq_comm (a := s')]

/-- A step of the log thread.
SOURCE: util/post.cc:35-50 -/
theorem step_thread {t : ThreadStep} : step s (.thread t) = some s' ↔
    ∃ p, Post.step false s.post (t.event Line) = some p ∧ s' = { s with post := p } := by
  simp [step, eq_comm (a := s')]

end MagicNet.LogSystem
