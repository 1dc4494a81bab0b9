import MagicNet.Foundation.System
import MagicNet.Model.SocketHandle

/-!
# The poll loop

`socketSystem::doPoll` alternates between the commands of the pipe and the events of the last
batch of `m_iocp`.  `socketChannel::doWait` reads one command if its flag `m_controlCtrl` is set
and the pipe has one; with no command in the pipe it clears the flag.  `m_error` tells the loop
what `doWait` has done.

A step is one round of the loop up to the batch (`doWait`), the wait for a batch when the last
one is used up, or one event of the batch.  Commands arrive in the pipe at any moment.  What the
handlers of the commands and of the events report is part of the step; a handler that throws
ends the poll thread.

SOURCE: network/socketSystem.cc:614-626, 822-917, network/socketChannel.cc:90-188,
network/iocpWrap.h:23-26
-/

set_option autoImplicit false

namespace MagicNet.Poll

open MagicNet.Foundation MagicNet.Network

def IOCP_EVENT_WAIT_MAX : ℕ := 1024

/-- `socketChannel::errCode`. -/
def CH_NOEINTR : ℤ := 1
def CH_EINTR : ℤ := 2
def CH_ERROR : ℤ := 3
def CH_EXIT : ℤ := 4

/-- The letters of the commands; `other` is any letter `doProccess` does not know. -/
inductive Command where
  | D | P | S | K | C | T | X
  | other
  deriving DecidableEq, Repr

/-- `iocpEvent`: the slot it is for (`nullptr` for the pipe) and its flags. -/
structure IocpEvent where
  s : Option ℕ
  isread : Bool
  iswrite : Bool
  iserror : Bool
  iseof : Bool
  deriving DecidableEq, Repr

/-- What the handler of a command reports: `closed` when it returns `M_SOCKET_CLOSE` or
`M_SOCKET_ERROR`, and the slots of `gone` are then `INVALID` with the handle of the command. -/
inductive Ret where
  | open
  | closed (gone : List ℕ)
  deriving DecidableEq, Repr

/-- Where the poll thread is: at `m_channel->doWait`, at `if (idx == n)`, at `getEvent(idx++)`, or
out of `doPoll`, be it by an exception or an assertion. -/
inductive Pc where
  | top
  | wait
  | event
  | exited
  deriving DecidableEq, Repr

/-- The poll thread, the channel and the poller.  `pipe` has the oldest command first; `stale`
counts its commands that were there when the last `onWait` returned. -/
structure State where
  pc : Pc
  pipe : List Command
  m_controlCtrl : Bool
  m_error : ℤ
  idx : ℤ
  n : ℤ
  m_evts : ℤ → IocpEvent
  stale : ℕ

/-- `arrive` is the write of a command by `socketChannel::doSend`; the others are the poll thread's.
`doWait` comes with the tests of its result, `ret` being what the handler of a command reports;
`skip` is `idx != n`; `m_iocp->onWait` returns a batch or an error, `EINTR` or another; `getEvent`
is one event whose slot is in state `state`, and `lost` says that `doRecvProc` has returned
`M_SOCKET_CLOSE` or `M_SOCKET_ERROR`. -/
inductive Event where
  | arrive (command : Command)
  | doWait (ret : Ret)
  | skip
  | onWait (batch : List IocpEvent)
  | onWaitFails (interrupted : Bool)
  | getEvent (state : SocketState) (lost : Bool)

/-- The assertion of `iocpWrap::getEvent`. -/
def InBounds (i : ℤ) : Prop := 0 ≤ i ∧ i < IOCP_EVENT_WAIT_MAX

instance (i : ℤ) : Decidable (InBounds i) := inferInstanceAs (Decidable (_ ∧ _))

/-- `socketSystem::doRequestClearClosedEvent`: the first event from `idx` on whose slot is
`gone` loses its slot; `none` when an assertion of `getEvent` fails before. -/
def clearClosed (m_evts : ℤ → IocpEvent) (gone : List ℕ) (idx n : ℤ) : Option (ℤ → IocpEvent) :=
  match ((List.range (n - idx).toNat).map (idx + ·)).find? fun i =>
    !decide (InBounds i) || (m_evts i).s.any (gone.contains ·) with
  | some i =>
    if InBounds i then some (Function.update m_evts i { m_evts i with s := none }) else none
  | none => some m_evts

/-- The end of `doProccess`, when the handler has reported `ret`. -/
def reported (s : State) : Ret → Option State
  | .open => some { s with m_error := CH_EINTR }
  | .closed gone =>
    -- `m_error == errCode::CH_ERROR` compares and assigns nothing
    (clearClosed s.m_evts gone s.idx s.n).map fun m_evts => { s with m_evts := m_evts }

/-- `socketChannel::doProccess` on the command read; `none` when an exception or an assertion
ends the thread.  No handler is registered for `S`, and a call of an empty function throws. -/
def doProccess (s : State) (ret : Ret) : Command → Option State
  | .D | .P | .K | .C => reported s ret
  | .T => reported { s with m_error := CH_EINTR } ret
  | .S => none
  | .X => some { s with m_error := CH_EXIT }
  | .other => reported s .open

/-- The tests of `doPoll` after `doWait` has returned -1. -/
def afterWait (s : State) : State :=
  { s with pc :=
      if s.m_error = CH_EINTR ∨ s.m_error = CH_ERROR then .top
      else if s.m_error = CH_EXIT then .exited
      else .wait }

/-- `socketChannel::doWait` and the tests after it. -/
def doWait (s : State) (ret : Ret) : State :=
  if s.m_controlCtrl = false then afterWait { s with m_error := CH_NOEINTR }
  else
    match s.pipe with
    | [] => afterWait { s with m_controlCtrl := false, m_error := CH_NOEINTR }
    | command :: rest =>
      match doProccess { s with pipe := rest, stale := s.stale - 1 } ret command with
      | some t => afterWait t
      | none => { s with pipe := rest, stale := s.stale - 1, pc := .exited }

/-- The body of the loop for one event. -/
def getEvent (s : State) (state : SocketState) (lost : Bool) : State :=
  if InBounds s.idx then
    let e := s.m_evts s.idx
    let next := { s with pc := .top, idx := s.idx + 1 }
    if e.s = none then next
    else
      match state with
      | .CONNECTING | .LISTEN | .INVALID => next
      | _ =>
        if e.isread ∧ e.iswrite ∧ lost = false then
          { next with
            idx := next.idx - 1
            m_evts := Function.update s.m_evts s.idx { e with isread := false } }
        else next
  else { s with pc := .exited }

def step (s : State) : Event → Option State
  | .arrive command => some { s with pipe := s.pipe ++ [command] }
  | .doWait ret => if s.pc = .top then some (doWait s ret) else none
  | .skip => if s.pc = .wait ∧ s.idx ≠ s.n then some { s with pc := .event } else none
  | .onWait batch =>
    if s.pc = .wait ∧ s.idx = s.n ∧ batch ≠ [] ∧ batch.length ≤ IOCP_EVENT_WAIT_MAX then
      some { s with
        pc := .event
        n := batch.length
        idx := 0
        m_evts := fun i => if i < 0 then s.m_evts i else (batch[i.toNat]?).getD (s.m_evts i)
        stale := s.pipe.length }
    else none
  | .onWaitFails interrupted =>
    if s.pc = .wait ∧ s.idx = s.n then
      some { s with
        pc := if interrupted then .top else .exited
        n := 0
        idx := 0
        stale := s.pipe.length }
    else none
  | .getEvent state lost => if s.pc = .event then some (getEvent s state lost) else none

/-- The poll thread starts with the flag set; `m_error`, `n` and the events are not set. -/
structure Starts (s : State) : Prop where
  pc : s.pc = .top
  pipe : s.pipe = []
  flag : s.m_controlCtrl = true
  idx : s.idx = 0
  stale : s.stale = 0

def system : System State Event where
  init := Starts
  step := step

@[simp] theorem system_step : system.step = step := rfl

/-! ## What the steps do -/

variable {s s' : State}

/-- A command is written into the pipe.
SOURCE: network/socketChannel.cc:60-73 -/
theorem step_arrive {command : Command} : step s (.arrive command) = some s' ↔
    s' = { s with pipe := s.pipe ++ [command] } := by
  simp [step, eq_comm (a := s')]

/-- The loop looks at the pipe.
SOURCE: network/socketChannel.cc:111-124 -/
theorem step_doWait {ret : Ret} : step s (.doWait ret) = some s' ↔
    s.pc = .top ∧ s' = doWait s ret := by
  simp [step, eq_comm (a := s')]

/-- It goes on with the batch it has.
SOURCE: network/socketSystem.cc:822-917 -/
theorem step_skip : step s .skip = some s' ↔
    (s.pc = .wait ∧ s.idx ≠ s.n) ∧ s' = { s with pc := .event } := by
  simp [step, eq_comm (a := s')]

/-- `onWait` fails, and the loop ends unless it was interrupted.
SOURCE: network/socketSystem.cc:822-917 -/
theorem step_onWaitFails {interrupted : Bool} : step s (.onWaitFails interrupted) = some s' ↔
    (s.pc = .wait ∧ s.idx = s.n) ∧ s' = { s with
      pc := if interrupted then .top else .exited, n := 0, idx := 0, stale := s.pipe.length } := by
  simp [step, eq_comm (a := s')]

/-- An event of the batch is handled.
SOURCE: network/socketSystem.cc:822-917 -/
theorem step_getEvent {state : SocketState} {lost : Bool} :
    step s (.getEvent state lost) = some s' ↔ s.pc = .event ∧ s' = getEvent s state lost := by
  simp [step, eq_comm (a := s')]

/-- A new batch leaves the pipe and `m_controlCtrl` as they are.
SOURCE: network/socketSystem.cc:822-917 -/
theorem step_onWait {batch : List IocpEvent} (h : step s (.onWait batch) = some s') :
    (s.pc = .wait ∧ s.idx = s.n) ∧ s'.pc = .event ∧ s'.pipe = s.pipe ∧
      s'.m_controlCtrl = s.m_controlCtrl ∧ s'.stale = s.pipe.length := by
  simp only [step, Option.ite_none_right_eq_some, Option.some.injEq] at h
  obtain ⟨⟨hpc, hidx, -⟩, rfl⟩ := h
  exact ⟨⟨hpc, hidx⟩, rfl, rfl, rfl, rfl⟩

/-- An event of the batch leaves the pipe and the channel alone. -/
theorem getEvent_frame (s : State) (state : SocketState) (lost : Bool) :
    (getEvent s state lost).pc ≠ .wait ∧ (getEvent s state lost).pipe = s.pipe ∧
      (getEvent s state lost).m_controlCtrl = s.m_controlCtrl ∧
      (getEvent s state lost).stale = s.stale := by
  unfold getEvent
  split
  · simp only
    split
    · simp
    · split
      · simp
      · simp
      · simp
      · split <;> simp
  · simp

/-- `doProccess` leaves the pipe, the flag and the cursor alone. -/
theorem doProccess_frame {t : State} {ret : Ret} {command : Command}
    (h : doProccess s ret command = some t) : t.pipe = s.pipe ∧
      t.m_controlCtrl = s.m_controlCtrl ∧ t.stale = s.stale ∧ t.idx = s.idx ∧ t.n = s.n := by
  have hreported : ∀ {s t : State} {ret : Ret}, reported s ret = some t → t.pipe = s.pipe ∧
      t.m_controlCtrl = s.m_controlCtrl ∧ t.stale = s.stale ∧ t.idx = s.idx ∧ t.n = s.n := by
    intro s t ret h
    cases ret with
    | «open» =>
      simp only [reported, Option.some.injEq] at h
      simp [← h]
    | closed gone =>
      simp only [reported, Option.map_eq_some_iff] at h
      obtain ⟨m_evts, -, rfl⟩ := h
      simp
  cases command <;> simp only [doProccess] at h
  case S => cases h
  case X =>
    rw [Option.some.injEq] at h
    simp [← h]
  case T => simpa using hreported h
  all_goals exact hreported h

/-! ## The calls of `getEvent` -/

/-- The commands whose handlers report to `doProccess`. -/
def Command.handled : Command → Bool
  | .D | .P | .K | .C | .T => true
  | _ => false

/-- The arguments of the calls in `doRequestClearClosedEvent`, the last one the event found. -/
def clearCalls (m_evts : ℤ → IocpEvent) (gone : List ℕ) (idx n : ℤ) : List ℤ :=
  let events := (List.range (n - idx).toNat).map fun k : ℕ => idx + k
  let found := fun i => !decide (InBounds i) || (m_evts i).s.any (gone.contains ·)
  events.takeWhile (fun i => !found i) ++ (events.find? found).toList

/-- The arguments of the calls of `m_iocp->getEvent` in a step. -/
def calls (s : State) : Event → List ℤ
  | .getEvent _ _ => [s.idx]
  | .doWait (.closed gone) =>
    match s.m_controlCtrl, s.pipe with
    | true, command :: _ =>
      if command.handled then clearCalls s.m_evts gone s.idx s.n else []
    | _, _ => []
  | _ => []

/-- The result of the last `onWait` that has returned a batch. -/
def lastBatch (es : List Event) : Option ℕ :=
  (es.filterMap fun
    | .onWait batch => some batch.length
    | _ => none).getLast?

/-- After the events of the run each call of `getEvent` is for an event of the last batch. -/
def InBatch (s₀ : State) (es : List Event) : Prop :=
  ∀ s e, system.run s₀ es = some s → (step s e).isSome →
    ∀ i ∈ calls s e, ∃ n, lastBatch es = some n ∧ 0 ≤ i ∧ i < n

end MagicNet.Poll
