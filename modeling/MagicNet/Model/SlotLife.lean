import MagicNet.Foundation.System
import MagicNet.Model.SendPath
import MagicNet.Model.SlotHandlers

/-!
# One slot of the table, over any run

A slot passes through the hands of the threads that reserve it, of the thread that listens with
it, of the threads that send, and of the poll thread, which handles the requests of the pipe and
the events of the last batch of `m_iocp`.  A step is one access of `getReserve`, one section of a
caller, one request or one event that concerns the slot.

`m_channel->doRegisterStartFunc` is what gives an `'S'` request its handler, and
`socketSystem::doStart` does not call it; `startFunc` says whether it is called.  Without it a start
request ends the poll thread with an exception.  An assertion that fails ends the process.

SOURCE: network/socketSystem.cc:120-155, 182-303, 383-403, 614-626, 822-917,
network/socketChannel.cc:126-188
-/

set_option autoImplicit false

namespace MagicNet.SlotLife

open MagicNet.Foundation MagicNet.Network
open MagicNet.Poll (IocpEvent)
open MagicNet.SendPath (directWrite)

/-- The slot, with the handles of the calls of `getReserve` that have won it: those before
`doRest`, those before `setHandle`, and those returned whose owner has not used them.  `evts` are
the events of the last batch for the slot that are not handled yet, and `stray` says that a
registered descriptor of the slot was overwritten: `m_iocp` keeps its registration. -/
structure State where
  c : Slot
  winners : List ℤ
  setters : List ℤ
  owners : List ℤ
  evts : List IocpEvent
  stray : Bool
  alive : Bool
  deriving DecidableEq, Repr

/-- `win`, `doRest` and `setHandle` are the steps of `getReserve` on the slot.  `listen` and `accept`
initialise it for a handle returned; `direct` is a write of `doSocketSend` under `m_mutex`, and
`incSendIn` the count of a `'D'` request.  `start`, `connect`, `send` and `close` handle a request,
and `clearClosed` is the end of one that was for another slot. -/
inductive Event where
  | win (handle : ℤ)
  | doRest (handle : ℤ)
  | setHandle (handle : ℤ)
  | listen (opaqueId : ℕ) (handle sock : ℤ)
  | accept (opaqueId : ℕ) (listener handle sock : ℤ)
  | direct (handle : ℤ) (data : List UInt8) (answer : Answer)
  | incSendIn
  | start (request : RequestStart) (registers : Bool)
  | connect (request : RequestConnect) (info : AddrInfo) (registers : Bool)
  | send (request : RequestSend)
  | close (request : RequestClose) (answers : List Answer)
  | clearClosed (handle : ℤ)
  | onWait (batch : List IocpEvent)
  | getEvent (os : Answers)
  deriving DecidableEq, Repr

namespace State

/-- The slot a handler leaves, if no assertion has failed. -/
def handled (s : State) : Option Slot → State
  | some c => { s with c := c }
  | none => { s with alive := false }

/-- The slot after its descriptor has been overwritten. -/
def overwrite (s : State) (c : Slot) : State :=
  { s with c := c, stray := s.stray || (s.c.registered && !c.registered) }

/-- `doRequestClearClosedEvent`, after a request for `handle`: a closed slot loses its first
event. -/
def clearClosed (s : State) (handle : ℤ) : State :=
  if s.c.s.m_state = .INVALID ∧ s.c.s.m_handle = handle then { s with evts := s.evts.tail } else s

end State

/-- The steps while the process and the poll thread run. -/
def act (startFunc : Bool) (s : State) : Event → Option State
  | .win handle =>
    if s.c.s.m_state = .INVALID then
      some { s with c := s.c.setState .RESERVE, winners := handle :: s.winners }
    else none
  | .doRest handle =>
    if handle ∈ s.winners then
      some { s.overwrite s.c.doRest with
        winners := s.winners.erase handle, setters := handle :: s.setters }
    else none
  | .setHandle handle =>
    if handle ∈ s.setters then
      some { s with
        c := { s.c with s := s.c.s.setHandle handle }
        setters := s.setters.erase handle
        owners := handle :: s.owners }
    else none
  | .listen opaqueId handle sock =>
    if handle ∈ s.owners then
      match s.c.listen opaqueId handle sock with
      | some c => some { s.overwrite c with owners := s.owners.erase handle }
      | none => some { s with alive := false }
    else none
  | .accept opaqueId listener handle sock =>
    if handle ∈ s.owners then
      match s.c.acceptClient opaqueId listener handle sock with
      | some c => some { s.overwrite c with owners := s.owners.erase handle }
      | none => some { s with alive := false }
    else none
  | .direct handle data answer =>
    if s.c.s.isCanSend handle then some { s with c := directWrite s.c data answer } else none
  | .incSendIn => s.c.s.incSendIn.map fun r => { s with c := { s.c with s := r.2 } }
  | .start request registers =>
    if startFunc then
      some ((s.handled (s.c.doRequestStart request registers)).clearClosed request._handle)
    else some { s with alive := false }
  | .connect request info registers =>
    some ({ s.overwrite (s.c.doRequestConnect request info registers) with
      owners := s.owners.erase request._handle }.clearClosed request._handle)
  | .send request => some { s with c := s.c.doRequestSend request }
  | .close request answers =>
    some ((s.handled (s.c.doRequestClose request answers)).clearClosed request._handle)
  | .clearClosed handle => some (s.clearClosed handle)
  | .onWait batch =>
    if s.evts = [] ∧ (batch ≠ [] → s.c.registered ∨ s.stray) then some { s with evts := batch }
    else none
  | .getEvent os =>
    match s.evts with
    | [] => none
    | e :: rest =>
      match s.c.pollEvent e os with
      | some (c, again) => some { s with c := c, evts := again.toList ++ rest }
      | none => some { s with alive := false }

def step (startFunc : Bool) (s : State) (e : Event) : Option State :=
  if s.alive then act startFunc s e else none

/-- A slot as its constructor leaves it; `m_sendWarn` and `m_recvBufferSize` are not set. -/
structure Starts (s : State) : Prop where
  state : s.c.s.m_state = .INVALID
  handle : s.c.s.m_handle = SOCKET_HANDLE_INVALID
  curSender : s.c.s.m_curSender = none
  sendQs : s.c.s.m_sendQs = []
  registered : s.c.registered = false
  messages : s.c.messages = []
  winners : s.winners = []
  setters : s.setters = []
  owners : s.owners = []
  evts : s.evts = []
  stray : s.stray = false
  alive : s.alive = true

def system (startFunc : Bool) : System State Event where
  init := Starts
  step := step startFunc

@[simp] theorem system_step (startFunc : Bool) : (system startFunc).step = step startFunc := rfl

/-- A slot that no thread has touched. -/
def start : State where
  c :=
    { s :=
        { m_handle := SOCKET_HANDLE_INVALID, m_opaque := 0, m_sock := INVALID_SOCKET,
          m_curSender := none, m_sendIn := 0, m_sendQs := [], m_sendBytes := 0, m_sendWarn := 0,
          m_recvBufferSize := 0, m_proto := .UNKNOWN, m_state := .INVALID }
      registered := false, toWrite := false, kernel := [], messages := [] }
  winners := []
  setters := []
  owners := []
  evts := []
  stray := false
  alive := true

/-- The slot of a process that has just started. -/
theorem start_starts : Starts start :=
  ⟨rfl, rfl, rfl, rfl, rfl, rfl, rfl, rfl, rfl, rfl, rfl, rfl⟩

/-- A call of `getReserve` that returns `handle`, with nobody else about. -/
def reserved (handle : ℤ) : List Event := [.win handle, .doRest handle, .setHandle handle]

/-! ## What the steps do -/

/-- Clearing the events of a closed socket leaves its slot as it is.
SOURCE: network/socketSystem.cc:614-626 -/
@[simp] theorem clearClosed_c (s : State) (handle : ℤ) : (s.clearClosed handle).c = s.c := by
  unfold State.clearClosed
  split <;> rfl

/-- And fails no assertion.
SOURCE: network/socketSystem.cc:614-626 -/
@[simp] theorem clearClosed_alive (s : State) (handle : ℤ) :
    (s.clearClosed handle).alive = s.alive := by
  unfold State.clearClosed
  split <;> rfl

/-- And registers nothing.
SOURCE: network/socketSystem.cc:614-626 -/
@[simp] theorem clearClosed_stray (s : State) (handle : ℤ) :
    (s.clearClosed handle).stray = s.stray := by
  unfold State.clearClosed
  split <;> rfl

/-- It only takes events away.
SOURCE: network/socketSystem.cc:614-626 -/
theorem clearClosed_evts {s : State} {handle : ℤ} (h : (s.clearClosed handle).evts ≠ []) :
    s.evts ≠ [] := by
  intro hnone
  apply h
  unfold State.clearClosed
  split
  · show s.evts.tail = []
    rw [hnone]
    rfl
  · exact hnone

/-- What a handler leaves in the slot concerns no other registration. -/
@[simp] theorem handled_stray (s : State) (c : Option Slot) : (s.handled c).stray = s.stray := by
  cases c <;> rfl

/-- Nor the batch. -/
@[simp] theorem handled_evts (s : State) (c : Option Slot) : (s.handled c).evts = s.evts := by
  cases c <;> rfl

@[simp] theorem overwrite_c (s : State) (c : Slot) : (s.overwrite c).c = c := rfl

/-- A registration goes astray only with a descriptor that was registered. -/
theorem overwrite_stray {s : State} {c : Slot} (h : (s.overwrite c).stray = true) :
    s.stray = true ∨ s.c.registered = true := by
  simp only [State.overwrite, Bool.or_eq_true, Bool.and_eq_true] at h
  exact h.imp_right And.left

variable {startFunc : Bool} {s s' : State}

/-- The steps that leave the slot as it is: they are not about it, or end the process. -/
def Leaves (startFunc : Bool) (c : Slot) : Event → Prop
  | .clearClosed _ | .onWait _ => True
  | .listen .. | .accept .. => c.s.m_state ≠ .RESERVE
  | .start request registers => startFunc = false ∨ c.doRequestStart request registers = none
  | .close request answers => c.doRequestClose request answers = none
  | .getEvent os => ∃ e, c.pollEvent e os = none
  | _ => False

/-- What a step makes of the slot: the section of a caller, the handler of a request or of an
event, or nothing. -/
inductive Does (startFunc : Bool) (c : Slot) : Event → Slot → Prop where
  | nothing {e : Event} : Leaves startFunc c e → Does startFunc c e c
  | win (handle : ℤ) : c.s.m_state = .INVALID → Does startFunc c (.win handle) (c.setState .RESERVE)
  | doRest (handle : ℤ) : Does startFunc c (.doRest handle) c.doRest
  | setHandle (handle : ℤ) :
      Does startFunc c (.setHandle handle) { c with s := c.s.setHandle handle }
  | listen (opaqueId : ℕ) (handle sock : ℤ) : c.s.m_state = .RESERVE →
      Does startFunc c (.listen opaqueId handle sock)
        ((c.initWith opaqueId handle sock).setState .PLISTEN)
  | accept (opaqueId : ℕ) (listener handle sock : ℤ) : c.s.m_state = .RESERVE →
      Does startFunc c (.accept opaqueId listener handle sock)
        ((c.initWith opaqueId handle sock).forward .M_SOCKET_ACCEPT opaqueId listener
          handle.toNat)
  | direct {handle : ℤ} (data : List UInt8) (answer : Answer) : c.s.isCanSend handle = true →
      Does startFunc c (.direct handle data answer) (directWrite c data answer)
  | incSendIn {r : ℤ} {t : SocketHandle} : c.s.incSendIn = some (r, t) →
      Does startFunc c .incSendIn { c with s := t }
  | start {r : RequestStart} {registers : Bool} {t : Slot} : startFunc = true →
      c.doRequestStart r registers = some t → Does startFunc c (.start r registers) t
  | connect (r : RequestConnect) (info : AddrInfo) (registers : Bool) :
      Does startFunc c (.connect r info registers) (c.doRequestConnect r info registers)
  | send (r : RequestSend) : Does startFunc c (.send r) (c.doRequestSend r)
  | close {r : RequestClose} {answers : List Answer} {t : Slot} :
      c.doRequestClose r answers = some t → Does startFunc c (.close r answers) t
  | getEvent {e : IocpEvent} {os : Answers} {again : Option IocpEvent} {t : Slot} :
      c.pollEvent e os = some (t, again) → Does startFunc c (.getEvent os) t

/-- What a step makes of a state: it does something to the slot, or ends the process; and what there
is to hear from the poller comes from a descriptor that was registered. -/
structure Steps (startFunc : Bool) (s : State) (e : Event) (s' : State) : Prop where
  slot : s'.alive = true ∧ Does startFunc s.c e s'.c ∨
    s'.alive = false ∧ s'.c = s.c ∧ Leaves startFunc s.c e
  stray : s'.stray = true → s.stray = true ∨ s.c.registered = true
  evts : s'.evts ≠ [] → s.evts ≠ [] ∨ s.c.registered = true ∨ s.stray = true

/-- A step that ends the process. -/
theorem Steps.ends {e : Event} (h : Leaves startFunc s.c e) :
    Steps startFunc s e { s with alive := false } :=
  ⟨.inr ⟨rfl, rfl, h⟩, .inl, .inl⟩

/-- **What a step makes of a state.** -/
theorem step_steps {e : Event} (hs : step startFunc s e = some s') : Steps startFunc s e s' := by
  simp only [step, Option.ite_none_right_eq_some] at hs
  obtain ⟨halive, hs⟩ := hs
  cases e with
  | win handle =>
    simp only [act, Option.ite_none_right_eq_some, Option.some.injEq] at hs
    obtain ⟨hstate, rfl⟩ := hs
    exact ⟨.inl ⟨halive, .win handle hstate⟩, .inl, .inl⟩
  | doRest handle =>
    simp only [act, Option.ite_none_right_eq_some, Option.some.injEq] at hs
    obtain ⟨-, rfl⟩ := hs
    exact ⟨.inl ⟨halive, .doRest handle⟩, overwrite_stray, .inl⟩
  | setHandle handle =>
    simp only [act, Option.ite_none_right_eq_some, Option.some.injEq] at hs
    obtain ⟨-, rfl⟩ := hs
    exact ⟨.inl ⟨halive, .setHandle handle⟩, .inl, .inl⟩
  | listen opaqueId handle sock =>
    simp only [act, Option.ite_none_right_eq_some] at hs
    obtain ⟨-, hs⟩ := hs
    unfold Slot.listen at hs
    by_cases hstate : s.c.s.m_state = .RESERVE
    · simp only [hstate, if_true, Option.some.injEq] at hs
      rw [← hs]
      exact ⟨.inl ⟨halive, .listen opaqueId handle sock hstate⟩, overwrite_stray, .inl⟩
    · simp only [hstate, if_false, Option.some.injEq] at hs
      rw [← hs]
      exact Steps.ends hstate
  | accept opaqueId listener handle sock =>
    simp only [act, Option.ite_none_right_eq_some] at hs
    obtain ⟨-, hs⟩ := hs
    unfold Slot.acceptClient at hs
    by_cases hstate : s.c.s.m_state = .RESERVE
    · simp only [hstate, if_true, Option.some.injEq] at hs
      rw [← hs]
      exact ⟨.inl ⟨halive, .accept opaqueId listener handle sock hstate⟩, overwrite_stray, .inl⟩
    · simp only [hstate, if_false, Option.some.injEq] at hs
      rw [← hs]
      exact Steps.ends hstate
  | direct handle data answer =>
    simp only [act, Option.ite_none_right_eq_some, Option.some.injEq] at hs
    obtain ⟨hcan, rfl⟩ := hs
    exact ⟨.inl ⟨halive, .direct data answer hcan⟩, .inl, .inl⟩
  | incSendIn =>
    simp only [act, Option.map_eq_some_iff] at hs
    obtain ⟨⟨r, t⟩, hr, rfl⟩ := hs
    exact ⟨.inl ⟨halive, .incSendIn hr⟩, .inl, .inl⟩
  | start request registers =>
    simp only [act] at hs
    split at hs
    · next hfunc =>
      cases hs
      refine ⟨?_, ?_, fun hevts => .inl ?_⟩
      · rw [clearClosed_c, clearClosed_alive]
        cases hr : s.c.doRequestStart request registers with
        | none => exact .inr ⟨rfl, rfl, .inr hr⟩
        | some t => exact .inl ⟨halive, .start hfunc hr⟩
      · rw [clearClosed_stray, handled_stray]
        exact .inl
      · have hkept := clearClosed_evts hevts
        rwa [handled_evts] at hkept
    · next hfunc =>
      cases hs
      exact Steps.ends (.inl (by simpa using hfunc))
  | connect request info registers =>
    cases hs
    refine ⟨.inl ⟨?_, ?_⟩, ?_, fun hevts => .inl ?_⟩
    · rw [clearClosed_alive]
      exact halive
    · rw [clearClosed_c]
      exact .connect request info registers
    · rw [clearClosed_stray]
      exact overwrite_stray
    · have hkept := clearClosed_evts hevts
      exact hkept
  | send request =>
    cases hs
    exact ⟨.inl ⟨halive, .send request⟩, .inl, .inl⟩
  | close request answers =>
    cases hs
    refine ⟨?_, ?_, fun hevts => .inl ?_⟩
    · rw [clearClosed_c, clearClosed_alive]
      cases hr : s.c.doRequestClose request answers with
      | none => exact .inr ⟨rfl, rfl, hr⟩
      | some t => exact .inl ⟨halive, .close hr⟩
    · rw [clearClosed_stray, handled_stray]
      exact .inl
    · have hkept := clearClosed_evts hevts
      rwa [handled_evts] at hkept
  | clearClosed handle =>
    cases hs
    refine ⟨.inl ⟨?_, ?_⟩, ?_, fun hevts => .inl (clearClosed_evts hevts)⟩
    · rw [clearClosed_alive]
      exact halive
    · rw [clearClosed_c]
      exact .nothing trivial
    · rw [clearClosed_stray]
      exact .inl
  | onWait batch =>
    simp only [act, Option.ite_none_right_eq_some, Option.some.injEq] at hs
    obtain ⟨⟨-, hwatched⟩, rfl⟩ := hs
    exact ⟨.inl ⟨halive, .nothing trivial⟩, .inl, fun hevts => .inr (hwatched hevts)⟩
  | getEvent os =>
    simp only [act] at hs
    split at hs
    · cases hs
    · next e rest hevts =>
      have hsome : s.evts ≠ [] := by simp [hevts]
      split at hs
      · next hpoll =>
        cases hs
        exact ⟨.inl ⟨halive, .getEvent hpoll⟩, .inl, fun _ => .inl hsome⟩
      · next hpoll =>
        cases hs
        exact Steps.ends ⟨e, hpoll⟩

/-- What a step makes of the slot. -/
theorem step_does {e : Event} (hs : step startFunc s e = some s') :
    Does startFunc s.c e s'.c := by
  rcases (step_steps hs).slot with ⟨-, hdoes⟩ | ⟨-, hsame, hleaves⟩
  · exact hdoes
  · rw [hsame]
    exact .nothing hleaves

/-- An event is only handled when the batch has one. -/
theorem step_getEvent {os : Answers} (hs : step startFunc s (.getEvent os) = some s') :
    s.evts ≠ [] := by
  intro hnone
  simp [step, act, hnone] at hs

/-- Without a handler, a start request ends the poll thread. -/
theorem step_start_ends {r : RequestStart} {registers : Bool}
    (hs : step false s (.start r registers) = some s') : s'.alive = false := by
  simp only [step, act, Bool.false_eq_true, if_false, Option.ite_none_right_eq_some,
    Option.some.injEq] at hs
  rw [← hs.2]

/-- What a connect request makes of the slot. -/
theorem step_connect {r : RequestConnect} {info : AddrInfo} {registers : Bool}
    (hs : step startFunc s (.connect r info registers) = some s') :
    s'.c = s.c.doRequestConnect r info registers := by
  generalize hc : s.c = c
  generalize ht : s'.c = t
  have hdoes := step_does hs
  rw [hc, ht] at hdoes
  cases hdoes with
  | nothing hleaves => exact hleaves.elim
  | connect => rfl

end MagicNet.SlotLife
