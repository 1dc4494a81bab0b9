import MagicNet.Foundation.System
import MagicNet.Model.SocketSystem

/-!
# The two paths of a send

A caller of `doSocketSend` writes to the socket itself when it gets `m_mutex` at once and
`isCanSend` allows it, and otherwise sends a `'D'` request to the poll thread, which appends the
buffer to `m_sendQs` in `doRequestSend` and flushes it on write events in `doSendProc`.

One sender thread and the poll thread work on one slot.  A step is one test outside the lock,
one attempt to take `m_mutex`, one whole section under it, one `incSendIn`, or one write to or
read from the pipe.  `accepted` collects the buffers of the calls that return 0, at the step
after which the call can only return.

SOURCE: network/socketSystem.cc:250-303, 534-568, 774-820
-/

set_option autoImplicit false

namespace MagicNet.SendPath

open MagicNet.Foundation MagicNet.Network

/-- Where the sender is in `doSocketSend`: in no call, at `try_lock`, at `isCanSend` with `m_mutex`,
at `incSendIn`, or at `m_channel->doSend`. -/
inductive SenderPc where
  | idle
  | tryLock (data : List UInt8)
  | holds (data : List UInt8)
  | incSendIn (data : List UInt8)
  | write (data : List UInt8)
  deriving DecidableEq, Repr

/-- Where the poll thread is: in no handler, in `doRequestSend` before and after it has `m_mutex`,
or in `doSendProc` with `m_mutex`. -/
inductive PollPc where
  | idle
  | request (r : RequestSend)
  | holdsRequest (r : RequestSend)
  | holdsSend
  deriving DecidableEq, Repr

/-- The slot, its lock, the two threads, the `'D'` requests in the pipe, oldest first, and the
buffers of the calls that return 0, in call order. -/
structure State where
  c : Slot
  m_mutex : Bool
  sender : SenderPc
  poll : PollPc
  pipe : List RequestSend
  accepted : List UInt8
  deriving DecidableEq, Repr

/-- The sender's steps are the tests of the state at the call, `try_lock`, the section under the
lock (`isCanSend` and the direct write), `incSendIn` and the write of a request.  The poll thread
reads a request, takes the lock for it and runs `doRequestSend`; it takes the lock for a write
event and runs `doSendProc`; and it may close the slot for another reason. -/
inductive Event where
  | call (data : List UInt8)
  | tryLock
  | direct (answer : Answer)
  | incSendIn
  | write
  | readRequest
  | lockRequest
  | request
  | sendProc
  | send (answers : List Answer)
  | forceClose
  deriving DecidableEq, Repr

/-- The bytes a kernel that answers a direct write of `data` takes; an error counts as none. -/
def directBytes (data : List UInt8) : Answer → ℕ
  | .takes n => min n data.length
  | _ => 0

/-- The direct write of `doSocketSend`. -/
def directWrite (c : Slot) (data : List UInt8) (answer : Answer) : Slot :=
  let n := directBytes data answer
  let c := { c with kernel := c.kernel ++ data.take n }
  if n = data.length then c
  else { c with s := c.s.setCurrentSendBuffer data n data.length }.doToWrite true

/-- The tests `doSocketSend` makes before it tries the lock. -/
def acceptsSend (state : SocketState) : Bool :=
  match state with
  | .INVALID | .HALFCLOSE | .PACCEPT | .PLISTEN | .LISTEN => false
  | _ => true

/-- `handle` is the handle the sender uses. -/
def step (handle : ℤ) (s : State) : Event → Option State
  | .call data =>
    if s.sender = .idle then
      some { s with sender := if acceptsSend s.c.s.m_state then .tryLock data else .idle }
    else none
  | .tryLock =>
    match s.sender with
    | .tryLock data =>
      if s.m_mutex then some { s with sender := .incSendIn data }
      else some { s with m_mutex := true, sender := .holds data }
    | _ => none
  | .direct answer =>
    match s.sender with
    | .holds data =>
      if s.c.s.isCanSend handle then
        some { s with
          c := directWrite s.c data answer
          m_mutex := false
          sender := .idle
          accepted := s.accepted ++ data }
      else some { s with m_mutex := false, sender := .incSendIn data }
    | _ => none
  | .incSendIn =>
    match s.sender with
    | .incSendIn data =>
      match s.c.s.incSendIn with
      | some (r, t) =>
        some { s with
          c := { s.c with s := t }
          sender := if r ≠ 0 then .idle else .write data }
      | none => none
    | _ => none
  | .write =>
    match s.sender with
    | .write data =>
      let request :=
        { _handle := handle, _sz := toInt32 data.length, _data := data : RequestSend }
      some { s with
        sender := .idle, pipe := s.pipe ++ [request], accepted := s.accepted ++ data }
    | _ => none
  | .readRequest =>
    match s.poll, s.pipe with
    | .idle, r :: rest => some { s with poll := .request r, pipe := rest }
    | _, _ => none
  | .lockRequest =>
    match s.poll with
    | .request r =>
      if s.m_mutex then none else some { s with m_mutex := true, poll := .holdsRequest r }
    | _ => none
  | .request =>
    match s.poll with
    | .holdsRequest r =>
      some { s with c := s.c.doRequestSend r, m_mutex := false, poll := .idle }
    | _ => none
  | .sendProc =>
    if s.poll = .idle ∧ s.c.s.m_state ≠ .INVALID then
      if s.m_mutex then some s else some { s with m_mutex := true, poll := .holdsSend }
    else none
  | .send answers =>
    if s.poll = .holdsSend then
      (s.c.doSendProc answers).map fun c => { s with c := c, m_mutex := false, poll := .idle }
    else none
  | .forceClose =>
    if s.poll = .idle ∧ s.m_mutex = false then
      s.c.forceClose.map fun c => { s with c := c }
    else none

/-! ## What the steps do -/

section Steps

variable {handle : ℤ} {s s' : State}

/-- A call begins where the slot's state takes data.
SOURCE: network/socketSystem.cc:250-303 -/
theorem step_call {data : List UInt8} : step handle s (.call data) = some s' ↔
    s.sender = .idle ∧
      s' = { s with sender := if acceptsSend s.c.s.m_state then .tryLock data else .idle } := by
  simp [step, eq_comm (a := s')]

/-- The call gets the slot's lock, or goes the way of a request.
SOURCE: network/socketSystem.cc:250-303 -/
theorem step_tryLock : step handle s .tryLock = some s' ↔
    ∃ data, s.sender = .tryLock data ∧
      (s.m_mutex = true ∧ s' = { s with sender := .incSendIn data } ∨
        s.m_mutex = false ∧ s' = { s with m_mutex := true, sender := .holds data }) := by
  cases hpc : s.sender <;> cases hm : s.m_mutex <;> simp [step, hpc, hm, eq_comm (a := s')]

/-- With the lock it writes at once, where the slot can send.
SOURCE: network/socketSystem.cc:250-303 -/
theorem step_direct {answer : Answer} : step handle s (.direct answer) = some s' ↔
    ∃ data, s.sender = .holds data ∧
      (s.c.s.isCanSend handle = true ∧ s' = { s with
          c := directWrite s.c data answer, m_mutex := false, sender := .idle,
          accepted := s.accepted ++ data } ∨
        s.c.s.isCanSend handle = false ∧
          s' = { s with m_mutex := false, sender := .incSendIn data }) := by
  cases hpc : s.sender <;> cases hc : s.c.s.isCanSend handle <;>
    simp [step, hpc, hc, eq_comm (a := s')]

/-- Without it the call counts itself in.
SOURCE: network/socketSystem.cc:250-303, network/socketHandle.cc:125-144 -/
theorem step_incSendIn : step handle s .incSendIn = some s' ↔
    ∃ data r t, s.sender = .incSendIn data ∧ s.c.s.incSendIn = some (r, t) ∧
      s' = { s with
        c := { s.c with s := t }, sender := if r ≠ 0 then .idle else .write data } := by
  cases hpc : s.sender with
  | incSendIn data =>
    rcases hi : s.c.s.incSendIn with _ | ⟨r, t⟩ <;> simp [step, hpc, hi, eq_comm (a := s')]
  | _ => simp [step, hpc]

/-- And writes its request into the pipe.
SOURCE: network/socketSystem.cc:250-303, network/socketChannel.cc:54-58 -/
theorem step_write : step handle s .write = some s' ↔
    ∃ data, s.sender = .write data ∧ s' = { s with
      sender := .idle
      pipe := s.pipe ++ [{ _handle := handle, _sz := toInt32 data.length, _data := data }]
      accepted := s.accepted ++ data } := by
  cases hpc : s.sender <;> simp [step, hpc, eq_comm (a := s')]

/-- The poll thread reads a request.
SOURCE: network/socketChannel.cc:126-188 -/
theorem step_readRequest : step handle s .readRequest = some s' ↔
    ∃ r rest, s.poll = .idle ∧ s.pipe = r :: rest ∧
      s' = { s with poll := .request r, pipe := rest } := by
  cases hpoll : s.poll <;> cases hpipe : s.pipe <;>
    simp [step, hpoll, hpipe, eq_comm (a := s')]

/-- It takes the slot's lock.
SOURCE: network/socketSystem.cc:534-568 -/
theorem step_lockRequest : step handle s .lockRequest = some s' ↔
    ∃ r, s.poll = .request r ∧ s.m_mutex = false ∧
      s' = { s with m_mutex := true, poll := .holdsRequest r } := by
  cases hpoll : s.poll <;> simp [step, hpoll, eq_comm (a := s')]

/-- It handles the request.
SOURCE: network/socketSystem.cc:534-568 -/
theorem step_request : step handle s .request = some s' ↔
    ∃ r, s.poll = .holdsRequest r ∧
      s' = { s with c := s.c.doRequestSend r, m_mutex := false, poll := .idle } := by
  cases hpoll : s.poll <;> simp [step, hpoll, eq_comm (a := s')]

/-- For a write event it tries to take the lock.
SOURCE: network/socketSystem.cc:774-805 -/
theorem step_sendProc : step handle s .sendProc = some s' ↔
    (s.poll = .idle ∧ s.c.s.m_state ≠ .INVALID) ∧
      (s.m_mutex = true ∧ s' = s ∨
        s.m_mutex = false ∧ s' = { s with m_mutex := true, poll := .holdsSend }) := by
  cases hm : s.m_mutex <;> simp [step, hm, eq_comm (a := s')]

/-- With the lock it sends what is queued.
SOURCE: network/socketSystem.cc:774-805 -/
theorem step_send {answers : List Answer} : step handle s (.send answers) = some s' ↔
    s.poll = .holdsSend ∧ ∃ c, s.c.doSendProc answers = some c ∧
      s' = { s with c := c, m_mutex := false, poll := .idle } := by
  simp [step, eq_comm (a := s')]

/-- It closes the slot.
SOURCE: network/socketSystem.cc:807-820 -/
theorem step_forceClose : step handle s .forceClose = some s' ↔
    (s.poll = .idle ∧ s.m_mutex = false) ∧
      ∃ c, s.c.forceClose = some c ∧ s' = { s with c := c } := by
  simp [step, eq_comm (a := s')]

end Steps

/-! ## Runs -/

/-- A connected TCP slot of this handle with nothing to send. -/
structure Starts (handle : ℤ) (s : State) : Prop where
  handle : s.c.s.m_handle = handle
  proto : s.c.s.m_proto = .TCP
  state : s.c.s.m_state = .CONNECTED
  curSender : s.c.s.m_curSender = none
  sendQs : s.c.s.m_sendQs = []
  kernel : s.c.kernel = []
  idle : s.m_mutex = false ∧ s.sender = .idle ∧ s.poll = .idle
  pipe : s.pipe = []
  accepted : s.accepted = []

def system (handle : ℤ) : System State Event where
  init := Starts handle
  step := step handle

@[simp] theorem system_step (handle : ℤ) : (system handle).step = step handle := rfl

/-! ## Bytes on their way -/

/-- The request the poll thread works on. -/
def PollPc.requests : PollPc → List RequestSend
  | .request r => [r]
  | .holdsRequest r => [r]
  | _ => []

/-- The bytes of the `'D'` requests in flight. -/
def inFlight (s : State) : List UInt8 :=
  (s.poll.requests ++ s.pipe).flatMap RequestSend._data

/-- The accepted bytes that the kernel has not taken: those of the slot, then those in flight. -/
def pending (s : State) : List UInt8 := s.c.s.unsent ++ inFlight s

/-- The buffer of the call in progress. -/
def SenderPc.data : SenderPc → List UInt8
  | .idle => []
  | .tryLock data | .holds data | .incSendIn data | .write data => data

/-- A direct write finds no accepted byte pending, and the sizes fit in `int32_t`. -/
structure Cond (handle : ℤ) (s : State) (e : Event) : Prop where
  direct : ∀ answer data, e = .direct answer → s.sender = .holds data →
    s.c.s.isCanSend handle = true → pending s = [] ∨ data = []
  size : ∀ data, e = .call data → data.length < 2 ^ 31

end MagicNet.SendPath
