import MagicNet.Foundation.System
import MagicNet.Model.ReceiveBuffer

/-!
# The coroutines that are suspended on a socket

A `socketOper` has two places for the entry of a suspended coroutine: `m_co`, for a reader, a closer
or the coroutine that has connected it, and `m_closing`, for a closer that finds `m_co` taken.  The
message handlers wake the one in `m_co`; whoever comes back from `doSuspend` wakes the one in
`m_closing`.

The socket is connected, and one coroutine at most is in a call that reads, and one in `doClose`.  A
step is a call up to its suspension or its end, what a woken coroutine does after `doWait`, or a
message.  `doCreateCo` and `doWait` make a new entry each time; to wake an entry nobody waits with, or
one that is woken, does nothing.

SOURCE: api/socket.cc:100-262, 395-413, 429-442, 493-578, 608-653, 665-688
-/

set_option autoImplicit false

namespace MagicNet.Suspend

open MagicNet.Foundation MagicNet.Network
open MagicNet.Receive (Buffer Line)

/-- `m_readRequired`, a `boost::any`. -/
inductive Required where
  | empty
  | int (tmpsz : ℤ)
  | string (sep : List UInt8)
  deriving DecidableEq, Repr

inductive Request where
  | doRead (outBuffer : List UInt8) (outLen : ℤ)
  | doReadLine (sep : List UInt8)
  deriving DecidableEq, Repr

/-- What a call that waits sets `m_readRequired` to. -/
def Request.required : Request → Required
  | .doRead _ outLen => .int outLen
  | .doReadLine sep => .string sep

/-- A coroutine in `doWait`, and whether it has been woken. -/
structure Waiter where
  entry : ℕ
  woken : Bool
  deriving DecidableEq, Repr

/-- Where a closer is suspended. -/
inductive Place where
  | doSuspend
  | doCloseSusped
  deriving DecidableEq, Repr

structure Reader where
  waiter : Waiter
  request : Request
  deriving DecidableEq, Repr

structure Closer where
  waiter : Waiter
  place : Place
  deriving DecidableEq, Repr

/-- `pooled` says that `gSocketPool` has the socket, `connector` that the coroutine in `makeSocket` has
been woken and has not run, `closed` that `CLOSE` has been handled, and `failed` that an assertion has
failed. -/
structure State where
  m_connected : Bool
  m_readRequired : Required
  m_buffer : Buffer
  m_bufferLimit : ℤ
  m_co : Option ℕ
  m_closing : Option ℕ
  pooled : Bool
  entries : ℕ
  reader : Option Reader
  closer : Option Closer
  connector : Bool
  closed : Bool
  failed : Bool
  deriving DecidableEq, Repr

def Waiter.wake (entry : ℕ) (w : Waiter) : Waiter :=
  if w.entry = entry then { w with woken := true } else w

def Reader.wake (entry : ℕ) (r : Reader) : Reader := { r with waiter := r.waiter.wake entry }

def Closer.wake (entry : ℕ) (k : Closer) : Closer := { k with waiter := k.waiter.wake entry }

namespace State

variable (s : State)

/-- `actorComponent::doWakeup` -/
def wake (entry : ℕ) : State :=
  { s with reader := s.reader.map (Reader.wake entry), closer := s.closer.map (Closer.wake entry) }

/-- SOURCE: api/socket.cc:143-150 -/
def doWakeup : State :=
  match s.m_co with
  | none => s
  | some co => { s with m_co := none }.wake co

/-- The end of `doSuspend`. -/
def wakeClosing : State :=
  match s.m_closing with
  | none => s
  | some co => s.wake co

/-! ## The calls that read -/

/-- What a call does before it waits, and whether it has to. -/
def tryRead : Request → Option (Bool × State)
  | .doRead outBuffer outLen =>
    (s.m_buffer.doRead outBuffer outLen).map fun r =>
      (decide (r.1 = -1 ∧ s.m_connected), { s with m_buffer := r.2.2 })
  | .doReadLine sep =>
    (s.m_buffer.doReadLine false sep).bind fun r =>
      if r.1 ≠ .empty then some (false, { s with m_buffer := r.2 })
      else if s.m_connected then some (true, { s with m_buffer := r.2 })
      else r.2.doReadAll.map fun r => (false, { s with m_buffer := r.2 })

/-- The assertion of `getReadRequired`, and `doSuspend` with its own. -/
def wait (q : Request) : State :=
  if s.m_readRequired ≠ .empty then { s with failed := true }
  else if s.m_co ≠ none then { s with m_readRequired := q.required, failed := true }
  else
    { s with
      m_readRequired := q.required
      m_co := some s.entries
      entries := s.entries + 1
      reader := some { waiter := ⟨s.entries, false⟩, request := q } }

/-- `doRead` and `doReadLine`, up to the suspension.  A walk past the last node gives `none`. -/
def read (q : Request) : Option State :=
  (s.tryRead q).map fun r => if r.1 then r.2.wait q else r.2

/-- What they do after it. -/
def afterRead : Request → Option State
  | .doRead outBuffer outLen =>
    (s.m_buffer.doRead outBuffer outLen).bind fun r =>
      if r.1 ≠ -1 then some { s with m_buffer := r.2.2 }
      else
        (r.2.2.doRead r.2.1 (toInt32 r.2.2._size)).map fun r => { s with m_buffer := r.2.2 }
  | .doReadLine sep =>
    if s.m_connected then
      (s.m_buffer.doReadLine false sep).map fun r => { s with m_buffer := r.2 }
    else s.m_buffer.doReadAll.map fun r => { s with m_buffer := r.2 }

/-! ## `doClose` -/

/-- The end of `doClose`. -/
def remove : State := { s with m_buffer := s.m_buffer.clearBuffer, pooled := false }

/-- SOURCE: api/socket.cc:665-682 -/
def doClose : State :=
  if ¬ s.pooled then s
  else if s.m_connected then
    if s.m_co ≠ none then
      if s.m_closing ≠ none then { s with failed := true }
      else
        { s with
          m_closing := some s.entries
          entries := s.entries + 1
          closer := some { waiter := ⟨s.entries, false⟩, place := .doCloseSusped } }
    else
      { s with
        m_co := some s.entries
        entries := s.entries + 1
        closer := some { waiter := ⟨s.entries, false⟩, place := .doSuspend } }
  else s.remove

/-- What it does after the suspension. -/
def afterClose (place : Place) : State :=
  let t := if place = .doSuspend then s.wakeClosing else s
  { t with m_connected := false, closer := none }.remove

/-! ## The messages -/

/-- SOURCE: api/socket.cc:499-528 -/
def onData (data : List UInt8) : Option State :=
  if ¬ s.pooled then some s
  else
    let b := s.m_buffer.pushData data
    let t := { s with m_buffer := b }
    let woken := { t with m_readRequired := .empty }.doWakeup
    let overflow := t.m_bufferLimit ≠ 0 ∧ toUint32 t.m_bufferLimit < b._size
    match t.m_readRequired with
    | .int tmpsz => some (if toUint32 tmpsz ≤ b._size then woken else t)
    | .empty => some (if overflow then { t with m_buffer := b.clearBuffer } else t)
    | .string sep =>
      if overflow then some { t with m_buffer := b.clearBuffer }
      else (b.doReadLine true sep).map fun r => if r.1 ≠ .empty then woken else t

/-- `setConnected(false)` and `doWakeup`, of `onError` and `onClose`. -/
def disconnect : State := if s.pooled then { s with m_connected := false }.doWakeup else s

end State

/-! ## Runs -/

/-- `read` and `doClose` are calls, and the three that follow run a coroutine that has been woken. -/
inductive Event where
  | read (q : Request)
  | doClose
  | resumeReader
  | resumeCloser
  | resumeConnector
  | doSetLimit (limit : ℤ)
  | onData (data : List UInt8)
  | onError
  | onClose
  deriving DecidableEq, Repr

/-- A separator is not empty, for `doReadLine` replaces an empty one; `outLen` is an `int`. -/
def Request.Legal : Request → Prop
  | .doRead _ outLen => -2 ^ 31 ≤ outLen ∧ outLen < 2 ^ 31
  | .doReadLine sep => sep ≠ []

instance : DecidablePred Request.Legal
  | .doRead _ _ => inferInstanceAs (Decidable (_ ∧ _))
  | .doReadLine _ => inferInstanceAs (Decidable (_ ≠ _))

def act (s : State) : Event → Option State
  | .read q => if s.reader = none ∧ s.pooled ∧ q.Legal then s.read q else none
  | .doClose => if s.closer = none then some s.doClose else none
  | .resumeReader =>
    s.reader.bind fun r =>
      if r.waiter.woken then { s.wakeClosing with reader := none }.afterRead r.request else none
  | .resumeCloser =>
    s.closer.bind fun k => if k.waiter.woken then some (s.afterClose k.place) else none
  | .resumeConnector =>
    if s.connector then
      let t := { s.wakeClosing with connector := false }
      some (if t.m_connected then t else { t with pooled := false })
    else none
  | .doSetLimit limit => if s.pooled then some { s with m_bufferLimit := limit } else none
  | .onData data => if 0 < data.length ∧ data.length < 2 ^ 32 then s.onData data else none
  | .onError => some s.disconnect
  | .onClose => some { s.disconnect with closed := true }

def step (s : State) (e : Event) : Option State := if s.failed then none else act s e

/-- A socket for which `START` has been handled. -/
structure Starts (s : State) : Prop where
  m_connected : s.m_connected = true
  m_readRequired : s.m_readRequired = .empty
  m_buffer : s.m_buffer = Receive.start
  m_bufferLimit : s.m_bufferLimit = 0
  m_co : s.m_co = none
  m_closing : s.m_closing = none
  pooled : s.pooled = true
  reader : s.reader = none
  closer : s.closer = none
  closed : s.closed = false
  failed : s.failed = false

def system : System State Event where
  init := Starts
  step := step

@[simp] theorem system_step : system.step = step := rfl

/-! ## Suspensions that end -/

/-- No coroutine has been woken that has not run. -/
structure Quiet (s : State) : Prop where
  reader : ∀ r ∈ s.reader, r.waiter.woken = false
  closer : ∀ k ∈ s.closer, k.waiter.woken = false
  connector : s.connector = false

/-- No assertion has failed, and when `CLOSE` has been handled and those that were woken have run, no
coroutine is suspended. -/
structure Right (_ : State) (_ : Event) (s' : State) : Prop where
  asserts : s'.failed = false
  settled : s'.closed = true → Quiet s' → s'.reader = none ∧ s'.closer = none

/-- The buffer has not what is asked for. -/
def Lacks (b : Buffer) : Request → Prop
  | .doRead outBuffer outLen => (b.doRead outBuffer outLen).map Prod.fst = some (-1)
  | .doReadLine sep => (b.doReadLine false sep).map Prod.fst = some .empty

instance (b : Buffer) : DecidablePred (Lacks b)
  | .doRead _ _ => inferInstanceAs (Decidable (_ = _))
  | .doReadLine _ => inferInstanceAs (Decidable (_ = _))

/-- A call that reads from a connected socket finds in the buffer what it asks for or `m_co` empty,
and a closer does not run on while a reader is suspended that has not been woken. -/
def Cond (s : State) : Event → Prop
  | .read q => s.m_connected = true → Lacks s.m_buffer q → s.m_co = none
  | .resumeCloser => ∀ r ∈ s.reader, r.waiter.woken = true
  | _ => True

instance (s : State) : DecidablePred (Cond s)
  | .read q => inferInstanceAs (Decidable (_ → Lacks s.m_buffer q → _))
  | .resumeCloser => inferInstanceAs (Decidable (∀ _ ∈ _, _))
  | .doClose | .resumeReader | .resumeConnector | .doSetLimit _ | .onData _ | .onError
  | .onClose => isTrue trivial

end MagicNet.Suspend
