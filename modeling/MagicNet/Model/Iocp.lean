import MagicNet.Model.Poll

/-!
# The poller and its two kernels

`iocpWrap` is what the socket system asks of a poller: register a descriptor with the pointer to
give back, change whether it waits for writing, unregister it, wait for a batch of events.  On Linux
it is `epoll`, which has one item for each descriptor; on Apple it is `kqueue`, which has one note
for reading and one for writing.

The kernels are parameters: `κ` is the state of one, `Calls` has what the poller calls of it, and
`ω` is what the outcome of a call depends on besides its arguments.  `Documented` has what their
manuals say of these calls: a call that fails changes nothing, one that succeeds does what it is for,
an item is gone when its descriptor is closed, and a wait reports items that are there.  Any call may
fail, but that `kevent` deletes a note that is there.

SOURCE: network/iocpWrap.h, network/iocpEpoll.cc:10-60, network/iocpKqueue.cc:12-85
-/

set_option autoImplicit false

namespace MagicNet.Iocp

open MagicNet.Foundation MagicNet.Poll

/-- What is asked of a poller, with the outcomes of its calls of the kernel, in their order; `close`
is that of a descriptor, by whoever has it. -/
inductive Call (ω : Type) where
  | doRegister (sock : ℤ) (ud : Option ℕ) (os : ℕ → ω)
  | doUnRegister (sock : ℤ) (os : ℕ → ω)
  | doToWrite (sock : ℤ) (ud : Option ℕ) (enable : Bool) (os : ω)
  | close (sock : ℤ)
  | onWait (os : ω)

/-- The poller: its kernel, the batch, and what the last call returned: nothing, the result of
`doRegister` or that of `onWait`.  `failed` tells whether a call of the kernel failed in the last
`doUnRegister` or `doToWrite`, which do not look at it. -/
structure State (κ : Type) where
  kernel : κ
  m_evts : ℕ → IocpEvent
  registered : Option Bool
  waited : Option ℤ
  failed : Bool

namespace State

variable {κ : Type} (s : State κ)

def void (r : Bool × κ) : State κ :=
  { s with kernel := r.2, registered := none, waited := none, failed := !r.1 }

def answer (r : Bool × κ) : State κ :=
  { s with kernel := r.2, registered := some r.1, waited := none, failed := false }

/-- The end of `onWait`, for a batch that has been translated; an empty one is a wait that failed, by
a signal where `eintr` is set. -/
def onWait (k : κ) (ev : List IocpEvent) (eintr : Bool) : State κ :=
  if ev.length = 0 then
    { s with
      kernel := k
      registered := none
      waited := some (if eintr then -2 else -1)
      failed := false }
  else
    { s with
      kernel := k
      m_evts := fun i => ev.getD i (s.m_evts i)
      registered := none
      waited := some ev.length
      failed := false }

end State

/-! ## `iocpEpoll` -/

namespace Epoll

def EPOLLIN : ℕ := 0x001
def EPOLLOUT : ℕ := 0x004
def EPOLLERR : ℕ := 0x008
def EPOLLHUP : ℕ := 0x010

inductive Op where
  | EPOLL_CTL_ADD
  | EPOLL_CTL_MOD
  | EPOLL_CTL_DEL
  deriving DecidableEq, Repr

/-- `struct epoll_event`, as it is asked for and as it is reported. -/
structure EpollEvent where
  events : ℕ
  ptr : Option ℕ
  deriving DecidableEq, Repr

/-- The calls of the kernel.  `epoll_ctl` tells whether it has succeeded; `epoll_wait` has the
events that it has written, none where its result is not above 0, and whether `errno` is then
`EINTR`. -/
structure Calls (ω κ : Type) where
  epoll_create : κ
  epoll_ctl : ω → κ → Op → ℤ → Option EpollEvent → Bool × κ
  epoll_wait : ω → κ → (List EpollEvent × Bool) × κ
  close : κ → ℤ → κ

/-- The manual of `epoll`, `items` being the interest list that it speaks of: `EPOLLERR` and
`EPOLLHUP` are reported without being asked for, and closing a descriptor takes it from the list. -/
structure Documented {ω κ : Type} (K : Calls ω κ) (items : κ → ℤ → Option EpollEvent) : Prop where
  epoll_create : ∀ sock, items K.epoll_create sock = none
  failed : ∀ os k op sock ev, (K.epoll_ctl os k op sock ev).1 = false →
    items (K.epoll_ctl os k op sock ev).2 = items k
  add : ∀ os k sock ev, (K.epoll_ctl os k .EPOLL_CTL_ADD sock (some ev)).1 = true →
    items (K.epoll_ctl os k .EPOLL_CTL_ADD sock (some ev)).2 =
      Function.update (items k) sock (some ev)
  mod : ∀ os k sock ev, (K.epoll_ctl os k .EPOLL_CTL_MOD sock (some ev)).1 = true →
    (items k sock).isSome ∧ items (K.epoll_ctl os k .EPOLL_CTL_MOD sock (some ev)).2 =
      Function.update (items k) sock (some ev)
  del : ∀ os k sock, (K.epoll_ctl os k .EPOLL_CTL_DEL sock none).1 = true →
    items (K.epoll_ctl os k .EPOLL_CTL_DEL sock none).2 = Function.update (items k) sock none
  epoll_wait : ∀ os k, items (K.epoll_wait os k).2 = items k
  maxevents : ∀ os k, (K.epoll_wait os k).1.1.length ≤ IOCP_EVENT_WAIT_MAX
  reports : ∀ os k, ∀ ev ∈ (K.epoll_wait os k).1.1, ∃ sock, ∃ it ∈ items k sock,
    ev.ptr = it.ptr ∧ ev.events &&& (it.events ||| EPOLLERR ||| EPOLLHUP) = ev.events
  close : ∀ k sock, items (K.close k sock) = Function.update (items k) sock none

def event (ev : EpollEvent) : IocpEvent where
  s := ev.ptr
  iswrite := ev.events &&& EPOLLOUT ≠ 0
  isread := ev.events &&& (EPOLLIN ||| EPOLLHUP) ≠ 0
  iserror := ev.events &&& EPOLLERR ≠ 0
  iseof := false

section

variable {ω κ : Type} (K : Calls ω κ)

def step (s : State κ) : Call ω → Option (State κ)
  | .doRegister sock ud os =>
    some (s.answer (K.epoll_ctl (os 0) s.kernel .EPOLL_CTL_ADD sock (some ⟨EPOLLIN, ud⟩)))
  | .doUnRegister sock os =>
    some (s.void (K.epoll_ctl (os 0) s.kernel .EPOLL_CTL_DEL sock none))
  | .doToWrite sock ud enable os =>
    some (s.void (K.epoll_ctl os s.kernel .EPOLL_CTL_MOD sock
      (some ⟨EPOLLIN ||| (if enable then EPOLLOUT else 0), ud⟩)))
  | .close sock => some (s.void (true, K.close s.kernel sock))
  | .onWait os =>
    let r := K.epoll_wait os s.kernel
    some (s.onWait r.2 (r.1.1.map event) r.1.2)

/-- The poller from `epoll_create` on. -/
def system : System (State κ) (Call ω) where
  init s := s.kernel = K.epoll_create
  step := step K

@[simp] theorem system_step : (system K).step = step K := rfl

end

end Epoll

/-! ## `iocpKqueue` -/

namespace Kqueue

inductive Filter where
  | EVFILT_READ
  | EVFILT_WRITE
  deriving DecidableEq, Repr

inductive Flag where
  | EV_ADD
  | EV_DELETE
  | EV_ENABLE
  | EV_DISABLE
  deriving DecidableEq, Repr

/-- A `struct kevent` that `EV_SET` has made. -/
structure Change where
  sock : ℤ
  filter : Filter
  flag : Flag
  udata : Option ℕ
  deriving DecidableEq, Repr

/-- A `struct kevent` that is reported, with its flags `EV_EOF` and `EV_ERROR`. -/
structure Kevent where
  filter : Filter
  udata : Option ℕ
  eof : Bool
  error : Bool
  deriving DecidableEq, Repr

/-- What the kernel keeps for a descriptor and a filter. -/
structure Knote where
  udata : Option ℕ
  enabled : Bool
  deriving DecidableEq, Repr

abbrev Notes := ℤ × Filter → Option Knote

/-- The calls of the kernel.  `kevent` is the one with a change and no room for events, and tells
whether it has succeeded (the flags of the change are not written then); `wait` is the one with no
change, and has the events that it has written, none where its result is not above 0, and whether
`errno` is then `EINTR`. -/
structure Calls (ω κ : Type) where
  kqueue : κ
  kevent : ω → κ → Change → Bool × κ
  wait : ω → κ → (List Kevent × Bool) × κ
  close : κ → ℤ → κ

/-- The manual of `kqueue`: a note that is added is enabled, a change of a note that is not there is
an error, deleting one that is there is none, a disabled note is not reported, and closing a
descriptor takes its notes.  What becomes of `udata` when a note is enabled or disabled with another
one is left open. -/
structure Documented {ω κ : Type} (K : Calls ω κ) (notes : κ → Notes) : Prop where
  kqueue : ∀ i, notes K.kqueue i = none
  failed : ∀ os k c, (K.kevent os k c).1 = false → notes (K.kevent os k c).2 = notes k
  add : ∀ os k sock f ud, (K.kevent os k ⟨sock, f, .EV_ADD, ud⟩).1 = true →
    notes (K.kevent os k ⟨sock, f, .EV_ADD, ud⟩).2 =
      Function.update (notes k) (sock, f) (some ⟨ud, true⟩)
  delete : ∀ os k sock f ud, (K.kevent os k ⟨sock, f, .EV_DELETE, ud⟩).1 = true →
    notes (K.kevent os k ⟨sock, f, .EV_DELETE, ud⟩).2 = Function.update (notes k) (sock, f) none
  deletes : ∀ os k sock f ud, notes k (sock, f) ≠ none →
    (K.kevent os k ⟨sock, f, .EV_DELETE, ud⟩).1 = true
  enable : ∀ os k sock f ud, (K.kevent os k ⟨sock, f, .EV_ENABLE, ud⟩).1 = true →
    ∃ note ∈ notes k (sock, f), note.udata = ud →
      notes (K.kevent os k ⟨sock, f, .EV_ENABLE, ud⟩).2 =
        Function.update (notes k) (sock, f) (some ⟨ud, true⟩)
  disable : ∀ os k sock f ud, (K.kevent os k ⟨sock, f, .EV_DISABLE, ud⟩).1 = true →
    ∃ note ∈ notes k (sock, f), note.udata = ud →
      notes (K.kevent os k ⟨sock, f, .EV_DISABLE, ud⟩).2 =
        Function.update (notes k) (sock, f) (some ⟨ud, false⟩)
  wait : ∀ os k, notes (K.wait os k).2 = notes k
  nevents : ∀ os k, (K.wait os k).1.1.length ≤ IOCP_EVENT_WAIT_MAX
  reports : ∀ os k, ∀ ev ∈ (K.wait os k).1.1, ∃ sock, ∃ note ∈ notes k (sock, ev.filter),
    note.enabled = true ∧ ev.udata = note.udata
  close : ∀ k sock i, notes (K.close k sock) i = if i.1 = sock then none else notes k i

def event (ev : Kevent) : IocpEvent where
  s := ev.udata
  iswrite := ev.filter = .EVFILT_WRITE && !ev.eof
  isread := ev.filter = .EVFILT_READ && !ev.eof
  iserror := ev.error
  iseof := ev.eof

section

variable {ω κ : Type} (K : Calls ω κ)

def doUnRegister (k : κ) (sock : ℤ) (os : ℕ → ω) : Bool × κ :=
  let r := K.kevent (os 0) k ⟨sock, .EVFILT_READ, .EV_DELETE, none⟩
  let w := K.kevent (os 1) r.2 ⟨sock, .EVFILT_WRITE, .EV_DELETE, none⟩
  (r.1 && w.1, w.2)

/-- `doRegister`, with its result; each failure takes back what has been added before it. -/
def doRegister (k : κ) (sock : ℤ) (ud : Option ℕ) (os : ℕ → ω) : Bool × κ :=
  let r := K.kevent (os 0) k ⟨sock, .EVFILT_READ, .EV_ADD, ud⟩
  if r.1 = false then (false, r.2)
  else
    let w := K.kevent (os 1) r.2 ⟨sock, .EVFILT_WRITE, .EV_ADD, ud⟩
    if w.1 = false then
      (false, (K.kevent (os 2) w.2 ⟨sock, .EVFILT_READ, .EV_DELETE, none⟩).2)
    else
      let d := K.kevent (os 2) w.2 ⟨sock, .EVFILT_WRITE, .EV_DISABLE, ud⟩
      if d.1 = false then (false, (doUnRegister K d.2 sock fun n => os (n + 3)).2)
      else (true, d.2)

def step (s : State κ) : Call ω → Option (State κ)
  | .doRegister sock ud os => some (s.answer (doRegister K s.kernel sock ud os))
  | .doUnRegister sock os => some (s.void (doUnRegister K s.kernel sock os))
  | .doToWrite sock ud enable os =>
    some (s.void (K.kevent os s.kernel
      ⟨sock, .EVFILT_WRITE, if enable then .EV_ENABLE else .EV_DISABLE, ud⟩))
  | .close sock => some (s.void (true, K.close s.kernel sock))
  | .onWait os =>
    let r := K.wait os s.kernel
    some (s.onWait r.2 (r.1.1.map event) r.1.2)

/-- The poller from `kqueue` on. -/
def system : System (State κ) (Call ω) where
  init s := s.kernel = K.kqueue
  step := step K

@[simp] theorem system_step : (system K).step = step K := rfl

end

end Kqueue

end MagicNet.Iocp
