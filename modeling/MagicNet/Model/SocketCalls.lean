import MagicNet.Model.SendPath

/-!
# Calls of the socket system, whole

`doSocketSend` from its first test to the request it posts, and the handlers of the requests of a
send and of a socket option as far as they say what becomes of the buffer and of the socket.
`try_lock` and `::send` are answered by arguments.

SOURCE: network/socketSystem.cc:250-312, 534-579, network/socketChannel.h:37-41
-/

set_option autoImplicit false

namespace MagicNet.Network

open MagicNet.SendPath (acceptsSend directBytes directWrite)

structure RequestSetopt where
  _handle : ℤ
  _what : ℤ
  _value : ℤ
  deriving DecidableEq, Repr

/-- A call of `setsockopt` at the level `IPPROTO_TCP`. -/
structure SetSockOpt where
  sock : ℤ
  what : ℤ
  value : ℤ
  deriving DecidableEq, Repr

/-- What a call of `doSocketSend` leaves: the slot, the `'D'` request it posts, and whether it has
freed the buffer. -/
structure SocketSend where
  c : Slot
  posted : Option RequestSend
  freed : Bool
  deriving DecidableEq, Repr

namespace Slot

/-- `none` where `incSendIn` only spins. -/
def doSocketSend (c : Slot) (handle : ℤ) (data : List UInt8) (locked : Bool) (answer : Answer) :
    Option SocketSend :=
  if acceptsSend c.s.m_state = false then some { c := c, posted := none, freed := true }
  else if locked ∧ c.s.isCanSend handle then
    some
      { c := directWrite c data answer
        posted := none
        freed := directBytes data answer == data.length }
  else
    c.s.incSendIn.map fun r =>
      if r.1 ≠ 0 then { c := { c with s := r.2 }, posted := none, freed := true }
      else
        { c := { c with s := r.2 }
          posted := some { _handle := handle, _sz := toInt32 data.length, _data := data }
          freed := false }

/-- The returns of `doRequestSend` that free the buffer of the request. -/
def dropsRequest (c : Slot) (request : RequestSend) : Bool :=
  !acceptsSend c.s.m_state || c.s.m_handle != request._handle

/-- A call of `doSocketSend` and the handler of the request it posts: the slot, and whether the buffer
has been freed. -/
def sendToEnd (c : Slot) (handle : ℤ) (data : List UInt8) (locked : Bool) (answer : Answer) :
    Option (Slot × Bool) :=
  (c.doSocketSend handle data locked answer).map fun r =>
    match r.posted with
    | none => (r.c, r.freed)
    | some request => (r.c.doRequestSend request, r.c.dropsRequest request)

/-- The option it sets, if any; the slot is left alone. -/
def doRequestSetOpt (c : Slot) (request : RequestSetopt) : Option SetSockOpt :=
  if c.s.m_state = .INVALID ∨ c.s.m_handle ≠ request._handle then none
  else some { sock := c.s.m_sock, what := request._what, value := request._value }

/-! ## The handler of a send request -/

/-- A request that is dropped leaves the slot alone. -/
theorem doRequestSend_of_drops {c : Slot} {request : RequestSend}
    (h : c.dropsRequest request = true) : c.doRequestSend request = c := by
  unfold doRequestSend
  split
  case h_6 hinvalid hhalf hpaccept hplisten hlisten =>
    have haccepts : acceptsSend c.s.m_state = true := by
      cases hstate : c.s.m_state <;> simp_all [acceptsSend]
    have hother : c.s.m_handle ≠ request._handle := by
      simpa [dropsRequest, haccepts] using h
    rw [if_pos hother]
  all_goals rfl

end Slot

/-! ## A call and the steps of the sender -/

section Sender

open MagicNet.Foundation

variable {s : SendPath.State} {handle : ℤ} {data : List UInt8} {r : SocketSend}

/-- The end of a call that does not write to the socket itself. -/
theorem request_run (hpc : s.sender = .incSendIn data)
    (h : (s.c.s.incSendIn.map fun r : ℤ × SocketHandle =>
      if r.1 ≠ 0 then { c := { s.c with s := r.2 }, posted := none, freed := true }
      else
        { c := { s.c with s := r.2 }
          posted := some { _handle := handle, _sz := toInt32 data.length, _data := data }
          freed := false : SocketSend }) = some r) :
    ∃ es t, (SendPath.system handle).run s es = some t ∧ t.sender = .idle ∧ t.c = r.c ∧
      t.pipe = s.pipe ++ r.posted.toList := by
  obtain ⟨x, hinc, rfl⟩ := Option.map_eq_some_iff.mp h
  by_cases hx : x.1 = 0
  · let request : RequestSend :=
      { _handle := handle, _sz := toInt32 data.length, _data := data }
    refine ⟨[.incSendIn, .write],
      { s with
        c := { s.c with s := x.2 }
        sender := .idle
        pipe := s.pipe ++ [request]
        accepted := s.accepted ++ data }, ?_, rfl, ?_, ?_⟩
    · simp [System.run_cons, SendPath.step, hpc, hinc, hx, request]
    · simp [hx]
    · simp [hx, request]
  · refine ⟨[.incSendIn], { s with c := { s.c with s := x.2 }, sender := .idle }, ?_, rfl, ?_, ?_⟩
    · simp [SendPath.step, hpc, hinc, hx]
    · simp [hx]
    · simp [hx]

/-- **A call of `doSocketSend` that nothing interrupts** is a run of the sender of
`Model.SendPath`. -/
theorem doSocketSend_run {answer : Answer} (hidle : s.sender = .idle)
    (h : s.c.doSocketSend handle data (!s.m_mutex) answer = some r) :
    ∃ es t, (SendPath.system handle).run s es = some t ∧ t.sender = .idle ∧ t.c = r.c ∧
      t.pipe = s.pipe ++ r.posted.toList := by
  unfold Slot.doSocketSend at h
  split at h
  · next hrefused =>
    cases h
    refine ⟨[.call data], { s with sender := .idle }, ?_, rfl, rfl, by simp⟩
    simp [SendPath.step, hidle, hrefused]
  · next haccepts =>
    rw [Bool.not_eq_false] at haccepts
    split at h
    · next hdirect =>
      obtain ⟨hfree, hcan⟩ := hdirect
      rw [Bool.not_eq_true'] at hfree
      cases h
      refine ⟨[.call data, .tryLock, .direct answer],
        { s with
          c := directWrite s.c data answer
          m_mutex := false
          sender := .idle
          accepted := s.accepted ++ data }, ?_, rfl, rfl, by simp⟩
      simp [System.run_cons, SendPath.step, hidle, haccepts, hfree, hcan]
    · next hdirect =>
      cases hmutex : s.m_mutex with
      | true =>
        obtain ⟨es, t, hrun, hend⟩ := request_run (s := { s with sender := .incSendIn data }) rfl h
        refine ⟨.call data :: .tryLock :: es, t, ?_, hend⟩
        simpa [System.run_cons, SendPath.step, hidle, haccepts, hmutex] using hrun
      | false =>
        have hcan : s.c.s.isCanSend handle = false := by simpa [hmutex] using hdirect
        obtain ⟨es, t, hrun, hend⟩ :=
          request_run (s := { s with m_mutex := false, sender := .incSendIn data }) rfl h
        refine ⟨.call data :: .tryLock :: .direct answer :: es, t, ?_, hend⟩
        simpa [System.run_cons, SendPath.step, hidle, haccepts, hmutex, hcan] using hrun

end Sender

end MagicNet.Network
