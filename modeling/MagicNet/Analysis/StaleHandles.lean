import MagicNet.Analysis.HandlerSteps
import MagicNet.Model.SlotLife
import MagicNet.Model.SocketCalls

/-!
# Stale handles

A slot is taken by one handle after the other, which differ in the bits above the lowest 16.  The
handlers of the poll thread compare the whole handle, and so does `isCanSend`; but `incSendIn`
compares the tag in `m_sendIn` with that of the slot's own handle, which is always the same.  A send
with an older handle is then counted on a slot that is open, and only its request is dropped.
-/

set_option autoImplicit false

namespace MagicNet.SlotLife

open MagicNet.Foundation MagicNet.Network
open MagicNet.SendPath (acceptsSend)

/-- The slot is taken by the handle. -/
structure Occupied (c : Slot) (handle : ℤ) : Prop where
  holder : c.s.m_handle = handle
  nonneg : 0 ≤ handle
  state : c.s.m_state ≠ .INVALID

/-- Another handle of the same slot. -/
structure Stale (handle stale : ℤ) : Prop where
  slot : SOCKET_GET stale = SOCKET_GET handle
  other : stale ≠ handle

/-- The slot has the same fields and the same registration. -/
structure Untouched (c t : Slot) : Prop where
  s : t.s = c.s
  registered : t.registered = c.registered
  toWrite : t.toWrite = c.toWrite

/-- The operations with the handle, each with the request it posts, leave the slot as it is: a send,
which frees its buffer, a start, an option and a close. -/
structure NoEffect (c : Slot) (handle : ℤ) : Prop where
  send : ∀ data locked answer, ∃ t, c.sendToEnd handle data locked answer = some (t, true) ∧
    Untouched c t
  start : ∀ opaqueId registers, ∃ t, c.doRequestStart ⟨handle, opaqueId⟩ registers = some t ∧
    Untouched c t
  setOpt : ∀ what value, c.doRequestSetOpt ⟨handle, what, value⟩ = none
  close : ∀ shutdown opaqueId answers, ∃ t,
    c.doRequestClose ⟨handle, shutdown, opaqueId⟩ answers = some t ∧ Untouched c t

/-- The tag of the count is that of the handle, for a slot that has one. -/
def Tagged (c : Slot) : Prop :=
  c.s.m_handle ≠ SOCKET_HANDLE_INVALID →
    c.s.m_sendIn / 2 ^ 16 = SOCKET_HANDLE_TAG16 c.s.m_handle

/-! ## The tag of the count -/

variable {c t : Slot}

/-- The tag is a matter of the count and the handle. -/
theorem tagged_same (h : Slot.SameSendIn c t) (hc : Tagged c) : Tagged t := by
  unfold Tagged
  rw [h.handle, h.sendIn]
  exact hc

/-- A handle that is written with its tag. -/
theorem tagged_of_tag (h : t.s.m_sendIn = SOCKET_HANDLE_TAG16 t.s.m_handle * 2 ^ 16) :
    Tagged t := by
  intro _
  rw [h]
  exact Nat.mul_div_cancel _ (by norm_num)

/-- A request that is counted leaves the tag, since a full count is not raised.
SOURCE: network/socketHandle.cc:125-144 -/
theorem tagged_incSendIn {r : ℤ} {s : SocketHandle} (h : c.s.incSendIn = some (r, s))
    (hc : Tagged c) : Tagged { c with s := s } := by
  unfold SocketHandle.incSendIn at h
  split at h
  · cases h
    exact hc
  · split at h
    · split at h
      · cases h
      · next htag hroom =>
        cases h
        intro _
        show (c.s.m_sendIn + 1) / 2 ^ 16 = SOCKET_HANDLE_TAG16 c.s.m_handle
        omega
    · cases h
      exact hc

/-- No step changes it for a slot in use. -/
theorem tagged_step {startFunc : Bool} {e : Event} (hc : Tagged c) (hd : Does startFunc c e t) :
    Tagged t := by
  cases hd with
  | nothing h => exact hc
  | win handle h => exact tagged_same (c := c) ⟨rfl, rfl, rfl⟩ hc
  | doRest handle => exact fun hhandle => absurd rfl hhandle
  | setHandle handle => exact tagged_of_tag rfl
  | listen opaqueId handle sock h => exact tagged_of_tag rfl
  | accept opaqueId listener handle sock h => exact tagged_of_tag rfl
  | direct data answer h => exact tagged_same (Slot.directWrite_sameSendIn c data answer) hc
  | incSendIn h => exact tagged_incSendIn h hc
  | start h hr => exact tagged_same (Slot.doRequestStart_sameSendIn hr) hc
  | connect r info registers =>
    obtain ⟨-, heq⟩ | ⟨sock, zero, -, -, heq⟩ :=
      Slot.doRequestConnect_some c r info registers
    · rw [heq]
      exact tagged_same (c := c) ⟨rfl, rfl, rfl⟩ hc
    · rw [heq]
      cases zero <;> exact tagged_of_tag rfl
  | send r => exact tagged_same (Slot.doRequestSend_sameSendIn c r) hc
  | close hr => exact tagged_same (Slot.doRequestClose_sameSendIn hr) hc
  | getEvent hp => exact tagged_same (Slot.pollEvent_sameSendIn hp) hc

/-- Every slot of a run has the tag of its handle in its count. -/
theorem reachable_tagged {startFunc : Bool} {s : State} (h : (system startFunc).Reachable s) :
    Tagged s.c := by
  refine System.Via.invariant (I := fun s => Tagged s.c) (fun s h0 => ?_)
    (fun s e s' hs _ hstep => ?_) h
  · exact fun hhandle => absurd h0.handle hhandle
  · exact tagged_step hs (step_does hstep)

/-! ## The operations with another handle -/

variable {handle : ℤ}

/-- A start, an option and a close are refused by their handlers.
SOURCE: network/socketSystem.cc:409-441, 570-579, 581-612 -/
theorem refused_of_other (hother : c.s.m_handle ≠ handle) :
    (∀ opaqueId registers, ∃ t, c.doRequestStart ⟨handle, opaqueId⟩ registers = some t ∧
        Untouched c t) ∧
      (∀ what value, c.doRequestSetOpt ⟨handle, what, value⟩ = none) ∧
      ∀ shutdown opaqueId answers, ∃ t,
        c.doRequestClose ⟨handle, shutdown, opaqueId⟩ answers = some t ∧ Untouched c t := by
  refine ⟨fun opaqueId registers => ?_, fun what value => ?_, fun shutdown opaqueId answers => ?_⟩
  · refine ⟨c.forward .M_SOCKET_ERROR opaqueId handle 0, ?_, rfl, rfl, rfl⟩
    exact if_pos (.inr hother)
  · exact if_pos (.inr hother)
  · refine ⟨c.forward .M_SOCKET_CLOSE opaqueId handle 0, ?_, rfl, rfl, rfl⟩
    exact if_pos (.inr hother)

/-- A send to a slot that is not open for it is refused at once, and frees its buffer. -/
theorem send_refused (h : acceptsSend c.s.m_state = false) (data : List UInt8) (locked : Bool)
    (answer : Answer) : c.sendToEnd handle data locked answer = some (c, true) := by
  unfold Slot.sendToEnd Slot.doSocketSend
  rw [if_pos h]
  rfl

/-- A send with another handle does not write to the socket itself.
SOURCE: network/socketSystem.cc:250-303, network/socketHandle.cc:125-144 -/
theorem send_other (hother : c.s.m_handle ≠ handle) (haccepts : acceptsSend c.s.m_state = true)
    (data : List UInt8) (locked : Bool) (answer : Answer) :
    c.doSocketSend handle data locked answer = c.s.incSendIn.map fun r =>
      if r.1 ≠ 0 then { c := { c with s := r.2 }, posted := none, freed := true }
      else
        { c := { c with s := r.2 }
          posted := some { _handle := handle, _sz := toInt32 data.length, _data := data }
          freed := false } := by
  have hcan : c.s.isCanSend handle = false := by
    simp [SocketHandle.isCanSend, hother]
  unfold Slot.doSocketSend
  rw [if_neg (by simp [haccepts]), if_neg (by simp [hcan])]

/-- A slot that is not a TCP slot counts nothing, and drops the request. -/
theorem send_uncounted (hother : c.s.m_handle ≠ handle) (haccepts : acceptsSend c.s.m_state = true)
    (hproto : c.s.m_proto ≠ .TCP) (data : List UInt8) (locked : Bool) (answer : Answer) :
    c.sendToEnd handle data locked answer = some (c, true) := by
  have hinc : c.s.incSendIn = some (0, c.s) := if_pos hproto
  have hdrops : c.dropsRequest
      { _handle := handle, _sz := toInt32 data.length, _data := data } = true := by
    simp [Slot.dropsRequest, hother]
  unfold Slot.sendToEnd
  rw [send_other hother haccepts, hinc]
  simp [hdrops, Slot.doRequestSend_of_drops hdrops]

/-- **A send that is counted** on a TCP slot that is open: the count is raised, or the sender does not
return. -/
theorem send_counted (hother : c.s.m_handle ≠ handle) (haccepts : acceptsSend c.s.m_state = true)
    (hproto : c.s.m_proto = .TCP)
    (htag : c.s.m_sendIn / 2 ^ 16 = SOCKET_HANDLE_TAG16 c.s.m_handle) (data : List UInt8)
    (locked : Bool) (answer : Answer) {freed : Bool}
    (h : c.sendToEnd handle data locked answer = some (t, freed)) :
    t.s.m_sendIn = c.s.m_sendIn + 1 := by
  unfold Slot.sendToEnd at h
  rw [send_other hother haccepts] at h
  have hinc : c.s.incSendIn = if c.s.m_sendIn % 2 ^ 16 = 0xffff then none
      else some (0, { c.s with m_sendIn := c.s.m_sendIn + 1 }) := by
    unfold SocketHandle.incSendIn
    rw [if_neg (not_not.mpr hproto), if_pos htag]
  rw [hinc] at h
  split at h
  · cases h
  · cases h
    exact (Slot.doRequestSend_sameSendIn _ _).sendIn

/-- **The operations with an older handle** of a slot that is taken have no effect on it, and free
the buffer of a send, exactly when the slot is not open for a send or is not a TCP slot.
SOURCE: network/socketSystem.cc:250-303, 409-416, 534-588, network/socketHandle.cc:125-158 -/
theorem stale_handles (startFunc : Bool) {s : State} (h : (system startFunc).Reachable s)
    {handle stale : ℤ} (hocc : Occupied s.c handle) (hstale : Stale handle stale) :
    NoEffect s.c stale ↔ acceptsSend s.c.s.m_state = false ∨ s.c.s.m_proto ≠ .TCP := by
  have hother : s.c.s.m_handle ≠ stale := hocc.holder ▸ hstale.other.symm
  have htag := reachable_tagged h (by
    have hnonneg := hocc.nonneg
    rw [hocc.holder]
    unfold SOCKET_HANDLE_INVALID
    omega)
  constructor
  · intro heffect
    by_contra hopen
    rw [not_or, Bool.not_eq_false, not_not] at hopen
    obtain ⟨t, hsend, hsame⟩ := heffect.send [] false .EAGAIN
    have hcount := send_counted hother hopen.1 hopen.2 htag _ _ _ hsend
    rw [hsame.s] at hcount
    omega
  · intro hclosed
    obtain ⟨hstart, hsetOpt, hclose⟩ := refused_of_other hother
    refine ⟨fun data locked answer => ⟨s.c, ?_, rfl, rfl, rfl⟩, hstart, hsetOpt, hclose⟩
    by_cases haccepts : acceptsSend s.c.s.m_state = true
    · have hproto := hclosed.resolve_left (by simp [haccepts])
      exact send_uncounted hother haccepts hproto data locked answer
    · exact send_refused (by simpa using haccepts) data locked answer

/-- A slot taken a second time, by a socket that listens. -/
def listening : List Event := reserved 65537 ++ [.win 131073, .listen 5 65537 7]

/-- A slot taken a second time, by a connection in progress. -/
def connecting : List Event :=
  reserved 65537 ++ [.connect ⟨65537, 5⟩ (.addresses (.inProgress 7) []) false]

/-- In a run with a listening socket an old handle has no effect. -/
theorem stale_handles_listening : ∃ s, (system true).run start listening = some s ∧
    NoEffect s.c 1 := by
  refine ⟨_, rfl, ?_⟩
  have hreach := System.reachable_of_run start_starts
    (show (system true).run start listening = some _ from rfl)
  exact (stale_handles true hreach ⟨rfl, by decide, by decide⟩ ⟨by decide, by decide⟩).mpr
    (.inl rfl)

/-- A send with the first handle is counted on the connection of the second. -/
theorem stale_handle_counted : ¬ ∀ (startFunc : Bool) (s : State),
    (system startFunc).Reachable s → ∀ handle stale : ℤ, Occupied s.c handle →
      Stale handle stale → NoEffect s.c stale := by
  intro hall
  have hreach := System.reachable_of_run start_starts
    (show (system true).run start connecting = some _ from rfl)
  have hnone := hall true _ hreach 65537 1 ⟨rfl, by decide, by decide⟩ ⟨by decide, by decide⟩
  obtain ⟨t, hsend, hsame⟩ := hnone.send [7] false .EAGAIN
  cases hsend
  exact absurd hsame.s (by decide)

end MagicNet.SlotLife
