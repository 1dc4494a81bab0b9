import MagicNet.Analysis.InboundStream
import MagicNet.Analysis.SendStream
import MagicNet.Model.Connection

/-!
# What is read is what has been sent

The kernel of the sending end only takes more bytes (`step_kernel`), and what the reading end has
received is what it has taken, up to what is on the wire: a slot that is half closed reads bytes and
frees them, and is not connected again.  With the streams of the two ends (`Analysis.SendStream`,
`Analysis.InboundStream`) the bytes the calls of the reading end give are the first of those the calls
of the sending end have accepted, in their order.
-/

set_option autoImplicit false

namespace MagicNet.SendPath

open MagicNet.Foundation MagicNet.Network

variable {handle : ℤ} {s s' : State}

/-! ## The kernel of the sending end -/

/-- A close takes nothing back from the kernel.
SOURCE: network/socketSystem.cc:807-820 -/
theorem forceClose_kernel {c c' : Slot} (h : c.forceClose = some c') : c'.kernel = c.kernel := by
  unfold Slot.forceClose at h
  split at h
  · rw [Option.some.inj h]
  · cases h
  · rw [← Option.some.inj h]
  · rw [← Option.some.inj h]
  · rw [← Option.some.inj h]

/-- Nor when it is told to the owner.
SOURCE: network/socketSystem.cc:807-820 -/
theorem closeAndForward_kernel {c c' : Slot} {opaqueId : ℕ} {handle : ℤ}
    (h : c.closeAndForward opaqueId handle = some c') : c'.kernel = c.kernel := by
  obtain ⟨t, ht, rfl⟩ := Option.map_eq_some_iff.mp h
  have hkernel := forceClose_kernel ht
  exact hkernel

/-- A send request gives the kernel nothing yet.
SOURCE: network/socketSystem.cc:534-568 -/
theorem doRequestSend_kernel (c : Slot) (r : RequestSend) : (c.doRequestSend r).kernel = c.kernel := by
  have happend : ((c.appendRequest r).warnOwner r._handle).kernel = c.kernel :=
    (warnOwner_frame _ _).2.trans (appendRequest_frame c r).2
  unfold Slot.doRequestSend
  split
  iterate 5 rfl
  split
  · rfl
  · exact happend

/-- A write event hands the kernel some bytes, whatever becomes of the slot.
SOURCE: network/socketSystem.cc:774-805, network/socketHandle.cc:72-113 -/
theorem doSendProc_kernel {c c' : Slot} {answers : List Answer} (h : c.doSendProc answers = some c') :
    c'.kernel = c.kernel ++ (c.s.doSend answers).bytes := by
  have hopen : ∀ t : Slot, t.kernel = c.kernel ++ (c.s.doSend answers).bytes →
      (if t.s.m_state = .HALFCLOSE then t.closeAndForward c.s.m_opaque c.s.m_handle else some t) =
        some c' → c'.kernel = c.kernel ++ (c.s.doSend answers).bytes := by
    intro t ht hclosed
    split at hclosed
    · exact (closeAndForward_kernel hclosed).trans ht
    · obtain rfl := Option.some.inj hclosed
      exact ht
  unfold Slot.doSendProc Slot.doSend at h
  simp only at h
  split at h
  · have hkernel := closeAndForward_kernel h
    exact hkernel
  · split at h
    · exact hopen _ (by simp) h
    · exact hopen _ rfl h

/-- A direct write gives it what it takes.
SOURCE: network/socketSystem.cc:250-303 -/
theorem directWrite_kernel (c : Slot) (data : List UInt8) (answer : Answer) :
    (directWrite c data answer).kernel = c.kernel ++ data.take (directBytes data answer) := by
  unfold directWrite
  simp only
  split
  · rfl
  · exact doToWrite_kernel _ _

/-- **What the kernel has taken stays taken.** -/
theorem step_kernel {e : Event} (hs : step handle s e = some s') : s.c.kernel <+: s'.c.kernel := by
  cases e with
  | call data =>
    obtain ⟨-, rfl⟩ := step_call.mp hs
    exact List.prefix_rfl
  | tryLock =>
    obtain ⟨data, -, ⟨-, rfl⟩ | ⟨-, rfl⟩⟩ := step_tryLock.mp hs
    · exact List.prefix_rfl
    · exact List.prefix_rfl
  | direct answer =>
    obtain ⟨data, -, ⟨-, rfl⟩ | ⟨-, rfl⟩⟩ := step_direct.mp hs
    · exact ⟨_, (directWrite_kernel s.c data answer).symm⟩
    · exact List.prefix_rfl
  | incSendIn =>
    obtain ⟨data, r, t, -, -, rfl⟩ := step_incSendIn.mp hs
    exact List.prefix_rfl
  | write =>
    obtain ⟨data, -, rfl⟩ := step_write.mp hs
    exact List.prefix_rfl
  | readRequest =>
    obtain ⟨r, rest, -, -, rfl⟩ := step_readRequest.mp hs
    exact List.prefix_rfl
  | lockRequest =>
    obtain ⟨r, -, -, rfl⟩ := step_lockRequest.mp hs
    exact List.prefix_rfl
  | request =>
    obtain ⟨r, -, rfl⟩ := step_request.mp hs
    exact ⟨[], by rw [List.append_nil, doRequestSend_kernel]⟩
  | sendProc =>
    obtain ⟨-, ⟨-, rfl⟩ | ⟨-, rfl⟩⟩ := step_sendProc.mp hs
    · exact List.prefix_rfl
    · exact List.prefix_rfl
  | send answers =>
    obtain ⟨-, c, hsend, rfl⟩ := step_send.mp hs
    exact ⟨_, (doSendProc_kernel hsend).symm⟩
  | forceClose =>
    obtain ⟨-, c, hclose, rfl⟩ := step_forceClose.mp hs
    exact ⟨[], by rw [List.append_nil, forceClose_kernel hclose]⟩

end MagicNet.SendPath

namespace MagicNet.Connection

open MagicNet.Foundation MagicNet.Network
open MagicNet.SendPath (pending)
open MagicNet.Inbound (bytesOf given)

variable {handle id : ℤ} {s s' : State}

/-! ## The reading end -/

/-- What other steps than its reads leave of the connection. -/
def Keeps (id : ℤ) (e : Inbound.Event) (c c' : Inbound.Connection) : Prop :=
  c'.received = c.received ∧ (c'.slot = c.slot ∨ e = .slot id c'.slot)

/-- Only a read changes what has been received, and only another handler the slot. -/
theorem reader_keeps {r r' : Inbound.State} {e : Inbound.Event} (hs : Inbound.step r e = some r')
    (hrecv : ∀ data, e ≠ .recv id data) : Keeps id e (r.conns id) (r'.conns id) := by
  have hupdate : ∀ (r : Inbound.State) (id' : ℤ) (c : Inbound.Connection),
      (id' = id → Keeps id e (r.conns id) c) → Keeps id e (r.conns id) ((r.update id' c).conns id) := by
    intro r id' c hsame
    by_cases hid : id = id'
    · subst hid
      simpa [Inbound.State.update] using hsame rfl
    · simp [Keeps, Inbound.State.update, hid]
  have hsocket : ∀ {r r' : Inbound.State} {id' : ℤ} {k : Suspend.Event},
      r.onSocket id' k = some r' → Keeps id e (r.conns id) (r'.conns id) := by
    intro r r' id' k hs
    obtain ⟨t, -, rfl⟩ := Option.map_eq_some_iff.mp hs
    refine hupdate r id' _ fun hid => ?_
    rw [hid]
    exact ⟨rfl, .inl rfl⟩
  cases e with
  | recv id' data =>
    have hne : id' ≠ id := fun hid => hrecv data (hid ▸ rfl)
    simp only [Inbound.step, Inbound.State.recv, Option.ite_none_right_eq_some] at hs
    obtain ⟨-, hs⟩ := hs
    obtain ⟨c, -, rfl⟩ := Option.map_eq_some_iff.mp hs
    split
    · exact hupdate r id' _ fun hid => absurd hid hne
    · exact hupdate r id' _ fun hid => absurd hid hne
  | slot id' c =>
    obtain rfl := Option.some.inj hs
    refine hupdate r id' _ fun hid => ?_
    rw [hid]
    exact ⟨rfl, .inr rfl⟩
  | dispatch =>
    simp only [Inbound.step] at hs
    split at hs
    · cases hs
    · have hkeeps := hsocket hs
      exact hkeeps
  | call id' k =>
    cases k with
    | onData data => cases hs
    | _ => exact hsocket hs
  | doShutdown id' =>
    simp only [Inbound.step, Inbound.State.doShutdown, Option.ite_none_left_eq_some] at hs
    obtain ⟨-, hs⟩ := hs
    split at hs
    · obtain rfl := Option.some.inj hs
      refine hupdate r id' _ fun hid => ?_
      rw [hid]
      exact ⟨rfl, .inl rfl⟩
    · rw [← Option.some.inj hs]
      exact ⟨rfl, .inl rfl⟩

/-- A read of bytes: they are forwarded, or freed where the slot is half closed. -/
theorem recv_received {r r' : Inbound.State} {data : List UInt8}
    (hs : Inbound.step r (.recv id data) = some r') :
    (r'.conns id).slot.s.m_state = (r.conns id).slot.s.m_state ∧
      (r'.conns id).received = (r.conns id).received ++
        [⟨decide ((r.conns id).slot.s.m_state = .HALFCLOSE), data⟩] := by
  simp only [Inbound.step, Inbound.State.recv, Option.ite_none_right_eq_some] at hs
  obtain ⟨-, hs⟩ := hs
  obtain ⟨c, hread, rfl⟩ := Option.map_eq_some_iff.mp hs
  by_cases hhalf : (r.conns id).slot.s.m_state = .HALFCLOSE
  · obtain rfl : ((r.conns id).slot, false) = c := by simpa [Slot.doRecvProc, hhalf] using hread
    simp [hhalf, Inbound.State.update]
  · simp only [Slot.doRecvProc, if_neg hhalf, Option.some.injEq] at hread
    subst hread
    simp [hhalf, Inbound.State.update, Slot.forward]

/-! ## The invariant -/

/-- Each end meets its own condition, and a slot that is half closed or closed is not connected again
under the same handle. -/
def Cond (handle id : ℤ) (s : State) : Event → Prop
  | .send e => SendPath.Cond handle s.sender e
  | .recv _ => True
  | .reader e => Inbound.Cond s.reader e ∧ ∀ c, e = .slot id c →
      Closing (s.reader.conns id).slot.s.m_state → Closing c.s.m_state

instance (s : SendPath.State) : DecidablePred (SendPath.Cond handle s)
  | .call data => decidable_of_iff (data.length < 2 ^ 31)
    ⟨fun hsize => ⟨nofun, by rintro _ ⟨⟩; exact hsize⟩, fun hc => hc.size data rfl⟩
  | .direct answer => decidable_of_iff (pending s = [] ∨ s.sender.data = [] ∨
      s.sender ≠ .holds s.sender.data ∨ s.c.s.isCanSend handle = false) (by
    constructor
    · intro hcond
      refine ⟨?_, nofun⟩
      rintro _ data ⟨⟩ hpc hcan
      simpa [hpc, hcan, SendPath.SenderPc.data] using hcond
    · intro hc
      by_cases hpc : s.sender = .holds s.sender.data
      · by_cases hcan : s.c.s.isCanSend handle = true
        · rcases hc.direct answer _ rfl hpc hcan with hnone | hempty
          · exact .inl hnone
          · exact .inr (.inl hempty)
        · exact .inr (.inr (.inr (by simpa using hcan)))
      · exact .inr (.inr (.inl hpc)))
  | .tryLock | .incSendIn | .write | .readRequest | .lockRequest | .request | .sendProc | .send _
  | .forceClose => isTrue ⟨nofun, nofun⟩

instance (state : SocketState) : (e : Inbound.Event) →
    Decidable (∀ c, e = .slot id c → Closing state → Closing c.s.m_state)
  | .slot id' c => decidable_of_iff (id' = id → Closing state → Closing c.s.m_state)
    ⟨by rintro hc _ ⟨⟩; exact hc rfl, by rintro hc rfl; exact hc c rfl⟩
  | .recv _ _ | .dispatch | .call _ _ | .doShutdown _ => isTrue fun _ heq => by cases heq

instance (s : State) : DecidablePred (Cond handle id s)
  | .send e => inferInstanceAs (Decidable (SendPath.Cond handle s.sender e))
  | .recv _ => isTrue trivial
  | .reader e => inferInstanceAs (Decidable (Inbound.Cond s.reader e ∧ ∀ c, e = .slot id c →
      Closing (s.reader.conns id).slot.s.m_state → Closing c.s.m_state))

/-- The bytes of the connection that are neither forwarded nor on the wire have been freed by a slot that
is closing. -/
structure Inv (handle id : ℤ) (s : State) : Prop where
  sender : SendPath.Inv handle s.sender
  reader : Inbound.Inv s.reader
  stream : (s.reader.conns id).forwarded ++ (s.reader.conns id).freed ++ s.wire = s.sender.c.kernel
  closing : (s.reader.conns id).freed ≠ [] → Closing (s.reader.conns id).slot.s.m_state

/-- At the start nothing is under way. -/
theorem inv_of_starts (h : Starts handle s) : Inv handle id s := by
  have hforwarded : (s.reader.conns id).forwarded = [] := by
    simp [Inbound.Connection.forwarded, h.reader.received]
  have hfreed : (s.reader.conns id).freed = [] := by
    simp [Inbound.Connection.freed, h.reader.received]
  refine ⟨SendPath.inv_of_via (.init h.sender), Inbound.inv_of_starts h.reader, ?_, ?_⟩
  · rw [hforwarded, hfreed, h.wire, h.sender.kernel]
    rfl
  · intro hne
    exact absurd hfreed hne

/-- A step of the sending end keeps the invariant; what it gives to the kernel is on the wire.
SOURCE: network/socketSystem.cc:250-303, network/socketHandle.cc:72-113 -/
theorem inv_send {e : SendPath.Event} {t : SendPath.State} (h : Inv handle id s)
    (hc : SendPath.Cond handle s.sender e) (hs : SendPath.step handle s.sender e = some t) :
    Inv handle id { s with
      sender := t, wire := s.wire ++ t.c.kernel.drop s.sender.c.kernel.length } := by
  obtain ⟨taken, htaken⟩ := SendPath.step_kernel hs
  refine ⟨SendPath.step_inv h.sender hc hs, h.reader, ?_, h.closing⟩
  have hnew : t.c.kernel.drop s.sender.c.kernel.length = taken := by
    rw [← htaken, List.drop_left]
  show (s.reader.conns id).forwarded ++ (s.reader.conns id).freed ++
    (s.wire ++ t.c.kernel.drop s.sender.c.kernel.length) = t.c.kernel
  rw [hnew, ← List.append_assoc, h.stream, htaken]

/-- What one more read adds to the bytes forwarded and to those freed. -/
theorem forwarded_of_received {c c' : Inbound.Connection} {halfClosed : Bool} {data : List UInt8}
    (h : c'.received = c.received ++ [⟨halfClosed, data⟩]) :
    c'.forwarded = c.forwarded ++ if halfClosed then [] else data := by
  rw [← Inbound.forwarded_append c c.slot halfClosed data, Inbound.Connection.forwarded, h]
  rfl

/-- What is read while the slot is half closed is freed.
SOURCE: network/socketSystem.cc:720-772 -/
theorem freed_of_received {c c' : Inbound.Connection} {halfClosed : Bool} {data : List UInt8}
    (h : c'.received = c.received ++ [⟨halfClosed, data⟩]) :
    c'.freed = c.freed ++ if halfClosed then data else [] := by
  rw [← Inbound.freed_append c c.slot halfClosed data, Inbound.Connection.freed, h]
  rfl

/-- A read takes the front of the wire.
SOURCE: network/socketSystem.cc:720-772 -/
theorem inv_recv {n : ℕ} {t : Inbound.State} (h : Inv handle id s)
    (hopen : (s.reader.conns id).slot.s.m_state ≠ .INVALID)
    (hs : Inbound.step s.reader (.recv id (s.wire.take n)) = some t) :
    Inv handle id { s with wire := s.wire.drop n, reader := t } := by
  have hstream := h.stream
  obtain ⟨hstate, hreceived⟩ := recv_received hs
  have hcond : Inbound.Cond s.reader (.recv id (s.wire.take n)) := trivial
  have hreader : Inbound.Inv t := Inbound.step_inv h.reader hcond hs
  have hforwarded := forwarded_of_received hreceived
  have hfreed := freed_of_received hreceived
  by_cases hhalf : (s.reader.conns id).slot.s.m_state = .HALFCLOSE
  · -- the bytes are freed
    rw [decide_eq_true hhalf] at hforwarded hfreed
    refine ⟨h.sender, hreader, ?_, fun _ => .inl (hstate.trans hhalf)⟩
    show (t.conns id).forwarded ++ (t.conns id).freed ++ s.wire.drop n = s.sender.c.kernel
    rw [hforwarded, hfreed, ← hstream]
    simp only [if_true, List.append_nil, List.append_assoc, List.take_append_drop]
  · have hnone : (s.reader.conns id).freed = [] := by
      by_contra hsome
      rcases h.closing hsome with hstate | hstate
      · exact hhalf hstate
      · exact hopen hstate
    rw [decide_eq_false hhalf] at hforwarded hfreed
    rw [hnone] at hstream hfreed
    refine ⟨h.sender, hreader, ?_, ?_⟩
    · show (t.conns id).forwarded ++ (t.conns id).freed ++ s.wire.drop n = s.sender.c.kernel
      rw [hforwarded, hfreed, ← hstream]
      simp only [Bool.false_eq_true, if_false, List.append_nil, List.append_assoc,
        List.take_append_drop]
    · intro hsome
      exact absurd hfreed hsome

/-- The other steps of the reading end leave the wire. -/
theorem inv_reader {e : Inbound.Event} {t : Inbound.State} (h : Inv handle id s)
    (hc : Cond handle id s (.reader e)) (hrecv : ∀ data, e ≠ .recv id data)
    (hs : Inbound.step s.reader e = some t) : Inv handle id { s with reader := t } := by
  obtain ⟨hreceived, hslot⟩ := reader_keeps hs hrecv
  have hforwarded : (t.conns id).forwarded = (s.reader.conns id).forwarded := by
    rw [Inbound.Connection.forwarded, hreceived]
    rfl
  have hfreed : (t.conns id).freed = (s.reader.conns id).freed := by
    rw [Inbound.Connection.freed, hreceived]
    rfl
  refine ⟨h.sender, Inbound.step_inv h.reader hc.1 hs, ?_, fun hsome => ?_⟩
  · show (t.conns id).forwarded ++ (t.conns id).freed ++ s.wire = s.sender.c.kernel
    rw [hforwarded, hfreed, h.stream]
  · have hlost := h.closing (hfreed ▸ hsome)
    show Closing (t.conns id).slot.s.m_state
    rcases hslot with hsame | hevent
    · rw [hsame]
      exact hlost
    · exact hc.2 _ hevent hlost

/-- **One step keeps the stream.** -/
theorem step_inv {e : Event} (h : Inv handle id s) (hc : Cond handle id s e)
    (hs : step handle id s e = some s') : Inv handle id s' := by
  cases e with
  | send e =>
    obtain ⟨t, ht, rfl⟩ := Option.map_eq_some_iff.mp hs
    exact inv_send h hc ht
  | recv n =>
    simp only [step, Option.ite_none_right_eq_some] at hs
    obtain ⟨⟨hopen, -⟩, hs⟩ := hs
    obtain ⟨t, ht, rfl⟩ := Option.map_eq_some_iff.mp hs
    exact inv_recv h hopen ht
  | reader e =>
    have hreader : (∀ data, e ≠ .recv id data) ∧
        (Inbound.step s.reader e).map (fun t => { s with reader := t }) = some s' := by
      cases e with
      | recv id' data =>
        simp only [step, Option.ite_none_left_eq_some] at hs
        refine ⟨fun data' heq => hs.1 ?_, hs.2⟩
        exact (Inbound.Event.recv.inj heq).1
      | _ => exact ⟨nofun, hs⟩
    obtain ⟨t, ht, rfl⟩ := Option.map_eq_some_iff.mp hreader.2
    exact inv_reader h hc hreader.1 ht

/-! ## The result -/

/-- A connected slot, and an actor with two sockets. -/
def start : State := ⟨SendPath.start, [], Inbound.twoSockets⟩

/-- Two ends of a connection that has just been made. -/
theorem start_starts : Starts 65537 start :=
  ⟨SendPath.start_starts, rfl, Inbound.twoSockets_starts⟩

end MagicNet.Connection
