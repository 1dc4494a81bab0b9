import MagicNet.Analysis.SendLoop
import MagicNet.Model.SendPath

/-!
# When the two send paths keep the stream

A direct write goes to the kernel ahead of everything that is pending, and its rest overwrites
`m_curSender`.  `isCanSend` should keep it back while bytes are pending, but `isSending` is true
only when `m_curSender` and `m_sendQs` are both in use, and it does not see the requests in the
pipe.  Under `Cond` no direct write overtakes pending bytes, and then the bytes the kernel has
taken and the pending ones are always the bytes accepted.
-/

set_option autoImplicit false

namespace MagicNet.SendPath

open MagicNet.Foundation MagicNet.Network

/-! ## What the sections under the lock do to the bytes -/

/-- A change of the interest leaves the slot. -/
@[simp] theorem doToWrite_s (c : Slot) (enable : Bool) : (c.doToWrite enable).s = c.s := by
  unfold Slot.doToWrite
  split <;> rfl

/-- And what the kernel has. -/
@[simp] theorem doToWrite_kernel (c : Slot) (enable : Bool) :
    (c.doToWrite enable).kernel = c.kernel := by
  unfold Slot.doToWrite
  split <;> rfl

/-- A size below `2 ^ 31` survives the conversions. -/
theorem toUint32_of_lt {n : ℕ} (hn : n < 2 ^ 31) : toUint32 n = n := by
  unfold toUint32
  omega

/-- A count below `2 ^ 31` keeps its value as a signed one. -/
theorem toInt32_of_lt {n : ℕ} (hn : n < 2 ^ 31) : toInt32 n = n := by
  unfold toInt32
  apply Int.bmod_eq_of_le <;> omega

/-- The direct write, when nothing of the slot is unsent or there is nothing to write. -/
theorem directWrite_bytes {c : Slot} {data : List UInt8} (answer : Answer)
    (hsize : data.length < 2 ^ 31) (h : c.s.unsent = [] ∨ data = []) :
    (directWrite c data answer).kernel ++ (directWrite c data answer).s.unsent =
      c.kernel ++ c.s.unsent ++ data := by
  have hle : directBytes data answer ≤ data.length := by
    cases answer <;> simp [directBytes]
  unfold directWrite
  by_cases hall : directBytes data answer = data.length
  · simp only [hall, if_true, List.take_length]
    rcases h with hnone | hempty
    · rw [hnone, List.append_nil, List.append_nil]
    · rw [hempty, List.append_nil, List.append_nil]
  · have hnone : c.s.unsent = [] := by
      rcases h with hnone | hempty
      · exact hnone
      · exact absurd (by simpa [hempty] using hle) hall
    have hqs : c.s.m_sendQs.flatMap SendData.unsent = [] := by
      have hflat := hnone
      rw [SocketHandle.unsent, List.flatMap_append] at hflat
      exact (List.append_eq_nil_iff.mp hflat).2
    simp only [hall, if_false, doToWrite_s, doToWrite_kernel, SocketHandle.setCurrentSendBuffer]
    rw [hnone, List.append_nil, SocketHandle.unsent, Option.toList_some, List.singleton_append,
      List.flatMap_cons, hqs, List.append_nil, SendData.unsent, toUint32_of_lt hsize,
      List.take_length, List.append_assoc, List.take_append_drop]

/-- What the direct write leaves as it was. -/
theorem directWrite_frame (c : Slot) (data : List UInt8) (answer : Answer) :
    (directWrite c data answer).s.m_state = c.s.m_state ∧
      (directWrite c data answer).s.m_handle = c.s.m_handle ∧
      (directWrite c data answer).s.m_proto = c.s.m_proto := by
  unfold directWrite
  simp only
  split
  · exact ⟨rfl, rfl, rfl⟩
  · rw [doToWrite_s]
    exact ⟨rfl, rfl, rfl⟩

/-- `incSendIn` changes only the counter.
SOURCE: network/socketSystem.cc:250-303, network/socketHandle.cc:125-144 -/
theorem incSendIn_frame {s t : SocketHandle} {r : ℤ} (h : s.incSendIn = some (r, t)) :
    ∃ m_sendIn, t = { s with m_sendIn := m_sendIn } := by
  unfold SocketHandle.incSendIn at h
  split at h
  · exact ⟨s.m_sendIn, by simpa using (Prod.mk.inj (Option.some.inj h)).2.symm⟩
  · split at h
    · split at h
      · cases h
      · exact ⟨s.m_sendIn + 1, by simpa using (Prod.mk.inj (Option.some.inj h)).2.symm⟩
    · exact ⟨s.m_sendIn, by simpa using (Prod.mk.inj (Option.some.inj h)).2.symm⟩

/-- The append of a request puts its buffer at the end of the queue.
SOURCE: network/socketHandle.cc:160-169 -/
theorem appendRequest_frame (c : Slot) (r : RequestSend) :
    (c.appendRequest r).s = c.s.appendSendQs r._data r._sz ∧
      (c.appendRequest r).kernel = c.kernel := by
  unfold Slot.appendRequest
  simp only
  split <;> simp

/-- The warning changes only its threshold. -/
theorem warnOwner_frame (c : Slot) (handle : ℤ) :
    (∃ m_sendWarn, (c.warnOwner handle).s = { c.s with m_sendWarn := m_sendWarn }) ∧
      (c.warnOwner handle).kernel = c.kernel := by
  have hwarn : ∃ m_sendWarn, c.s.getWarning.2 = { c.s with m_sendWarn := m_sendWarn } := by
    unfold SocketHandle.getWarning
    split
    · exact ⟨_, rfl⟩
    · exact ⟨c.s.m_sendWarn, rfl⟩
  unfold Slot.warnOwner
  simp only
  split <;> exact ⟨hwarn, rfl⟩

/-- A request appends its buffer to a connected slot.
SOURCE: network/socketSystem.cc:534-568 -/
theorem doRequestSend_connected {c : Slot} {r : RequestSend} (hstate : c.s.m_state = .CONNECTED)
    (hhandle : c.s.m_handle = r._handle) (hsz : r._sz = toInt32 r._data.length)
    (hsize : r._data.length < 2 ^ 31) :
    (c.doRequestSend r).s.m_state = .CONNECTED ∧ (c.doRequestSend r).s.m_handle = c.s.m_handle ∧
      (c.doRequestSend r).s.m_proto = c.s.m_proto ∧ (c.doRequestSend r).kernel = c.kernel ∧
      (c.doRequestSend r).s.unsent = c.s.unsent ++ r._data := by
  have hunsent : (c.s.appendSendQs r._data r._sz).unsent = c.s.unsent ++ r._data := by
    have htake : toUint32 (r._data.length : ℤ) = r._data.length := toUint32_of_lt hsize
    simp [SocketHandle.unsent, SocketHandle.appendSendQs, SendData.unsent, hsz,
      toInt32_of_lt hsize, htake]
  obtain ⟨hs, hk⟩ := appendRequest_frame c r
  obtain ⟨⟨m_sendWarn, hs'⟩, hk'⟩ := warnOwner_frame (c.appendRequest r) r._handle
  have hreq : c.doRequestSend r = (c.appendRequest r).warnOwner r._handle := by
    unfold Slot.doRequestSend
    rw [hstate]
    simp only [hhandle, ne_eq, not_true_eq_false, if_false]
  rw [hreq, hs', hk', hs, hk]
  exact ⟨hstate, rfl, rfl, rfl, hunsent⟩

/-- A closed slot drops the request.
SOURCE: network/socketSystem.cc:534-568 -/
theorem doRequestSend_closed {c : Slot} (r : RequestSend) (h : c.s.m_state = .INVALID) :
    c.doRequestSend r = c := by
  unfold Slot.doRequestSend
  rw [h]

/-- A write event keeps the slot connected and its bytes together, or closes it.
SOURCE: network/socketSystem.cc:774-805 -/
theorem doSendProc_connected {c c' : Slot} {answers : List Answer}
    (hstate : c.s.m_state = .CONNECTED) (h : c.doSendProc answers = some c') :
    c'.s.m_handle = c.s.m_handle ∧ c'.s.m_proto = c.s.m_proto ∧
      ∃ taken, c'.kernel = c.kernel ++ taken ∧ taken <+: c.s.unsent ∧
        (c'.s.m_state = .INVALID ∨
          c'.s.m_state = .CONNECTED ∧ taken ++ c'.s.unsent = c.s.unsent) := by
  obtain ⟨hst, hhd, -, -, hpr⟩ := SocketHandle.doSend_frame c.s answers
  have hcons := SocketHandle.doSend_conserves c.s answers
  have hpre : (c.s.doSend answers).bytes <+: c.s.unsent := ⟨_, hcons⟩
  have hconn : (c.s.doSend answers).handle.m_state = .CONNECTED := hst.trans hstate
  unfold Slot.doSendProc Slot.doSend at h
  simp only at h
  split at h
  · -- the kernel has failed and the slot is closed
    simp only [Slot.closeAndForward, Slot.forceClose, hconn, Option.map_some,
      Option.some.injEq] at h
    subst h
    exact ⟨hhd, hpr, _, rfl, hpre, .inl rfl⟩
  · have hkeep : ∀ t : Slot, t.s = (c.s.doSend answers).handle →
        t.kernel = c.kernel ++ (c.s.doSend answers).bytes →
          (if t.s.m_state = .HALFCLOSE then t.closeAndForward c.s.m_opaque c.s.m_handle
            else some t) = some c' →
          c'.s.m_handle = c.s.m_handle ∧ c'.s.m_proto = c.s.m_proto ∧
            ∃ taken, c'.kernel = c.kernel ++ taken ∧ taken <+: c.s.unsent ∧
              (c'.s.m_state = .INVALID ∨
                c'.s.m_state = .CONNECTED ∧ taken ++ c'.s.unsent = c.s.unsent) := by
      intro t hts htk ht
      rw [hts, hconn, if_neg (by decide), Option.some.injEq] at ht
      subst ht
      rw [hts]
      exact ⟨hhd, hpr, _, htk, hpre, .inr ⟨hconn, hcons⟩⟩
    split at h
    · exact hkeep _ (by simp) (by simp) h
    · exact hkeep _ rfl rfl h

/-! ## The invariant -/

variable {handle : ℤ} {s s' : State}

/-- A request the sender can have written. -/
def Genuine (handle : ℤ) (r : RequestSend) : Prop :=
  r._handle = handle ∧ r._sz = toInt32 r._data.length ∧ r._data.length < 2 ^ 31

/-- The request the sender writes.
SOURCE: network/socketSystem.cc:534-568 -/
theorem genuine_request {data : List UInt8} (hsize : data.length < 2 ^ 31) :
    Genuine handle { _handle := handle, _sz := toInt32 data.length, _data := data } := by
  simp only [Genuine, true_and]
  exact hsize

/-- What holds between the steps of a run that meets the condition. -/
structure Inv (handle : ℤ) (s : State) : Prop where
  owner : s.c.s.m_handle = handle
  proto : s.c.s.m_proto = .TCP
  state : s.c.s.m_state = .CONNECTED ∨ s.c.s.m_state = .INVALID
  sending : s.poll = .holdsSend → s.c.s.m_state = .CONNECTED
  requests : ∀ r ∈ s.poll.requests ++ s.pipe, Genuine handle r
  size : s.sender.data.length < 2 ^ 31
  kernel : s.c.kernel <+: s.accepted
  stream : s.c.s.m_state = .CONNECTED → s.c.kernel ++ pending s = s.accepted

/-- A step of the sender outside the slot keeps the invariant. -/
theorem Inv.sender (h : Inv handle s) {m_mutex : Bool} {sender : SenderPc}
    (hsize : sender.data.length < 2 ^ 31) :
    Inv handle { s with m_mutex := m_mutex, sender := sender } :=
  ⟨h.owner, h.proto, h.state, h.sending, h.requests, hsize, h.kernel, h.stream⟩

/-- So does one of the poll thread outside the slot, when it keeps the requests in flight. -/
theorem Inv.poll (h : Inv handle s) {m_mutex : Bool} {poll : PollPc} {pipe : List RequestSend}
    (hsame : poll.requests ++ pipe = s.poll.requests ++ s.pipe)
    (hsending : poll = .holdsSend → s.c.s.m_state = .CONNECTED) :
    Inv handle { s with m_mutex := m_mutex, poll := poll, pipe := pipe } := by
  refine ⟨h.owner, h.proto, h.state, hsending, hsame ▸ h.requests, h.size, h.kernel,
    fun hconn => ?_⟩
  have hstream := h.stream hconn
  simp only [pending, inFlight] at hstream ⊢
  rw [hsame]
  exact hstream

/-- The direct write keeps the invariant when it overtakes nothing.
SOURCE: network/socketSystem.cc:250-303, network/socketHandle.cc:155-158 -/
theorem direct_inv {data : List UInt8} {answer : Answer} (h : Inv handle s)
    (hc : Cond handle s (.direct answer)) (hpc : s.sender = .holds data)
    (hcan : s.c.s.isCanSend handle = true) :
    Inv handle { s with
      c := directWrite s.c data answer, m_mutex := false, sender := .idle,
      accepted := s.accepted ++ data } := by
  obtain ⟨hst, hhd, hpr⟩ := directWrite_frame s.c data answer
  have hconn : s.c.s.m_state = .CONNECTED := by
    simp only [SocketHandle.isCanSend, Bool.and_eq_true, beq_iff_eq] at hcan
    exact hcan.2
  have hsize : data.length < 2 ^ 31 := by
    have hs := h.size
    rw [hpc] at hs
    exact hs
  have hover := hc.direct answer data rfl hpc hcan
  have hfree : s.c.s.unsent = [] ∨ data = [] :=
    hover.imp_left fun hnone => (List.append_eq_nil_iff.mp hnone).1
  -- the bytes before, the new buffer, and nothing in between
  have hstream : (directWrite s.c data answer).kernel ++
      ((directWrite s.c data answer).s.unsent ++ inFlight s) = s.accepted ++ data := by
    rw [← List.append_assoc, directWrite_bytes answer hsize hfree, ← h.stream hconn]
    rcases hover with hnone | hempty
    · have hflight : inFlight s = [] := (List.append_eq_nil_iff.mp hnone).2
      simp [pending, hflight]
    · simp [pending, hempty]
  refine ⟨hhd.trans h.owner, hpr.trans h.proto, .inl (hst.trans hconn),
    fun _ => hst.trans hconn, h.requests, by simp [SenderPc.data], ⟨_, hstream⟩, fun _ => hstream⟩

/-- The poll thread appends a request.
SOURCE: network/socketSystem.cc:534-568 -/
theorem request_inv {r : RequestSend} (h : Inv handle s) (hpc : s.poll = .holdsRequest r) :
    Inv handle { s with c := s.c.doRequestSend r, m_mutex := false, poll := .idle } := by
  have hreqs : s.poll.requests = [r] := by rw [hpc]; rfl
  have hr : Genuine handle r := h.requests r (by simp [hreqs])
  have hrest : ∀ r' ∈ PollPc.idle.requests ++ s.pipe, Genuine handle r' := by
    intro r' hmem
    exact h.requests r' (List.mem_append_right _ (by simpa [PollPc.requests] using hmem))
  rcases h.state with hconn | hclosed
  · obtain ⟨hst, hhd, hpr, hk, hun⟩ :=
      doRequestSend_connected hconn (h.owner.trans hr.1.symm) hr.2.1 hr.2.2
    refine ⟨hhd.trans h.owner, hpr.trans h.proto, .inl hst, nofun, hrest, h.size, ?_,
      fun _ => ?_⟩
    · rw [hk]
      exact h.kernel
    · have hstream := h.stream hconn
      simp only [pending, inFlight, hreqs] at hstream
      simp only [pending, inFlight, hk, hun, PollPc.requests]
      simpa using hstream
  · rw [doRequestSend_closed r hclosed]
    exact ⟨h.owner, h.proto, h.state, nofun, hrest, h.size, h.kernel,
      fun hconn => absurd (hconn.symm.trans hclosed) (by decide)⟩

/-- A write event.
SOURCE: network/socketSystem.cc:774-805 -/
theorem send_inv {answers : List Answer} {c : Slot} (h : Inv handle s) (hpc : s.poll = .holdsSend)
    (hs : s.c.doSendProc answers = some c) :
    Inv handle { s with c := c, m_mutex := false, poll := .idle } := by
  have hstate := h.sending hpc
  obtain ⟨hhd, hpr, taken, hk, hpre, hafter⟩ := doSendProc_connected hstate hs
  have hreqs : s.poll.requests = PollPc.idle.requests := by rw [hpc]; rfl
  have hstream := h.stream hstate
  refine ⟨hhd.trans h.owner, hpr.trans h.proto, ?_, nofun, hreqs ▸ h.requests, h.size, ?_,
    fun hconn => ?_⟩
  · rcases hafter with hclosed | ⟨hconn, -⟩
    · exact .inr hclosed
    · exact .inl hconn
  · show c.kernel <+: s.accepted
    rw [hk, ← hstream]
    apply List.prefix_append_right_inj _ |>.mpr
    exact hpre.trans (List.prefix_append _ _)
  · rcases hafter with hclosed | ⟨-, hun⟩
    · exact absurd (hconn.symm.trans hclosed) (by decide)
    · show c.kernel ++ pending _ = s.accepted
      rw [← hstream, hk]
      simp only [pending, inFlight, ← hun, hreqs, List.append_assoc]

/-- The sender writes a request for its buffer.
SOURCE: network/socketSystem.cc:250-303, network/socketChannel.cc:54-58 -/
theorem write_inv {data : List UInt8} (h : Inv handle s) (hsize : data.length < 2 ^ 31) :
    Inv handle { s with
      sender := .idle
      pipe := s.pipe ++ [{ _handle := handle, _sz := toInt32 data.length, _data := data }]
      accepted := s.accepted ++ data } := by
  refine ⟨h.owner, h.proto, h.state, h.sending, fun r hmem => ?_, by simp [SenderPc.data],
    h.kernel.trans (List.prefix_append _ _), fun hconn => ?_⟩
  · rw [← List.append_assoc, List.mem_append, List.mem_singleton] at hmem
    rcases hmem with hold | rfl
    · exact h.requests r hold
    · exact genuine_request hsize
  · have hstream := h.stream hconn
    simp only [pending, inFlight] at hstream ⊢
    rw [← hstream]
    simp

/-- The poll thread closes the slot.
SOURCE: network/socketSystem.cc:807-820 -/
theorem forceClose_inv {c : Slot} (h : Inv handle s) (hpoll : s.poll = .idle)
    (hclose : s.c.forceClose = some c) : Inv handle { s with c := c } := by
  obtain ⟨hhd, hpr, hst, hk⟩ : c.s.m_handle = s.c.s.m_handle ∧ c.s.m_proto = s.c.s.m_proto ∧
      c.s.m_state = .INVALID ∧ c.kernel = s.c.kernel := by
    unfold Slot.forceClose at hclose
    rcases h.state with hst | hst <;> rw [hst] at hclose <;>
      rw [Option.some.injEq] at hclose <;> subst hclose
    · exact ⟨rfl, rfl, rfl, rfl⟩
    · exact ⟨rfl, rfl, hst, rfl⟩
  refine ⟨hhd.trans h.owner, hpr.trans h.proto, .inr hst, fun hsending => ?_, h.requests, h.size,
    hk ▸ h.kernel, fun hconn => absurd (hconn.symm.trans hst) (by decide)⟩
  exact absurd (hpoll.symm.trans hsending) (by decide)

/-- **One step under the condition keeps the invariant.** -/
theorem step_inv {e : Event} (h : Inv handle s) (hc : Cond handle s e)
    (hs : step handle s e = some s') : Inv handle s' := by
  -- a call in progress has been let in by the condition on its size
  have hsize : ∀ {data}, s.sender.data = data → data.length < 2 ^ 31 := fun hd => hd ▸ h.size
  cases e with
  | call data =>
    obtain ⟨-, rfl⟩ := step_call.mp hs
    apply h.sender
    split
    · exact hc.size data rfl
    · simp [SenderPc.data]
  | tryLock =>
    obtain ⟨data, hpc, ⟨-, rfl⟩ | ⟨-, rfl⟩⟩ := step_tryLock.mp hs
    · exact h.sender (hsize (by rw [hpc]; rfl))
    · exact h.sender (hsize (by rw [hpc]; rfl))
  | direct answer =>
    obtain ⟨data, hpc, ⟨hcan, rfl⟩ | ⟨-, rfl⟩⟩ := step_direct.mp hs
    · exact direct_inv h hc hpc hcan
    · exact h.sender (hsize (by rw [hpc]; rfl))
  | incSendIn =>
    obtain ⟨data, r, t, hpc, ht, rfl⟩ := step_incSendIn.mp hs
    obtain ⟨m_sendIn, rfl⟩ := incSendIn_frame ht
    refine ⟨h.owner, h.proto, h.state, h.sending, h.requests, ?_, h.kernel, h.stream⟩
    show (SenderPc.data (if r ≠ 0 then .idle else .write data)).length < 2 ^ 31
    split
    · simp [SenderPc.data]
    · exact hsize (by rw [hpc]; rfl)
  | write =>
    obtain ⟨data, hpc, rfl⟩ := step_write.mp hs
    exact write_inv h (hsize (by rw [hpc]; rfl))
  | readRequest =>
    obtain ⟨r, rest, hpoll, hpipe, rfl⟩ := step_readRequest.mp hs
    refine h.poll ?_ nofun
    rw [hpoll, hpipe]
    rfl
  | lockRequest =>
    obtain ⟨r, hpoll, -, rfl⟩ := step_lockRequest.mp hs
    refine h.poll ?_ nofun
    rw [hpoll]
    rfl
  | request =>
    obtain ⟨r, hpoll, rfl⟩ := step_request.mp hs
    exact request_inv h hpoll
  | sendProc =>
    obtain ⟨⟨hpoll, hopen⟩, ⟨-, rfl⟩ | ⟨-, rfl⟩⟩ := step_sendProc.mp hs
    · exact h
    · refine h.poll ?_ fun _ => h.state.resolve_right hopen
      rw [hpoll]
      rfl
  | send answers =>
    obtain ⟨hpoll, c, hsend, rfl⟩ := step_send.mp hs
    exact send_inv h hpoll hsend
  | forceClose =>
    obtain ⟨⟨hpoll, -⟩, c, hclose, rfl⟩ := step_forceClose.mp hs
    exact forceClose_inv h hpoll hclose

/-- The invariant holds in every run whose steps meet the condition. -/
theorem inv_of_via (h : (system handle).Via (Cond handle) s) : Inv handle s := by
  refine h.invariant (I := Inv handle) ?_ (fun s e s' hI hg hs => step_inv hI hg hs)
  intro t ht
  obtain ⟨-, hsender, hpoll⟩ := ht.idle
  have hpending : pending t = [] := by
    simp [pending, inFlight, SocketHandle.unsent, ht.curSender, ht.sendQs, ht.pipe, hpoll,
      PollPc.requests]
  refine ⟨ht.handle, ht.proto, .inl ht.state, fun _ => ht.state, ?_, ?_, ?_, fun _ => ?_⟩
  · simp [hpoll, ht.pipe, PollPc.requests]
  · simp [hsender, SenderPc.data]
  · rw [ht.kernel]
    exact List.nil_prefix
  · rw [ht.kernel, hpending, ht.accepted]
    rfl

/-! ## The stream -/

/-- **The send stream.**  In every run in which each direct write finds no accepted byte pending
and the sizes fit in `int32_t`, the bytes the kernel has taken are a prefix of the accepted
ones, and while the slot is open they are the accepted ones without the pending ones.
SOURCE: network/socketSystem.cc:250-303, 534-568, 774-805, network/socketHandle.cc:72-158 -/
theorem send_stream (handle : ℤ) (s : State) (h : (system handle).Via (Cond handle) s) :
    s.c.kernel <+: s.accepted ∧
      (s.c.s.m_state ≠ .INVALID → s.c.kernel ++ pending s = s.accepted) := by
  have hI := inv_of_via h
  exact ⟨hI.kernel, fun hopen => hI.stream (hI.state.resolve_right hopen)⟩

/-- A connected slot of handle 65537, with nothing to send. -/
def start : State :=
  { c :=
      { s :=
          { m_handle := 65537, m_opaque := 1, m_sock := 7, m_curSender := none
            m_sendIn := 65536, m_sendQs := [], m_sendBytes := 0, m_sendWarn := WARNING_SIZE
            m_recvBufferSize := 128, m_proto := .TCP, m_state := .CONNECTED }
        registered := true, toWrite := false, kernel := [], messages := [] }
    m_mutex := false, sender := .idle, poll := .idle, pipe := [], accepted := [] }

/-- A connected slot without data. -/
theorem start_starts : Starts 65537 start :=
  ⟨rfl, rfl, rfl, rfl, rfl, rfl, ⟨rfl, rfl, rfl⟩, rfl, rfl⟩

/-- A buffer is sent in part, a write event sends the rest, and the next buffer goes directly.
SOURCE: network/socketSystem.cc:250-303, 774-805 -/
theorem send_stream_in_turn : ∃ s, (system 65537).run start
    [.call [1, 2], .tryLock, .direct (.takes 1), .sendProc, .send [.takes 1], .call [3], .tryLock,
      .direct (.takes 1)] = some s ∧ s.accepted = [1, 2, 3] ∧ s.c.kernel <+: s.accepted := by
  have hcall : ∀ {s : State} {data : List UInt8}, data.length < 2 ^ 31 →
      Cond 65537 s (.call data) := fun hlt => ⟨nofun, fun _ he => Event.call.inj he ▸ hlt⟩
  have hidle : ∀ {s : State} {answer : Answer}, pending s = [] →
      Cond 65537 s (.direct answer) := fun hnone => ⟨fun _ _ _ _ _ => .inl hnone, nofun⟩
  refine ⟨_, rfl, rfl, (send_stream 65537 _ (System.via_iff_run.mpr ⟨start,
    [.call [1, 2], .tryLock, .direct (.takes 1), .sendProc, .send [.takes 1], .call [3], .tryLock,
      .direct (.takes 1)], start_starts, rfl, ?_⟩)).1⟩
  refine ⟨hcall (by decide), ?_⟩
  rintro _ ⟨⟩
  refine ⟨⟨nofun, nofun⟩, ?_⟩
  rintro _ ⟨⟩
  refine ⟨hidle rfl, ?_⟩
  rintro _ ⟨⟩
  refine ⟨⟨nofun, nofun⟩, ?_⟩
  rintro _ ⟨⟩
  refine ⟨⟨nofun, nofun⟩, ?_⟩
  rintro _ ⟨⟩
  refine ⟨hcall (by decide), ?_⟩
  rintro _ ⟨⟩
  refine ⟨⟨nofun, nofun⟩, ?_⟩
  rintro _ ⟨⟩
  exact ⟨hidle rfl, fun _ _ => trivial⟩

/-- The first buffer is sent in part and its rest is the current buffer; the second is sent
directly, ahead of it.
SOURCE: network/socketSystem.cc:250-303, network/socketChannel.cc:54-58 -/
theorem direct_write_overtakes : ¬ ∀ s, (system 65537).Reachable s →
    s.c.kernel <+: s.accepted := by
  intro hall
  have hrun : ((system 65537).run start
      [.call [1, 2], .tryLock, .direct (.takes 1), .call [3], .tryLock, .direct (.takes 1)]).any
        (fun s => s.c.kernel == [1, 3] && s.accepted == [1, 2, 3]) = true := by decide
  obtain ⟨s, hreach, hs⟩ := System.exists_reachable _ _ start_starts hrun
  simp only [Bool.and_eq_true, beq_iff_eq] at hs
  have hpre := hall s hreach
  rw [hs.1, hs.2] at hpre
  revert hpre
  decide

end MagicNet.SendPath
