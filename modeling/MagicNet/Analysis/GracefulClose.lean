import MagicNet.Analysis.SendLoop

/-!
# What a close request does to unsent bytes

`doRequestClose` asks `isSending` whether bytes are pending, flushes if so, and asks again.  The
flush has emptied `m_curSender` by then, so the second answer is always no: a `CONNECTED` slot is
closed at once, whatever the flush has left, and `HALFCLOSE` is never entered.
-/

set_option autoImplicit false

namespace MagicNet.Network.Slot

variable {c t : Slot} {request : RequestClose} {answers : List Answer}

/-- The slot after a close request and the write events that follow it. -/
def closeThenWrites (c : Slot) (request : RequestClose) (answers : List Answer)
    (later : List (List Answer)) : Option Slot :=
  (c.doRequestClose request answers).bind fun t => later.foldlM writeEvent t

/-- What a graceful close leaves of the slot `c`: it waits in `HALFCLOSE` and nothing is
forwarded, or it is closed, every byte queued before has been sent, and `CLOSE` is forwarded. -/
def Graceful (c t : Slot) : Prop :=
  (t.s.m_state = .HALFCLOSE ∧ t.messages = c.messages) ∨
    (t.s.m_state = .INVALID ∧ t.kernel = c.kernel ++ c.s.unsent ∧
      ∃ opaqueId, t.messages = c.messages ++ [⟨.M_SOCKET_CLOSE, opaqueId, c.s.m_handle, 0⟩])

/-- `isSending` sees the pending bytes, and the kernel takes them all during the flush. -/
def FlushesAll (c : Slot) (answers : List Answer) : Prop :=
  c.s.isSending = true ∧
    SocketHandle.TakesAll answers
      ((c.s.m_curSender.toList ++ c.s.m_sendQs).map fun d => d.unsent.length)

/-- The bytes a close request hands to the kernel. -/
def flushed (c : Slot) (answers : List Answer) : List UInt8 :=
  if c.s.isSending then (c.s.doSend answers).bytes else []

/-- A slot whose current buffer is empty is not sending, for `isSending`.
SOURCE: network/socketHandle.cc:120-123 -/
theorem isSending_of_curSender {s : SocketHandle} (h : s.m_curSender = none) :
    s.isSending = false := by
  simp [SocketHandle.isSending, h]

/-- A connected slot can be closed.
SOURCE: network/socketHandle.cc:52-70 -/
theorem closeAndForward_of_connected (h : c.s.m_state = .CONNECTED) (opaqueId : ℕ) (handle : ℤ) :
    c.closeAndForward opaqueId handle = some
      ({ c with s := c.s.doClose, registered := false, toWrite := false }.forward
        .M_SOCKET_CLOSE opaqueId handle 0) := by
  unfold closeAndForward forceClose
  rw [h]
  rfl

/-- **A close request closes a connected slot at once.**
SOURCE: network/socketSystem.cc:590-608 -/
theorem doRequestClose_closes (hstate : c.s.m_state = .CONNECTED)
    (hhandle : c.s.m_handle = request._handle) (hans : .fails ∉ answers) :
    ∃ t, c.doRequestClose request answers = some t ∧ t.s.m_state = .INVALID ∧
      t.kernel = c.kernel ++ c.flushed answers ∧
      t.messages =
        c.messages ++ [⟨.M_SOCKET_CLOSE, request._opaque, c.s.m_handle, 0⟩] := by
  have hopen : ¬ (c.s.m_state = .INVALID ∨ c.s.m_handle ≠ request._handle) := by
    simp [hstate, hhandle]
  unfold doRequestClose
  rw [if_neg hopen]
  cases hsending : c.s.isSending with
  | true =>
    have hclosed : (c.s.doSend answers).closed = false := by
      by_contra hfail
      have hfail' : (c.s.doSend answers).closed = true := by simpa using hfail
      exact hans (SocketHandle.sendLoop_closed answers _ hfail')
    have hempty : (c.doSend answers).1.s.isSending = false :=
      isSending_of_curSender (SocketHandle.doSend_curSender c.s answers)
    have hconn : (c.doSend answers).1.s.m_state = .CONNECTED :=
      (SocketHandle.doSend_frame c.s answers).1.trans hstate
    have hok : (c.doSend answers).2 = false := hclosed
    simp only [if_true, hok, Bool.false_eq_true, if_false, hempty, or_true,
      closeAndForward_of_connected hconn]
    refine ⟨_, rfl, rfl, ?_, ?_⟩
    · simp [flushed, hsending, forward, doSend]
    · simp [forward, doSend, hhandle]
  | false =>
    simp only [Bool.false_eq_true, if_false, hsending, or_true, if_true,
      closeAndForward_of_connected hstate]
    refine ⟨_, rfl, rfl, ?_, ?_⟩
    · simp [flushed, hsending, forward]
    · simp [forward, hhandle]

/-- A closed slot gets no write events. -/
theorem writes_of_closed (h : t.s.m_state = .INVALID) (later : List (List Answer)) :
    later.foldlM writeEvent t = some t := by
  induction later with
  | nil => rfl
  | cons answers later ih =>
    rw [List.foldlM_cons, writeEvent, if_pos h]
    exact ih

/-- The flush sends everything exactly when there was nothing to send or the answers let every
buffer pass. -/
theorem flushed_eq_iff (hwf : c.s.WellFormed) :
    c.flushed answers = c.s.unsent ↔ c.s.unsent = [] ∨ c.FlushesAll answers := by
  unfold flushed FlushesAll
  by_cases hsending : c.s.isSending = true
  · have hcons := SocketHandle.doSend_conserves c.s answers
    have hq : c.s.pushCurSender.m_sendQs = c.s.m_curSender.toList ++ c.s.m_sendQs := by
      unfold SocketHandle.pushCurSender
      cases c.s.m_curSender <;> rfl
    have hall := SocketHandle.sendLoop_sends_all answers c.s.pushCurSender (hq ▸ hwf)
    rw [hq] at hall
    have hleft : (c.s.doSend answers).handle.unsent =
        (SocketHandle.sendLoop answers c.s.pushCurSender).handle.m_sendQs.flatMap
          SendData.unsent := by
      rw [SocketHandle.unsent, SocketHandle.doSend_curSender, Option.toList_none, List.nil_append]
      rfl
    rw [if_pos hsending, ← hall, ← hleft]
    constructor
    · intro hbytes
      right
      refine ⟨hsending, ?_⟩
      rw [hbytes] at hcons
      exact List.append_right_eq_self.mp hcons
    · rintro (hnone | ⟨-, hnone⟩)
      · rw [hnone] at hcons ⊢
        exact (List.append_eq_nil_iff.mp hcons).1
      · rw [hnone, List.append_nil] at hcons
        exact hcons
  · rw [if_neg hsending]
    constructor
    · intro hnone
      exact .inl hnone.symm
    · rintro (hnone | ⟨hyes, -⟩)
      · exact hnone.symm
      · exact absurd hyes hsending

/-- **Graceful close.**  From a connected slot, a close request without `_shutdown` and any write
events after it, with no send error, leave a gracefully closed slot exactly when nothing was
unsent, or `isSending` saw the pending bytes and the kernel took all of them during the request.
SOURCE: network/socketSystem.cc:581-612, 774-820 -/
theorem graceful_close (c : Slot) (request : RequestClose) (answers : List Answer)
    (hstate : c.s.m_state = .CONNECTED) (hwf : c.s.WellFormed)
    (hhandle : c.s.m_handle = request._handle) (_hshutdown : request._shutdown = 0)
    (hans : .fails ∉ answers) :
    (∀ later : List (List Answer), (∀ as ∈ later, Answer.fails ∉ as) →
      ∃ t, c.closeThenWrites request answers later = some t ∧ Graceful c t) ↔
        c.s.unsent = [] ∨ c.FlushesAll answers := by
  obtain ⟨t, hclose, hinvalid, hkernel, hmessages⟩ :=
    doRequestClose_closes hstate hhandle hans
  have hafter : ∀ later, c.closeThenWrites request answers later = some t := by
    intro later
    rw [closeThenWrites, hclose, Option.bind_some, writes_of_closed hinvalid]
  have hgraceful : Graceful c t ↔ c.flushed answers = c.s.unsent := by
    unfold Graceful
    rw [hinvalid, hkernel, List.append_cancel_left_eq]
    constructor
    · rintro (⟨hhalf, -⟩ | ⟨-, hsent, -⟩)
      · cases hhalf
      · exact hsent
    · intro hsent
      exact .inr ⟨rfl, hsent, request._opaque, hmessages⟩
  rw [← flushed_eq_iff hwf, ← hgraceful]
  constructor
  · intro hall
    obtain ⟨t', ht', hg⟩ := hall [] (by simp)
    rw [hafter, Option.some.injEq] at ht'
    exact ht' ▸ hg
  · intro hg later _
    exact ⟨t, hafter later, hg⟩

/-! ## A slot with one byte of a buffer sent -/

/-- A connected slot with these buffers. -/
def connected (m_curSender : Option SendData) (m_sendQs : List SendData) : Slot :=
  { s :=
      { m_handle := 65537, m_opaque := 1, m_sock := 7, m_curSender := m_curSender
        m_sendIn := 65536, m_sendQs := m_sendQs, m_sendBytes := 0, m_sendWarn := WARNING_SIZE
        m_recvBufferSize := 128, m_proto := .TCP, m_state := .CONNECTED }
    registered := true, toWrite := true, kernel := [], messages := [] }

/-- A rest of the current buffer and one queued buffer, which the kernel takes in two answers. -/
theorem graceful_close_flushed :
    (connected (some ⟨[1, 2], 1, 2⟩) [⟨[3], 0, 1⟩]).s.unsent = [2, 3] ∧
      ∃ t, (connected (some ⟨[1, 2], 1, 2⟩) [⟨[3], 0, 1⟩]).closeThenWrites ⟨65537, 0, 1⟩
        [.takes 1, .takes 1] [[.EAGAIN]] = some t ∧
          Graceful (connected (some ⟨[1, 2], 1, 2⟩) [⟨[3], 0, 1⟩]) t := by
  refine ⟨rfl, (graceful_close _ ⟨65537, 0, 1⟩ [.takes 1, .takes 1] rfl ?_ rfl rfl
    (by decide)).mpr (.inr ⟨rfl, ?_⟩) [[.EAGAIN]] (by decide)⟩
  · intro d hd
    simp only [connected, Option.toList_some, List.singleton_append, List.mem_cons,
      List.not_mem_nil, or_false] at hd
    rcases hd with rfl | rfl <;> exact ⟨by decide, by decide⟩
  · simp [connected, SocketHandle.TakesAll, SendData.unsent]

/-- One byte of the current buffer is unsent and the queue is empty: the close request does not
even try to send it. -/
theorem close_drops_bytes : ¬ ∀ (c : Slot) (request : RequestClose) (answers : List Answer),
    c.s.m_state = .CONNECTED → c.s.WellFormed → c.s.m_handle = request._handle →
      request._shutdown = 0 → .fails ∉ answers →
        ∀ later : List (List Answer), (∀ as ∈ later, Answer.fails ∉ as) →
          ∃ t, c.closeThenWrites request answers later = some t ∧ Graceful c t := by
  intro hall
  have hwf : (connected (some ⟨[1, 2], 1, 2⟩) []).s.WellFormed := by
    intro d hd
    simp only [connected, Option.toList_some, List.append_nil, List.mem_singleton] at hd
    subst hd
    exact ⟨by decide, by decide⟩
  obtain ⟨t, ht, hg⟩ := hall (connected (some ⟨[1, 2], 1, 2⟩) []) ⟨65537, 0, 1⟩ [.takes 1] rfl hwf
    rfl rfl (by decide) [] (by simp)
  have hsame : t = ((connected (some ⟨[1, 2], 1, 2⟩) []).closeThenWrites ⟨65537, 0, 1⟩
      [.takes 1] []).get (by decide) := by
    simp [ht]
  subst hsame
  rcases hg with ⟨hhalf, -⟩ | ⟨-, hkernel, -⟩
  · revert hhalf
    decide
  · revert hkernel
    decide

end MagicNet.Network.Slot
