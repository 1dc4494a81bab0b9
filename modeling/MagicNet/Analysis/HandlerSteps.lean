import MagicNet.Analysis.GracefulClose
import MagicNet.Analysis.SendStream
import MagicNet.Model.SlotHandlers

/-!
# What the handlers of a slot do

One lemma for each handler of a request and one for the events of a batch: the cases in which
the handler ends, with the slot it leaves in each.  A slot that is closed is `Closed`; what a send
or a change of the write events leaves alone is `Kept`.  No handler touches `m_sendIn` of a slot that
keeps its handle: `SameSendIn`.
-/

set_option autoImplicit false

namespace MagicNet.Network.Slot

/-- What `forceClose` makes of a slot. -/
structure Closed (c t : Slot) : Prop where
  reserve : c.s.m_state ≠ .RESERVE
  state : t.s.m_state = .INVALID
  handle : t.s.m_handle = c.s.m_handle
  messages : t.messages = c.messages
  registered : t.registered = true →
    c.registered = true ∧ (c.s.m_state = .INVALID ∨ c.s.m_state = .PACCEPT ∨
      c.s.m_state = .PLISTEN)

/-- What an append, a send and a change of the write events leave as it was. -/
structure Kept (c t : Slot) : Prop where
  state : t.s.m_state = c.s.m_state
  handle : t.s.m_handle = c.s.m_handle
  opaqueId : t.s.m_opaque = c.s.m_opaque
  messages : t.messages = c.messages
  registered : t.registered = c.registered

/-- The message that ends a connection, for the handle the slot had. -/
def forwardEnd (c u : Slot) (type : SocketMessageType) : Slot :=
  u.forward type c.s.m_opaque c.s.m_handle 0

variable {c t u : Slot} {answers : List Answer}

section Forward

variable (c u : Slot) (type : SocketMessageType) (opaqueId : ℕ) (handle : ℤ) (ud : ℕ)

@[simp] theorem forward_s : (c.forward type opaqueId handle ud).s = c.s := rfl

@[simp] theorem forward_registered :
    (c.forward type opaqueId handle ud).registered = c.registered := rfl

@[simp] theorem forward_toWrite : (c.forward type opaqueId handle ud).toWrite = c.toWrite := rfl

@[simp] theorem forwardEnd_s : (forwardEnd c u type).s = u.s := rfl

@[simp] theorem setState_state (state : SocketState) : (c.setState state).s.m_state = state := rfl

@[simp] theorem setState_registered (state : SocketState) :
    (c.setState state).registered = c.registered := rfl

end Forward

/-- A slot keeps what it has. -/
theorem Kept.refl (c : Slot) : Kept c c := ⟨rfl, rfl, rfl, rfl, rfl⟩

/-- Two steps that keep it do. -/
theorem Kept.trans (h : Kept c t) (h' : Kept t u) : Kept c u where
  state := h'.state.trans h.state
  handle := h'.handle.trans h.handle
  opaqueId := h'.opaqueId.trans h.opaqueId
  messages := h'.messages.trans h.messages
  registered := h'.registered.trans h.registered

/-- A slot that is closed after such a change is closed. -/
theorem Kept.closed (h : Kept c t) (h' : Closed t u) : Closed c u where
  reserve := h.state ▸ h'.reserve
  state := h'.state
  handle := h'.handle.trans h.handle
  messages := h'.messages.trans h.messages
  registered := by
    rw [← h.registered, ← h.state]
    exact h'.registered

/-- `forceClose` closes the slot.
SOURCE: network/socketSystem.cc:807-820 -/
theorem forceClose_some (h : c.forceClose = some t) : Closed c t := by
  unfold forceClose at h
  split at h
  · next hstate =>
    cases h
    exact ⟨by simp [hstate], hstate, rfl, rfl, fun hr => ⟨hr, .inl hstate⟩⟩
  · cases h
  · next hstate =>
    cases h
    exact ⟨by simp [hstate], rfl, rfl, rfl, fun hr => ⟨hr, .inr (.inl hstate)⟩⟩
  · next hstate =>
    cases h
    exact ⟨by simp [hstate], rfl, rfl, rfl, fun hr => ⟨hr, .inr (.inr hstate)⟩⟩
  · next hreserve _ _ =>
    cases h
    exact ⟨hreserve, rfl, rfl, rfl, fun hr => by simp at hr⟩

/-- A handler that closes the slot and forwards a message has closed it.
SOURCE: network/socketSystem.cc:807-820 -/
theorem forceClose_map {type : SocketMessageType} {opaqueId : ℕ} {handle : ℤ}
    (h : c.forceClose.map (·.forward type opaqueId handle 0) = some t) :
    ∃ u, Closed c u ∧ t = u.forward type opaqueId handle 0 := by
  obtain ⟨u, hu, rfl⟩ := Option.map_eq_some_iff.mp h
  exact ⟨u, forceClose_some hu, rfl⟩

/-- `doSend` keeps the state of the slot.
SOURCE: network/socketHandle.cc:72-113 -/
theorem doSend_kept (c : Slot) (answers : List Answer) : Kept c (c.doSend answers).1 := by
  obtain ⟨hstate, hhandle, hopaque, -, -⟩ := SocketHandle.doSend_frame c.s answers
  exact ⟨hstate, hhandle, hopaque, rfl, rfl⟩

/-- So does asking for write events.
SOURCE: network/iocpEpoll.cc:30-35 -/
theorem doToWrite_kept (c : Slot) (enable : Bool) : Kept c (c.doToWrite enable) := by
  unfold doToWrite
  split
  · exact ⟨rfl, rfl, rfl, rfl, rfl⟩
  · exact Kept.refl c

/-- So does a direct write.
SOURCE: network/socketSystem.cc:250-303 -/
theorem directWrite_kept (c : Slot) (data : List UInt8) (answer : Answer) :
    Kept c (SendPath.directWrite c data answer) := by
  unfold SendPath.directWrite
  simp only
  split
  · exact ⟨rfl, rfl, rfl, rfl, rfl⟩
  · apply Kept.trans _ (doToWrite_kept _ true)
    exact ⟨rfl, rfl, rfl, rfl, rfl⟩

/-- So does counting a call in.
SOURCE: network/socketHandle.cc:125-144 -/
theorem incSendIn_kept {s : SocketHandle} {r : ℤ} (h : c.s.incSendIn = some (r, s)) :
    Kept c { c with s := s } := by
  obtain ⟨m_sendIn, rfl⟩ := SendPath.incSendIn_frame h
  exact ⟨rfl, rfl, rfl, rfl, rfl⟩

/-- So does queueing a request.
SOURCE: network/socketHandle.cc:160-169 -/
theorem appendRequest_kept (c : Slot) (r : RequestSend) : Kept c (c.appendRequest r) := by
  unfold appendRequest
  simp only
  split
  · apply Kept.trans _ (doToWrite_kept _ true)
    exact ⟨rfl, rfl, rfl, rfl, rfl⟩
  · exact ⟨rfl, rfl, rfl, rfl, rfl⟩

/-- A warning is the only message of a send request. -/
theorem warnOwner_some (c : Slot) (handle : ℤ) : ∃ u, Kept c u ∧
    (c.warnOwner handle = u ∨
      ∃ n, c.warnOwner handle = u.forward .M_SOCKET_WARNING c.s.m_opaque handle n) := by
  obtain ⟨⟨m_sendWarn, hs⟩, -⟩ := SendPath.warnOwner_frame c handle
  refine ⟨{ c with s := { c.s with m_sendWarn := m_sendWarn } }, ⟨rfl, rfl, rfl, rfl, rfl⟩, ?_⟩
  have hwarn : c.s.getWarning.2 = { c.s with m_sendWarn := m_sendWarn } := by
    rw [← hs]
    unfold warnOwner
    simp only
    split <;> rfl
  unfold warnOwner
  simp only [hwarn]
  split
  · exact .inr ⟨_, rfl⟩
  · exact .inl rfl

/-- A send request keeps it, and warns perhaps.
SOURCE: network/socketSystem.cc:534-568 -/
theorem doRequestSend_some (c : Slot) (r : RequestSend) : ∃ u, Kept c u ∧
    (c.doRequestSend r = u ∨
      ∃ n, c.doRequestSend r = u.forward .M_SOCKET_WARNING c.s.m_opaque r._handle n) := by
  unfold doRequestSend
  split
  case h_6 =>
    split
    · exact ⟨c, Kept.refl c, .inl rfl⟩
    · have hkept := appendRequest_kept c r
      obtain ⟨u, hu, hmessage⟩ := warnOwner_some (c.appendRequest r) r._handle
      rw [hkept.opaqueId] at hmessage
      exact ⟨u, hkept.trans hu, hmessage⟩
  all_goals exact ⟨c, Kept.refl c, .inl rfl⟩

/-- The start of a slot that waits for it: it is registered, or closed. -/
def registerStart (c : Slot) (r : RequestStart) (registers : Bool) : Option Slot :=
  if registers = false then
    c.forceClose.map (·.forward .M_SOCKET_ERROR r._opaque r._handle 0)
  else
    let t : Slot := { c with registered := true, toWrite := false }
    some ((t.setState (if c.s.m_state = .PACCEPT then .CONNECTED else .LISTEN)).forward
      .M_SOCKET_START r._opaque r._handle 0)

/-- The registration of a start either fails and closes the slot, or opens it.
SOURCE: network/socketSystem.cc:409-441 -/
theorem registerStart_some {r : RequestStart} {registers : Bool}
    (h : c.registerStart r registers = some t) :
    registers = false ∧
        (∃ u, Closed c u ∧ t = u.forward .M_SOCKET_ERROR r._opaque r._handle 0) ∨
      registers = true ∧ t = ({ c with registered := true, toWrite := false }.setState
        (if c.s.m_state = SocketState.PACCEPT then .CONNECTED else .LISTEN)).forward
          .M_SOCKET_START r._opaque r._handle 0 := by
  unfold registerStart at h
  split at h
  · next hfails => exact .inl ⟨hfails, forceClose_map h⟩
  · next hok => exact .inr ⟨by simpa using hok, (Option.some.inj h).symm⟩

/-- A start request: the slot is not there, cannot be registered, is started, was connected
already, or is in a state the handler says nothing about.
SOURCE: network/socketSystem.cc:409-441 -/
theorem doRequestStart_some {r : RequestStart} {registers : Bool}
    (h : c.doRequestStart r registers = some t) :
    ((c.s.m_state = .INVALID ∨ c.s.m_handle ≠ r._handle) ∧
        t = c.forward .M_SOCKET_ERROR r._opaque r._handle 0) ∨
      (c.s.m_state ≠ .INVALID ∧ c.s.m_handle = r._handle) ∧
        ((c.s.m_state = .PACCEPT ∨ c.s.m_state = .PLISTEN) ∧
            (registers = false ∧
                (∃ u, Closed c u ∧ t = u.forward .M_SOCKET_ERROR r._opaque r._handle 0) ∨
              registers = true ∧ t = ({ c with registered := true, toWrite := false }.setState
                (if c.s.m_state = SocketState.PACCEPT then .CONNECTED else .LISTEN)).forward
                  .M_SOCKET_START r._opaque r._handle 0) ∨
          c.s.m_state = .CONNECTED ∧ t = c.forward .M_SOCKET_START r._opaque r._handle 0 ∨
          (c.s.m_state ≠ .PACCEPT ∧ c.s.m_state ≠ .PLISTEN ∧ c.s.m_state ≠ .CONNECTED) ∧
            t = c) := by
  unfold doRequestStart at h
  split at h
  · next hgone => exact .inl ⟨hgone, (Option.some.inj h).symm⟩
  · next hthere =>
    rw [not_or, not_not] at hthere
    refine .inr ⟨hthere, ?_⟩
    split at h
    · next hstate => exact .inl ⟨.inl hstate, registerStart_some h⟩
    · next hstate => exact .inl ⟨.inr hstate, registerStart_some h⟩
    · next hstate => exact .inr (.inl ⟨hstate, (Option.some.inj h).symm⟩)
    · next hpaccept hplisten hconnected =>
      exact .inr (.inr ⟨⟨hpaccept, hplisten, hconnected⟩, (Option.some.inj h).symm⟩)

/-- The slot of a connect request whose descriptor could not be registered. -/
def begun (c : Slot) (r : RequestConnect) (sock : ℤ) (zero : Bool) : Slot :=
  if zero then
    ((c.initWith r._opaque r._handle sock).setState .CONNECTED).forward .M_SOCKET_START r._opaque
      r._handle 0
  else (c.initWith r._opaque r._handle sock).setState .CONNECTING

/-- A connect request fails without a descriptor and with one that is registered, and goes on with
one that is not.
SOURCE: network/socketSystem.cc:443-532 -/
theorem doRequestConnect_some (c : Slot) (r : RequestConnect) (info : AddrInfo)
    (registers : Bool) :
    (AddrInfo.descriptor info = none ∨ registers = true) ∧
        c.doRequestConnect r info registers = c.failConnect r ∨
      ∃ sock zero, AddrInfo.descriptor info = some (sock, zero) ∧ registers = false ∧
        c.doRequestConnect r info registers = c.begun r sock zero := by
  unfold doRequestConnect
  cases hinfo : AddrInfo.descriptor info with
  | none => exact .inl ⟨.inl rfl, rfl⟩
  | some d =>
    obtain ⟨sock, zero⟩ := d
    cases registers with
    | true => exact .inl ⟨.inr rfl, rfl⟩
    | false =>
      right
      refine ⟨sock, zero, rfl, rfl, ?_⟩
      cases zero <;> rfl

/-- **A close request** never leaves a slot half closed: the slot is not there, or it is closed.
SOURCE: network/socketSystem.cc:581-612 -/
theorem doRequestClose_some {r : RequestClose} (h : c.doRequestClose r answers = some t) :
    ((c.s.m_state = .INVALID ∨ c.s.m_handle ≠ r._handle) ∧
        t = c.forward .M_SOCKET_CLOSE r._opaque r._handle 0) ∨
      (c.s.m_state ≠ .INVALID ∧ c.s.m_handle = r._handle) ∧
        ∃ u, Closed c u ∧ t = u.forward .M_SOCKET_CLOSE r._opaque r._handle 0 := by
  unfold doRequestClose at h
  split at h
  · next hgone => exact .inl ⟨hgone, (Option.some.inj h).symm⟩
  · next hthere =>
    rw [not_or, not_not] at hthere
    refine .inr ⟨hthere, ?_⟩
    by_cases hsending : c.s.isSending = true
    · -- the flush empties `m_curSender`, and `isSending` then says no
      have hafter : (c.doSend answers).1.s.isSending = false := by
        have hnone : (c.doSend answers).1.s.m_curSender = none :=
          SocketHandle.doSend_curSender c.s answers
        simp [SocketHandle.isSending, hnone]
      have hclose : (c.doSend answers).1.closeAndForward r._opaque r._handle = some t := by
        simp only [hsending, if_true, hafter, or_true] at h
        split at h <;> exact h
      obtain ⟨u, hu, rfl⟩ := forceClose_map hclose
      exact ⟨u, (doSend_kept c answers).closed hu, rfl⟩
    · have hclose : c.closeAndForward r._opaque r._handle = some t := by
        simpa [hsending] using h
      exact forceClose_map hclose

/-- The slot after a write event that has not closed it. -/
def flush (c : Slot) (answers : List Answer) : Slot :=
  if (c.doSend answers).1.s.isSendQEmpty then (c.doSend answers).1.doToWrite false
  else (c.doSend answers).1

/-- Flushing keeps the state.
SOURCE: network/socketSystem.cc:774-805 -/
theorem flush_kept (c : Slot) (answers : List Answer) : Kept c (c.flush answers) := by
  unfold flush
  split
  · exact (doSend_kept c answers).trans (doToWrite_kept _ false)
  · exact doSend_kept c answers

/-- A write event: a failed send closes, and so does the end of a half closed slot.
SOURCE: network/socketSystem.cc:774-805 -/
theorem doSendProc_eq (c : Slot) (answers : List Answer) : c.doSendProc answers =
    if (c.doSend answers).2 then (c.doSend answers).1.closeAndForward c.s.m_opaque c.s.m_handle
    else if (c.flush answers).s.m_state = .HALFCLOSE then
      (c.flush answers).closeAndForward c.s.m_opaque c.s.m_handle
    else some (c.flush answers) := rfl

/-- A write event: the slot is closed, or it sends and is not half closed.
SOURCE: network/socketSystem.cc:774-805 -/
theorem doSendProc_some (h : c.doSendProc answers = some t) :
    (∃ u, Closed c u ∧ t = forwardEnd c u .M_SOCKET_CLOSE) ∨
      c.s.m_state ≠ .HALFCLOSE ∧ t = c.flush answers := by
  rw [doSendProc_eq] at h
  split at h
  · obtain ⟨u, hu, rfl⟩ := forceClose_map h
    exact .inl ⟨u, (doSend_kept c answers).closed hu, rfl⟩
  · split at h
    · obtain ⟨u, hu, rfl⟩ := forceClose_map h
      exact .inl ⟨u, (flush_kept c answers).closed hu, rfl⟩
    · next hstate =>
      rw [(flush_kept c answers).state] at hstate
      exact .inr ⟨hstate, (Option.some.inj h).symm⟩

/-- The slot of a connection that has received `n` bytes. -/
def received (c : Slot) (n : ℕ) : Slot :=
  { c with s := { c.s with m_recvBufferSize := recvBufferSize c.s.m_recvBufferSize n } }.forward
    .M_SOCKET_DATA c.s.m_opaque c.s.m_handle 0

/-- The slot of a connection that is established. -/
def established (c : Slot) : Slot :=
  (if (c.setState .CONNECTED).s.isSending then c.setState .CONNECTED
    else (c.setState .CONNECTED).doToWrite false).forward .M_SOCKET_START c.s.m_opaque
      c.s.m_handle 0

/-- A connection that is made is told as a start.
SOURCE: network/socketSystem.cc:628-671 -/
theorem established_kept (c : Slot) : ∃ u, Kept (c.setState .CONNECTED) u ∧
    c.established = u.forward .M_SOCKET_START c.s.m_opaque c.s.m_handle 0 := by
  unfold established
  split
  · exact ⟨_, Kept.refl _, rfl⟩
  · exact ⟨_, doToWrite_kept _ false, rfl⟩

/-- The slot is connected then.
SOURCE: network/socketSystem.cc:628-671 -/
theorem established_state (c : Slot) : c.established.s.m_state = .CONNECTED := by
  obtain ⟨u, hu, heq⟩ := established_kept c
  rw [heq]
  exact hu.state

/-- What an event of the batch can make of its slot. -/
inductive Polled (c : Slot) : Slot → Prop where
  | same : c.s.m_state ≠ .CONNECTING → Polled c c
  | ends {u : Slot} {type : SocketMessageType} : c.s.m_state ≠ .INVALID → Closed c u →
      type = .M_SOCKET_ERROR ∨ type = .M_SOCKET_CLOSE → Polled c (forwardEnd c u type)
  | connects : c.s.m_state = .CONNECTING → Polled c c.established
  | accepts (accepted : Accepted) : c.s.m_state = .LISTEN → Polled c (c.doAcceptProc accepted)
  | receives (n : ℕ) : c.s.m_state ≠ .INVALID → c.s.m_state ≠ .CONNECTING →
      c.s.m_state ≠ .HALFCLOSE → Polled c (c.received n)
  | sends (answers : List Answer) : c.s.m_state ≠ .CONNECTING → c.s.m_state ≠ .HALFCLOSE →
      Polled c (c.flush answers)

/-- What a read does to a slot that is polled.
SOURCE: network/socketSystem.cc:720-772 -/
theorem doRecvProc_polled {r : Received} {lost : Bool} (hinvalid : c.s.m_state ≠ .INVALID)
    (hconn : c.s.m_state ≠ .CONNECTING) (h : c.doRecvProc r = some (t, lost)) : Polled c t := by
  cases r with
  | retry =>
    cases h
    exact .same hconn
  | fails =>
    obtain ⟨u, hu, heq⟩ := Option.map_eq_some_iff.mp h
    cases heq
    exact .ends hinvalid (forceClose_some hu) (.inl rfl)
  | endOfStream =>
    obtain ⟨u, hu, heq⟩ := Option.map_eq_some_iff.mp h
    cases heq
    exact .ends hinvalid (forceClose_some hu) (.inr rfl)
  | bytes n =>
    simp only [doRecvProc] at h
    split at h
    · cases h
      exact .same hconn
    · next hhalf =>
      cases h
      exact .receives n hinvalid hconn hhalf

/-- The handler that an event of the batch goes to.
SOURCE: network/socketSystem.cc:628-671, 673-718, 720-772, 774-805 -/
theorem pollEvent_cases {e : Poll.IocpEvent} {os : Answers} {again : Option Poll.IocpEvent}
    (h : c.pollEvent e os = some (t, again)) :
    c.s.m_state = .CONNECTING ∧ c.doConnectProc os.error = some t ∨
      c.s.m_state = .LISTEN ∧ t = c.doAcceptProc os.accepted ∨
      c.s.m_state ≠ .CONNECTING ∧ t = c ∨
      (c.s.m_state ≠ .INVALID ∧ c.s.m_state ≠ .CONNECTING) ∧
        ((∃ lost, c.doRecvProc os.received = some (t, lost)) ∨ c.doSendProc os.sends = some t ∨
          ∃ type, (type = .M_SOCKET_ERROR ∨ type = .M_SOCKET_CLOSE) ∧
            c.doErrorEvent type = some t) := by
  unfold pollEvent at h
  split at h
  · next hstate =>
    obtain ⟨u, hu, heq⟩ := Option.map_eq_some_iff.mp h
    cases heq
    exact .inl ⟨hstate, hu⟩
  · next hstate =>
    cases h
    exact .inr (.inl ⟨hstate, rfl⟩)
  · next hstate =>
    cases h
    exact .inr (.inr (.inl ⟨by simp [hstate], rfl⟩))
  · next hconn hlisten hinvalid =>
    have hends : ∀ {type : SocketMessageType}, type = .M_SOCKET_ERROR ∨ type = .M_SOCKET_CLOSE →
        (c.doErrorEvent type).map (·, (none : Option Poll.IocpEvent)) = some (t, again) →
        ∃ type, (type = .M_SOCKET_ERROR ∨ type = .M_SOCKET_CLOSE) ∧
          c.doErrorEvent type = some t := by
      intro type htype h
      obtain ⟨u, hu, heq⟩ := Option.map_eq_some_iff.mp h
      cases heq
      exact ⟨type, htype, hu⟩
    split at h
    · obtain ⟨⟨u, lost⟩, hu, heq⟩ := Option.map_eq_some_iff.mp h
      cases heq
      exact .inr (.inr (.inr ⟨⟨hinvalid, hconn⟩, .inl ⟨lost, hu⟩⟩))
    · split at h
      · split at h
        · cases h
          exact .inr (.inr (.inl ⟨hconn, rfl⟩))
        · obtain ⟨u, hu, heq⟩ := Option.map_eq_some_iff.mp h
          cases heq
          exact .inr (.inr (.inr ⟨⟨hinvalid, hconn⟩, .inr (.inl hu)⟩))
      · split at h
        · exact .inr (.inr (.inr ⟨⟨hinvalid, hconn⟩, .inr (.inr (hends (.inl rfl) h))⟩))
        · split at h
          · exact .inr (.inr (.inr ⟨⟨hinvalid, hconn⟩, .inr (.inr (hends (.inr rfl) h))⟩))
          · cases h
            exact .inr (.inr (.inl ⟨hconn, rfl⟩))

/-- **An event of the batch** does one of these. -/
theorem pollEvent_polled {e : Poll.IocpEvent} {os : Answers}
    {again : Option Poll.IocpEvent} (h : c.pollEvent e os = some (t, again)) :
    Polled c t := by
  obtain ⟨hstate, ht⟩ | ⟨hstate, rfl⟩ | ⟨hstate, rfl⟩ | ⟨⟨hinvalid, hconn⟩, ht⟩ :=
    pollEvent_cases h
  · unfold doConnectProc at ht
    simp only at ht
    split at ht
    · obtain ⟨u, hu, rfl⟩ := forceClose_map ht
      exact .ends (by simp [hstate]) hu (.inl rfl)
    · cases ht
      exact .connects hstate
  · exact .accepts os.accepted hstate
  · exact .same hstate
  · obtain ⟨lost, hr⟩ | hsend | ⟨type, htype, hend⟩ := ht
    · exact doRecvProc_polled hinvalid hconn hr
    · obtain ⟨u, hu, rfl⟩ | ⟨hhalf, rfl⟩ := doSendProc_some hsend
      · exact .ends hinvalid hu (.inr rfl)
      · exact .sends os.sends hconn hhalf
    · obtain ⟨u, hu, rfl⟩ := forceClose_map hend
      exact .ends hinvalid hu htype

/-! ## The count of the sends in flight -/

/-- The slot has the same handle, protocol and count. -/
structure SameSendIn (c t : Slot) : Prop where
  handle : t.s.m_handle = c.s.m_handle
  proto : t.s.m_proto = c.s.m_proto
  sendIn : t.s.m_sendIn = c.s.m_sendIn

/-- A slot keeps its count of calls. -/
theorem SameSendIn.refl (c : Slot) : SameSendIn c c := ⟨rfl, rfl, rfl⟩

/-- Two steps that keep it do. -/
theorem SameSendIn.trans (h : SameSendIn c t) (h' : SameSendIn t u) : SameSendIn c u where
  handle := h'.handle.trans h.handle
  proto := h'.proto.trans h.proto
  sendIn := h'.sendIn.trans h.sendIn

/-- The count is in the handle's data. -/
theorem sameSendIn_of_s (h : t.s = c.s) : SameSendIn c t := by
  constructor <;> rw [h]

/-- `forceClose` keeps the count.
SOURCE: network/socketSystem.cc:807-820 -/
theorem forceClose_sameSendIn (h : c.forceClose = some t) : SameSendIn c t := by
  unfold forceClose at h
  split at h <;> cases h
  · exact SameSendIn.refl c
  · exact ⟨rfl, rfl, rfl⟩
  · exact ⟨rfl, rfl, rfl⟩
  · exact ⟨rfl, rfl, rfl⟩

/-- A message forwarded after the slot is closed leaves the count alone.
SOURCE: network/socketSystem.cc:807-820 -/
theorem forceClose_map_sameSendIn {type : SocketMessageType} {opaqueId : ℕ} {handle : ℤ}
    (h : c.forceClose.map (·.forward type opaqueId handle 0) = some t) : SameSendIn c t := by
  obtain ⟨u, hu, rfl⟩ := Option.map_eq_some_iff.mp h
  exact (forceClose_sameSendIn hu).trans (sameSendIn_of_s rfl)

/-- So does `doSend`.
SOURCE: network/socketHandle.cc:72-113 -/
theorem doSend_sameSendIn (c : Slot) (answers : List Answer) :
    SameSendIn c (c.doSend answers).1 := by
  obtain ⟨-, hhandle, -, hsendIn, hproto⟩ := SocketHandle.doSend_frame c.s answers
  exact ⟨hhandle, hproto, hsendIn⟩

/-- So does a direct write.
SOURCE: network/socketSystem.cc:250-303 -/
theorem directWrite_sameSendIn (c : Slot) (data : List UInt8) (answer : Answer) :
    SameSendIn c (SendPath.directWrite c data answer) := by
  unfold SendPath.directWrite
  simp only
  split
  · exact ⟨rfl, rfl, rfl⟩
  · constructor <;> rw [SendPath.doToWrite_s] <;> rfl

/-- So does a send request.
SOURCE: network/socketSystem.cc:534-568 -/
theorem doRequestSend_sameSendIn (c : Slot) (r : RequestSend) :
    SameSendIn c (c.doRequestSend r) := by
  have happend : SameSendIn c (c.appendRequest r) := by
    have hs := (SendPath.appendRequest_frame c r).1
    constructor <;> rw [hs] <;> rfl
  have hwarn : SameSendIn (c.appendRequest r) ((c.appendRequest r).warnOwner r._handle) := by
    obtain ⟨⟨m_sendWarn, hs⟩, -⟩ := SendPath.warnOwner_frame (c.appendRequest r) r._handle
    constructor <;> rw [hs]
  unfold doRequestSend
  split
  case h_6 =>
    split
    · exact SameSendIn.refl c
    · exact happend.trans hwarn
  all_goals exact SameSendIn.refl c

/-- So does a close request.
SOURCE: network/socketSystem.cc:581-612 -/
theorem doRequestClose_sameSendIn {r : RequestClose} (h : c.doRequestClose r answers = some t) :
    SameSendIn c t := by
  unfold doRequestClose at h
  split at h
  · cases h
    exact sameSendIn_of_s rfl
  · -- the flush, if there is one
    generalize hflush : (if c.s.isSending then c.doSend answers else (c, false)) = r' at h
    have hsame : SameSendIn c r'.1 := by
      rw [← hflush]
      split
      · exact doSend_sameSendIn c answers
      · exact SameSendIn.refl c
    simp only at h
    split at h
    · exact hsame.trans (forceClose_map_sameSendIn h)
    · split at h
      · exact hsame.trans (forceClose_map_sameSendIn h)
      · cases h
        exact hsame.trans ⟨rfl, rfl, rfl⟩

/-- So does a write event.
SOURCE: network/socketSystem.cc:774-805 -/
theorem doSendProc_sameSendIn (h : c.doSendProc answers = some t) : SameSendIn c t := by
  have hsame := doSend_sameSendIn c answers
  have hflush : SameSendIn c (c.flush answers) := by
    unfold flush
    split
    · exact hsame.trans (sameSendIn_of_s (SendPath.doToWrite_s _ false))
    · exact hsame
  rw [doSendProc_eq] at h
  split at h
  · exact hsame.trans (forceClose_map_sameSendIn h)
  · split at h
    · exact hflush.trans (forceClose_map_sameSendIn h)
    · cases h
      exact hflush

/-- So does the end of a connect.
SOURCE: network/socketSystem.cc:628-671 -/
theorem doConnectProc_sameSendIn {error : Bool} (h : c.doConnectProc error = some t) :
    SameSendIn c t := by
  unfold doConnectProc at h
  simp only at h
  split at h
  · exact forceClose_map_sameSendIn h
  · cases h
    split
    · exact ⟨rfl, rfl, rfl⟩
    · constructor <;> rw [forward_s, SendPath.doToWrite_s] <;> rfl

/-- So does a start.
SOURCE: network/socketSystem.cc:409-441 -/
theorem doRequestStart_sameSendIn {r : RequestStart} {registers : Bool}
    (h : c.doRequestStart r registers = some t) : SameSendIn c t := by
  have hopened : c.registerStart r registers = some t → SameSendIn c t := by
    intro h'
    unfold registerStart at h'
    split at h'
    · exact forceClose_map_sameSendIn h'
    · cases h'
      exact ⟨rfl, rfl, rfl⟩
  unfold doRequestStart at h
  split at h
  · cases h
    exact sameSendIn_of_s rfl
  · split at h
    · exact hopened h
    · exact hopened h
    · cases h
      exact sameSendIn_of_s rfl
    · cases h
      exact SameSendIn.refl c

/-- So does a read.
SOURCE: network/socketSystem.cc:720-772 -/
theorem doRecvProc_sameSendIn {r : Received} {lost : Bool}
    (h : c.doRecvProc r = some (t, lost)) : SameSendIn c t := by
  cases r with
  | retry =>
    cases h
    exact SameSendIn.refl c
  | fails =>
    obtain ⟨u, hu, heq⟩ := Option.map_eq_some_iff.mp h
    cases heq
    exact (forceClose_sameSendIn hu).trans (sameSendIn_of_s rfl)
  | endOfStream =>
    obtain ⟨u, hu, heq⟩ := Option.map_eq_some_iff.mp h
    cases heq
    exact (forceClose_sameSendIn hu).trans (sameSendIn_of_s rfl)
  | bytes n =>
    simp only [doRecvProc] at h
    split at h
    · cases h
      exact SameSendIn.refl c
    · cases h
      exact ⟨rfl, rfl, rfl⟩

/-- So does an accept, of the listening slot.
SOURCE: network/socketSystem.cc:673-718 -/
theorem doAcceptProc_sameSendIn (c : Slot) (accepted : Accepted) :
    SameSendIn c (c.doAcceptProc accepted) := by
  unfold doAcceptProc
  split
  · exact sameSendIn_of_s rfl
  · exact SameSendIn.refl c
  · exact SameSendIn.refl c
  · exact sameSendIn_of_s rfl

/-- An event of the batch leaves the count alone, whatever else it does. -/
theorem pollEvent_sameSendIn {e : Poll.IocpEvent} {os : Answers} {again : Option Poll.IocpEvent}
    (h : c.pollEvent e os = some (t, again)) : SameSendIn c t := by
  obtain ⟨-, ht⟩ | ⟨-, rfl⟩ | ⟨-, rfl⟩ | ⟨-, ⟨lost, hr⟩ | hsend | ⟨type, -, hend⟩⟩ :=
    pollEvent_cases h
  · exact doConnectProc_sameSendIn ht
  · exact doAcceptProc_sameSendIn c os.accepted
  · exact SameSendIn.refl t
  · exact doRecvProc_sameSendIn hr
  · exact doSendProc_sameSendIn hsend
  · exact forceClose_map_sameSendIn hend

end MagicNet.Network.Slot
