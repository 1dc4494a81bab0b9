import MagicNet.Analysis.AcceptedSlot

/-!
# When unsent bytes have write events enabled

Write events are enabled where a buffer is left over and where one is queued behind nothing, and
disabled where the connection is established with `isSending` false and where a write event has
emptied the queue.  `m_iocp->doToWrite` only has an effect on a registered descriptor, and
`isSending` is false unless both `m_curSender` and `m_sendQs` are in use.  So bytes queued while
the slot was `CONNECTING` are forgotten when the connection is established, and so are all bytes
of a slot that is not registered.
-/

set_option autoImplicit false

namespace MagicNet.SlotLife

open MagicNet.Foundation MagicNet.Network
open MagicNet.SendPath (directWrite directBytes)

/-! ## Unsent bytes and write events -/

/-- `EPOLLOUT` is enabled for the descriptor. -/
def Interested (c : Slot) : Prop := c.registered = true ∧ c.toWrite = true

/-- Unsent bytes of a slot that is connected or half closed have write events enabled. -/
def Remembered (c : Slot) : Prop :=
  c.s.m_state = .CONNECTED ∨ c.s.m_state = .HALFCLOSE → c.s.unsent ≠ [] → Interested c

/-- The bytes a direct write leaves: the rest of its own buffer, and those of the queue. -/
def leftOver (c : Slot) (data : List UInt8) (answer : Answer) : List UInt8 :=
  (data.take (toUint32 data.length)).drop (directBytes data answer) ++
    c.s.m_sendQs.flatMap SendData.unsent

/-- The bytes of a send request. -/
def requested (r : RequestSend) : List UInt8 := r._data.take (toUint32 r._sz)

/-- The steps that remember the unsent bytes of a slot. -/
def Remembers (c : Slot) : Event → Prop
  | .direct _ data answer =>
    directBytes data answer = data.length ∨ c.registered = true ∨ leftOver c data answer = []
  | .connect _ info registers =>
    registers = false → (∃ sock, AddrInfo.descriptor info = some (sock, true)) → c.s.unsent = []
  | .send request => c.s.m_state = .CONNECTED → c.s.m_handle = request._handle →
    c.s.unsent ++ requested request = [] ∨
      c.registered = true ∧ (c.s.isSendQEmpty = true ∨ c.toWrite = true)
  | .getEvent os => c.s.m_state = .CONNECTING → os.error = false →
    c.s.unsent = [] ∨ c.s.isSending = true ∧ Interested c
  | _ => True

/-! ## Steps -/

variable {c t : Slot} {startFunc : Bool} {e : Event}

/-- A slot that is not connected has nothing to remember. -/
theorem remembered_of_state (h : c.s.m_state ≠ .CONNECTED) (h' : c.s.m_state ≠ .HALFCLOSE) :
    Remembered c := by
  rintro (hc | hc)
  · exact absurd hc h
  · exact absurd hc h'

/-- Nor has one that is closed. -/
theorem remembered_of_closed (h : Slot.Closed c t) : Remembered t :=
  remembered_of_state (by simp [h.state]) (by simp [h.state])

/-- A connected slot remembers its bytes when it has none or write events are enabled. -/
theorem remembered_iff (h : c.s.m_state = .CONNECTED) :
    Remembered c ↔ c.s.unsent = [] ∨ Interested c := by
  unfold Remembered
  simp only [h, true_or, forall_const]
  constructor
  · intro hrem
    by_cases hnone : c.s.unsent = []
    · exact .inl hnone
    · exact .inr (hrem hnone)
  · rintro (hnone | hint) hsome
    · exact absurd hnone hsome
    · exact hint

/-- The interest is what was asked for last.
SOURCE: network/iocpEpoll.cc:20-72 -/
@[simp] theorem interested_doToWrite (enable : Bool) :
    Interested (c.doToWrite enable) ↔ c.registered = true ∧ enable = true := by
  unfold Interested Slot.doToWrite
  cases hreg : c.registered <;> simp [hreg]

/-- A change of the interest leaves the data.
SOURCE: network/iocpEpoll.cc:30-35 -/
theorem unsent_doToWrite (enable : Bool) : (c.doToWrite enable).s.unsent = c.s.unsent := by
  rw [SendPath.doToWrite_s]

/-- So does a message to the owner.
SOURCE: network/socketSystem.cc:44-53 -/
theorem remembered_forward (type : SocketMessageType) (opaqueId : ℕ) (handle : ℤ) (ud : ℕ) :
    Remembered (c.forward type opaqueId handle ud) ↔ Remembered c := Iff.rfl

/-- A direct write.
SOURCE: network/socketHandle.cc:155-158 -/
theorem direct_remembered {handle : ℤ} {data : List UInt8} {answer : Answer} (h : Remembered c)
    (hcan : c.s.isCanSend handle = true) :
    Remembered (directWrite c data answer) ↔ Remembers c (.direct handle data answer) := by
  have hstate : c.s.m_state = .CONNECTED := by
    simp only [SocketHandle.isCanSend, Bool.and_eq_true, beq_iff_eq] at hcan
    exact hcan.2
  simp only [Remembers, directWrite]
  by_cases hall : directBytes data answer = data.length
  · simp only [hall, if_true, true_or, iff_true]
    exact h
  · have hleft : (c.s.setCurrentSendBuffer data (directBytes data answer) data.length).unsent =
        leftOver c data answer := by
      simp [SocketHandle.unsent, SocketHandle.setCurrentSendBuffer, SendData.unsent, leftOver]
    simp only [hall, if_false, false_or]
    rw [remembered_iff (by rw [SendPath.doToWrite_s]; exact hstate), unsent_doToWrite,
      interested_doToWrite, hleft]
    simp only [and_true]
    exact or_comm

/-- A connect request.
SOURCE: network/socketSystem.cc:443-532 -/
theorem connect_remembered (r : RequestConnect) (info : AddrInfo) (registers : Bool) :
    Remembered (c.doRequestConnect r info registers) ↔
      Remembers c (.connect r info registers) := by
  simp only [Remembers]
  rcases Slot.doRequestConnect_some c r info registers with
    ⟨hfail, heq⟩ | ⟨sock, zero, hinfo, hreg, heq⟩
  · have hrem : Remembered (c.failConnect r) :=
      remembered_of_state (by simp [Slot.failConnect]) (by simp [Slot.failConnect])
    rw [heq]
    simp only [hrem, true_iff]
    rintro hreg ⟨sock, hsome⟩
    rcases hfail with hnone | hyes
    · rw [hnone] at hsome
      cases hsome
    · rw [hreg] at hyes
      cases hyes
  · rw [heq, hinfo]
    cases zero with
    | false =>
      have hrem : Remembered (c.begun r sock false) :=
        remembered_of_state (by simp [Slot.begun]) (by simp [Slot.begun])
      simp [hrem]
    | true =>
      have hnot : ¬ Interested (c.begun r sock true) := fun hint => by
        have hreg' : (c.begun r sock true).registered = false := rfl
        rw [hint.1] at hreg'
        cases hreg'
      rw [remembered_iff rfl]
      simp only [hnot, or_false, hreg, forall_const]
      constructor
      · intro hnone _
        exact hnone
      · intro h
        exact h ⟨sock, rfl⟩

/-- A send request.
SOURCE: network/socketSystem.cc:534-568 -/
theorem send_remembered (r : RequestSend) (h : Remembered c) :
    Remembered (c.doRequestSend r) ↔ Remembers c (.send r) := by
  simp only [Remembers]
  by_cases hstate : c.s.m_state = .CONNECTED
  · by_cases hhandle : c.s.m_handle = r._handle
    · have hreq : c.doRequestSend r = (c.appendRequest r).warnOwner r._handle := by
        unfold Slot.doRequestSend
        rw [hstate]
        simp [hhandle]
      have happ := Slot.appendRequest_kept c r
      have hunsent : (c.appendRequest r).s.unsent = c.s.unsent ++ requested r := by
        rw [(SendPath.appendRequest_frame c r).1]
        simp [SocketHandle.unsent, SocketHandle.appendSendQs, SendData.unsent, requested]
      have hint : Interested (c.appendRequest r) ↔
          c.registered = true ∧ (c.s.isSendQEmpty = true ∨ c.toWrite = true) := by
        unfold Slot.appendRequest
        by_cases hempty : c.s.isSendQEmpty = true
        · simp [hempty, hstate]
        · simp [hempty, Interested]
      have hwarn : Remembered ((c.appendRequest r).warnOwner r._handle) ↔
          Remembered (c.appendRequest r) := by
        obtain ⟨⟨m_sendWarn, hs⟩, -⟩ := SendPath.warnOwner_frame (c.appendRequest r) r._handle
        have hflags : ((c.appendRequest r).warnOwner r._handle).registered =
              (c.appendRequest r).registered ∧
            ((c.appendRequest r).warnOwner r._handle).toWrite = (c.appendRequest r).toWrite := by
          unfold Slot.warnOwner
          simp only
          split <;> exact ⟨rfl, rfl⟩
        unfold Remembered Interested
        rw [hs, hflags.1, hflags.2]
        exact Iff.rfl
      rw [hreq, hwarn, remembered_iff (happ.state.trans hstate), hunsent, hint]
      simp [hstate, hhandle]
    · have hsame : c.doRequestSend r = c := by
        unfold Slot.doRequestSend
        rw [hstate]
        simp [hhandle]
      rw [hsame]
      simp [h, hhandle]
  · have hrem : Remembered (c.doRequestSend r) := by
      by_cases hhalf : c.s.m_state = .HALFCLOSE
      · have hsame : c.doRequestSend r = c := by
          unfold Slot.doRequestSend
          rw [hhalf]
        rw [hsame]
        exact h
      · obtain ⟨u, hu, heq | ⟨n, heq⟩⟩ := Slot.doRequestSend_some c r
        · rw [heq]
          exact remembered_of_state (by rw [hu.state]; exact hstate) (by rw [hu.state]; exact hhalf)
        · rw [heq, remembered_forward]
          exact remembered_of_state (by rw [hu.state]; exact hstate) (by rw [hu.state]; exact hhalf)
    simp [hrem, hstate]

/-- The completion of a connect.
SOURCE: network/socketHandle.cc:120-123 -/
theorem established_remembered :
    Remembered c.established ↔ c.s.unsent = [] ∨ c.s.isSending = true ∧ Interested c := by
  have hsending : (c.setState .CONNECTED).s.isSending = c.s.isSending := rfl
  unfold Slot.established
  rw [remembered_forward, hsending]
  cases hs : c.s.isSending with
  | true =>
    simp only [if_true, true_and]
    exact remembered_iff rfl
  | false =>
    simp only [Bool.false_eq_true, if_false, false_and, or_false]
    rw [remembered_iff (by rw [SendPath.doToWrite_s]; rfl), unsent_doToWrite, interested_doToWrite]
    simp only [Bool.false_eq_true, and_false, or_false]
    exact Iff.rfl

/-- A flush leaves no new byte unsent, and disables write events only when none is left. -/
theorem flush_remembered (h : Remembered c) (answers : List Answer) :
    Remembered (c.flush answers) := by
  have hcons := SocketHandle.doSend_conserves c.s answers
  intro hstate hsome
  rw [(Slot.flush_kept c answers).state] at hstate
  unfold Slot.flush at hsome ⊢
  split at hsome
  · next hempty =>
    -- the queue is empty and so is `m_curSender`
    rw [unsent_doToWrite] at hsome
    have hq : (c.s.doSend answers).handle.m_sendQs = [] := List.isEmpty_iff.mp hempty
    have hnone : (c.s.doSend answers).handle.unsent = [] := by
      simp [SocketHandle.unsent, SocketHandle.doSend_curSender, hq]
    exact absurd hnone hsome
  · next hempty =>
    rw [if_neg hempty]
    refine h hstate ?_
    intro hnone
    rw [hnone] at hcons
    exact hsome (List.append_eq_nil_iff.mp hcons).2

/-- An event of the batch. -/
theorem getEvent_remembered {ev : Poll.IocpEvent} {os : Answers} {again : Option Poll.IocpEvent}
    (h : Remembered c) (hp : c.pollEvent ev os = some (t, again)) :
    Remembered t ↔ Remembers c (.getEvent os) := by
  simp only [Remembers]
  by_cases hconn : c.s.m_state = .CONNECTING
  · have hproc : c.pollEvent ev os = (c.doConnectProc os.error).map (·, none) := by
      unfold Slot.pollEvent
      rw [hconn]
    rw [hproc] at hp
    obtain ⟨t', ht', heq⟩ := Option.map_eq_some_iff.mp hp
    cases heq
    unfold Slot.doConnectProc at ht'
    cases herror : os.error with
    | true =>
      rw [herror] at ht'
      obtain ⟨u, hu, rfl⟩ := Slot.forceClose_map ht'
      have hrem : Remembered u := remembered_of_closed hu
      rw [remembered_forward]
      simp [hrem]
    | false =>
      rw [herror] at ht'
      simp only [Bool.false_eq_true, if_false, Option.some.injEq] at ht'
      have hest : c.established = t := ht'
      rw [← hest, established_remembered]
      simp [hconn]
  · have hrem : Remembered t := by
      cases Slot.pollEvent_polled hp with
      | same _ => exact h
      | ends _ hu _ => exact (remembered_forward _ _ _ _).mpr (remembered_of_closed hu)
      | connects hstate => exact absurd hstate hconn
      | accepts accepted _ => cases accepted <;> exact h
      | receives n _ _ _ => exact h
      | sends answers _ _ => exact flush_remembered h answers
    simp [hrem, hconn]

/-- **Each step** from a slot that remembers its bytes leaves one that does exactly when it
`Remembers`. -/
theorem does_remembered (h : Remembered c) (hp : c.s.m_state ≠ .PACCEPT)
    (hd : Does startFunc c e t) : Remembered t ↔ Remembers c e := by
  have hkeeps : Remembered t → Remembers c e → (Remembered t ↔ Remembers c e) :=
    fun ht he => ⟨fun _ => he, fun _ => ht⟩
  cases hd with
  | nothing hleaves =>
    apply hkeeps h
    cases e with
    | direct => exact hleaves.elim
    | connect => exact hleaves.elim
    | send => exact hleaves.elim
    | getEvent os =>
      obtain ⟨ev, hev⟩ := hleaves
      intro hconn herror
      simp [Slot.pollEvent, hconn, Slot.doConnectProc, herror] at hev
    | _ => trivial
  | win handle _ =>
    apply hkeeps _ trivial
    exact remembered_of_state (by simp) (by simp)
  | doRest handle =>
    apply hkeeps _ trivial
    exact remembered_of_state (by simp [Slot.doRest, SocketHandle.doRest])
      (by simp [Slot.doRest, SocketHandle.doRest])
  | setHandle handle => exact hkeeps h trivial
  | listen opaqueId handle sock _ =>
    apply hkeeps _ trivial
    exact remembered_of_state (by simp) (by simp)
  | accept opaqueId listener handle sock hstate =>
    apply hkeeps _ trivial
    exact remembered_of_state (by simp [Slot.initWith, SocketHandle.doInit, hstate])
      (by simp [Slot.initWith, SocketHandle.doInit, hstate])
  | direct data answer hcan => exact direct_remembered h hcan
  | incSendIn hr =>
    apply hkeeps _ trivial
    obtain ⟨m_sendIn, rfl⟩ := SendPath.incSendIn_frame hr
    exact h
  | start _ hr =>
    apply hkeeps _ trivial
    rcases Slot.doRequestStart_some hr with ⟨-, rfl⟩ | ⟨-, hthere⟩
    · exact h
    · rcases hthere with ⟨-, ⟨-, u, hu, rfl⟩ | ⟨-, rfl⟩⟩ | ⟨-, rfl⟩ | ⟨-, rfl⟩
      · exact (remembered_forward _ _ _ _).mpr (remembered_of_closed hu)
      · exact remembered_of_state (by simp [hp]) (by simp [hp])
      · exact h
      · exact h
  | connect r info registers => exact connect_remembered r info registers
  | send r => exact send_remembered r h
  | close hr =>
    apply hkeeps _ trivial
    rcases Slot.doRequestClose_some hr with ⟨-, rfl⟩ | ⟨-, u, hu, rfl⟩
    · exact h
    · exact (remembered_forward _ _ _ _).mpr (remembered_of_closed hu)
  | getEvent hpoll => exact getEvent_remembered h hpoll

/-! ## Runs -/

/-- The slot remembers its bytes and is not `PACCEPT`. -/
def Remembering (s : State) : Prop := Remembered s.c ∧ s.c.s.m_state ≠ .PACCEPT

/-- A new slot has no data. -/
theorem remembering_of_starts {s : State} (h : Starts s) : Remembering s :=
  ⟨remembered_of_state (by simp [h.state]) (by simp [h.state]), not_paccept_of_starts h⟩

/-- **When write interest is never forgotten**: all along a run of a slot, unsent bytes of a
connected or half closed slot have write events enabled, exactly when every step of the run
`Remembers` them.
SOURCE: network/socketSystem.cc:267-287, 512-526, 534-568, 646-652, 774-805 -/
theorem write_interest (startFunc : Bool) {s₀ s : State} {es : List Event} (h0 : Starts s₀)
    (hrun : (system startFunc).run s₀ es = some s) :
    (∀ fs t, fs <+: es → (system startFunc).run s₀ fs = some t → Remembered t.c) ↔
      (system startFunc).Meets (fun s => Remembers s.c) s₀ es := by
  apply System.throughout_iff_meets (I := Remembering) (P := fun s => Remembered s.c) _ _ _
    (remembering_of_starts h0) hrun
  · intro s h
    exact h.1
  · intro s e s' h hc hs
    have hd := step_does hs
    exact ⟨(does_remembered h.1 h.2 hd).mpr hc, does_not_paccept h.2 hd⟩
  · intro s e s' h hc hs hrem
    exact hc ((does_remembered h.1 h.2 (step_does hs)).mp hrem)

/-- A connect that is done at once, whose registration fails, and a buffer that the kernel takes whole in
the call that sends it. -/
def directSend : List Event :=
  reserved 1 ++ [.connect ⟨1, 5⟩ (.addresses (.connected 7) []) false, .direct 1 [1, 2, 3] (.takes 3)]

/-- Nothing is left that write events would be needed for. -/
theorem write_interest_connected : ∃ s, (system false).run start directSend = some s ∧
    s.c.s.m_state = .CONNECTED ∧ s.c.kernel = [1, 2, 3] ∧ Remembered s.c := by
  have hmeets : (system false).Meets (fun s => Remembers s.c) start directSend := by
    simp [directSend, reserved, System.Meets, Remembers, step, act, start, State.overwrite,
      Slot.setState, Slot.doRest, SocketHandle.setState, SocketHandle.setHandle,
      SocketHandle.doRest, SocketHandle.unsent, directBytes]
  have hall := (write_interest false start_starts rfl).mpr hmeets
  exact ⟨_, rfl, rfl, rfl, hall _ _ List.prefix_rfl rfl⟩

/-- A buffer queued on that connection has no write events: its descriptor is not registered. -/
theorem write_interest_forgotten : ¬ ∀ (startFunc : Bool) (s₀ s : State) (es : List Event),
    Starts s₀ → (system startFunc).run s₀ es = some s →
      ∀ fs t, fs <+: es → (system startFunc).run s₀ fs = some t → Remembered t.c := by
  intro hall
  have hrem := hall false start _
    (reserved 1 ++ [.connect ⟨1, 5⟩ (.addresses (.connected 7) []) false, .send ⟨1, 1, [9]⟩])
    start_starts rfl _ _ List.prefix_rfl rfl
  have hint := hrem (.inl rfl) (by decide)
  cases hint.1

end MagicNet.SlotLife
