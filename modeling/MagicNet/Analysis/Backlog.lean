import MagicNet.Analysis.AcceptedSlot

/-!
# The byte count of a slot's backlog

`appendSendQs` adds a buffer to `m_sendBytes` and `doSend` subtracts what the kernel takes, from the
buffers of the queue and from `m_curSender` alike.  But `setCurrentSendBuffer` adds nothing, so a
direct write that the kernel takes in part leaves bytes that are subtracted and have never been
counted.  `doInit` sets the count to 0 whatever buffers the slot has, and the count is 32 bits wide.

`Counted` gives the steps after which the count of an open slot stays exact, and `backlog_exact` says
that they are the only ones.

SOURCE: network/socketHandle.cc:26-36, 72-113, 160-190, network/socketSystem.cc:267-287
-/

set_option autoImplicit false

namespace MagicNet.SlotLife

open MagicNet.Foundation MagicNet.Network
open MagicNet.SendPath (directBytes directWrite acceptsSend doToWrite_s)

/-- A slot whose socket is open. -/
def Open (c : Slot) : Prop := c.s.m_state ≠ .INVALID ∧ c.s.m_state ≠ .RESERVE

/-- The count is exact: it is the number of unsent bytes, no flush subtracts more than it,
and a warning is for more than `WARNING_SIZE` bytes. -/
structure Backlog (s : SocketHandle) : Prop where
  exact : s.m_sendBytes = s.unsent.length
  flush : ∀ answers, (s.doSend answers).bytes.length ≤ s.m_sendBytes
  warning : 0 < s.getWarning.1 → WARNING_SIZE < s.unsent.length

/-- A step keeps it: the count of an open slot is right after it, and a warning that it
forwards is for more than `WARNING_SIZE` bytes. -/
structure StepRight (s : State) (e : Event) (s' : State) : Prop where
  backlog : Open s'.c → Backlog s'.c.s
  warned : ∀ r, e = .send r → Open s'.c → s'.c.messages ≠ s.c.messages →
    WARNING_SIZE < s'.c.s.unsent.length

/-- The steps that count what they add: a direct write leaves nothing over, an append is of a buffer
that holds its size and fits the count, and a slot that is opened has no bytes. -/
def Counted (s : State) : Event → Prop
  | .direct _ data answer => toUint32 data.length ≤ directBytes data answer
  | .send r => Open s.c → acceptsSend s.c.s.m_state = true → s.c.s.m_handle = r._handle →
      toUint32 r._sz ≤ r._data.length ∧ s.c.s.unsent.length + toUint32 r._sz < 2 ^ 32
  | .listen .. => s.c.s.m_state = .RESERVE → s.c.s.unsent = []
  | .connect _ info registers => AddrInfo.descriptor info ≠ none → registers = false →
      s.c.s.unsent = []
  | _ => True

/-- The invariant of the runs whose steps all count. -/
structure Count (c : Slot) : Prop where
  sendBytes : c.s.m_sendBytes = c.s.unsent.length
  bound : c.s.m_sendBytes < 2 ^ 32
  curSender : c.s.m_curSender.toList.flatMap SendData.unsent = []

/-! ## The flush -/

/-- The unsent bytes are those of the current buffer and then those of the queue.
SOURCE: network/socketHandle.cc:72-113 -/
theorem unsent_append (s : SocketHandle) :
    s.unsent = s.m_curSender.toList.flatMap SendData.unsent ++
      s.m_sendQs.flatMap SendData.unsent := by
  rw [SocketHandle.unsent, List.flatMap_append]

/-- **The loops of `doSend`** subtract what the kernel takes.
SOURCE: network/socketHandle.cc:72-113 -/
theorem sendLoop_sendBytes (answers : List Answer) {s : SocketHandle}
    (h : s.m_sendBytes = (s.m_sendQs.flatMap SendData.unsent).length) (hlt : s.m_sendBytes < 2 ^ 32) :
    (SocketHandle.sendLoop answers s).handle.m_sendBytes =
      ((SocketHandle.sendLoop answers s).handle.m_sendQs.flatMap SendData.unsent).length := by
  induction answers generalizing s with
  | nil => exact h
  | cons answer answers ih =>
    cases hqs : s.m_sendQs with
    | nil =>
      simp only [SocketHandle.sendLoop, hqs]
      rw [h, hqs]
    | cons tmp rest =>
      have hlen : s.m_sendBytes = tmp.unsent.length + (rest.flatMap SendData.unsent).length := by
        rw [h, hqs, List.flatMap_cons, List.length_append]
      simp only [SocketHandle.sendLoop, hqs]
      cases answer with
      | EINTR => exact ih h hlt
      | EAGAIN => exact h
      | fails => exact h
      | takes n =>
        have hsub : toUint32 (s.m_sendBytes - (min n tmp.unsent.length : ℕ)) =
            s.m_sendBytes - min n tmp.unsent.length := by
          unfold toUint32
          omega
        simp only [hsub]
        split
        · next hend =>
          -- the last unsent byte of the buffer has been taken
          have hall : tmp.unsent.length ≤ min n tmp.unsent.length := by
            have htake := SendData.take_unsent_of_end hend
            have hlen' := congrArg List.length htake
            rw [List.length_take] at hlen'
            omega
          apply ih
          · show s.m_sendBytes - min n tmp.unsent.length = (rest.flatMap SendData.unsent).length
            omega
          · show s.m_sendBytes - min n tmp.unsent.length < 2 ^ 32
            omega
        · show s.m_sendBytes - min n tmp.unsent.length = _
          rw [List.flatMap_cons, SendData.unsent_advance, List.length_append, List.length_drop]
          omega

/-- A flush of a slot whose count is exact.
SOURCE: network/socketHandle.cc:72-113 -/
theorem count_doSend {c t : Slot} (h : Count c) (answers : List Answer)
    (ht : t.s = (c.s.doSend answers).handle) : Count t := by
  have hnone := SocketHandle.doSend_curSender c.s answers
  have hqueue := SocketHandle.pushCurSender_unsent c.s
  have hsame : c.s.pushCurSender.m_sendBytes = c.s.m_sendBytes := by
    unfold SocketHandle.pushCurSender
    split <;> rfl
  have hsend := sendLoop_sendBytes answers (s := c.s.pushCurSender)
    (by rw [hsame, hqueue, h.sendBytes]) (hsame ▸ h.bound)
  have hunsent : (c.s.doSend answers).handle.unsent =
      (c.s.doSend answers).handle.m_sendQs.flatMap SendData.unsent := by
    rw [unsent_append, hnone]
    rfl
  have hexact : (c.s.doSend answers).handle.m_sendBytes =
      (c.s.doSend answers).handle.unsent.length := by
    rw [hunsent]
    exact hsend
  have hle := congrArg List.length (SocketHandle.doSend_conserves c.s answers)
  rw [List.length_append] at hle
  have hbound := h.bound
  have hcount := h.sendBytes
  refine ⟨ht ▸ hexact, ?_, ?_⟩
  · rw [ht, hexact]
    omega
  · rw [ht, hnone]
    rfl

/-- **An exact count** is all that `Backlog` asks for. -/
theorem backlog_of_count {c : Slot} (h : Count c) : Backlog c.s := by
  refine ⟨h.sendBytes, fun answers => ?_, fun hwarn => ?_⟩
  · have hle := congrArg List.length (SocketHandle.doSend_conserves c.s answers)
    rw [List.length_append] at hle
    rw [h.sendBytes]
    omega
  · unfold SocketHandle.getWarning at hwarn
    rw [← h.sendBytes]
    split at hwarn
    · next hlarge => exact hlarge.1
    · exact absurd hwarn (Nat.lt_irrefl 0)

/-! ## What leaves the backlog alone -/

/-- The buffers and their count are the same. -/
structure SameBacklog (c t : Slot) : Prop where
  curSender : t.s.m_curSender = c.s.m_curSender
  sendQs : t.s.m_sendQs = c.s.m_sendQs
  sendBytes : t.s.m_sendBytes = c.s.m_sendBytes

/-- A slot with the same bytes and the same count is as exact. -/
theorem SameBacklog.count {c t : Slot} (h : SameBacklog c t) (hc : Count c) : Count t := by
  have hunsent : t.s.unsent = c.s.unsent := by
    rw [SocketHandle.unsent, h.curSender, h.sendQs, ← SocketHandle.unsent]
  refine ⟨?_, ?_, ?_⟩
  · rw [h.sendBytes, hunsent]
    exact hc.sendBytes
  · rw [h.sendBytes]
    exact hc.bound
  · rw [h.curSender]
    exact hc.curSender

/-- The count is that of the socket handle. -/
theorem count_of_s {c t : Slot} (h : t.s = c.s) (hc : Count c) : Count t := by
  refine SameBacklog.count ⟨?_, ?_, ?_⟩ hc <;> rw [h]

/-- A connection that is made changes no count.
SOURCE: network/socketSystem.cc:628-671 -/
theorem same_established (c : Slot) : SameBacklog c c.established := by
  have hs : c.established.s = (c.setState .CONNECTED).s := by
    unfold Slot.established
    split
    · rfl
    · exact doToWrite_s _ false
  refine ⟨?_, ?_, ?_⟩ <;> rw [hs] <;> rfl

/-- A slot that is opened without bytes. -/
theorem count_initWith {c t : Slot} {opaqueId : ℕ} {handle sock : ℤ} (hnone : c.s.unsent = [])
    (h : SameBacklog (c.initWith opaqueId handle sock) t) : Count t := by
  have hcur := hnone
  rw [unsent_append] at hcur
  refine h.count ⟨?_, ?_, ?_⟩
  · show 0 = c.s.unsent.length
    rw [hnone]
    rfl
  · show 0 < 2 ^ 32
    omega
  · exact (List.append_eq_nil_iff.mp hcur).1

/-- A slot that is opened has its count at 0. -/
theorem unsent_of_initWith {c t : Slot} {opaqueId : ℕ} {handle sock : ℤ}
    (h : SameBacklog (c.initWith opaqueId handle sock) t)
    (hexact : t.s.m_sendBytes = t.s.unsent.length) : c.s.unsent = [] := by
  have hunsent : t.s.unsent = c.s.unsent := by
    rw [SocketHandle.unsent, h.curSender, h.sendQs]
    rfl
  rw [h.sendBytes, hunsent] at hexact
  exact List.length_eq_zero_iff.mp hexact.symm

/-- Nor does a listen, and it opens the slot.
SOURCE: network/socketSystem.cc:182-213 -/
theorem same_listen (c : Slot) (opaqueId : ℕ) (handle sock : ℤ) :
    SameBacklog (c.initWith opaqueId handle sock)
        ((c.initWith opaqueId handle sock).setState .PLISTEN) ∧
      Open ((c.initWith opaqueId handle sock).setState .PLISTEN) :=
  ⟨⟨rfl, rfl, rfl⟩, by simp, by simp⟩

/-- Nor does a connect that has begun.
SOURCE: network/socketSystem.cc:443-532 -/
theorem same_begun (c : Slot) (r : RequestConnect) (sock : ℤ) (zero : Bool) :
    SameBacklog (c.initWith r._opaque r._handle sock) (c.begun r sock zero) ∧
      Open (c.begun r sock zero) := by
  cases zero
  · exact ⟨⟨rfl, rfl, rfl⟩, by simp [Slot.begun, Open]⟩
  · exact ⟨⟨rfl, rfl, rfl⟩, by simp [Slot.begun, Open]⟩

/-! ## The steps -/

/-- A direct write that leaves nothing over, of a slot whose count is exact. -/
theorem direct_iff {c : Slot} (h : Count c) (data : List UInt8) (answer : Answer) :
    (toUint32 data.length ≤ directBytes data answer → Count (directWrite c data answer)) ∧
      (¬ toUint32 data.length ≤ directBytes data answer →
        (directWrite c data answer).s.m_sendBytes ≠ (directWrite c data answer).s.unsent.length) := by
  have hmod : toUint32 data.length ≤ data.length := by
    unfold toUint32
    omega
  have hle : directBytes data answer ≤ data.length := by
    cases answer <;> simp [directBytes]
  unfold directWrite
  by_cases hall : directBytes data answer = data.length
  · simp only [hall, if_true]
    have hcount : Count { c with kernel := c.kernel ++ data.take data.length } :=
      ⟨h.sendBytes, h.bound, h.curSender⟩
    exact ⟨fun _ => hcount, fun hnot => absurd hmod hnot⟩
  · simp only [hall, if_false, doToWrite_s]
    generalize hbuf :
      SendData.mk data (directBytes data answer) (toUint32 data.length) = buf
    have hset : c.s.setCurrentSendBuffer data (directBytes data answer) data.length =
        { c.s with m_curSender := some buf } := by
      rw [← hbuf]
      rfl
    have hleft : buf.unsent.length = toUint32 data.length - directBytes data answer := by
      rw [← hbuf, SendData.length_unsent, Nat.min_eq_left hmod]
    have hcount := h.sendBytes
    rw [unsent_append, h.curSender, List.nil_append] at hcount
    constructor
    · intro hsmall
      have hnil : buf.unsent = [] := List.length_eq_zero_iff.mp (by omega)
      refine ⟨?_, ?_, ?_⟩
      · simp only [doToWrite_s, hset, unsent_append, Option.toList_some,
          List.flatMap_singleton, hnil, List.nil_append]
        exact hcount
      · simp only [doToWrite_s, hset]
        exact h.bound
      · simp only [doToWrite_s, hset, Option.toList_some, List.flatMap_singleton, hnil]
    · intro hlarge
      simp only [hset, unsent_append, Option.toList_some, List.flatMap_singleton,
        List.length_append]
      omega

/-- A send request that is appended, to a slot whose count is exact. -/
theorem append_iff {c : Slot} (h : Count c) (r : RequestSend) :
    (toUint32 r._sz ≤ r._data.length ∧ c.s.unsent.length + toUint32 r._sz < 2 ^ 32 →
        Count (c.appendRequest r)) ∧
      ((c.appendRequest r).s.m_sendBytes = (c.appendRequest r).s.unsent.length →
        toUint32 r._sz ≤ r._data.length ∧ c.s.unsent.length + toUint32 r._sz < 2 ^ 32) := by
  have hs : (c.appendRequest r).s = c.s.appendSendQs r._data r._sz := by
    unfold Slot.appendRequest
    simp only
    split
    · exact doToWrite_s _ true
    · rfl
  have hbuf : ({ _data := r._data, _ptr := 0, _sz := toUint32 r._sz } : SendData).unsent.length =
      min (toUint32 r._sz) r._data.length := by
    rw [SendData.length_unsent, Nat.sub_zero]
  have hunsent : (c.appendRequest r).s.unsent.length =
      c.s.unsent.length + min (toUint32 r._sz) r._data.length := by
    rw [hs, ← hbuf, SocketHandle.unsent, SocketHandle.unsent, SocketHandle.appendSendQs,
      ← List.append_assoc, List.flatMap_append, List.length_append, List.flatMap_singleton]
  have hbytes : (c.appendRequest r).s.m_sendBytes =
      (c.s.unsent.length + toUint32 r._sz) % 2 ^ 32 := by
    rw [hs]
    show toUint32 (c.s.m_sendBytes + r._sz) = _
    rw [h.sendBytes]
    unfold toUint32
    omega
  have hlt : toUint32 r._sz < 2 ^ 32 := by
    unfold toUint32
    omega
  constructor
  · rintro ⟨hsize, hfits⟩
    refine ⟨?_, ?_, ?_⟩
    · rw [hbytes, hunsent, Nat.mod_eq_of_lt hfits, Nat.min_eq_left hsize]
    · rw [hbytes]
      exact Nat.mod_lt _ (by omega)
    · rw [hs]
      exact h.curSender
  · intro hexact
    rw [hbytes, hunsent] at hexact
    have hbound := h.bound
    have hcount := h.sendBytes
    omega

/-- What a send request makes of a slot: nothing, or it is appended and may set the limit of the
next warning.
SOURCE: network/socketSystem.cc:534-568 -/
theorem doRequestSend_cases (c : Slot) (r : RequestSend) :
    ((acceptsSend c.s.m_state = false ∨ c.s.m_handle ≠ r._handle) ∧ c.doRequestSend r = c) ∨
      (acceptsSend c.s.m_state = true ∧ c.s.m_handle = r._handle) ∧
        c.doRequestSend r = (c.appendRequest r).warnOwner r._handle := by
  unfold Slot.doRequestSend acceptsSend
  cases hstate : c.s.m_state <;>
    simp only [true_or, true_and, Bool.false_eq_true, false_and, or_false]
  all_goals
    by_cases hhandle : c.s.m_handle = r._handle
    · simp [hhandle]
    · simp [hhandle]

/-- Nor does a warning.
SOURCE: network/socketHandle.cc:182-190 -/
theorem same_warnOwner (c : Slot) (handle : ℤ) :
    SameBacklog c (c.warnOwner handle) ∧ (c.warnOwner handle).s.m_state = c.s.m_state := by
  obtain ⟨⟨m_sendWarn, hs⟩, -⟩ := SendPath.warnOwner_frame c handle
  refine ⟨⟨?_, ?_, ?_⟩, ?_⟩ <;> rw [hs]

variable {startFunc : Bool} {s s' : State} {e : Event}

/-- What an event of the batch makes of a slot whose count is exact. -/
theorem count_polled {c t : Slot} (h : Open c → Count c) (hp : Slot.Polled c t) :
    Open t → Count t := by
  intro hopen
  cases hp with
  | same _ => exact h hopen
  | ends _ hu _ => exact absurd hu.state hopen.1
  | connects hstate =>
    refine (same_established c).count (h ?_)
    rw [Open, hstate]
    exact ⟨by simp, by simp⟩
  | accepts accepted _ =>
    cases accepted <;> exact count_of_s (c := c) rfl (h hopen)
  | receives n _ _ _ => exact SameBacklog.count (c := c) ⟨rfl, rfl, rfl⟩ (h hopen)
  | sends answers _ _ =>
    have hflush : (c.flush answers).s = (c.s.doSend answers).handle := by
      unfold Slot.flush
      split
      · exact doToWrite_s _ false
      · rfl
    have hstate := (Slot.flush_kept c answers).state
    rw [Open, hstate] at hopen
    exact count_doSend (h hopen) answers hflush

/-- A start request leaves the backlog alone, or closes the slot.
SOURCE: network/socketSystem.cc:409-441 -/
theorem count_start {c t : Slot} {r : RequestStart} {registers : Bool} (h : Open c → Count c)
    (hr : c.doRequestStart r registers = some t) : Open t → Count t := by
  intro hopen
  rcases Slot.doRequestStart_some hr with ⟨-, rfl⟩ | ⟨-, hthere⟩
  · exact count_of_s (c := c) rfl (h hopen)
  · rcases hthere with ⟨hstate, ⟨-, u, hu, rfl⟩ | ⟨-, rfl⟩⟩ | ⟨-, rfl⟩ | ⟨-, rfl⟩
    · exact absurd hu.state hopen.1
    · have hbefore : Open c := by
        rw [Open]
        rcases hstate with hstate | hstate <;> rw [hstate] <;> exact ⟨by simp, by simp⟩
      exact SameBacklog.count (c := c) ⟨rfl, rfl, rfl⟩ (h hbefore)
    · exact count_of_s (c := c) rfl (h hopen)
    · exact h hopen

/-- **A step that counts** leaves the count of an open slot exact. -/
theorem count_step (h : Open s.c → Count s.c) (hcond : Counted s e)
    (hd : Does startFunc s.c e s'.c) : Open s'.c → Count s'.c := by
  generalize hc : s.c = c at h hd
  generalize ht : s'.c = t at hd ⊢
  intro hopen
  cases hd with
  | nothing _ => exact h hopen
  | win handle _ => exact absurd rfl hopen.2
  | doRest handle => exact absurd rfl hopen.1
  | setHandle handle => exact SameBacklog.count (c := c) ⟨rfl, rfl, rfl⟩ (h hopen)
  | listen opaqueId handle sock hstate =>
    exact count_initWith (hc ▸ hcond (hc ▸ hstate)) (same_listen c opaqueId handle sock).1
  | accept opaqueId listener handle sock hstate =>
    exact absurd hstate hopen.2
  | direct data answer hcan =>
    have hbefore : Open c := by
      have hkept := (Slot.directWrite_kept c data answer).state
      rw [Open, hkept] at hopen
      exact hopen
    exact (direct_iff (h hbefore) data answer).1 hcond
  | incSendIn hr =>
    obtain ⟨m_sendIn, rfl⟩ := SendPath.incSendIn_frame hr
    exact SameBacklog.count (c := c) ⟨rfl, rfl, rfl⟩ (h hopen)
  | start _ hr => exact count_start h hr hopen
  | connect r info registers =>
    rcases Slot.doRequestConnect_some c r info registers with
      ⟨-, heq⟩ | ⟨sock, zero, hinfo, hreg, heq⟩
    · rw [heq] at hopen
      exact absurd rfl hopen.1
    · rw [heq]
      exact count_initWith (hc ▸ hcond (by simp [hinfo]) hreg) (same_begun c r sock zero).1
  | send r =>
    rcases doRequestSend_cases c r with ⟨-, heq⟩ | ⟨⟨haccepts, hhandle⟩, heq⟩
    · rw [heq] at hopen ⊢
      exact h hopen
    · obtain ⟨hsame, hstate⟩ := same_warnOwner (c.appendRequest r) r._handle
      have hbefore : Open c := by
        have hkept := (Slot.appendRequest_kept c r).state
        rw [heq, Open, hstate, hkept] at hopen
        exact hopen
      rw [heq]
      subst hc
      exact hsame.count ((append_iff (h hbefore) r).1 (hcond hbefore haccepts hhandle))
  | close hr =>
    rcases Slot.doRequestClose_some hr with ⟨-, rfl⟩ | ⟨-, u, hu, rfl⟩
    · exact count_of_s (c := c) rfl (h hopen)
    · exact absurd hu.state hopen.1
  | getEvent hp => exact count_polled h (Slot.pollEvent_polled hp) hopen

/-- A warning that a send request forwards is for more than `WARNING_SIZE` bytes.
SOURCE: network/socketSystem.cc:534-568 -/
theorem warned_of_count {c : Slot} {r : RequestSend} (h : Count (c.doRequestSend r))
    (hmessages : (c.doRequestSend r).messages ≠ c.messages) :
    WARNING_SIZE < (c.doRequestSend r).s.unsent.length := by
  rcases doRequestSend_cases c r with ⟨-, heq⟩ | ⟨-, heq⟩
  · rw [heq] at hmessages
    exact absurd rfl hmessages
  · obtain ⟨hsame, -⟩ := same_warnOwner (c.appendRequest r) r._handle
    rw [heq] at h hmessages ⊢
    rw [← h.sendBytes, hsame.sendBytes]
    by_contra hsmall
    refine hmessages ?_
    have hnone : (c.appendRequest r).s.getWarning = (0, (c.appendRequest r).s) := by
      unfold SocketHandle.getWarning
      rw [if_neg (fun hand => hsmall hand.1)]
    unfold Slot.warnOwner
    simp only [hnone, Nat.lt_irrefl, if_false]
    exact (Slot.appendRequest_kept c r).messages

/-- **A step that does not count** leaves an open slot with a wrong count. -/
theorem not_exact_step (h : Open s.c → Count s.c) (hcond : ¬ Counted s e)
    (hd : Does startFunc s.c e s'.c) : Open s'.c ∧ s'.c.s.m_sendBytes ≠ s'.c.s.unsent.length := by
  generalize hc : s.c = c at h hd
  generalize ht : s'.c = t at hd ⊢
  cases hd with
  | nothing hleaves =>
    cases e with
    | listen opaqueId handle sock =>
      refine absurd (fun hstate => ?_) hcond
      rw [hc] at hstate
      exact absurd hstate hleaves
    | clearClosed handle => exact absurd trivial hcond
    | onWait batch => exact absurd trivial hcond
    | accept opaqueId listener handle sock => exact absurd trivial hcond
    | start r registers => exact absurd trivial hcond
    | close r answers => exact absurd trivial hcond
    | getEvent os => exact absurd trivial hcond
    | _ => exact hleaves.elim
  | listen opaqueId handle sock hstate =>
    obtain ⟨hsame, hopen⟩ := same_listen c opaqueId handle sock
    refine ⟨hopen, fun hexact => hcond fun _ => ?_⟩
    rw [hc]
    exact unsent_of_initWith hsame hexact
  | direct data answer hcan =>
    have hstate : c.s.m_state = .CONNECTED := by
      simp only [SocketHandle.isCanSend, Bool.and_eq_true, beq_iff_eq] at hcan
      exact hcan.2
    have hopen : Open c := by
      rw [Open, hstate]
      exact ⟨by simp, by simp⟩
    refine ⟨?_, (direct_iff (h hopen) data answer).2 hcond⟩
    rw [Open, (Slot.directWrite_kept c data answer).state]
    exact hopen
  | connect r info registers =>
    rcases Slot.doRequestConnect_some c r info registers with
      ⟨hfails, -⟩ | ⟨sock, zero, -, -, heq⟩
    · refine absurd (fun hinfo hreg => ?_) hcond
      rcases hfails with hnone | hreg'
      · exact absurd hnone hinfo
      · rw [hreg] at hreg'
        cases hreg'
    · obtain ⟨hsame, hopen⟩ := same_begun c r sock zero
      rw [heq]
      refine ⟨hopen, fun hexact => hcond fun _ _ => ?_⟩
      rw [hc]
      exact unsent_of_initWith hsame hexact
  | send r =>
    simp only [Counted, Classical.not_imp] at hcond
    obtain ⟨hopen, haccepts, hhandle, hbad⟩ := hcond
    subst hc
    rcases doRequestSend_cases s.c r with ⟨hno | hne, -⟩ | ⟨-, heq⟩
    · rw [haccepts] at hno
      cases hno
    · exact absurd hhandle hne
    · obtain ⟨hsame, hstate⟩ := same_warnOwner (s.c.appendRequest r) r._handle
      rw [heq]
      refine ⟨?_, fun hexact => hbad ((append_iff (h hopen) r).2 ?_)⟩
      · rw [Open, hstate, (Slot.appendRequest_kept s.c r).state]
        exact hopen
      · rw [hsame.sendBytes, SocketHandle.unsent, hsame.curSender, hsame.sendQs] at hexact
        exact hexact
  | _ => exact absurd trivial hcond

/-- **The byte count of the backlog.**  In a run of a slot with all its users, the count of the open
slot is the number of its unsent bytes after every step, no flush can take it below zero, and every
warning is for more than `WARNING_SIZE` bytes, exactly when every step counts what it adds: a direct
write leaves nothing over, an appended buffer holds its size and fits the count, and a slot that is
opened has no bytes.
SOURCE: network/socketHandle.cc:26-36, 72-113, 160-190, network/socketSystem.cc:267-287, 534-568 -/
theorem backlog_exact (startFunc : Bool) {s₀ s : State} {es : List Event} (h0 : Starts s₀)
    (hrun : (system startFunc).run s₀ es = some s) :
    (system startFunc).Always StepRight s₀ es ↔ (system startFunc).Meets Counted s₀ es := by
  refine System.always_iff_meets (I := fun s => Open s.c → Count s.c) ?_ ?_ ?_ hrun
  · intro s e s' h hcond hs
    have hcount := count_step h hcond (step_does hs)
    refine ⟨⟨fun hopen => backlog_of_count (hcount hopen), ?_⟩, hcount⟩
    rintro r rfl hopen hmessages
    have hsend : s'.c = s.c.doRequestSend r := by
      simp only [system_step, step, act, Option.ite_none_right_eq_some, Option.some.injEq] at hs
      rw [← hs.2]
    rw [hsend] at hopen hmessages hcount ⊢
    exact warned_of_count (hcount hopen) hmessages
  · intro s e s' h hcond hs hright
    obtain ⟨hopen, hne⟩ := not_exact_step h hcond (step_does hs)
    exact hne (hright.backlog hopen).exact
  · intro hopen
    exact absurd h0.state hopen.1

/-- A slot that is connected without a registration, of which a caller writes two bytes. -/
def connectedSlot (answer : Answer) : List Event :=
  reserved 1 ++ [.connect ⟨1, 5⟩ (.addresses (.connected 7) []) false, .direct 1 [1, 2] answer]

/-- The kernel takes both. -/
theorem backlog_exact_whole : (system true).Always StepRight start (connectedSlot (.takes 2)) := by
  refine (backlog_exact true start_starts (s := _) rfl).mpr ?_
  apply System.meets_cons trivial rfl
  apply System.meets_cons trivial rfl
  apply System.meets_cons trivial rfl
  refine ⟨fun _ _ => rfl, fun s hs => ⟨?_, fun _ _ => trivial⟩⟩
  show toUint32 2 ≤ directBytes [1, 2] (.takes 2)
  decide

/-- The kernel takes one: the other is in no count. -/
theorem backlog_uncounted : ¬ ∀ (startFunc : Bool) (s₀ s : State) (es : List Event), Starts s₀ →
    (system startFunc).run s₀ es = some s → (system startFunc).Always StepRight s₀ es := by
  intro hall
  have h := hall true start _ (connectedSlot (.takes 1)) start_starts rfl
  have hlast := ((((h _ rfl).2 _ rfl).2 _ rfl).2 _ rfl).2 _ rfl
  exact absurd (hlast.1.backlog (by unfold Open; decide)).exact (by decide)

end MagicNet.SlotLife
