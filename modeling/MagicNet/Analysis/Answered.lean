import MagicNet.Analysis.HandlerSteps
import MagicNet.Model.SlotLife
import MagicNet.Model.SocketApi

/-!
# Which requests are answered

A coroutine that has sent a start, connect or close request sleeps until `START`, `ERROR` or `CLOSE`
comes for its handle.  The handler forwards one of them, or leaves the slot `CONNECTING`, and the
event that ends the wait forwards one.  It does neither for a start request on a slot that is
`RESERVE`, `LISTEN` or `BIND`, and a close request on a reserved slot fails an assertion; as
`socketSystem::doStart` leaves things, no start request is handled at all.  A slot that is
`CONNECTING` for one handle can be taken over for another.
-/

set_option autoImplicit false

namespace MagicNet.SlotLife

open MagicNet.Foundation MagicNet.Network

/-! ## Answers -/

/-- A message that ends the wait of a coroutine for the handle. -/
def isAnswer (handle : ℤ) (m : Message) : Bool :=
  m.handle = handle && (m.type = .M_SOCKET_START || m.type = .M_SOCKET_ERROR ||
    m.type = .M_SOCKET_CLOSE)

/-- How many answers for the handle a step from `c` to `t` forwards. -/
def answerCount (c t : Slot) (handle : ℤ) : ℕ :=
  (t.messages.drop c.messages.length).countP (isAnswer handle)

/-- The slot is in a state that a later event ends, for this handle. -/
def Waits (c : Slot) (handle : ℤ) : Prop :=
  (c.s.m_state = .CONNECTING ∨ c.s.m_state = .HALFCLOSE) ∧ c.s.m_handle = handle

/-- The handle of a request that a coroutine waits for. -/
def Event.awaited : Event → Option ℤ
  | .start request _ => some request._handle
  | .connect request _ _ => some request._handle
  | .close request _ => some request._handle
  | _ => none

/-- A request is answered once, or its slot is left waiting; a slot that waits goes on waiting or
is answered once. -/
structure Answered (s : State) (e : Event) (s' : State) : Prop where
  request : ∀ handle, e.awaited = some handle → s'.alive = true ∧
    (answerCount s.c s'.c handle = 1 ∨ answerCount s.c s'.c handle = 0 ∧ Waits s'.c handle)
  waits : ∀ handle, Waits s.c handle → Waits s'.c handle ∨ answerCount s.c s'.c handle = 1

/-- The steps that answer what they have to. -/
def Attends (startFunc : Bool) (c : Slot) : Event → Prop
  | .start request _ => startFunc = true ∧ ¬ (c.s.m_handle = request._handle ∧
      (c.s.m_state = .RESERVE ∨ c.s.m_state = .LISTEN ∨ c.s.m_state = .BIND))
  | .connect request _ _ => ∀ handle, Waits c handle → handle = request._handle
  | .close request _ => ¬ (c.s.m_handle = request._handle ∧ c.s.m_state = .RESERVE)
  | .doRest _ => ∀ handle, ¬ Waits c handle
  | .setHandle val => ∀ handle, Waits c handle → handle = val
  | _ => True

/-! ## Counting answers -/

variable {c t : Slot} {handle : ℤ}

/-- The answers of a step are those among its new messages. -/
theorem answers_of_append (new : List Message) (h : t.messages = c.messages ++ new) :
    answerCount c t handle = new.countP (isAnswer handle) := by
  rw [answerCount, h, List.drop_left]

/-- A step without messages answers nothing. -/
theorem answers_of_same (h : t.messages = c.messages) : answerCount c t handle = 0 := by
  rw [answers_of_append [] (by rw [h, List.append_nil])]
  rfl

/-- One message that is an answer. -/
theorem answers_forward {u : Slot} (h : u.messages = c.messages) (type : SocketMessageType)
    (opaqueId : ℕ) (htype : type = .M_SOCKET_START ∨ type = .M_SOCKET_ERROR ∨
      type = .M_SOCKET_CLOSE) : answerCount c (u.forward type opaqueId handle 0) handle = 1 := by
  rw [answers_of_append [⟨type, opaqueId, handle, 0⟩] (by rw [Slot.forward, h])]
  rcases htype with rfl | rfl | rfl <;> simp [isAnswer]

/-- A slot whose state and handle are kept waits as before. -/
theorem waits_of_kept (h : Slot.Kept c t) : Waits t handle ↔ Waits c handle := by
  rw [Waits, Waits, h.state, h.handle]

/-- In other states a slot waits for nothing. -/
theorem not_waits {state : SocketState} (h : c.s.m_state = state) (hne : state ≠ .CONNECTING)
    (hne' : state ≠ .HALFCLOSE) : ¬ Waits c handle := by
  rintro ⟨hc | hc, -⟩
  · exact hne (h.symm.trans hc)
  · exact hne' (h.symm.trans hc)

/-! ## Handlers that fail -/

/-- Only a reserved slot cannot be closed.
SOURCE: network/socketSystem.cc:807-820 -/
theorem forceClose_none (h : c.forceClose = none) : c.s.m_state = .RESERVE := by
  unfold Slot.forceClose at h
  split at h
  all_goals first | assumption | cases h

/-- So it is where the close is told to its owner.
SOURCE: network/socketSystem.cc:807-820 -/
theorem closeAndForward_none {opaqueId : ℕ} (h : c.closeAndForward opaqueId handle = none) :
    c.s.m_state = .RESERVE :=
  forceClose_none (Option.map_eq_none_iff.mp h)

/-- A close request fails an assertion on a reserved slot.
SOURCE: network/socketSystem.cc:581-612 -/
theorem doRequestClose_none {r : RequestClose} {as : List Answer} :
    c.doRequestClose r as = none ↔ c.s.m_handle = r._handle ∧ c.s.m_state = .RESERVE := by
  constructor
  · intro h
    unfold Slot.doRequestClose at h
    split at h
    · cases h
    · next hthere =>
      rw [not_or, not_not] at hthere
      refine ⟨hthere.2, ?_⟩
      by_cases hsending : c.s.isSending = true
      · have hclosed := (Slot.doSend_kept c as).state
        simp only [hsending, if_true] at h
        split at h
        · exact hclosed.symm.trans (closeAndForward_none h)
        · split at h
          · exact hclosed.symm.trans (closeAndForward_none h)
          · cases h
      · have hclose : c.closeAndForward r._opaque r._handle = none := by
          simpa [hsending] using h
        exact closeAndForward_none hclose
  · rintro ⟨hhandle, hstate⟩
    cases h : c.doRequestClose r as with
    | none => rfl
    | some t =>
      rcases Slot.doRequestClose_some h with ⟨hgone | hgone, -⟩ | ⟨-, u, hu, -⟩
      · rw [hstate] at hgone
        cases hgone
      · exact absurd hhandle hgone
      · exact absurd hstate hu.reserve

/-- A start request fails no assertion.
SOURCE: network/socketSystem.cc:409-441 -/
theorem doRequestStart_isSome (c : Slot) (r : RequestStart) (registers : Bool) :
    c.doRequestStart r registers ≠ none := by
  intro h
  unfold Slot.doRequestStart at h
  split at h
  · cases h
  · split at h
    · next hstate =>
      split at h
      · rw [forceClose_none (Option.map_eq_none_iff.mp h)] at hstate
        cases hstate
      · cases h
    · next hstate =>
      split at h
      · rw [forceClose_none (Option.map_eq_none_iff.mp h)] at hstate
        cases hstate
      · cases h
    · cases h
    · cases h

/-! ## Steps that answer -/

variable {startFunc : Bool} {e : Event}

/-- What an event of the batch makes of a slot that waits. -/
theorem waits_polled (hw : Waits c handle) (hp : Slot.Polled c t) :
    Waits t handle ∨ answerCount c t handle = 1 := by
  obtain ⟨hstate, rfl⟩ := hw
  cases hp with
  | same _ => exact .inl ⟨hstate, rfl⟩
  | ends _ hu htype =>
    right
    apply answers_forward hu.messages
    rcases htype with rfl | rfl
    · exact .inr (.inl rfl)
    · exact .inr (.inr rfl)
  | connects _ =>
    right
    obtain ⟨u, hu, heq⟩ := Slot.established_kept c
    rw [heq]
    exact answers_forward hu.messages _ _ (.inl rfl)
  | accepts accepted hlisten => simp [hlisten] at hstate
  | receives n _ hconn hhalf => exact absurd hstate (not_or.mpr ⟨hconn, hhalf⟩)
  | sends as hconn hhalf => exact absurd hstate (not_or.mpr ⟨hconn, hhalf⟩)

/-- A request that is attended to does not end the process. -/
theorem not_leaves (hc : Attends startFunc c e) (he : e.awaited = some handle) :
    ¬ Leaves startFunc c e := by
  intro hleaves
  cases e with
  | start r registers =>
    rcases hleaves with hno | hnone
    · rw [hc.1] at hno
      cases hno
    · exact doRequestStart_isSome c r registers hnone
  | connect => exact hleaves
  | close r as => exact hc (doRequestClose_none.mp hleaves)
  | _ => cases he

/-- A slot that waits goes on waiting or is answered. -/
theorem does_waits (hc : Attends startFunc c e) (hw : Waits c handle)
    (hd : Does startFunc c e t) : Waits t handle ∨ answerCount c t handle = 1 := by
  cases hd with
  | nothing _ => exact .inl hw
  | win _ hstate => exact absurd hw (not_waits hstate (by decide) (by decide))
  | doRest _ => exact absurd hw (hc handle)
  | setHandle val => exact .inl ⟨hw.1, (hc handle hw).symm⟩
  | listen _ _ _ hstate => exact absurd hw (not_waits hstate (by decide) (by decide))
  | accept _ _ _ _ hstate => exact absurd hw (not_waits hstate (by decide) (by decide))
  | direct data answer _ => exact .inl ((waits_of_kept (Slot.directWrite_kept c data answer)).mpr hw)
  | incSendIn hr => exact .inl ((waits_of_kept (Slot.incSendIn_kept hr)).mpr hw)
  | start _ hr =>
    rcases Slot.doRequestStart_some hr with ⟨-, rfl⟩ | ⟨-, hthere⟩
    · exact .inl hw
    · rcases hthere with ⟨hstate | hstate, -⟩ | ⟨hstate, -⟩ | ⟨-, rfl⟩
      · exact absurd hw (not_waits hstate (by decide) (by decide))
      · exact absurd hw (not_waits hstate (by decide) (by decide))
      · exact absurd hw (not_waits hstate (by decide) (by decide))
      · exact .inl hw
  | connect r info registers =>
    obtain rfl : handle = r._handle := hc handle hw
    rcases Slot.doRequestConnect_some c r info registers with
      ⟨-, heq⟩ | ⟨sock, zero, -, -, heq⟩
    · rw [heq]
      exact .inr (answers_forward (u := c.setState .INVALID) rfl _ _ (.inr (.inl rfl)))
    · rw [heq]
      cases zero with
      | true =>
        exact .inr (answers_forward
          (u := (c.initWith r._opaque r._handle sock).setState .CONNECTED) rfl _ _ (.inl rfl))
      | false => exact .inl ⟨.inl rfl, rfl⟩
  | send r =>
    obtain ⟨u, hu, heq | ⟨n, heq⟩⟩ := Slot.doRequestSend_some c r
    · rw [heq]
      exact .inl ((waits_of_kept hu).mpr hw)
    · rw [heq]
      exact .inl ((waits_of_kept hu).mpr hw)
  | close hr =>
    rcases Slot.doRequestClose_some hr with ⟨-, rfl⟩ | ⟨⟨-, hhandle⟩, u, hu, rfl⟩
    · exact .inl hw
    · obtain rfl := hhandle.symm.trans hw.2
      exact .inr (answers_forward hu.messages _ _ (.inr (.inr rfl)))
  | getEvent hp => exact waits_polled hw (Slot.pollEvent_polled hp)

/-- A request is answered, or its slot is left waiting. -/
theorem does_request (hc : Attends startFunc c e) (he : e.awaited = some handle)
    (hd : Does startFunc c e t) :
    answerCount c t handle = 1 ∨ answerCount c t handle = 0 ∧ Waits t handle := by
  cases hd with
  | nothing hleaves => exact absurd hleaves (not_leaves hc he)
  | start _ hr =>
    cases he
    rcases Slot.doRequestStart_some hr with ⟨-, rfl⟩ | ⟨⟨hopen, hhandle⟩, hthere⟩
    · exact .inl (answers_forward rfl _ _ (.inr (.inl rfl)))
    · rcases hthere with ⟨-, ⟨-, u, hu, rfl⟩ | ⟨-, rfl⟩⟩ | ⟨-, rfl⟩ | ⟨hother, rfl⟩
      · exact .inl (answers_forward hu.messages _ _ (.inr (.inl rfl)))
      · exact .inl (answers_forward (u := Slot.setState _ _) rfl _ _ (.inl rfl))
      · exact .inl (answers_forward rfl _ _ (.inl rfl))
      · right
        refine ⟨answers_of_same rfl, ?_, hhandle⟩
        have hrest := fun hbad => hc.2 ⟨hhandle, hbad⟩
        revert hopen hother hrest
        cases t.s.m_state <;> simp
  | connect r info registers =>
    cases he
    rcases Slot.doRequestConnect_some c r info registers with
      ⟨-, heq⟩ | ⟨sock, zero, -, -, heq⟩
    · rw [heq]
      exact .inl (answers_forward (u := c.setState .INVALID) rfl _ _ (.inr (.inl rfl)))
    · rw [heq]
      cases zero with
      | true =>
        exact .inl (answers_forward
          (u := (c.initWith r._opaque r._handle sock).setState .CONNECTED) rfl _ _ (.inl rfl))
      | false => exact .inr ⟨answers_of_same rfl, .inl rfl, rfl⟩
  | close hr =>
    cases he
    rcases Slot.doRequestClose_some hr with ⟨-, rfl⟩ | ⟨-, u, hu, rfl⟩
    · exact .inl (answers_forward rfl _ _ (.inr (.inr rfl)))
    · exact .inl (answers_forward hu.messages _ _ (.inr (.inr rfl)))
  | _ => cases he

/-! ## Steps that do not -/

/-- A start request on such a slot says nothing.
SOURCE: network/socketSystem.cc:409-441 -/
theorem doRequestStart_silent {r : RequestStart} (registers : Bool)
    (hhandle : c.s.m_handle = r._handle)
    (hstate : c.s.m_state = .RESERVE ∨ c.s.m_state = .LISTEN ∨ c.s.m_state = .BIND) :
    c.doRequestStart r registers = some c := by
  unfold Slot.doRequestStart
  rcases hstate with hstate | hstate | hstate <;> simp [hstate, hhandle]

/-- A connect request for another handle takes the slot from the one it waits for.
SOURCE: network/socketSystem.cc:443-532 -/
theorem connect_takes_over {r : RequestConnect} (info : AddrInfo) (registers : Bool)
    (hne : handle ≠ r._handle) : ¬ Waits (c.doRequestConnect r info registers) handle ∧
      answerCount c (c.doRequestConnect r info registers) handle = 0 := by
  rcases Slot.doRequestConnect_some c r info registers with
    ⟨-, heq⟩ | ⟨sock, zero, -, -, heq⟩
  · rw [heq]
    have hstate : (c.failConnect r).s.m_state = .INVALID := rfl
    refine ⟨not_waits hstate (by decide) (by decide), ?_⟩
    rw [answers_of_append [⟨.M_SOCKET_ERROR, r._opaque, r._handle, 0⟩] rfl]
    simp [isAnswer, hne.symm]
  · rw [heq]
    refine ⟨fun hw => hne (hw.2.symm.trans (by cases zero <;> rfl)), ?_⟩
    cases zero with
    | true =>
      rw [answers_of_append [⟨.M_SOCKET_START, r._opaque, r._handle, 0⟩] rfl]
      simp [isAnswer, hne.symm]
    | false => exact answers_of_same rfl

variable {s s' : State}

/-- A request that leaves a slot as it is, and the slot does not wait. -/
theorem not_answered_of_same (hsame : s'.c = s.c) (he : e.awaited = some handle)
    (hw : ¬ Waits s.c handle) : ¬ Answered s e s' := by
  intro hans
  rcases (hans.request handle he).2 with hone | ⟨-, hwaits⟩
  · rw [hsame, answers_of_same rfl] at hone
    cases hone
  · rw [hsame] at hwaits
    exact hw hwaits

/-- A slot that is taken over while it waits. -/
theorem not_answered_of_waits (hw : Waits s.c handle) (hw' : ¬ Waits s'.c handle)
    (hnone : answerCount s.c s'.c handle = 0) : ¬ Answered s e s' := by
  intro hans
  rcases hans.waits handle hw with hwaits | hone
  · exact hw' hwaits
  · rw [hnone] at hone
    cases hone

/-- A step that meets the condition answers what it has to.
SOURCE: network/socketSystem.cc:822-917 -/
theorem step_answered (hc : Attends startFunc s.c e) (hs : step startFunc s e = some s') :
    Answered s e s' := by
  have hd := step_does hs
  refine ⟨fun handle he => ⟨?_, does_request hc he hd⟩, fun handle hw => does_waits hc hw hd⟩
  rcases (step_steps hs).slot with ⟨halive, -⟩ | ⟨-, -, hleaves⟩
  · exact halive
  · exact absurd hleaves (not_leaves hc he)

/-- A step that does not meet it leaves something unanswered, or answers it twice.
SOURCE: network/socketSystem.cc:822-917 -/
theorem step_not_answered (hc : ¬ Attends startFunc s.c e) (hs : step startFunc s e = some s') :
    ¬ Answered s e s' := by
  have hd := step_does hs
  generalize ht : s'.c = t at hd
  cases e with
  | start r registers =>
    by_cases hfunc : startFunc = true
    · have hbad : s.c.s.m_handle = r._handle ∧ (s.c.s.m_state = .RESERVE ∨
          s.c.s.m_state = .LISTEN ∨ s.c.s.m_state = .BIND) := by
        by_contra hok
        exact hc ⟨hfunc, hok⟩
      have hsame : s'.c = s.c := by
        rw [ht]
        cases hd with
        | nothing _ => rfl
        | start _ hr =>
          rw [doRequestStart_silent registers hbad.1 hbad.2, Option.some.injEq] at hr
          exact hr.symm
      apply not_answered_of_same hsame (by rfl)
      rcases hbad.2 with hstate | hstate | hstate
      · exact not_waits hstate (by decide) (by decide)
      · exact not_waits hstate (by decide) (by decide)
      · exact not_waits hstate (by decide) (by decide)
    · intro hans
      obtain rfl : startFunc = false := by simpa using hfunc
      have halive := (hans.request r._handle rfl).1
      rw [step_start_ends hs] at halive
      cases halive
  | connect r info registers =>
    simp only [Attends, not_forall] at hc
    obtain ⟨handle, hw, hne⟩ := hc
    obtain ⟨hnot, hnone⟩ := connect_takes_over (c := s.c) info registers hne
    apply not_answered_of_waits hw
    · rw [step_connect hs]
      exact hnot
    · rw [step_connect hs]
      exact hnone
  | close r as =>
    have hbad : s.c.s.m_handle = r._handle ∧ s.c.s.m_state = .RESERVE := by
      by_contra hok
      exact hc hok
    have hsame : s'.c = s.c := by
      rw [ht]
      cases hd with
      | nothing _ => rfl
      | close hr =>
        rw [doRequestClose_none.mpr hbad] at hr
        cases hr
    exact not_answered_of_same hsame (by rfl) (not_waits hbad.2 (by decide) (by decide))
  | doRest val =>
    simp only [Attends, not_forall, not_not] at hc
    obtain ⟨handle, hw⟩ := hc
    cases hd with
    | nothing hleaves => exact hleaves.elim
    | doRest =>
      apply not_answered_of_waits hw
      · rw [ht]
        have hstate : s.c.doRest.s.m_state = .INVALID := rfl
        exact not_waits hstate (by decide) (by decide)
      · rw [ht]
        exact answers_of_same rfl
  | setHandle val =>
    simp only [Attends, not_forall] at hc
    obtain ⟨handle, hw, hne⟩ := hc
    cases hd with
    | nothing hleaves => exact hleaves.elim
    | setHandle =>
      apply not_answered_of_waits hw
      · rw [ht]
        exact fun hw' => hne hw'.2.symm
      · rw [ht]
        exact answers_of_same rfl
  | _ => exact absurd trivial hc

/-! ## Runs -/

/-- **When every blocking request is answered**: each step of a run of a slot answers the request
it handles and ends no wait silently exactly when it `Attends` to them; `doConnection` suspends for
a request that has been sent exactly when the address is short enough and a slot was free, and
`doStart` always does.
SOURCE: network/socketSystem.cc:135-147, 215-249, 409-532, 581-612, 628-671, api/socket.cc:395-413,
593-602 -/
theorem requests_answered (startFunc : Bool) {s₀ s : State} {es : List Event}
    (hrun : (system startFunc).run s₀ es = some s) :
    ((system startFunc).Always Answered s₀ es ↔
        (system startFunc).Meets (fun s => Attends startFunc s.c) s₀ es) ∧
      (∀ (opaqueId len : ℕ) (reserve : ℤ), (SocketApi.doConnection opaqueId len reserve).Awaited ↔
        len + 24 < 256 ∧ 0 ≤ reserve) ∧
      ∀ (opaqueId : ℕ) (id : ℤ), (SocketApi.doStart opaqueId id).Awaited := by
  refine ⟨?_, SocketApi.doConnection_awaited, SocketApi.doStart_awaited⟩
  apply System.always_iff_meets (I := fun _ => True) _ _ trivial hrun
  · intro s e s' _ hc hs
    exact ⟨step_answered hc hs, trivial⟩
  · intro s e s' _ hc hs
    exact step_not_answered hc hs

/-- A connect request whose `getAddrInfo` fails.
SOURCE: network/socketSystem.cc:443-532 -/
theorem requests_answered_failed :
    (system false).Always Answered start (reserved 1 ++ [.connect ⟨1, 5⟩ .fails true]) := by
  apply (requests_answered false rfl).1.mpr
  simp [reserved, System.Meets, Attends, Waits, step, act, start, State.overwrite, Slot.setState,
    Slot.doRest, SocketHandle.setState, SocketHandle.setHandle, SocketHandle.doRest]

/-- A start request that finds the poll thread without a handler for it. -/
theorem start_unanswered : ¬ ∀ (startFunc : Bool) (s₀ s : State) (es : List Event), Starts s₀ →
    (system startFunc).run s₀ es = some s → (system startFunc).Always Answered s₀ es := by
  intro hall
  have hans := hall false start _ [.start ⟨1, 5⟩ true] start_starts rfl
  have halive := ((hans _ rfl).1.request 1 rfl).1
  cases halive

end MagicNet.SlotLife
