import MagicNet.Analysis.HandlerSteps
import MagicNet.Model.SlotLife

/-!
# The slot of an accepted connection

`doAcceptProc` initialises the slot of the connection it has accepted and announces it; it sets no
state, and `doInit` sets none either.  The slot stays `RESERVE`, as `getReserve` should have left
it.  No step of a slot gives it the state `PACCEPT`, which the handlers of a start and of a close
request are ready for.
-/

set_option autoImplicit false

namespace MagicNet.SlotLife

open MagicNet.Foundation MagicNet.Network

/-! ## From the accept to the release -/

/-- A start or a close request for the handle. -/
def Releases (handle : ℤ) : Event → Prop
  | .start request _ => request._handle = handle
  | .close request _ => request._handle = handle
  | _ => False

/-- A connection is accepted and announced: no assertion has failed. -/
def Announced (startFunc : Bool) (s₀ : State) (gs : List Event) (opaqueId : ℕ)
    (listener handle sock : ℤ) (t : State) : Prop :=
  (system startFunc).run s₀ (gs ++ [.accept opaqueId listener handle sock]) = some t ∧
    t.alive = true

/-- Once a connection is announced, its slot is `PACCEPT` until a start or a close request for it is
handled. -/
def StaysPaccept (startFunc : Bool) (s₀ : State) (es : List Event) : Prop :=
  ∀ gs opaqueId listener handle sock hs t t',
    gs ++ .accept opaqueId listener handle sock :: hs <+: es →
    Announced startFunc s₀ gs opaqueId listener handle sock t →
    (∀ e ∈ hs, ¬ Releases handle e) → (system startFunc).run t hs = some t' →
      t'.c.s.m_state = .PACCEPT

/-- No connection is announced in the run. -/
def NoneAnnounced (startFunc : Bool) (s₀ : State) (es : List Event) : Prop :=
  ∀ gs opaqueId listener handle sock t,
    gs ++ [.accept opaqueId listener handle sock] <+: es →
      ¬ Announced startFunc s₀ gs opaqueId listener handle sock t

/-! ## What the handlers do with a slot that is `PACCEPT` -/

variable {c : Slot}

/-- A start request whose registration succeeds connects it and forwards `START`.
SOURCE: network/socketSystem.cc:409-441 -/
theorem start_of_paccept (r : RequestStart) (hstate : c.s.m_state = .PACCEPT)
    (hhandle : c.s.m_handle = r._handle) : ∃ t, c.doRequestStart r true = some t ∧
      t.s.m_state = .CONNECTED ∧ t.registered = true ∧
      t.messages = c.messages ++ [⟨.M_SOCKET_START, r._opaque, r._handle, 0⟩] := by
  have hthere : ¬ (c.s.m_state = .INVALID ∨ c.s.m_handle ≠ r._handle) := by
    simp [hstate, hhandle]
  unfold Slot.doRequestStart
  rw [if_neg hthere, hstate]
  exact ⟨_, rfl, rfl, rfl, rfl⟩

/-- A close request closes it and forwards `CLOSE`.
SOURCE: network/socketSystem.cc:581-612 -/
theorem close_of_paccept (r : RequestClose) (answers : List Answer)
    (hstate : c.s.m_state = .PACCEPT) (hhandle : c.s.m_handle = r._handle) :
    ∃ t, c.doRequestClose r answers = some t ∧ t.s.m_state = .INVALID ∧
      t.messages = c.messages ++ [⟨.M_SOCKET_CLOSE, r._opaque, r._handle, 0⟩] := by
  have hcloses : ∀ u : Slot, u.s.m_state = .PACCEPT → (u.closeAndForward r._opaque r._handle) =
      some ({ u with s := u.s.doClose }.forward .M_SOCKET_CLOSE r._opaque r._handle 0) := by
    intro u hu
    unfold Slot.closeAndForward Slot.forceClose
    rw [hu]
    rfl
  have hthere : ¬ (c.s.m_state = .INVALID ∨ c.s.m_handle ≠ r._handle) := by
    simp [hstate, hhandle]
  have hsent : (c.doSend answers).1.s.m_state = .PACCEPT :=
    (Slot.doSend_kept c answers).state.trans hstate
  have hafter : (c.doSend answers).1.s.isSending = false :=
    Slot.isSending_of_curSender (SocketHandle.doSend_curSender c.s answers)
  unfold Slot.doRequestClose
  rw [if_neg hthere]
  cases hsending : c.s.isSending with
  | true =>
    simp only [if_true, hafter, or_true, hcloses _ hsent, ite_self]
    exact ⟨_, rfl, rfl, rfl⟩
  | false =>
    simp only [Bool.false_eq_true, if_false, hsending, or_true, if_true, hcloses c hstate]
    exact ⟨_, rfl, rfl, rfl⟩

/-! ## No slot is `PACCEPT` -/

variable {t : Slot} {startFunc : Bool} {s s' : State} {e : Event}

/-- **No step gives a slot the state `PACCEPT`.** -/
theorem does_not_paccept (h : c.s.m_state ≠ .PACCEPT) (hd : Does startFunc c e t) :
    t.s.m_state ≠ .PACCEPT := by
  have hkept : ∀ {u}, Slot.Kept c u → u.s.m_state ≠ .PACCEPT := fun hu => hu.state ▸ h
  have hclosed : ∀ {u}, Slot.Closed c u → u.s.m_state ≠ .PACCEPT := fun hu => by simp [hu.state]
  cases hd with
  | nothing _ => exact h
  | win handle _ => simp
  | doRest handle => simp [Slot.doRest, SocketHandle.doRest]
  | setHandle handle => exact h
  | listen opaqueId handle sock _ => simp
  | accept opaqueId listener handle sock _ => exact h
  | direct data answer _ => exact hkept (Slot.directWrite_kept c data answer)
  | incSendIn hr => exact hkept (Slot.incSendIn_kept hr)
  | start _ hr =>
    rcases Slot.doRequestStart_some hr with ⟨-, rfl⟩ | ⟨-, hthere⟩
    · simpa using h
    · rcases hthere with ⟨-, ⟨-, u, hu, rfl⟩ | ⟨-, rfl⟩⟩ | ⟨-, rfl⟩ | ⟨-, rfl⟩
      · simpa using hclosed hu
      · simp [h]
      · simpa using h
      · exact h
  | connect r info registers =>
    rcases Slot.doRequestConnect_some c r info registers with
      ⟨-, heq⟩ | ⟨sock, zero, -, -, heq⟩
    · simp [heq, Slot.failConnect]
    · cases zero <;> simp [heq, Slot.begun]
  | send r =>
    obtain ⟨u, hu, heq | ⟨n, heq⟩⟩ := Slot.doRequestSend_some c r
    · simpa [heq] using hkept hu
    · simpa [heq] using hkept hu
  | close hr =>
    rcases Slot.doRequestClose_some hr with ⟨-, rfl⟩ | ⟨-, u, hu, rfl⟩
    · simpa using h
    · simpa using hclosed hu
  | getEvent hp =>
    cases Slot.pollEvent_polled hp with
    | same _ => exact h
    | ends _ hu _ => simpa using hclosed hu
    | connects _ => simp [Slot.established_state]
    | accepts accepted _ => cases accepted <;> exact h
    | receives n _ _ _ => exact h
    | sends answers _ _ => exact hkept (Slot.flush_kept c answers)

/-- A slot does not start as an accepted one. -/
theorem not_paccept_of_starts (h : Starts s) : s.c.s.m_state ≠ .PACCEPT := by simp [h.state]

/-- A slot is never `PACCEPT`. -/
theorem not_paccept (h : (system startFunc).Reachable s) : s.c.s.m_state ≠ .PACCEPT :=
  h.invariant (fun _ => not_paccept_of_starts) (by
    intro s e s' hI _ hs
    exact does_not_paccept hI (step_does hs))

/-! ## Accepted connections -/

/-- **Accepted connections are never `PACCEPT`.**  A slot that is `PACCEPT` is started and closed as
it should be; in any run of a slot, an accepted connection stays `PACCEPT` until its start or its
close exactly when none has been announced.
SOURCE: network/socketSystem.cc:409-441, 581-608, 691-717, network/socketHandle.cc:26-50 -/
theorem accepted_slot (startFunc : Bool) {s₀ : State} (es : List Event) (h0 : Starts s₀) :
    (StaysPaccept startFunc s₀ es ↔ NoneAnnounced startFunc s₀ es) ∧
      (∀ (c : Slot) (r : RequestStart), c.s.m_state = .PACCEPT → c.s.m_handle = r._handle →
        ∃ t, c.doRequestStart r true = some t ∧ t.s.m_state = .CONNECTED ∧ t.registered = true ∧
          t.messages = c.messages ++ [⟨.M_SOCKET_START, r._opaque, r._handle, 0⟩]) ∧
      ∀ (c : Slot) (r : RequestClose) (answers : List Answer), c.s.m_state = .PACCEPT →
        c.s.m_handle = r._handle → ∃ t, c.doRequestClose r answers = some t ∧
          t.s.m_state = .INVALID ∧
          t.messages = c.messages ++ [⟨.M_SOCKET_CLOSE, r._opaque, r._handle, 0⟩] := by
  refine ⟨⟨?_, ?_⟩, fun c r => start_of_paccept r, fun c r answers => close_of_paccept r answers⟩
  · intro hstays gs opaqueId listener handle sock t hprefix hannounced
    have hreachable := System.reachable_of_run h0 hannounced.1
    apply not_paccept hreachable
    exact hstays gs opaqueId listener handle sock [] t t hprefix hannounced (by simp) rfl
  · intro hnone gs opaqueId listener handle sock hs t t' hprefix hannounced
    refine absurd hannounced (hnone gs opaqueId listener handle sock t ?_)
    apply List.IsPrefix.trans _ hprefix
    exact ⟨hs, by simp⟩

/-- A second call wins the slot while the first is between its `doRest` and its `setHandle`; the
connection of the first is announced. -/
def acceptedTwice : List Event :=
  [.win 1, .doRest 1, .win 65537, .setHandle 1, .accept 5 9 1 7]

/-- Before a connection is announced. -/
theorem accepted_slot_before :
    StaysPaccept true start [.win 1, .doRest 1, .win 65537, .setHandle 1] := by
  apply (accepted_slot true [.win 1, .doRest 1, .win 65537, .setHandle 1] start_starts).1.mpr
  intro gs opaqueId listener handle sock t hprefix _
  have hmem : Event.accept opaqueId listener handle sock ∈
      [Event.win 1, .doRest 1, .win 65537, .setHandle 1] := by
    apply hprefix.subset
    simp
  simp at hmem

/-- The slot of the announced connection is `RESERVE`. -/
theorem accepted_is_reserve : ¬ ∀ (startFunc : Bool) (s₀ : State) (es : List Event), Starts s₀ →
    StaysPaccept startFunc s₀ es := by
  intro hall
  have hstays := hall true start acceptedTwice start_starts
  have hstate := hstays [.win 1, .doRest 1, .win 65537, .setHandle 1] 5 9 1 7 [] _ _
    List.prefix_rfl ⟨rfl, rfl⟩ (by simp) rfl
  cases hstate

end MagicNet.SlotLife
