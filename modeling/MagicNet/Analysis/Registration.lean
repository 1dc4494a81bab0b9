import MagicNet.Analysis.HandlerSteps
import MagicNet.Model.SlotLife

/-!
# Which slots are registered with the poller

`doRegister` returns whether it has registered the descriptor.  `doRequestStart` reads the result
so; `doRequestConnect` compares it with 0, as it would a status, and closes the descriptor it has
just registered.  A connect request that gets a descriptor therefore goes wrong either way: a
registration that succeeds fails the request, and one that fails leaves a slot `CONNECTED` or
`CONNECTING` without a registration.
-/

set_option autoImplicit false

namespace MagicNet.SlotLife

open MagicNet.Foundation MagicNet.Network

/-! ## Slots that are polled -/

/-- The states in which the descriptor of a slot is to be registered. -/
def polled : SocketState → Bool
  | .LISTEN | .CONNECTING | .CONNECTED | .HALFCLOSE => true
  | _ => false

/-- The descriptor of the slot is registered exactly in these states. -/
def Matches (c : Slot) : Prop := c.registered = true ↔ polled c.s.m_state = true

/-- What a connect request that gets a descriptor does, when the registration succeeds or fails. -/
def Connects (c t : Slot) (r : RequestConnect) (registers : Bool) : Prop :=
  if registers then t.s.m_state = .CONNECTING ∨ t.s.m_state = .CONNECTED
  else t.s.m_state = .INVALID ∧ t.registered = false ∧
    t.messages = c.messages ++ [⟨.M_SOCKET_ERROR, r._opaque, r._handle, 0⟩]

structure RegistrationKept (s : State) (e : Event) (s' : State) : Prop where
  registered : Matches s'.c
  connect : ∀ r info registers, e = .connect r info registers →
    (AddrInfo.descriptor info).isSome → Connects s.c s'.c r registers

/-- A connect request gets no descriptor, and the slot is not registered. -/
def NoDescriptor (s : State) (e : Event) : Prop :=
  ∀ r info registers, e = .connect r info registers →
    AddrInfo.descriptor info = none ∧ s.c.registered = false

/-! ## Steps -/

variable {c t : Slot}

/-- What keeps the registration keeps the match. -/
theorem matches_of_kept (h : Matches c) (hkept : Slot.Kept c t) : Matches t := by
  unfold Matches
  rw [hkept.registered, hkept.state]
  exact h

/-- A closed slot was either not registered before or has been unregistered. -/
theorem matches_of_closed (h : Matches c) (hclosed : Slot.Closed c t) : Matches t := by
  have hnot : t.registered = false := by
    by_contra hreg
    obtain ⟨hwas, hstate⟩ := hclosed.registered (by simpa using hreg)
    have hpolled := h.mp hwas
    rcases hstate with hs | hs | hs <;> simp [hs, polled] at hpolled
  simp [Matches, hnot, hclosed.state, polled]

/-- A message to the owner changes no registration.
SOURCE: network/socketSystem.cc:44-53 -/
theorem matches_forward (h : Matches c) (type : SocketMessageType) (opaqueId : ℕ) (handle : ℤ)
    (ud : ℕ) : Matches (c.forward type opaqueId handle ud) := h

/-- An event of the batch keeps the registration right. -/
theorem matches_of_polled (h : Matches c) (hp : Slot.Polled c t) : Matches t := by
  cases hp with
  | same _ => exact h
  | ends _ hclosed _ => exact matches_forward (matches_of_closed h hclosed) _ _ _ _
  | connects hstate =>
    have hreg : c.registered = true := h.mpr (by simp [hstate, polled])
    have hconn : Matches (c.setState .CONNECTED) := by simp [Matches, hreg, polled]
    obtain ⟨u, hu, heq⟩ := Slot.established_kept c
    rw [heq]
    exact matches_forward (matches_of_kept hconn hu) _ _ _ _
  | accepts accepted _ => cases accepted <;> exact h
  | receives n _ _ _ => exact h
  | sends answers _ _ => exact matches_of_kept h (Slot.flush_kept c answers)

/-- **Every step but a connect request keeps the registration right.** -/
theorem step_matches {startFunc : Bool} {e : Event} (h : Matches c) (hd : Does startFunc c e t)
    (he : ∀ r info registers, e ≠ .connect r info registers) : Matches t := by
  cases hd with
  | nothing _ => exact h
  | win handle hstate =>
    have hreg : ¬ c.registered = true := fun hreg => by
      have hpolled := h.mp hreg
      simp [hstate, polled] at hpolled
    simpa [Matches, Slot.setState, SocketHandle.setState, polled] using hreg
  | doRest handle => simp [Matches, Slot.doRest, SocketHandle.doRest, polled]
  | setHandle handle => exact h
  | listen opaqueId handle sock hstate =>
    simp [Matches, Slot.setState, Slot.initWith, SocketHandle.setState, polled]
  | accept opaqueId listener handle sock hstate =>
    simp [Matches, Slot.forward, Slot.initWith, SocketHandle.doInit, hstate, polled]
  | direct data answer _ => exact matches_of_kept h (Slot.directWrite_kept c data answer)
  | incSendIn hr => exact matches_of_kept h (Slot.incSendIn_kept hr)
  | start _ hr =>
    rcases Slot.doRequestStart_some hr with ⟨-, rfl⟩ | ⟨-, hthere⟩
    · exact h
    · rcases hthere with ⟨-, ⟨-, u, hu, rfl⟩ | ⟨-, rfl⟩⟩ | ⟨-, rfl⟩ | ⟨-, rfl⟩
      · exact matches_forward (matches_of_closed h hu) _ _ _ _
      · unfold Matches Slot.forward Slot.setState SocketHandle.setState
        split <;> simp [polled]
      · exact h
      · exact h
  | connect r info registers => exact absurd rfl (he r info registers)
  | send r =>
    obtain ⟨u, hu, heq | ⟨n, heq⟩⟩ := Slot.doRequestSend_some c r
    · rw [heq]
      exact matches_of_kept h hu
    · rw [heq]
      exact matches_forward (matches_of_kept h hu) _ _ _ _
  | close hr =>
    rcases Slot.doRequestClose_some hr with ⟨-, rfl⟩ | ⟨-, u, hu, rfl⟩
    · exact h
    · exact matches_forward (matches_of_closed h hu) _ _ _ _
  | getEvent hp => exact matches_of_polled h (Slot.pollEvent_polled hp)

/-- A connect request that gets a descriptor leaves the slot as if the registration had gone the other
way.
SOURCE: network/socketSystem.cc:443-532 -/
theorem connect_not_kept {r : RequestConnect} {info : AddrInfo} {registers : Bool}
    (hinfo : (AddrInfo.descriptor info).isSome) :
    ¬ Connects c (c.doRequestConnect r info registers) r registers := by
  unfold Connects
  rcases Slot.doRequestConnect_some c r info registers with
    ⟨hnone | rfl, heq⟩ | ⟨sock, zero, -, rfl, heq⟩
  · rw [hnone] at hinfo
    cases hinfo
  · rw [heq]
    simp [Slot.failConnect, Slot.forward, Slot.setState, SocketHandle.setState]
  · rw [heq]
    cases zero <;> simp [Slot.begun, Slot.forward, Slot.setState, SocketHandle.setState]

/-- A connect request that gets none keeps the registration of a slot right if there was none. -/
theorem matches_failConnect (r : RequestConnect) :
    Matches (c.failConnect r) ↔ c.registered = false := by
  simp [Matches, Slot.failConnect, Slot.forward, Slot.setState, SocketHandle.setState, polled]

variable {startFunc : Bool} {s s' : State} {e : Event}

/-- A step in which every connect request gets a descriptor keeps the registration. -/
theorem step_kept (h : Matches s.c) (hc : NoDescriptor s e)
    (hs : step startFunc s e = some s') : RegistrationKept s e s' ∧ Matches s'.c := by
  have hmatches : Matches s'.c := by
    by_cases he : ∃ r info registers, e = .connect r info registers
    · obtain ⟨r, info, registers, rfl⟩ := he
      obtain ⟨hnone, hreg⟩ := hc r info registers rfl
      rw [step_connect hs, Slot.doRequestConnect, hnone]
      exact (matches_failConnect r).mpr hreg
    · exact step_matches h (step_does hs) fun r info registers heq => he ⟨r, info, registers, heq⟩
  refine ⟨⟨hmatches, ?_⟩, hmatches⟩
  rintro r info registers rfl hinfo
  rw [(hc r info registers rfl).1] at hinfo
  cases hinfo

/-- A connect request without one does not.
SOURCE: network/socketSystem.cc:443-532 -/
theorem step_not_kept (hc : ¬ NoDescriptor s e) (hs : step startFunc s e = some s') :
    ¬ RegistrationKept s e s' := by
  intro hkept
  apply hc
  rintro r info registers rfl
  have hnone : AddrInfo.descriptor info = none := by
    by_contra hsome
    have hinfo : (AddrInfo.descriptor info).isSome := Option.isSome_iff_ne_none.mpr hsome
    have hconn := hkept.connect r info registers rfl hinfo
    rw [step_connect hs] at hconn
    exact connect_not_kept hinfo hconn
  refine ⟨hnone, ?_⟩
  have hmatches := hkept.registered
  rw [step_connect hs, Slot.doRequestConnect, hnone] at hmatches
  exact (matches_failConnect r).mp hmatches

/-- A slot starts as it should be registered. -/
theorem matches_of_starts (h : Starts s) : Matches s.c := by
  simp [Matches, h.registered, h.state, polled]

/-- **The registration matches the state** all along a run of a slot, and each connect request
does what the poller's answer asks for, exactly when no connect request gets a descriptor or finds
the slot registered.
SOURCE: network/socketSystem.cc:409-441, 478-532, 807-820, network/iocpEpoll.cc:17-28 -/
theorem registration_matches (startFunc : Bool) {s₀ s : State} {es : List Event} (h0 : Starts s₀)
    (hrun : (system startFunc).run s₀ es = some s) :
    (system startFunc).Always RegistrationKept s₀ es ↔
      (system startFunc).Meets NoDescriptor s₀ es := by
  apply System.always_iff_meets (I := fun s => Matches s.c) _ _ (matches_of_starts h0) hrun
  · intro s e s' h hc hs
    exact step_kept h hc hs
  · intro s e s' _ hc hs
    exact step_not_kept hc hs

/-- A connect request whose `getAddrInfo` fails.
SOURCE: network/socketSystem.cc:443-532 -/
theorem registration_matches_failed :
    (system false).Always RegistrationKept start (reserved 1 ++ [.connect ⟨1, 5⟩ .fails true]) := by
  apply (registration_matches false start_starts rfl).mpr
  simp [reserved, System.Meets, NoDescriptor, step, act, start, AddrInfo.descriptor,
    State.overwrite, Slot.setState, Slot.doRest]

/-- A connect in progress whose registration fails: the slot is left `CONNECTING`, and nobody hears of
it.
SOURCE: network/socketSystem.cc:443-532 -/
theorem unregistered_connect_goes_on : ¬ ∀ (startFunc : Bool) (s₀ s : State) (es : List Event),
    Starts s₀ → (system startFunc).run s₀ es = some s →
      (system startFunc).Always RegistrationKept s₀ es := by
  intro hall
  have hkept := hall false start _
    (reserved 1 ++ [.connect ⟨1, 5⟩ (.addresses (.inProgress 7) []) false]) start_starts rfl
  have hlast := (((hkept _ rfl).2 _ rfl).2 _ rfl).2 _ rfl
  have hconn := hlast.1.connect _ _ _ rfl rfl
  cases hconn.1

end MagicNet.SlotLife
