import MagicNet.Analysis.HandlerSteps
import MagicNet.Model.SlotLife

/-!
# No data after the end of a stream

`DATA` is forwarded for a slot whose descriptor the poller has reported.  A descriptor is
registered in `doRequestStart`, which handles no request because `socketSystem::doStart` gives
`'S'` no handler, and in `doRequestConnect`, which closes the descriptor again.  So no wait finds
a slot's descriptor registered, no event of a batch is for a slot, and nothing is ever received.
-/

set_option autoImplicit false

namespace MagicNet.SlotLife

open MagicNet.Foundation MagicNet.Network

/-! ## What the poll thread forwards -/

/-- The slots of `m_sockGroup`; no handler of a start request is registered. -/
def sockGroup : System (ℕ → State) (ℕ × Event) := (system false).table ℕ

/-- The messages forwarded in a run of the table, oldest first. -/
def forwarded : (ℕ → State) → List (ℕ × Event) → List Message
  | _, [] => []
  | s, e :: es =>
    match sockGroup.step s e with
    | none => []
    | some s' => (s' e.1).c.messages.drop (s e.1).c.messages.length ++ forwarded s' es

/-- The second message is not data of a connection that the first one ends. -/
def NotAfterEnd (m m' : Message) : Prop :=
  m.type = .M_SOCKET_CLOSE ∨ m.type = .M_SOCKET_ERROR → m'.type = .M_SOCKET_DATA →
    m'.handle ≠ m.handle

/-! ## Slots without events -/

/-- No descriptor of the slot is registered, the batch has no event for it, and no message of it
is data. -/
structure Unheard (s : State) : Prop where
  registered : s.c.registered = false
  stray : s.stray = false
  evts : s.evts = []
  messages : ∀ m ∈ s.c.messages, m.type ≠ .M_SOCKET_DATA

/-- The same of the slot alone. -/
structure Deaf (c : Slot) : Prop where
  registered : c.registered = false
  messages : ∀ m ∈ c.messages, m.type ≠ .M_SOCKET_DATA

variable {c t : Slot} {s s' : State} {e : Event}

/-- A slot that reads no more does not when it tells something else. -/
theorem deaf_forward (h : Deaf c) {type : SocketMessageType} (htype : type ≠ .M_SOCKET_DATA)
    (opaqueId : ℕ) (handle : ℤ) (ud : ℕ) : Deaf (c.forward type opaqueId handle ud) := by
  refine ⟨h.registered, ?_⟩
  intro m hm
  simp only [Slot.forward, List.mem_append, List.mem_singleton] at hm
  rcases hm with hm | rfl
  · exact h.messages m hm
  · exact htype

/-- Nor when its state is kept. -/
theorem deaf_of_kept (h : Deaf c) (hkept : Slot.Kept c t) : Deaf t where
  registered := hkept.registered.trans h.registered
  messages := by
    rw [hkept.messages]
    exact h.messages

/-- Nor when it is closed.
SOURCE: network/socketSystem.cc:807-820 -/
theorem deaf_of_closed (h : Deaf c) (hclosed : Slot.Closed c t) : Deaf t where
  registered := by
    by_contra hreg
    obtain ⟨hwas, -⟩ := hclosed.registered (by simpa using hreg)
    rw [h.registered] at hwas
    cases hwas
  messages := by
    rw [hclosed.messages]
    exact h.messages

/-- A connect request leaves it so: where the slot goes on, its registration has failed.
SOURCE: network/socketSystem.cc:443-532 -/
theorem deaf_connect (h : Deaf c) (r : RequestConnect) (info : AddrInfo) (registers : Bool) :
    Deaf (c.doRequestConnect r info registers) := by
  rcases Slot.doRequestConnect_some c r info registers with
    ⟨-, heq⟩ | ⟨sock, zero, -, -, heq⟩
  · rw [heq]
    exact deaf_forward (c := c.setState .INVALID) ⟨h.registered, h.messages⟩ (by decide) _ _ _
  · rw [heq]
    have hinit : ∀ state, Deaf ((c.initWith r._opaque r._handle sock).setState state) :=
      fun _ => ⟨rfl, h.messages⟩
    cases zero with
    | true => exact deaf_forward (hinit .CONNECTED) (by decide) _ _ _
    | false => exact hinit .CONNECTING

/-- **Each step but an event of the batch** keeps a slot without a registration and data. -/
theorem does_deaf (h : Deaf c) (he : ∀ os, e ≠ .getEvent os) (hd : Does false c e t) : Deaf t := by
  cases hd with
  | nothing _ => exact h
  | win _ _ => exact ⟨h.registered, h.messages⟩
  | doRest _ => exact ⟨rfl, h.messages⟩
  | setHandle _ => exact ⟨h.registered, h.messages⟩
  | listen _ _ _ _ => exact ⟨rfl, h.messages⟩
  | accept opaqueId listener handle sock _ =>
    exact deaf_forward (c := c.initWith opaqueId handle sock) ⟨rfl, h.messages⟩ (by decide) _ _ _
  | direct data answer _ => exact deaf_of_kept h (Slot.directWrite_kept c data answer)
  | incSendIn hr => exact deaf_of_kept h (Slot.incSendIn_kept hr)
  | start hfunc _ => cases hfunc
  | connect r info registers => exact deaf_connect h r info registers
  | send r =>
    obtain ⟨u, hu, heq | ⟨n, heq⟩⟩ := Slot.doRequestSend_some c r
    · rw [heq]
      exact deaf_of_kept h hu
    · rw [heq]
      exact deaf_forward (deaf_of_kept h hu) (by decide) _ _ _
  | close hr =>
    rcases Slot.doRequestClose_some hr with ⟨-, rfl⟩ | ⟨-, u, hu, rfl⟩
    · exact deaf_forward h (by decide) _ _ _
    · exact deaf_forward (deaf_of_closed h hu) (by decide) _ _ _
  | getEvent _ => exact absurd rfl (he _)

/-- **Each step** keeps a slot without events. -/
theorem step_unheard (h : Unheard s) (hs : step false s e = some s') : Unheard s' := by
  have hsteps := step_steps hs
  have he : ∀ os, e ≠ .getEvent os := by
    rintro os rfl
    exact step_getEvent hs h.evts
  have hdeaf := does_deaf ⟨h.registered, h.messages⟩ he (step_does hs)
  -- a batch only has events for what is registered
  have hstray : s'.stray = false := by
    by_contra hsome
    rcases hsteps.stray (by simpa using hsome) with hold | hreg
    · simp [h.stray] at hold
    · simp [h.registered] at hreg
  have hevts : s'.evts = [] := by
    by_contra hsome
    rcases hsteps.evts hsome with hold | hreg | hold
    · exact hold h.evts
    · simp [h.registered] at hreg
    · simp [h.stray] at hold
  exact ⟨hdeaf.registered, hstray, hevts, hdeaf.messages⟩

/-- At the start nothing has been told. -/
theorem unheard_of_starts (h : Starts s) : Unheard s :=
  ⟨h.registered, h.stray, h.evts, by simp [h.messages]⟩

/-- Whatever a run of the table forwards is not data. -/
theorem forwarded_not_data {s : ℕ → State} {es : List (ℕ × Event)} (h : ∀ k, Unheard (s k)) :
    ∀ m ∈ forwarded s es, m.type ≠ .M_SOCKET_DATA := by
  induction es generalizing s with
  | nil => simp [forwarded]
  | cons e es ih =>
    intro m hm
    rw [forwarded] at hm
    split at hm
    · simp at hm
    · next s' hs =>
      obtain ⟨hstep, hothers⟩ := System.table_step (i := e.1) (e := e.2) hs
      have hunheard := step_unheard (h e.1) hstep
      rcases List.mem_append.mp hm with hnew | hlater
      · exact hunheard.messages m (List.mem_of_mem_drop hnew)
      · refine ih ?_ m hlater
        intro k
        by_cases hk : k = e.1
        · rw [hk]
          exact hunheard
        · rw [hothers k hk]
          exact h k

/-- **No data after the end of a stream.**  In any run of the slot table, from any table that no
thread has touched, no `DATA` message is forwarded for a handle after a `CLOSE` or an `ERROR`
message for it.
SOURCE: network/socketSystem.cc:120-155, 409-441, 512-516, 720-917, network/socketChannel.cc:147-151 -/
theorem no_data_after_end (s₀ : ℕ → State) (es : List (ℕ × Event)) (h0 : ∀ k, Starts (s₀ k)) :
    (forwarded s₀ es).Pairwise NotAfterEnd := by
  have hnone : ∀ m ∈ forwarded s₀ es, m.type ≠ .M_SOCKET_DATA :=
    forwarded_not_data fun k => unheard_of_starts (h0 k)
  apply List.pairwise_iff_forall_sublist.mpr
  intro m m' hsub _ hdata
  have hmem : m' ∈ forwarded s₀ es := hsub.subset (by simp)
  exact absurd hdata (hnone m' hmem)

/-- A connect that fails, in a table with nobody else about.
SOURCE: network/socketHandle.cc:38-50, 171-174, network/socketSystem.cc:443-532 -/
theorem no_data_after_end_failed : (forwarded (fun _ => start)
    [(1, .win 1), (1, .doRest 1), (1, .setHandle 1), (1, .connect ⟨1, 5⟩ .fails true),
      (1, .close ⟨1, 0, 5⟩ [])]).Pairwise NotAfterEnd :=
  no_data_after_end _ _ fun _ => start_starts

end MagicNet.SlotLife
