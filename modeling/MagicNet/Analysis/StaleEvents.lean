import MagicNet.Analysis.EndOfStream
import MagicNet.Model.ClearClosed

/-!
# Events of a socket that has been closed

An event of a batch points to its slot, and a slot that has been closed since the batch came may be
reserved again before the event's turn.  The clean-up after a request misses the event when the slot
is reserved between the close and its reads; what the slot's next user does decides then whether the
event is handled for it.  It is not as long as the slot stays `INVALID`.

In this program the question does not arise: no start request is ever handled, no descriptor of a
slot stays registered, and no batch has an event for a slot.
-/

set_option autoImplicit false

namespace MagicNet.ClearClosed

open MagicNet.Foundation MagicNet.Network
open MagicNet.Poll (IocpEvent)
open MagicNet.SlotLife (Does Unheard)

/-! ## Events of a closed socket -/

/-- `doPoll` comes to `doConnectProc`, `doAcceptProc`, `doRecvProc`, `doSendProc` or an error branch
with the event. -/
def Dispatches (c : Slot) (e : IocpEvent) : Prop :=
  match c.s.m_state with
  | .INVALID => False
  | .CONNECTING | .LISTEN => True
  | _ => e.isread = true ∨ e.iswrite = true ∨ e.iserror = true ∨ e.iseof = true

/-- An event of a socket that was closed after the batch came is not dispatched. -/
def NotStale (s : State) (e : Event) (_ : State) : Prop :=
  ∀ os evt, e = .life (.getEvent os) → s.life.evts.head? = some evt → s.closed = true →
    ¬ Dispatches s.life.c evt

/-- While events of a socket that has been closed are still to come, no call of `getReserve` takes
the slot, and no connect request gives it a descriptor. -/
def Undisturbed (s : State) (e : Event) : Prop :=
  s.closed = true → s.life.evts ≠ [] →
    (∀ handle, e ≠ .life (.win handle)) ∧
      ∀ request info registers, e = .life (.connect request info registers) →
        connectFails info registers = true

/-! ## Slots without events -/

variable {startFunc : Bool} {s s' : State} {e : Event} {c t : Slot} {le : SlotLife.Event}

/-- **Each step** keeps a slot without events. -/
theorem step_unheard (h : Unheard s.life) (hs : step false s e = some s') : Unheard s'.life := by
  cases e with
  | life e =>
    obtain ⟨⟨halive, -⟩, t, r, hact, rfl⟩ := step_life.mp hs
    obtain ⟨t', hstep, hc, hstray, hevts⟩ := act_life halive hact
    have ht' := SlotLife.step_unheard h hstep
    refine ⟨?_, ?_, ?_, ?_⟩
    · show t.c.registered = false
      rw [hc]
      exact ht'.registered
    · show t.stray = false
      rw [hstray]
      exact ht'.stray
    · show t.evts = []
      rcases hevts with heq | heq
      · rw [heq]
        exact ht'.evts
      · rw [heq]
        exact h.evts
    · show ∀ m ∈ t.c.messages, m.type ≠ .M_SOCKET_DATA
      rw [hc]
      exact ht'.messages
  | scan =>
    simp only [step, Option.ite_none_right_eq_some] at hs
    obtain ⟨hc, -, hstray, hevts⟩ := scan_frame hs.2
    refine ⟨?_, ?_, ?_, ?_⟩
    · rw [hc]
      exact h.registered
    · rw [hstray]
      exact h.stray
    · rw [h.evts] at hevts
      exact List.sublist_nil.mp hevts
    · rw [hc]
      exact h.messages

/-! ## Slots that stay closed -/

/-- Where a step gives a slot that is `INVALID` another state, a call of `getReserve` has taken it or
a connect request has a descriptor for it. -/
theorem does_invalid (hstate : c.s.m_state = .INVALID) (hwin : ∀ handle, le ≠ .win handle)
    (hconnect : ∀ request info registers, le = .connect request info registers →
      connectFails info registers = true)
    (hd : Does startFunc c le t) : t.s.m_state = .INVALID := by
  have hnot : ∀ {state}, c.s.m_state = state → state ≠ .INVALID → False := fun heq hne =>
    hne (heq.symm.trans hstate)
  cases hd with
  | nothing _ => exact hstate
  | win handle _ => exact absurd rfl (hwin handle)
  | doRest handle => rfl
  | setHandle handle => exact hstate
  | listen _ _ _ hreserve => exact (hnot hreserve (by simp)).elim
  | accept _ _ _ _ hreserve => exact (hnot hreserve (by simp)).elim
  | direct data answer _ => exact (Slot.directWrite_kept c data answer).state.trans hstate
  | incSendIn hr => exact (Slot.incSendIn_kept hr).state.trans hstate
  | start _ hr =>
    unfold Slot.doRequestStart at hr
    rw [if_pos (.inl hstate), Option.some.injEq] at hr
    rw [← hr]
    exact hstate
  | connect r info registers =>
    have hfails := hconnect r info registers rfl
    have hfailed : c.doRequestConnect r info registers = c.failConnect r := by
      unfold Slot.doRequestConnect
      unfold connectFails at hfails
      split
      · rfl
      · next hdescriptor =>
        rw [hdescriptor] at hfails
        rw [if_pos hfails]
    rw [hfailed]
    rfl
  | send r =>
    obtain ⟨u, hu, heq | ⟨n, heq⟩⟩ := Slot.doRequestSend_some c r
    · rw [heq]
      exact hu.state.trans hstate
    · rw [heq]
      exact hu.state.trans hstate
  | close hr =>
    unfold Slot.doRequestClose at hr
    rw [if_pos (.inl hstate), Option.some.injEq] at hr
    rw [← hr]
    exact hstate
  | getEvent hp =>
    simp only [Slot.pollEvent, hstate, Option.some.injEq, Prod.mk.injEq] at hp
    rw [← hp.1]
    exact hstate

/-- While events of a socket that has been closed are still to come, its slot is `INVALID`. -/
def StaysClosed (s : State) : Prop :=
  s.closed = true → s.life.evts ≠ [] → s.life.c.s.m_state = .INVALID

/-- **Each step** that leaves a closed slot undisturbed. -/
theorem step_staysClosed (h : StaysClosed s) (hg : Undisturbed s e)
    (hs : step startFunc s e = some s') : StaysClosed s' := by
  cases e with
  | life e =>
    obtain ⟨⟨halive, -⟩, t, r, hact, rfl⟩ := step_life.mp hs
    intro hclosed hevts
    show t.c.s.m_state = .INVALID
    -- a batch that has just come has no such events
    obtain ⟨hwait, hwas⟩ := closedAfter_eq_true hclosed
    have hsome := act_evts hwait hact hevts
    rcases hwas with hwas | hcloses
    · obtain ⟨hwin, hconnect⟩ := hg hwas hsome
      obtain ⟨t', hstep, hc, -, -⟩ := act_life halive hact
      rw [hc]
      apply does_invalid (h hwas hsome) _ _ (SlotLife.step_does hstep)
      · intro handle heq
        exact hwin handle (congrArg Event.life heq)
      · intro request info registers heq
        exact hconnect request info registers (congrArg Event.life heq)
    · simp only [closes, Bool.and_eq_true, decide_eq_true_eq] at hcloses
      exact hcloses.2.2
  | scan =>
    simp only [step, Option.ite_none_right_eq_some] at hs
    obtain ⟨hc, hclosed, -, hevts⟩ := scan_frame hs.2
    intro hwas hsome
    rw [hc]
    apply h
    · rw [← hclosed]
      exact hwas
    · intro hnone
      rw [hnone] at hevts
      exact hsome (List.sublist_nil.mp hevts)

/-- Where a closed slot is `INVALID` its events are not dispatched. -/
theorem StaysClosed.notStale (h : StaysClosed s) : NotStale s e s' := by
  intro os evt _ hevt hclosed hdispatched
  have hsome : s.life.evts ≠ [] := by
    intro hnone
    rw [hnone] at hevt
    cases hevt
  rw [Dispatches, h hclosed hsome] at hdispatched
  exact hdispatched

/-! ## Stale events -/

/-- **Stale events reach no new connection.**  In any run of a slot, with every read of a clean-up a
step, no event of a socket that was closed after its batch came is dispatched.  Were there a handler
for start requests, the same would hold of the runs in which no user takes a closed slot before the
events of its socket are used up.
SOURCE: network/socketSystem.cc:120-155, 383-403, 512-516, 614-626, 822-917,
network/socketChannel.cc:126-188 -/
theorem no_stale_event {s₀ : State} (es : List Event) (h0 : Starts s₀) :
    (system false).Always NotStale s₀ es ∧
      ∀ startFunc, (system startFunc).Meets Undisturbed s₀ es →
        (system startFunc).Always NotStale s₀ es := by
  constructor
  · refine System.always_of_invariant (I := fun s => Unheard s.life) ?_
      (SlotLife.unheard_of_starts h0.life) es
    intro s e s' h hs
    refine ⟨?_, step_unheard h hs⟩
    intro os evt _ hevt
    rw [h.evts] at hevt
    cases hevt
  · intro startFunc hmeets
    refine System.always_of_meets (I := StaysClosed) ?_ ?_ hmeets
    · intro s e s' h hg hs
      exact ⟨h.notStale, step_staysClosed h hg hs⟩
    · intro hclosed
      rw [h0.closed] at hclosed
      cases hclosed

/-- A batch for the slot that a request then closes, and a call that takes the slot before the
clean-up has read its state. -/
def raced : List Event :=
  [.life (.win 1), .life (.doRest 1), .life (.win 65537), .life (.setHandle 1),
    .life (.listen 5 1 7), .life (.start ⟨1, 5⟩ true),
    .life (.onWait [⟨some 1, true, false, false, false⟩]), .life (.close ⟨1, 0, 5⟩ []),
    .life (.win 131073), .scan, .scan,
    .life (.getEvent ⟨false, .fails, .bytes 3, [], false⟩)]

/-- The same requests in the program as it is: the start request ends the poll thread. -/
theorem no_stale_event_raced : (system false).Always NotStale start raced :=
  (no_stale_event raced start_starts).1

/-- With a handler for start requests the new user of the slot receives for the old one. -/
example : ((system true).run start raced).map
    (fun s => s.life.c.messages.getLast?.map (·.type)) = some (some .M_SOCKET_DATA) := by
  decide

end MagicNet.ClearClosed
