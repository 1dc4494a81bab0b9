import MagicNet.Analysis.HandlerSteps
import MagicNet.Model.SendCount
import MagicNet.Model.SlotLife

/-!
# The count of the sends in flight

`m_sendIn` holds the tag of the slot's handle in its high 16 bits and in its low 16 bits a count,
that `incSendIn` raises and `decSendIn` should lower.  No code calls `decSendIn`: the count is that of
the requests in flight as long as the poll thread handles none of them.  A sender with an older handle
of the slot raises it too, since `incSendIn` compares the tag with that of the slot's own handle.
-/

set_option autoImplicit false

namespace MagicNet.SendCount

open MagicNet.Foundation MagicNet.Network
open MagicNet.Network.Slot
open MagicNet.SendPath (acceptsSend directWrite)

variable {T : Type} [DecidableEq T]

/-- The requests in flight are counted, and where there is room in the count a thread that is alone in
the loop of `incSendIn` leaves it. -/
structure CountRight [Fintype T] (s : State T) : Prop where
  sendIn : s.c.s.m_sendIn % 2 ^ 16 = s.outstanding
  ends : s.outstanding < 65535 → ∀ t call, s.pc t = .load call →
    ((system T).run s [.load t, .swap t]).any (fun s' => s'.pc t = .write call) = true

/-- The step does not handle a request for the slot's handle, nor count one of an older handle. -/
def Undrained (s : State T) : Event T → Prop
  | .request => ∀ r ∈ s.pipe.head?, r._handle ≠ s.c.s.m_handle
  | .swap t => ∀ call, s.pc t = .swap call s.c.s.m_sendIn → call.handle = s.c.s.m_handle
  | _ => True

/-- What every run of steps that are `Undrained` keeps. -/
structure Inv [Fintype T] (s : State T) : Prop where
  proto : s.c.s.m_proto = .TCP
  tag : s.c.s.m_sendIn / 2 ^ 16 = SOCKET_HANDLE_TAG16 s.c.s.m_handle
  count : s.c.s.m_sendIn % 2 ^ 16 = s.outstanding
  loaded : ∀ t call sendIn, s.pc t = .swap call sendIn → sendIn % 2 ^ 16 ≠ 0xffff

/-! ## What the steps do -/

section Steps

variable {s s' : State T} {t : T}

omit [DecidableEq T] in
/-- A handler that fails no assertion. -/
theorem handler_some {c : Option Slot} (h : s.handler c = some s') :
    ∃ u, c = some u ∧ s' = { s with c := u } := by
  unfold State.handler at h
  split at h
  · obtain ⟨u, hu, rfl⟩ := Option.map_eq_some_iff.mp h
    exact ⟨u, hu, rfl⟩
  · cases h

/-- A call begins where the slot's state takes data.
SOURCE: network/socketSystem.cc:250-303 -/
theorem step_call {call : Call} (h : step s (.call t call) = some s') :
    s.pc t = .idle ∧
      s' = s.goto t (if acceptsSend s.c.s.m_state then .tryLock call else .idle) := by
  simp only [step] at h
  split at h
  · next hidle => exact ⟨hidle.1, (Option.some.inj h).symm⟩
  · cases h

/-- The thread gets the lock, or does not.
SOURCE: network/socketSystem.cc:250-303 -/
theorem step_tryLock (h : step s (.tryLock t) = some s') : ∃ call, s.pc t = .tryLock call ∧
    (s' = { s.goto t (.holds call) with m_mutex := some t } ∨ s' = s.goto t (.load call)) := by
  simp only [step] at h
  split at h
  · next call hpc =>
    refine ⟨call, hpc, ?_⟩
    split at h
    · exact .inl (Option.some.inj h).symm
    · exact .inr (Option.some.inj h).symm
  · cases h

/-- With the lock it writes at once, or goes the way of a request.
SOURCE: network/socketSystem.cc:250-303 -/
theorem step_direct {answer : Answer} (h : step s (.direct t answer) = some s') :
    ∃ call, s.pc t = .holds call ∧
      (s' = { s.goto t .idle with c := directWrite s.c call.data answer, m_mutex := none } ∨
        s' = { s.goto t (.load call) with m_mutex := none }) := by
  simp only [step] at h
  split at h
  · next call hpc =>
    refine ⟨call, hpc, ?_⟩
    split at h
    · exact .inl (Option.some.inj h).symm
    · exact .inr (Option.some.inj h).symm
  · cases h

/-- A load of the count of a TCP slot whose tag is that of its handle. -/
theorem step_load (hproto : s.c.s.m_proto = .TCP)
    (htag : s.c.s.m_sendIn / 2 ^ 16 = SOCKET_HANDLE_TAG16 s.c.s.m_handle)
    (h : step s (.load t) = some s') : ∃ call, s.pc t = .load call ∧
      (s' = s ∨ s.c.s.m_sendIn % 2 ^ 16 ≠ 0xffff ∧ s' = s.goto t (.swap call s.c.s.m_sendIn)) := by
  simp only [step] at h
  split at h
  · next call hpc =>
    refine ⟨call, hpc, ?_⟩
    rw [if_neg (not_not.mpr hproto), if_pos htag] at h
    split at h
    · exact .inl (Option.some.inj h).symm
    · next hroom => exact .inr ⟨hroom, (Option.some.inj h).symm⟩
  · cases h

/-- The slot after a compare-and-swap that succeeds. -/
def State.raised (s : State T) (t : T) (call : Call) : State T :=
  { s.goto t (.write call) with
    c := { s.c with s := { s.c.s with m_sendIn := s.c.s.m_sendIn + 1 } } }

/-- Its compare-and-swap counts it in, or fails.
SOURCE: network/socketHandle.cc:125-144 -/
theorem step_swap (h : step s (.swap t) = some s') : ∃ call sendIn, s.pc t = .swap call sendIn ∧
    (s.c.s.m_sendIn = sendIn ∧ s' = s.raised t call ∨
      s.c.s.m_sendIn ≠ sendIn ∧ s' = s.goto t (.load call)) := by
  simp only [step] at h
  split at h
  · next call sendIn hpc =>
    refine ⟨call, sendIn, hpc, ?_⟩
    split at h
    · next hsame =>
      subst hsame
      exact .inl ⟨rfl, (Option.some.inj h).symm⟩
    · next hother => exact .inr ⟨hother, (Option.some.inj h).symm⟩
  · cases h

/-- It writes its request into the pipe.
SOURCE: network/socketChannel.cc:54-58 -/
theorem step_write (h : step s (.write t) = some s') : ∃ call, s.pc t = .write call ∧
    s' = { s.goto t .idle with pipe := s.pipe ++ [requestOf call] } := by
  simp only [step] at h
  split at h
  · next call hpc => exact ⟨call, hpc, (Option.some.inj h).symm⟩
  · cases h

/-- The poll thread handles a request.
SOURCE: network/socketSystem.cc:534-568 -/
theorem step_request (h : step s .request = some s') : ∃ r rest, s.pipe = r :: rest ∧
    s' = { s with pipe := rest, c := s.c.doRequestSend r } := by
  simp only [step] at h
  split at h
  · next r rest hpipe =>
    obtain ⟨u, hu, rfl⟩ := handler_some h
    cases hu
    exact ⟨r, rest, hpipe, rfl⟩
  · cases h

/-- A close request keeps the count.
SOURCE: network/socketSystem.cc:581-612 -/
theorem step_close {r : RequestClose} {answers : List Answer}
    (h : step s (.close r answers) = some s') :
    ∃ u, Slot.SameSendIn s.c u ∧ s' = { s with c := u } := by
  obtain ⟨u, hu, rfl⟩ := handler_some h
  exact ⟨u, doRequestClose_sameSendIn hu, rfl⟩

/-- So does an event.
SOURCE: network/socketSystem.cc:822-917 -/
theorem step_getEvent {e : Poll.IocpEvent} {os : Answers}
    (h : step s (.getEvent e os) = some s') :
    ∃ u, Slot.SameSendIn s.c u ∧ s' = { s with c := u } := by
  simp only [step] at h
  split at h
  · next u again hu =>
    obtain ⟨-, heq⟩ := Option.ite_none_right_eq_some.mp h
    exact ⟨u, pollEvent_sameSendIn hu, (Option.some.inj heq).symm⟩
  · cases h

end Steps

section Outstanding

variable [Fintype T]

/-- A thread that goes on counts for the request it has then and not for the one it had. -/
theorem outstanding_goto (s : State T) (t : T) (pc : Pc) :
    (s.goto t pc).outstanding + (if (s.pc t).counted = some s.c.s.m_handle then 1 else 0) =
      s.outstanding + (if pc.counted = some s.c.s.m_handle then 1 else 0) := by
  have hupdate : (fun u => if (Function.update s.pc t pc u).counted = some s.c.s.m_handle then 1
      else 0) = Function.update
        (fun u => if (s.pc u).counted = some s.c.s.m_handle then 1 else 0) t
        (if pc.counted = some s.c.s.m_handle then 1 else 0) := by
    funext u
    by_cases hu : u = t
    · rw [hu, Function.update_self, Function.update_self]
    · rw [Function.update_of_ne hu, Function.update_of_ne hu]
  have hrest := Finset.sum_erase_add Finset.univ
    (fun u => if (s.pc u).counted = some s.c.s.m_handle then 1 else 0) (Finset.mem_univ t)
  unfold State.outstanding State.goto
  simp only
  rw [hupdate, Finset.sum_update_of_mem (Finset.mem_univ t), Finset.sdiff_singleton_eq_erase,
    ← hrest]
  omega

omit [DecidableEq T] in
/-- The requests in flight are those of the pipe and of the threads, for the slot's handle. -/
theorem outstanding_congr {s s' : State T} (hhandle : s'.c.s.m_handle = s.c.s.m_handle)
    (hpc : s'.pc = s.pc) (hpipe : s'.pipe = s.pipe) : s'.outstanding = s.outstanding := by
  unfold State.outstanding
  rw [hhandle, hpc, hpipe]

/-- A request that is counted is in flight, if it is for the slot's handle. -/
theorem outstanding_raised {s : State T} {t : T} {call : Call} {sendIn : ℕ}
    (hpc : s.pc t = .swap call sendIn) : (s.raised t call).outstanding =
      s.outstanding + (if call.handle = s.c.s.m_handle then 1 else 0) := by
  have hgoto := outstanding_goto s t (.write call)
  have hsame : (s.raised t call).outstanding = (s.goto t (.write call)).outstanding :=
    outstanding_congr rfl rfl rfl
  simp only [hpc, Pc.counted, Option.some.injEq, reduceCtorEq, if_false, add_zero] at hgoto
  rw [hsame, hgoto]

/-- A request goes from its thread to the pipe. -/
theorem outstanding_write {s : State T} {t : T} {call : Call} (hpc : s.pc t = .write call) :
    { s.goto t .idle with pipe := s.pipe ++ [requestOf call] : State T }.outstanding =
      s.outstanding := by
  have hgoto := outstanding_goto s t .idle
  have hpipe : { s.goto t .idle with pipe := s.pipe ++ [requestOf call] : State T }.outstanding =
      (s.goto t .idle).outstanding + (if call.handle = s.c.s.m_handle then 1 else 0) := by
    unfold State.outstanding State.goto
    simp only [List.countP_append, List.countP_singleton, requestOf, decide_eq_true_eq]
    omega
  simp only [hpc, Pc.counted, Option.some.injEq, reduceCtorEq, if_false, add_zero] at hgoto
  rw [hpipe, hgoto]

omit [DecidableEq T] in
/-- A request that is handled is no longer in flight.
SOURCE: network/socketSystem.cc:534-568 -/
theorem outstanding_request {s : State T} {r : RequestSend} {rest : List RequestSend}
    (hpipe : s.pipe = r :: rest) :
    s.outstanding =
      { s with pipe := rest, c := s.c.doRequestSend r : State T }.outstanding +
        (if r._handle = s.c.s.m_handle then 1 else 0) := by
  unfold State.outstanding
  simp only [hpipe, (doRequestSend_sameSendIn s.c r).handle, List.countP_cons, decide_eq_true_eq]
  omega

end Outstanding

/-! ## The invariant -/

section Invariant

variable [Fintype T] {s s' : State T}

/-- A thread that goes on has loaded no count that is full. -/
theorem Inv.loaded_update (h : Inv s) {t : T} {pc : Pc} (hload : ∀ call sendIn,
      pc = .swap call sendIn → sendIn % 2 ^ 16 ≠ 0xffff) (u : T) (call : Call) (sendIn : ℕ)
    (hu : Function.update s.pc t pc u = .swap call sendIn) : sendIn % 2 ^ 16 ≠ 0xffff := by
  by_cases htu : u = t
  · subst htu
    rw [Function.update_self] at hu
    exact hload call sendIn hu
  · rw [Function.update_of_ne htu] at hu
    exact h.loaded u call sendIn hu

/-- A thread that goes on without a request counted. -/
theorem Inv.goto (h : Inv s) {t : T} {pc : Pc} (hfrom : (s.pc t).counted = none)
    (hto : pc.counted = none) (hload : ∀ call sendIn, pc = .swap call sendIn →
      sendIn % 2 ^ 16 ≠ 0xffff) : Inv (s.goto t pc) := by
  have hout := outstanding_goto s t pc
  simp only [hfrom, hto, reduceCtorEq, if_false, add_zero] at hout
  exact ⟨h.proto, h.tag, h.count.trans hout.symm, h.loaded_update hload⟩

omit [DecidableEq T] in
/-- A change of the slot that leaves the count alone. -/
theorem Inv.slot (h : Inv s) (hc : Slot.SameSendIn s.c s'.c) (hpc : s'.pc = s.pc)
    (hpipe : s'.pipe = s.pipe) : Inv s' where
  proto := hc.proto.trans h.proto
  tag := by
    rw [hc.sendIn, hc.handle]
    exact h.tag
  count := by
    rw [hc.sendIn, outstanding_congr hc.handle hpc hpipe]
    exact h.count
  loaded := by
    rw [hpc]
    exact h.loaded

/-- A request that a call with the slot's handle counts. -/
theorem inv_raised (h : Inv s) {t : T} {call : Call} (hpc : s.pc t = .swap call s.c.s.m_sendIn)
    (hhandle : call.handle = s.c.s.m_handle) : Inv (s.raised t call) := by
  have hout := outstanding_raised hpc
  rw [if_pos hhandle] at hout
  have hroom := h.loaded t call _ hpc
  have hcount := h.count
  have htag := h.tag
  refine ⟨h.proto, ?_, ?_, h.loaded_update nofun⟩
  · show (s.c.s.m_sendIn + 1) / 2 ^ 16 = SOCKET_HANDLE_TAG16 s.c.s.m_handle
    omega
  · show (s.c.s.m_sendIn + 1) % 2 ^ 16 = (s.raised t call).outstanding
    omega

/-- A step that meets the condition keeps the count right.
SOURCE: network/socketHandle.cc:125-144, 146-153 -/
theorem inv_step {e : Event T} (h : Inv s) (hcond : Undrained s e) (hs : step s e = some s') :
    Inv s' := by
  cases e with
  | call t call =>
    obtain ⟨hpc, rfl⟩ := step_call hs
    split
    · exact h.goto (by rw [hpc]; rfl) rfl nofun
    · exact h.goto (by rw [hpc]; rfl) rfl nofun
  | tryLock t =>
    obtain ⟨call, hpc, rfl | rfl⟩ := step_tryLock hs
    · have hgoto : Inv (s.goto t (.holds call)) := h.goto (by rw [hpc]; rfl) rfl nofun
      exact hgoto.slot (Slot.SameSendIn.refl _) rfl rfl
    · exact h.goto (by rw [hpc]; rfl) rfl nofun
  | direct t answer =>
    obtain ⟨call, hpc, rfl | rfl⟩ := step_direct hs
    · have hgoto : Inv (s.goto t .idle) := h.goto (by rw [hpc]; rfl) rfl nofun
      exact hgoto.slot (directWrite_sameSendIn s.c call.data answer) rfl rfl
    · have hgoto : Inv (s.goto t (.load call)) := h.goto (by rw [hpc]; rfl) rfl nofun
      exact hgoto.slot (Slot.SameSendIn.refl _) rfl rfl
  | load t =>
    obtain ⟨call, hpc, rfl | ⟨hroom, rfl⟩⟩ := step_load h.proto h.tag hs
    · exact h
    · refine h.goto (by rw [hpc]; rfl) rfl fun call' sendIn hswap => ?_
      cases hswap
      exact hroom
  | swap t =>
    obtain ⟨call, sendIn, hpc, ⟨rfl, rfl⟩ | ⟨-, rfl⟩⟩ := step_swap hs
    · exact inv_raised h hpc (hcond call hpc)
    · exact h.goto (by rw [hpc]; rfl) rfl nofun
  | write t =>
    obtain ⟨call, hpc, rfl⟩ := step_write hs
    exact ⟨h.proto, h.tag, h.count.trans (outstanding_write hpc).symm, h.loaded_update nofun⟩
  | request =>
    obtain ⟨r, rest, hpipe, rfl⟩ := step_request hs
    have hother : r._handle ≠ s.c.s.m_handle := hcond r (by rw [hpipe]; rfl)
    have hout := outstanding_request hpipe
    rw [if_neg hother, add_zero] at hout
    have hsame := doRequestSend_sameSendIn s.c r
    refine ⟨hsame.proto.trans h.proto, ?_, ?_, h.loaded⟩
    · show (s.c.doRequestSend r).s.m_sendIn / 2 ^ 16 = _
      rw [hsame.sendIn, hsame.handle]
      exact h.tag
    · show (s.c.doRequestSend r).s.m_sendIn % 2 ^ 16 = _
      rw [hsame.sendIn, ← hout]
      exact h.count
  | close r answers =>
    obtain ⟨u, hu, rfl⟩ := step_close hs
    exact h.slot hu rfl rfl
  | getEvent e os =>
    obtain ⟨u, hu, rfl⟩ := step_getEvent hs
    exact h.slot hu rfl rfl

/-- A state in order has its requests counted, and its loops end. -/
theorem right_of_inv (h : Inv s) : CountRight s := by
  refine ⟨h.count, fun hroom t call hpc => ?_⟩
  have hcount := h.count
  have hload : step s (.load t) = some (s.goto t (.swap call s.c.s.m_sendIn)) := by
    simp only [step, hpc]
    rw [if_neg (not_not.mpr h.proto), if_pos h.tag, if_neg (by omega)]
  have hswap : step (s.goto t (.swap call s.c.s.m_sendIn)) (.swap t) =
      some ((s.goto t (.swap call s.c.s.m_sendIn)).raised t call) := by
    simp [step, State.goto, State.raised]
  rw [System.run_cons, system_step, hload, Option.bind_some, System.run_singleton, system_step,
    hswap]
  simp [State.raised, State.goto]

/-- A request that is handled, or counted for another handle, makes the count wrong. -/
theorem not_right_step {e : Event T} (h : Inv s) (hcond : ¬ Undrained s e)
    (hs : step s e = some s') : ¬ CountRight s' := by
  intro hright
  have hcount := h.count
  have hsendIn := hright.sendIn
  cases e with
  | request =>
    obtain ⟨r, rest, hpipe, rfl⟩ := step_request hs
    have hout := outstanding_request hpipe
    have hr : r._handle = s.c.s.m_handle := by
      by_contra hother
      exact hcond fun r' hr' => by simp_all
    rw [if_pos hr] at hout
    rw [show ({ s with pipe := rest, c := s.c.doRequestSend r } : State T).c.s.m_sendIn =
      s.c.s.m_sendIn from (doRequestSend_sameSendIn s.c r).sendIn] at hsendIn
    omega
  | swap t =>
    obtain ⟨call, hpc, hother⟩ : ∃ call, s.pc t = .swap call s.c.s.m_sendIn ∧
        call.handle ≠ s.c.s.m_handle := by
      simpa [Undrained] using hcond
    have hout := outstanding_raised hpc
    rw [if_neg hother, add_zero] at hout
    have hroom := h.loaded t call _ hpc
    obtain rfl : s' = s.raised t call := by
      obtain ⟨call', sendIn, hpc', ⟨-, rfl⟩ | ⟨hne, -⟩⟩ := step_swap hs
      · rw [hpc] at hpc'
        cases hpc'
        rfl
      · rw [hpc] at hpc'
        cases hpc'
        exact absurd rfl hne
    have hraised : (s.raised t call).c.s.m_sendIn = s.c.s.m_sendIn + 1 := rfl
    omega
  | _ => exact hcond trivial

omit [DecidableEq T] in
/-- It is right at the start. -/
theorem starts_inv (h : Starts s) : Inv s := by
  have hout : s.outstanding = 0 := by
    simp [State.outstanding, h.pipe, h.pc, Pc.counted]
  have htag : SOCKET_HANDLE_TAG16 s.c.s.m_handle < 2 ^ 16 := by
    unfold SOCKET_HANDLE_TAG16
    omega
  have hsendIn := h.sendIn
  refine ⟨h.proto, by omega, by omega, fun t call sendIn hpc => ?_⟩
  rw [h.pc t] at hpc
  cases hpc

end Invariant

/-- **The count of the sends in flight**, all along a run of the threads and the poll thread: it is
right exactly when no request for the slot's handle is handled, and none is counted for an older
handle.
SOURCE: network/socketHandle.cc:125-153, network/socketSystem.cc:250-303, 534-568 -/
theorem sendIn_counts [Fintype T] {s₀ s : State T} {es : List (Event T)} (h0 : Starts s₀)
    (hrun : (system T).run s₀ es = some s) :
    (∀ fs t, fs <+: es → (system T).run s₀ fs = some t → CountRight t) ↔
      (system T).Meets Undrained s₀ es :=
  System.throughout_iff_meets (fun _ => right_of_inv) (fun _ _ _ h hg hs => inv_step h hg hs)
    (fun _ _ _ h hg hs => not_right_step h hg hs) (starts_inv h0) hrun

/-- The TCP slot of handle 5, whose connection is in progress, and one thread. -/
def connecting : State Unit where
  c := (SlotLife.start.c.initWith 1 5 7).setState .CONNECTING
  m_mutex := none
  pc _ := .idle
  pipe := []

/-- A slot that is connecting. -/
theorem connecting_starts : Starts connecting := ⟨rfl, rfl, rfl, fun _ => rfl, rfl⟩

/-- A send that counts its request and writes it. -/
def sendOnce : List (Event Unit) :=
  [.call () ⟨5, [1]⟩, .tryLock (), .direct () (.takes 1), .load (), .swap (), .write ()]

/-- One call is counted in and not yet handled. -/
theorem sendIn_counts_one : ∃ s, (system Unit).run connecting sendOnce = some s ∧
    s.outstanding = 1 ∧
    ∀ fs t, fs <+: sendOnce → (system Unit).run connecting fs = some t → CountRight t := by
  refine ⟨_, rfl, by decide, (sendIn_counts connecting_starts (s := _) rfl).mpr ?_⟩
  apply System.meets_cons trivial rfl
  apply System.meets_cons trivial rfl
  apply System.meets_cons trivial rfl
  apply System.meets_cons trivial rfl
  refine ⟨?_, fun s hs => ⟨trivial, fun _ _ => trivial⟩⟩
  intro call hpc
  cases hpc
  rfl

/-- Its request is handled, and stays in the count. -/
theorem sendIn_not_lowered : ¬ ∀ (s₀ s : State Unit) (es : List (Event Unit)), Starts s₀ →
    (system Unit).run s₀ es = some s →
      ∀ fs t, fs <+: es → (system Unit).run s₀ fs = some t → CountRight t := by
  intro hall
  have hright := hall connecting _ (sendOnce ++ [.request]) connecting_starts rfl _ _
    (List.prefix_refl _) rfl
  exact absurd hright.sendIn (by decide)

end MagicNet.SendCount
