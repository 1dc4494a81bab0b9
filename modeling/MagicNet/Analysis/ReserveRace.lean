import MagicNet.Model.Reserve

/-!
# When a reserved slot stays reserved

A call of `getReserve` that has won a slot resets it, and `doRest` takes the slot back to
`INVALID`.  The slot can only be `RESERVE` again when its handle is returned if another call has
won it in between, and that call will reset it too.  So among calls that have all returned, one
that returned a handle left its slot free for the next one.
-/

set_option autoImplicit false

namespace MagicNet.Reserve

open MagicNet.Foundation MagicNet.Network

variable {s s' : State}

/-! ## Slots that stay taken -/

/-- The slot of a handle is reserved when `getReserve` returns it; a slot does not become free while
its handle's owner has neither initialised nor closed it; no two handles of one slot have been
returned without a close of the slot; and no assertion has failed. -/
structure Kept (e : Event) (s' : State) : Prop where
  returned : ∀ t h, e = .setHandle t → s'.pc t = .returned h → (s'.slot h).m_state = .RESERVE
  owned : ∀ h ∈ s'.owned, (s'.slot h).m_state ≠ .INVALID
  taken : (s'.taken.map SOCKET_GET).Nodup
  asserted : s'.aborted = false

/-- A call of `getReserve` that tries to take a slot finds it taken. -/
def Cond (s : State) (e : Event) : Prop :=
  ∀ t i h, e = .cas t → s.pc t = .cas i h → (s.slot h).m_state ≠ .INVALID

/-- No call of `getReserve` has won a slot without having returned its handle yet. -/
def Quiet (s : State) : Prop := ∀ t, (s.pc t).winner = false

/-! ## Who reserves a slot -/

/-- A slot that is reserved has been won by a call that has not reset it yet. -/
def Won (s : State) : Prop :=
  ∀ k, (s.m_sockGroup k).m_state = .RESERVE → ∃ t h, s.pc t = .doRest h ∧ SOCKET_GET h = k

/-- In a new table no slot is reserved. -/
theorem won_of_starts (h : Starts s) : Won s := by
  intro k hk
  rw [h.state k] at hk
  cases hk

/-- Each step keeps that a reserved slot has been won and not reset. -/
theorem step_won {e : Event} (h : Won s) (hs : step s e = some s') : Won s' := by
  by_cases he : e.Other
  · obtain ⟨hslot, hpc⟩ := step_other he hs
    intro k hk
    obtain ⟨t, handle, ht, hget⟩ := h k (hslot k hk)
    exact ⟨t, handle, (hpc t _ rfl).mpr ht, hget⟩
  · cases e with
    | cas t =>
      obtain ⟨i, handle, hpc, ⟨-, rfl⟩ | ⟨-, rfl⟩⟩ := step_cas hs
      · intro k hk
        by_cases hk' : k = SOCKET_GET handle
        · exact ⟨t, handle, setPc_self _ _ _, hk'.symm⟩
        · rw [setPc_group, setSlot_of_ne s _ hk'] at hk
          obtain ⟨t', handle', ht', hget⟩ := h k hk
          have hne : t' ≠ t := by
            rintro rfl
            rw [hpc] at ht'
            cases ht'
          exact ⟨t', handle', by rw [setPc_of_ne _ _ hne]; exact ht', hget⟩
      · intro k hk
        obtain ⟨t', handle', ht', hget⟩ := h k hk
        have hnone : (s.pc t).winner = false := by rw [hpc]; rfl
        exact ⟨t', handle', (winner_setPc hnone rfl t' _ rfl).mpr ht', hget⟩
    | doRest t =>
      obtain ⟨handle, hpc, rfl⟩ := step_doRest hs
      intro k hk
      by_cases hk' : k = SOCKET_GET handle
      · subst hk'
        rw [setPc_group, setSlot_self] at hk
        cases hk
      · rw [setPc_group, setSlot_of_ne s _ hk'] at hk
        obtain ⟨t', handle', ht', hget⟩ := h k hk
        have hne : t' ≠ t := by
          rintro rfl
          rw [hpc] at ht'
          cases ht'
          exact hk' hget.symm
        exact ⟨t', handle', by rw [setPc_of_ne _ _ hne]; exact ht', hget⟩
    | setHandle t =>
      obtain ⟨handle, hpc, rfl⟩ := step_setHandle hs
      intro k hk
      have hold : (s.m_sockGroup k).m_state = .RESERVE :=
        reserve_setSlot (c := (s.slot handle).setHandle handle) (fun hc => hc) k hk
      obtain ⟨t', handle', ht', hget⟩ := h k hold
      have hne : t' ≠ t := by
        rintro rfl
        rw [hpc] at ht'
        cases ht'
      exact ⟨t', handle', (setPc_of_ne _ _ hne).trans ht', hget⟩
    | _ => exact absurd trivial he

/-! ## A slot that has been won -/

/-- **A winner is followed by another.**  If a step keeps the slots (`Kept`) while a call has won
a slot and has not returned, then after it there is such a call again. -/
theorem busy_step {e : Event} (hW : Won s) (hbusy : ¬ Quiet s) (hs : step s e = some s')
    (hkept : Kept e s') : ¬ Quiet s' := by
  have hexists : ∃ t, (s.pc t).winner = true := by
    by_contra hnone
    apply hbusy
    intro t
    by_contra ht
    exact hnone ⟨t, by simpa using ht⟩
  obtain ⟨t, ht⟩ := hexists
  intro hquiet
  by_cases he : e.Other
  · have hsame := ((step_other he hs).2 t (s.pc t) ht).mpr rfl
    rw [← hsame, hquiet t] at ht
    cases ht
  · cases e with
    | cas t' =>
      obtain ⟨i, handle, hpc, ⟨-, rfl⟩ | ⟨-, rfl⟩⟩ := step_cas hs
      · have := hquiet t'
        rw [setPc_self] at this
        cases this
      · have hne : t ≠ t' := by
          rintro rfl
          rw [hpc] at ht
          cases ht
        have := hquiet t
        rw [setPc_of_ne _ _ hne, ht] at this
        cases this
    | doRest t' =>
      obtain ⟨handle, hpc, rfl⟩ := step_doRest hs
      have := hquiet t'
      rw [setPc_self] at this
      cases this
    | setHandle t' =>
      -- the slot returned is reserved, so another call has won it
      obtain ⟨handle, hpc, heq⟩ := step_setHandle hs
      have hret : s'.pc t' = .returned handle := by
        rw [heq]
        exact setPc_self _ _ _
      obtain ⟨t'', handle', hwinner, -⟩ := step_won hW hs _ (hkept.returned t' handle rfl hret)
      have := hquiet t''
      rw [hwinner] at this
      cases this
    | _ => exact absurd trivial he

/-- After a run that keeps the slots, a call that had won a slot is followed by another. -/
theorem busy_run {es : List Event} (hW : Won s) (hbusy : ¬ Quiet s)
    (hrun : system.run s es = some s') (hkept : system.Always (fun _ => Kept) s es) :
    ¬ Quiet s' := by
  induction es generalizing s with
  | nil =>
    obtain rfl : s = s' := by simpa using hrun
    exact hbusy
  | cons e es ih =>
    obtain ⟨u, hu, hrest⟩ := Option.bind_eq_some_iff.mp hrun
    obtain ⟨hQ, hQs⟩ := hkept u hu
    exact ih (step_won hW hu) (busy_step hW hbusy hu hQ) hrest hQs

/-- A run that keeps the slots, and at whose end no call is on its way, wins no slot. -/
theorem meets_of_kept {es : List Event} (hW : Won s) (hrun : system.run s es = some s')
    (hquiet : Quiet s') (hkept : system.Always (fun _ => Kept) s es) : system.Meets Cond s es := by
  induction es generalizing s with
  | nil => trivial
  | cons e es ih =>
    obtain ⟨u, hu, hrest⟩ := Option.bind_eq_some_iff.mp hrun
    obtain ⟨-, hQs⟩ := hkept u hu
    constructor
    · rintro t i handle rfl hpc hfree
      refine busy_run (step_won hW hu) ?_ hrest hQs hquiet
      obtain ⟨i', handle', hpc', ⟨-, rfl⟩ | ⟨hne, -⟩⟩ := step_cas hu
      · intro hq
        have := hq t
        rw [setPc_self] at this
        cases this
      · rw [hpc] at hpc'
        cases hpc'
        exact absurd hfree hne
    · intro v hv
      obtain rfl : u = v := Option.some.inj (hu.symm.trans hv)
      exact ih (step_won hW hu) hrest hQs

/-! ## A table without a free slot -/

/-- No call of `getReserve` has returned a handle or is about to. -/
structure Barred (s : State) : Prop where
  quiet : Quiet s
  returned : ∀ t h, s.pc t = .returned h → h = -1
  owned : s.owned = []
  taken : s.taken = []
  asserted : s.aborted = false

/-- And no call has returned a handle. -/
theorem barred_of_starts (h : Starts s) : Barred s := by
  refine ⟨fun t => ?_, fun t handle hpc => ?_, h.owned, h.taken, h.aborted⟩
  · rw [h.pc t]
    rfl
  · rw [h.pc t] at hpc
    cases hpc

/-- A state without handles keeps the slots of all there are.
SOURCE: network/socketHandle.cc:171-174 -/
theorem Barred.kept {e : Event} (h : Barred s') (he : ∀ t, e ≠ .setHandle t) : Kept e s' := by
  refine ⟨fun t _ heq => absurd heq (he t), ?_, ?_, h.asserted⟩
  · rw [h.owned]
    simp
  · rw [h.taken]
    exact List.nodup_nil

/-- The sequence number matters to neither. -/
theorem Barred.sequence (h : Barred s) (m_sockSequence : ℤ) :
    Barred { s with m_sockSequence := m_sockSequence } :=
  ⟨h.quiet, h.returned, h.owned, h.taken, h.asserted⟩

/-- A thread goes on without a slot. -/
theorem Barred.setPc {t : ℕ} {pc : Pc} (h : Barred s) (hpc : pc.winner = false)
    (hret : ∀ handle, pc = .returned handle → handle = -1) : Barred (s.setPc t pc) := by
  refine ⟨fun t' => ?_, fun t' handle ht' => ?_, h.owned, h.taken, h.asserted⟩
  · by_cases ht : t' = t
    · subst ht
      rw [setPc_self]
      exact hpc
    · rw [setPc_of_ne s pc ht]
      exact h.quiet t'
  · by_cases ht : t' = t
    · subst ht
      rw [setPc_self] at ht'
      exact hret handle ht'
    · rw [setPc_of_ne s pc ht] at ht'
      exact h.returned t' handle ht'

/-- Nobody has been given a handle, so nobody goes on with one. -/
theorem Barred.not_returned {t : ℕ} {handle : ℤ} (h : Barred s) (hpc : s.pc t = .returned handle)
    (hhandle : 0 ≤ handle) : False := by
  have := h.returned t handle hpc
  omega

/-- **One step without a free slot** gives out no handle. -/
theorem step_barred {e : Event} (h : Barred s) (hc : Cond s e) (hs : step s e = some s') :
    Barred s' := by
  by_cases he : e.Other
  · cases other_step he hs with
    | goes _ hnew hret =>
      exact (h.sequence _).setPc hnew hret
    | uses hpc hhandle _ _ => exact (h.not_returned hpc hhandle).elim
    | writes _ htaken howned =>
      rw [h.taken] at htaken
      rw [h.owned] at howned
      exact ⟨h.quiet, h.returned, List.subset_nil.mp howned, List.subset_nil.mp htaken,
        h.asserted⟩
  · cases e with
    | cas t =>
      obtain ⟨i, handle, hpc, ⟨hfree, -⟩ | ⟨-, rfl⟩⟩ := step_cas hs
      · exact absurd hfree (hc t i handle rfl hpc)
      · exact h.setPc rfl (by simp)
    | doRest t =>
      obtain ⟨handle, hpc, -⟩ := step_doRest hs
      have hquiet := h.quiet t
      rw [hpc] at hquiet
      cases hquiet
    | setHandle t =>
      obtain ⟨handle, hpc, -⟩ := step_setHandle hs
      have hquiet := h.quiet t
      rw [hpc] at hquiet
      cases hquiet
    | _ => exact absurd trivial he

/-- A run without a free slot keeps the slots: it gives out no handle. -/
theorem kept_of_meets {es : List Event} (h : Barred s) (hmeets : system.Meets Cond s es) :
    system.Always (fun _ => Kept) s es := by
  induction es generalizing s with
  | nil => trivial
  | cons e es ih =>
    intro u hu
    have hu' := step_barred h hmeets.1 hu
    refine ⟨hu'.kept ?_, ih hu' (hmeets.2 u hu)⟩
    rintro t rfl
    obtain ⟨handle, hpc, -⟩ := step_setHandle hu
    have := h.quiet t
    rw [hpc] at this
    cases this

/-! ## The reservation -/

/-- **When a reservation is exclusive.**  Every step of a run keeps the slots if no call of
`getReserve` has found a free slot; and only then, in a run at whose end every call that has won a
slot has returned.  The slots of a fresh table are all `INVALID`, so a run from there that meets the
condition makes no compare-and-swap, and no `getReserve` in it returns.
SOURCE: network/socketSystem.cc:195-209, 383-403, 691-701, network/socketHandle.cc:38-50 -/
theorem reserve_exclusive (s₀ s : State) (es : List Event) (h0 : Starts s₀)
    (hrun : system.run s₀ es = some s) :
    (system.Meets Cond s₀ es → system.Always (fun _ => Kept) s₀ es) ∧
      (Quiet s → (system.Always (fun _ => Kept) s₀ es ↔ system.Meets Cond s₀ es)) := by
  have hkept : system.Meets Cond s₀ es → system.Always (fun _ => Kept) s₀ es :=
    kept_of_meets (barred_of_starts h0)
  exact ⟨hkept, fun hquiet => ⟨meets_of_kept (won_of_starts h0) hrun hquiet, hkept⟩⟩

/-- The table of a process that has just started. -/
def start : State where
  m_sockGroup _ :=
    { m_handle := SOCKET_HANDLE_INVALID, m_opaque := 0, m_sock := INVALID_SOCKET,
      m_curSender := none, m_sendIn := 0, m_sendQs := [], m_sendBytes := 0, m_sendWarn := 0,
      m_recvBufferSize := 0, m_proto := .UNKNOWN, m_state := .INVALID }
  m_sockSequence := 0
  pc _ := .idle
  taken := []
  owned := []
  aborted := false

/-- A new table. -/
theorem start_starts : Starts start := ⟨fun _ => rfl, fun _ => rfl, rfl, rfl, rfl⟩

/-- A call of `getReserve` by one thread, with nobody else about. -/
def aloneCall : List Event :=
  [.call 0, .increment 0, .test 0, .cas 0, .doRest 0, .setHandle 0]

/-- A thread that has not come to its compare-and-swap: in a fresh table no run that meets the condition
goes further. -/
theorem reserve_exclusive_before :
    system.Always (fun _ => Kept) start [.call 0, .increment 0, .test 0] := by
  apply (reserve_exclusive start _ [.call 0, .increment 0, .test 0] start_starts rfl).1
  simp [System.Meets, Cond]

/-- A call returns handle 1, and its slot is `INVALID`; the assertion of `doSocketListen` then
fails. -/
theorem reserve_is_reset : ¬ ∀ (s₀ s : State) (es : List Event), Starts s₀ →
    system.run s₀ es = some s → system.Always (fun _ => Kept) s₀ es := by
  intro hall
  have hkept := hall start _ aloneCall start_starts rfl
  have hlast := (((((hkept _ rfl).2 _ rfl).2 _ rfl).2 _ rfl).2 _ rfl).2 _ rfl
  have hreserved := hlast.1.returned 0 1 rfl rfl
  cases hreserved

end MagicNet.Reserve
