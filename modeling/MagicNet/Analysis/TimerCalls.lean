import MagicNet.Analysis.ClockCascade

/-!
# What the wheel does with a timer in any case

The wheel is hardly ever exact, but it keeps to this: a timer waits in one place at most, and in none
once its function has been called, so it is called once at most; it is called from slot 63 only, with a
time that ends in 255, so at least 64 updates away from the one it is due in; and a timer that has been
cancelled is not called any more.

SOURCE: operation/clock.h:52-60, 90-150, operation/clock.cc:23-29, 58-91
-/

set_option autoImplicit false

namespace MagicNet.Clock

open MagicNet.Foundation

variable {s s' : State}

/-! ## Where a timer waits -/

/-- The timer is in a slot or in a bucket. -/
def Waits (s : State) (id : ℕ) : Prop :=
  (∃ idx, id ∈ s.m_slots idx) ∨ ∃ level idx, id ∈ s.m_ts level idx

/-- Only one slot gets the timer. -/
theorem push_m_slots (p : Place) (id idx : ℕ) :
    (s.push p id).m_slots idx = s.m_slots idx ++ if p = .slots idx then [id] else [] := by
  cases p with
  | slots idx' =>
    by_cases hidx : idx = idx'
    · subst hidx
      simp [State.push]
    · simp [State.push, hidx, Ne.symm hidx]
  | ts level idx' => simp [State.push]

/-- Nothing else starts to wait. -/
theorem waits_push {p : Place} {id id' : ℕ} (h : Waits (s.push p id) id') :
    Waits s id' ∨ id' = id := by
  rcases h with ⟨idx, hmem⟩ | ⟨level, idx, hmem⟩
  · exact (mem_push_slots hmem).imp (fun hold => .inl ⟨idx, hold⟩) And.right
  · exact (mem_push_ts hmem).imp_left fun hold => .inr ⟨level, idx, hold⟩

/-- No timer waits twice, and none that is at its dispatch or has been called waits. -/
structure Single (s : State) : Prop where
  nodup : ∀ idx, (s.m_slots idx).Nodup
  apart : ∀ id idx, id ∈ s.m_slots idx → ∀ level idx', id ∉ s.m_ts level idx'
  taken : ∀ pass idx id, s.pc = .dispatching pass idx id → ¬ Waits s id
  called : ∀ id < s.allocated, (s.handles id).calls ≠ [] →
    ¬ Waits s id ∧ ∀ pass idx, s.pc ≠ .dispatching pass idx id

/-- A step that moves no timer and comes to no dispatch. -/
theorem Single.of_eq (h : Single s) (hslots : s'.m_slots = s.m_slots) (hts : s'.m_ts = s.m_ts)
    (hallocated : s'.allocated = s.allocated)
    (hcalls : ∀ id < s.allocated, (s'.handles id).calls ≠ [] →
      (s.handles id).calls ≠ [] ∨ ¬ Waits s id)
    (hpc : ∀ pass idx id, s'.pc ≠ .dispatching pass idx id) : Single s' := by
  have hwaits : ∀ id, Waits s' id ↔ Waits s id := fun id => by rw [Waits, Waits, hslots, hts]
  refine ⟨?_, ?_, fun pass idx id hat => absurd hat (hpc pass idx id), fun id hid hcalled => ?_⟩
  · rw [hslots]
    exact h.nodup
  · rw [hslots, hts]
    exact h.apart
  · rw [hallocated] at hid
    refine ⟨?_, fun pass idx => hpc pass idx id⟩
    rw [hwaits]
    exact (hcalls id hid hcalled).elim (fun hold => (h.called id hid hold).1) fun hnot => hnot

/-- A step that leaves the timers where and as they are, and comes to no dispatch. -/
theorem Single.same (h : Single s) (hslots : s'.m_slots = s.m_slots) (hts : s'.m_ts = s.m_ts)
    (hallocated : s'.allocated = s.allocated) (hhandles : s'.handles = s.handles)
    (hpc : ∀ pass idx id, s'.pc ≠ .dispatching pass idx id) : Single s' := by
  refine h.of_eq hslots hts hallocated (fun id _ hcalled => ?_) hpc
  rw [hhandles] at hcalled
  exact .inl hcalled

/-- A timer that waits nowhere, and is not at its dispatch, may be placed.
SOURCE: operation/clock.h:132-150 -/
theorem Single.local_append {id : ℕ} (h : Single s) (hnot : ¬ Waits s id)
    (hpc : ∀ pass idx, s.pc ≠ .dispatching pass idx id) (hnew : (s.handles id).calls = []) :
    Single (s.local_append id) := by
  unfold State.local_append
  generalize place (s.handles id)._expire s.m_time = p
  refine ⟨fun idx => ?_, fun id' idx hmem level idx' hmem' => ?_, fun pass idx id' hat hwaits => ?_,
    fun id' hid' hcalled => ?_⟩
  · rw [push_m_slots]
    split
    · rw [← List.concat_eq_append]
      exact (h.nodup idx).concat fun hmem => hnot (.inl ⟨idx, hmem⟩)
    · rw [List.append_nil]
      exact h.nodup idx
  · rcases mem_push_slots hmem with hold | ⟨hplace, rfl⟩
    · rcases mem_push_ts hmem' with hold' | rfl
      · exact h.apart id' idx hold level idx' hold'
      · exact hnot (.inl ⟨idx, hold⟩)
    · rcases mem_push_ts_iff.mp hmem' with hold' | ⟨hplace', -⟩
      · exact hnot (.inr ⟨level, idx', hold'⟩)
      · rw [hplace] at hplace'
        cases hplace'
  · rw [push_pc] at hat
    rcases waits_push hwaits with hold | rfl
    · exact h.taken pass idx id' hat hold
    · exact hpc pass idx hat
  · rw [push_handles] at hcalled
    rw [push_allocated] at hid'
    rw [push_pc]
    refine ⟨fun hwaits => ?_, (h.called id' hid' hcalled).2⟩
    rcases waits_push hwaits with hold | rfl
    · exact (h.called id' hid' hcalled).1 hold
    · exact hcalled hnew

/-- A timer that waits has not been called. -/
theorem Single.not_called {id : ℕ} (h : Single s) (hid : id < s.allocated) (hwaits : Waits s id) :
    (s.handles id).calls = [] := by
  by_contra hcalled
  exact (h.called id hid hcalled).1 hwaits

/-- The front of a slot is taken out of it, to be dispatched.
SOURCE: operation/clock.h:111-114, 116-122 -/
theorem Single.take_front (h : Single s) (hinv : Inv s) {pass : Pass} {idx id : ℕ} {rest : List ℕ}
    (hcons : s.m_slots idx = id :: rest) :
    Single { s with
      m_slots := Function.update s.m_slots idx rest, pc := .dispatching pass idx id } := by
  have hfront : id ∈ s.m_slots idx := hcons ▸ List.mem_cons_self
  have hsub : ∀ {id' idx'}, id' ∈ Function.update s.m_slots idx rest idx' →
      id' ∈ s.m_slots idx' := fun hmem => mem_of_mem_tail hcons hmem
  have hwaits : ∀ {id' pc}, Waits { s with
      m_slots := Function.update s.m_slots idx rest, pc := pc } id' → Waits s id' := by
    rintro id' pc (⟨idx', hmem⟩ | hmem)
    · exact .inl ⟨idx', hsub hmem⟩
    · exact .inr hmem
  refine ⟨fun idx' => ?_, fun id' idx' hmem => h.apart id' idx' (hsub hmem), ?_, ?_⟩
  · by_cases hidx : idx' = idx
    · subst hidx
      simp only [Function.update_self]
      exact (List.nodup_cons.mp (hcons ▸ h.nodup idx')).2
    · simp only [Function.update_of_ne hidx]
      exact h.nodup idx'
  · rintro pass' idx' id' hat (⟨j, hmem⟩ | ⟨level, j, hmem⟩)
    · obtain ⟨-, -, rfl⟩ := Pc.dispatching.inj hat
      have hslot := (hinv.slots j _ (hsub hmem)).2.1
      obtain rfl : j = idx := hslot.trans (hinv.slots idx _ hfront).2.1.symm
      simp only [Function.update_self] at hmem
      exact (List.nodup_cons.mp (hcons ▸ h.nodup j)).1 hmem
    · obtain ⟨-, -, rfl⟩ := Pc.dispatching.inj hat
      exact h.apart _ idx hfront level j hmem
  · intro id' hid' hcalled
    refine ⟨fun hin => (h.called id' hid' hcalled).1 (hwaits hin), fun pass' idx' hat => ?_⟩
    obtain ⟨-, -, rfl⟩ := Pc.dispatching.inj hat
    exact (h.called _ hid' hcalled).1 (.inl ⟨idx, hfront⟩)

/-- The front of a bucket is taken out of it. -/
theorem Single.pop (h : Single s) {level idx id : ℕ} {rest : List ℕ}
    (hcons : s.m_ts level idx = id :: rest) : Single (s.pop level idx rest) := by
  have hwaits : ∀ {id'}, Waits (s.pop level idx rest) id' → Waits s id' := by
    rintro id' (hmem | ⟨l, j, hmem⟩)
    · exact .inl hmem
    · exact .inr ⟨l, j, mem_of_mem_pop hcons hmem⟩
  refine ⟨h.nodup, fun id' i hmem l j hin => ?_, fun pass i id' hat hin => ?_,
    fun id' hid' hcalled => ?_⟩
  · exact h.apart id' i hmem l j (mem_of_mem_pop hcons hin)
  · exact h.taken pass i id' hat (hwaits hin)
  · exact (h.called id' hid' hcalled).imp_left fun hnot hin => hnot (hwaits hin)

/-! ## The steps -/

/-- A step keeps every timer in one place. -/
theorem step_single {e : Event} (hinv : Inv s) (honce : Once s) (h : Single s)
    (hs : step s e = some s') : Single s' := by
  cases e with
  | timeOut time =>
    obtain ⟨-, -, rfl⟩ := step_timeOut hs
    have hnot : ¬ Waits s s.allocated := by
      rintro (⟨idx, hmem⟩ | ⟨level, idx, hmem⟩)
      · exact (hinv.slots idx _ hmem).1.false
      · exact (hinv.ts level idx _ hmem).false
    have hpc : ∀ pass idx, s.pc ≠ .dispatching pass idx s.allocated := by
      intro pass idx hat
      have hdispatching := hinv.pc
      rw [PcOk, hat] at hdispatching
      exact hdispatching.2.1.false
    refine Single.local_append ⟨h.nodup, h.apart, h.taken, fun id hid hcalled => ?_⟩ hnot hpc
      (by simp)
    rcases Nat.lt_succ_iff_lt_or_eq.mp hid with hlt | rfl
    · simp only [Function.update_of_ne hlt.ne] at hcalled
      exact h.called id hlt hcalled
    · simp at hcalled
  | timeCancel id =>
    obtain ⟨-, rfl⟩ := step_timeCancel hs
    refine ⟨h.nodup, h.apart, h.taken, fun id' hid' hcalled => h.called id' hid' ?_⟩
    by_cases heq : id' = id
    · subst heq
      simpa only [Function.update_self] using hcalled
    · simpa only [Function.update_of_ne heq] using hcalled
  | update =>
    obtain ⟨-, rfl⟩ := step_update hs
    exact h.same rfl rfl rfl rfl fun _ _ _ hat => by cases hat
  | process =>
    obtain ⟨pass, idx, -, ⟨-, -, rfl⟩ | ⟨-, -, rfl⟩ | ⟨id, rest, hcons, rfl⟩⟩ := step_process hs
    · exact h.same rfl rfl rfl rfl fun _ _ _ hat => by cases hat
    · exact h.same rfl rfl rfl rfl fun _ _ _ hat => by cases hat
    · exact h.take_front hinv hcons
  | dispatch =>
    obtain ⟨pass, idx, id, hpc, ⟨-, rfl⟩ | ⟨-, rfl⟩⟩ := step_dispatch hs
    · exact h.same rfl rfl rfl rfl fun _ _ _ hat => by cases hat
    · refine h.of_eq rfl rfl rfl (fun id' _ hcalled => ?_) fun _ _ _ hat => by cases hat
      by_cases heq : id' = id
      · subst heq
        exact .inr (h.taken pass idx _ hpc)
      · simp only [Function.update_of_ne heq] at hcalled
        exact .inl hcalled
  | returned =>
    obtain ⟨pass, idx, -, rfl⟩ := step_returned hs
    exact h.same rfl rfl rfl rfl fun _ _ _ hat => by cases hat
  | shift =>
    obtain ⟨-, ⟨level, idx, rfl⟩ | rfl⟩ := step_shift hs
    · exact h.same rfl rfl rfl rfl fun _ _ _ hat => by cases hat
    · exact h.same rfl rfl rfl rfl fun _ _ _ hat => by cases hat
  | move =>
    obtain ⟨level, idx, hpc, ⟨-, rfl⟩ | ⟨id, rest, hcons, rfl⟩⟩ := step_move hs
    · exact h.same rfl rfl rfl rfl fun _ _ _ hat => by cases hat
    · have hfront : id ∈ s.m_ts level idx := hcons ▸ List.mem_cons_self
      have hid := hinv.ts level idx id hfront
      refine (h.pop hcons).local_append ?_ (fun pass i hat => ?_) ?_
      · rintro (⟨i, hmem⟩ | ⟨l, j, hmem⟩)
        · exact h.apart id i hmem level idx hfront
        · exact not_mem_pop honce hcons l j hmem
      · cases hpc.symm.trans hat
      · exact h.not_called hid (.inr ⟨level, idx, hfront⟩)

/-! ## When a timer is called -/

/-- A timer that has been called was called once, from slot 63, and had not been cancelled. -/
def CallOk (updates : ℕ) (t : ClockHandle) : Prop :=
  t.calls = [] ∨ ∃ k ≤ updates, t.calls = [k] ∧ (k % 256 = 63 ∨ k % 256 = 64) ∧ t.due % 256 = 255 ∧
    ∀ n ∈ t.cancelledAfter, k ≤ n

/-- What has been called in order stays so as updates come. -/
theorem CallOk.mono {t : ClockHandle} {m n : ℕ} (h : CallOk m t) (hmn : m ≤ n) : CallOk n t :=
  h.imp_right fun ⟨k, hk, hrest⟩ => ⟨k, hk.trans hmn, hrest⟩

/-- The updates begun do not get fewer, and other timers are as they were.
SOURCE: operation/clock.h:111-114, 116-122 -/
theorem callOk_update {id : ℕ} {t : ClockHandle} (h : ∀ id < s.allocated, CallOk s.updates (s.handles id))
    (ht : CallOk s.updates t) {id' : ℕ} (hid' : id' < s.allocated) :
    CallOk s.updates (Function.update s.handles id t id') := by
  by_cases heq : id' = id
  · rw [heq, Function.update_self]
    exact ht
  · rw [Function.update_of_ne heq]
    exact h id' hid'

/-- A step calls a timer that has not been called, and in the right slot.
SOURCE: operation/clock.cc:93-105 -/
theorem step_callOk {e : Event} (hinv : Inv s) (hsingle : Single s)
    (h : ∀ id < s.allocated, CallOk s.updates (s.handles id)) (hs : step s e = some s') :
    ∀ id < s'.allocated, CallOk s'.updates (s'.handles id) := by
  cases e with
  | timeOut time =>
    obtain ⟨-, -, rfl⟩ := step_timeOut hs
    intro id hid
    simp only [State.local_append, push_handles, push_allocated, push_updates] at hid ⊢
    rcases Nat.lt_succ_iff_lt_or_eq.mp hid with hlt | rfl
    · rw [Function.update_of_ne hlt.ne]
      exact h id hlt
    · rw [Function.update_self]
      exact .inl rfl
  | timeCancel id =>
    obtain ⟨hlt, rfl⟩ := step_timeCancel hs
    refine fun id' hid' => callOk_update h ?_ hid'
    rcases h id hlt with hnone | ⟨k, hk, hcalls, hmod, hdue, hcancel⟩
    · exact .inl hnone
    · refine .inr ⟨k, hk, hcalls, hmod, hdue, fun n hn => ?_⟩
      obtain rfl := Option.some.inj hn
      cases hafter : (s.handles id).cancelledAfter with
      | none => exact hk
      | some m => exact hcancel m hafter
  | update =>
    obtain ⟨-, rfl⟩ := step_update hs
    exact fun id hid => (h id hid).mono (Nat.le_succ _)
  | process =>
    obtain ⟨pass, idx, -, ⟨-, -, rfl⟩ | ⟨-, -, rfl⟩ | ⟨id, rest, -, rfl⟩⟩ := step_process hs
    all_goals exact h
  | dispatch =>
    obtain ⟨pass, idx, id, hpc, ⟨-, rfl⟩ | ⟨hcancel, rfl⟩⟩ := step_dispatch hs
    · exact h
    · refine fun id' hid' => callOk_update h ?_ hid'
      have hdispatching := hinv.pc
      rw [PcOk, hpc] at hdispatching
      obtain ⟨⟨hidx, hupdates⟩, hid, hslot, hdue⟩ := hdispatching
      have hfirst : (s.handles id).calls = [] := by
        by_contra hcalled
        exact (hsingle.called id hid hcalled).2 pass idx hpc
      refine .inr ⟨s.updates, le_rfl, by rw [hfirst, List.nil_append], ?_, hdue, fun n hn => ?_⟩
      · cases pass <;> simp only at hupdates <;> omega
      · have hnever := (hinv.handles id hid).cancel
        rw [hcancel, Option.mem_def.mp hn] at hnever
        cases hnever
  | returned =>
    obtain ⟨pass, idx, -, rfl⟩ := step_returned hs
    exact h
  | shift =>
    obtain ⟨-, ⟨level, idx, rfl⟩ | rfl⟩ := step_shift hs
    all_goals exact h
  | move =>
    obtain ⟨level, idx, -, ⟨-, rfl⟩ | ⟨id, rest, -, rfl⟩⟩ := step_move hs
    · exact h
    · simp only [State.local_append, push_handles, push_allocated, push_updates]
      exact h

/-! ## Runs -/

/-- At the start there are no timers. -/
theorem single_of_starts (h : Starts s) : Single s := by
  refine ⟨fun idx => ?_, fun id idx hmem => ?_, fun pass idx id hat => ?_, fun id hid => ?_⟩
  · rw [h.slots idx]
    exact List.nodup_nil
  · rw [h.slots idx] at hmem
    exact absurd hmem List.not_mem_nil
  · exact absurd (h.pc.symm.trans hat) nofun
  · rw [h.allocated] at hid
    exact absurd hid (Nat.not_lt_zero id)

/-- **The calls of the timers.**  In every state of every run, whatever timers are set and cancelled,
also by the functions of other timers, each timer's function has been called once at most; the update of
the call was at least 191 before or at least 64 after the one the timer was due in; and the timer had not
been cancelled before that update.
SOURCE: operation/clock.h:52-60, 90-150, operation/clock.cc:23-29, 58-91 -/
theorem timer_calls (s : State) (h : system.Reachable s) (id : ℕ) (hid : id < s.allocated) :
    (s.handles id).calls = [] ∨ ∃ k ≤ s.updates, (s.handles id).calls = [k] ∧
      (k + 191 ≤ (s.handles id).due ∨ (s.handles id).due + 64 ≤ k) ∧
        ∀ n ∈ (s.handles id).cancelledAfter, k ≤ n := by
  have hinv := h.invariant
    (I := fun s => (Inv s ∧ Once s) ∧ Single s ∧ ∀ id < s.allocated, CallOk s.updates (s.handles id))
    (fun s h0 => ⟨⟨(inv_of_starts h0).1, once_of_starts h0⟩, single_of_starts h0, fun id hid => by
      rw [h0.allocated] at hid
      exact absurd hid (Nat.not_lt_zero id)⟩)
    fun s e s' hI _ hs => ⟨⟨step_inv hI.1.1 hs, step_once hI.1.1 hI.1.2 hs⟩,
      step_single hI.1.1 hI.1.2 hI.2.1 hs, step_callOk hI.1.1 hI.2.1 hI.2.2 hs⟩
  refine (hinv.2.2 id hid).imp_right ?_
  rintro ⟨k, hk, hcalls, hmod, hdue, hcancel⟩
  exact ⟨k, hk, hcalls, by omega, hcancel⟩

/-- So many updates in which nothing is moved or called. -/
def plain (n : ℕ) : List Event :=
  (List.replicate n [Event.update, .process, .shift, .process]).flatten

/-- A timer is set for the time 511, comes to slot 63 when the bucket of 256 is moved, and is called in
the update 319. -/
theorem timer_calls_early : ∃ s, system.Reachable s ∧ (s.handles 0).calls = [319] ∧
    (319 + 191 ≤ (s.handles 0).due ∨ (s.handles 0).due + 64 ≤ 319) := by
  have hrun : (system.run start (.timeOut 511 :: plain 255 ++
      [.update, .process, .shift, .move, .move, .process] ++ plain 62 ++
        [.update, .process, .shift, .process, .dispatch])).any
          (fun s => s.allocated == 1 && (s.handles 0).calls == [319]) = true := by
    decide +kernel
  obtain ⟨s, hreach, htest⟩ := System.exists_reachable _ _ start_starts hrun
  rw [Bool.and_eq_true, beq_iff_eq, beq_iff_eq] at htest
  refine ⟨s, hreach, htest.2, ?_⟩
  rcases timer_calls s hreach 0 (by omega) with hnone | ⟨k, -, hcalls, haway, -⟩
  · rw [hnone] at htest
    exact absurd htest.2 (by decide)
  · obtain rfl : 319 = k := List.singleton_injective (htest.2.symm.trans hcalls)
    exact haway

end MagicNet.Clock
