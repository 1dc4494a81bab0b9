import MagicNet.Model.Clock

/-!
# When the timers of the wheel are exact

`local_append` takes a timer for near when `time | 256` equals `current_time | 255`, that is, in
some cases where the timer's time ends in 255, and puts it into the slot `time & 63`.  So
`m_slots` has timers in slot 63 only, with times that end in 255, and that slot is run when
`m_time` ends in 63: no function is ever called in the update its timer is due in.  The timers
are exact in a run exactly when all of them are cancelled in time.

A cascade may also put a timer back into the bucket it empties: then the update never returns, and no
timer is called any more that has not been.
-/

set_option autoImplicit false

namespace MagicNet.Clock

open MagicNet.Foundation

variable {s s' : State}

/-! ## Near timers -/

/-- The slot of a time is its remainder by 256.
SOURCE: operation/clock.h:111-114 -/
theorem and_mask (time : BitVec 32) : (time &&& CLOCK_SLOT_MASK).toNat = time.toNat % 256 := by
  rw [BitVec.toNat_and]
  exact Nat.and_two_pow_sub_one_eq_mod _ 8

/-- A timer that counts as near has a time that ends in 255, and goes to slot 63. -/
theorem place_slots {time current_time : BitVec 32} {idx : ℕ}
    (h : place time current_time = .slots idx) : idx = 63 ∧ time.toNat % 256 = 255 := by
  unfold place at h
  split at h
  · rename_i hnear
    have hfull : (current_time ||| CLOCK_SLOT_MASK) &&& CLOCK_SLOT_MASK = CLOCK_SLOT_MASK := by
      ext i hi
      simpa using Or.inr
    have hslot : CLOCK_SLOT &&& CLOCK_SLOT_MASK = 0 := by decide
    have hlow : time &&& CLOCK_SLOT_MASK = CLOCK_SLOT_MASK := by
      have hmask := congrArg (· &&& CLOCK_SLOT_MASK) hnear
      simpa [hfull, BitVec.and_or_distrib_right, hslot] using hmask
    have hlevel : time &&& CLOCK_LEVEL_MASK = 63#32 := by
      have hsub : CLOCK_SLOT_MASK &&& CLOCK_LEVEL_MASK = CLOCK_LEVEL_MASK := by decide
      rw [← hsub, ← BitVec.and_assoc, hlow, hsub]
      rfl
    constructor
    · rw [hlevel] at h
      exact (Place.slots.inj h).symm
    · rw [← and_mask, hlow]
      rfl
  · cases h

/-! ## What a push does to the wheel -/

/-- Pushing a timer moves no thread. -/
@[simp] theorem push_pc (p : Place) (id : ℕ) : (s.push p id).pc = s.pc := by
  cases p <;> rfl

/-- It leaves the time. -/
@[simp] theorem push_m_time (p : Place) (id : ℕ) : (s.push p id).m_time = s.m_time := by
  cases p <;> rfl

/-- It leaves the timers. -/
@[simp] theorem push_handles (p : Place) (id : ℕ) : (s.push p id).handles = s.handles := by
  cases p <;> rfl

/-- It makes no timer. -/
@[simp] theorem push_allocated (p : Place) (id : ℕ) : (s.push p id).allocated = s.allocated := by
  cases p <;> rfl

/-- It counts no shift. -/
@[simp] theorem push_shifts (p : Place) (id : ℕ) : (s.push p id).shifts = s.shifts := by
  cases p <;> rfl

/-- It counts no update. -/
@[simp] theorem push_updates (p : Place) (id : ℕ) : (s.push p id).updates = s.updates := by
  cases p <;> rfl

/-- What is in a slot after a timer has been pushed. -/
theorem mem_push_slots {p : Place} {id id' idx : ℕ} (h : id' ∈ (s.push p id).m_slots idx) :
    id' ∈ s.m_slots idx ∨ p = .slots idx ∧ id' = id := by
  cases p with
  | slots idx' =>
    by_cases hidx : idx = idx'
    · subst hidx
      simpa [State.push] using h
    · left
      simpa [State.push, hidx] using h
  | ts level idx' => exact .inl h

/-- What is in a bucket then. -/
theorem push_m_ts (p : Place) (id level idx : ℕ) :
    (s.push p id).m_ts level idx =
      s.m_ts level idx ++ if p = .ts level idx then [id] else [] := by
  cases p with
  | slots idx' => simp [State.push]
  | ts level' idx' =>
    by_cases hlevel : level = level'
    · subst hlevel
      by_cases hidx : idx = idx'
      · subst hidx
        simp [State.push]
      · simp [State.push, hidx, Ne.symm hidx]
    · simp [State.push, hlevel, Ne.symm hlevel]

/-- The same as membership. -/
theorem mem_push_ts_iff {p : Place} {id id' level idx : ℕ} :
    id' ∈ (s.push p id).m_ts level idx ↔
      id' ∈ s.m_ts level idx ∨ p = .ts level idx ∧ id' = id := by
  rw [push_m_ts]
  split <;> simp [*]

/-- A timer in a bucket was there or is the new one. -/
theorem mem_push_ts {p : Place} {id id' level idx : ℕ}
    (h : id' ∈ (s.push p id).m_ts level idx) : id' ∈ s.m_ts level idx ∨ id' = id :=
  (mem_push_ts_iff.mp h).imp_right And.right

/-- Taking the front off a list brings nothing into any list. -/
theorem mem_of_mem_tail {f : ℕ → List ℕ} {i j id id' : ℕ} {rest : List ℕ} (hcons : f i = id :: rest)
    (h : id' ∈ Function.update f i rest j) : id' ∈ f j := by
  by_cases heq : j = i
  · subst heq
    rw [Function.update_self] at h
    exact hcons ▸ List.mem_cons_of_mem _ h
  · rwa [Function.update_of_ne heq] at h

/-! ## The invariant of every run -/

/-- The timer may stand in the slot: only slot 63 is used, for times that end in 255. -/
def Near (idx : ℕ) (t : ClockHandle) : Prop := idx = 63 ∧ t.due % 256 = 255

/-- The timer's own record agrees with what is said of it. -/
structure HandleOk (t : ClockHandle) : Prop where
  expire : t._expire.toNat % 256 = t.due % 256
  cancel : t._cancel = t.cancelledAfter.isSome

/-- An update runs the slot of its time; between its two passes the time moves on. -/
def Runs (s : State) (pass : Pass) (idx : ℕ) : Prop :=
  idx = s.shifts % 256 ∧
    s.updates = match pass with
      | .first => s.shifts + 1
      | .second => s.shifts

/-- What is known at each place of `update`. -/
def PcOk (s : State) : Prop :=
  match s.pc with
  | .idle => s.updates = s.shifts
  | .processing pass idx => Runs s pass idx
  | .dispatching pass idx id => Runs s pass idx ∧ id < s.allocated ∧ Near idx (s.handles id)
  | .calling pass idx => Runs s pass idx
  | .shift => s.updates = s.shifts + 1
  | .moving _ _ => s.updates = s.shifts

structure Inv (s : State) : Prop where
  slots : ∀ idx, ∀ id ∈ s.m_slots idx, id < s.allocated ∧ Near idx (s.handles id)
  ts : ∀ level idx, ∀ id ∈ s.m_ts level idx, id < s.allocated
  handles : ∀ id < s.allocated, HandleOk (s.handles id)
  time : s.m_time.toNat % 256 = s.shifts % 256
  pc : PcOk s

/-- The invariant does not depend on the place of the thread, but for what that place asks. -/
theorem Inv.setPc {pc : Pc} (h : Inv s) (hpc : PcOk { s with pc := pc }) :
    Inv { s with pc := pc } := ⟨h.slots, h.ts, h.handles, h.time, hpc⟩

/-- Nor on the timers, where what they are due in stays. -/
theorem Inv.setHandles {handles : ℕ → ClockHandle} {n : ℕ} (h : Inv s) (hn : s.allocated ≤ n)
    (hdue : ∀ id < s.allocated, (handles id).due = (s.handles id).due)
    (hok : ∀ id < n, HandleOk (handles id)) :
    Inv { s with handles := handles, allocated := n } := by
  have hnear : ∀ {idx id}, id < s.allocated ∧ Near idx (s.handles id) →
      id < n ∧ Near idx (handles id) := by
    rintro idx id ⟨hlt, hidx, hlow⟩
    exact ⟨hlt.trans_le hn, hidx, (hdue id hlt).symm ▸ hlow⟩
  refine ⟨?_, ?_, hok, h.time, ?_⟩
  · intro idx id hid
    exact hnear (h.slots idx id hid)
  · intro level idx id hid
    exact (h.ts level idx id hid).trans_le hn
  · have hpc := h.pc
    unfold PcOk at *
    dsimp only
    split at hpc
    · exact hpc
    · exact hpc
    · exact ⟨hpc.1, hnear hpc.2⟩
    · exact hpc
    · exact hpc
    · exact hpc

/-- The record of a timer may change as long as it agrees with what is said of it. -/
theorem Inv.setHandle {id : ℕ} {t : ClockHandle} (h : Inv s) (hdue : t.due = (s.handles id).due)
    (hok : HandleOk t) : Inv { s with handles := Function.update s.handles id t } := by
  apply h.setHandles le_rfl
  · intro id' _
    by_cases heq : id' = id
    · subst heq
      rw [Function.update_self]
      exact hdue
    · rw [Function.update_of_ne heq]
  · intro id' hid'
    by_cases heq : id' = id
    · subst heq
      rw [Function.update_self]
      exact hok
    · rw [Function.update_of_ne heq]
      exact h.handles id' hid'

/-- The record of a new timer. -/
theorem handleOk_new (h : Inv s) (time : BitVec 32) :
    HandleOk ⟨time + s.m_time, false, time.toNat, s.shifts + time.toNat, none, []⟩ := by
  refine ⟨?_, rfl⟩
  have hadd : (time + s.m_time).toNat % 256 = (time.toNat + s.m_time.toNat) % 256 := by
    rw [BitVec.toNat_add]
    omega
  have htime := h.time
  dsimp only
  omega

/-- Placing a timer keeps the invariant.
SOURCE: operation/clock.h:132-150 -/
theorem Inv.local_append {id : ℕ} (h : Inv s) (hid : id < s.allocated) :
    Inv (s.local_append id) := by
  unfold State.local_append
  refine ⟨?_, ?_, ?_, ?_, ?_⟩
  · intro idx id' hmem
    rw [push_allocated, push_handles]
    rcases mem_push_slots hmem with hold | ⟨hplace, rfl⟩
    · exact h.slots idx id' hold
    · obtain ⟨hidx, hlow⟩ := place_slots hplace
      exact ⟨hid, hidx, (h.handles _ hid).expire ▸ hlow⟩
  · intro level idx id' hmem
    rw [push_allocated]
    rcases mem_push_ts hmem with hold | rfl
    · exact h.ts level idx id' hold
    · exact hid
  · rw [push_allocated, push_handles]
    exact h.handles
  · rw [push_m_time, push_shifts]
    exact h.time
  · have hpc := h.pc
    unfold PcOk Runs at *
    simp only [push_pc, push_updates, push_shifts, push_allocated, push_handles]
    exact hpc

/-- `local_execute` runs the slot of the time.
SOURCE: operation/clock.h:111-114 -/
theorem Inv.execute {pass : Pass} (h : Inv s)
    (hupdates : s.updates = match pass with
      | .first => s.shifts + 1
      | .second => s.shifts) : Inv (s.execute pass) := by
  apply h.setPc
  exact ⟨(and_mask s.m_time).trans h.time, hupdates⟩

/-- One step keeps the invariant.
SOURCE: operation/clock.h:52-150, operation/clock.cc:23-91 -/
theorem step_inv {e : Event} (h : Inv s) (hs : step s e = some s') : Inv s' := by
  cases e with
  | timeOut time =>
    obtain ⟨-, -, rfl⟩ := step_timeOut hs
    apply Inv.local_append
    · apply h.setHandles (Nat.le_succ _)
      · intro id hid
        rw [Function.update_of_ne hid.ne]
      · intro id hid
        by_cases hnew : id = s.allocated
        · subst hnew
          rw [Function.update_self]
          exact handleOk_new h time
        · rw [Function.update_of_ne hnew]
          exact h.handles id (by omega)
    · exact Nat.lt_succ_self _
  | timeCancel id =>
    obtain ⟨hlt, rfl⟩ := step_timeCancel hs
    exact h.setHandle rfl ⟨(h.handles id hlt).expire, rfl⟩
  | update =>
    obtain ⟨hpc, rfl⟩ := step_update hs
    have hidle := h.pc
    rw [PcOk, hpc] at hidle
    have hbegun : Inv { s with updates := s.updates + 1, pc := .shift } :=
      ⟨h.slots, h.ts, h.handles, h.time, congrArg (· + 1) hidle⟩
    exact hbegun.execute (congrArg (· + 1) hidle)
  | process =>
    obtain ⟨pass, idx, hpc, hcases⟩ := step_process hs
    have hruns := h.pc
    rw [PcOk, hpc] at hruns
    rcases hcases with ⟨-, rfl, rfl⟩ | ⟨-, rfl, rfl⟩ | ⟨id, rest, hcons, rfl⟩
    · exact h.setPc hruns.2
    · exact h.setPc hruns.2
    · have hfront := h.slots idx id (hcons ▸ List.mem_cons_self)
      refine ⟨?_, h.ts, h.handles, h.time, ⟨hruns, hfront⟩⟩
      intro idx' id' hmem
      exact h.slots idx' id' (mem_of_mem_tail hcons hmem)
  | dispatch =>
    obtain ⟨pass, idx, id, hpc, hcases⟩ := step_dispatch hs
    have hdisp := h.pc
    rw [PcOk, hpc] at hdisp
    obtain ⟨hruns, hlt, -⟩ := hdisp
    rcases hcases with ⟨-, rfl⟩ | ⟨-, rfl⟩
    · exact h.setPc hruns
    · have hcalled : Inv { s with pc := .calling pass idx } := h.setPc hruns
      exact hcalled.setHandle rfl ⟨(h.handles id hlt).expire, (h.handles id hlt).cancel⟩
  | returned =>
    obtain ⟨pass, idx, hpc, rfl⟩ := step_returned hs
    have hruns := h.pc
    rw [PcOk, hpc] at hruns
    exact h.setPc hruns
  | shift =>
    obtain ⟨hpc, hcases⟩ := step_shift hs
    have hshift := h.pc
    rw [PcOk, hpc] at hshift
    have htime : (s.m_time + 1).toNat % 256 = (s.shifts + 1) % 256 := by
      have hone : (1 : BitVec 32).toNat = 1 := rfl
      have := h.time
      rw [BitVec.toNat_add, hone]
      omega
    have hmoving : ∀ level idx, Inv { s with
        m_time := s.m_time + 1, shifts := s.shifts + 1, pc := .moving level idx } :=
      fun level idx => ⟨h.slots, h.ts, h.handles, htime, hshift⟩
    rcases hcases with ⟨level, idx, rfl⟩ | rfl
    · exact hmoving level idx
    · exact (hmoving 0 0).execute hshift
  | move =>
    obtain ⟨level, idx, hpc, hcases⟩ := step_move hs
    have hmoving := h.pc
    rw [PcOk, hpc] at hmoving
    rcases hcases with ⟨-, rfl⟩ | ⟨id, rest, hcons, rfl⟩
    · exact h.execute hmoving
    · have hid := h.ts level idx id (hcons ▸ List.mem_cons_self)
      refine Inv.local_append ⟨h.slots, ?_, h.handles, h.time, h.pc⟩ hid
      intro level' idx' id' hmem
      apply h.ts level' idx' id'
      by_cases hlevel : level' = level
      · subst hlevel
        simp only [Function.update_self] at hmem
        exact mem_of_mem_tail hcons hmem
      · simpa only [Function.update_of_ne hlevel] using hmem

/-! ## Timers that are all cancelled in time -/

/-- No timer has been called, and the ones whose update has returned were cancelled in time. -/
def Quiet (s : State) : Prop :=
  ∀ id < s.allocated, (s.handles id).InRange →
    (s.handles id).calls = [] ∧ ((s.handles id).due ≤ s.completed → (s.handles id).CancelledInTime)

/-- A step that keeps the handles and the updates completed keeps the timers quiet. -/
theorem Quiet.of_eq (h : Quiet s) (hhandles : s'.handles = s.handles)
    (hallocated : s'.allocated = s.allocated) (hcompleted : s'.completed = s.completed) :
    Quiet s' := by
  unfold Quiet
  rw [hhandles, hallocated, hcompleted]
  exact h

/-- Where no function is ever called and every timer that is due was cancelled, all are exact. -/
theorem allExact_of_quiet (h : Quiet s) : AllExact s := by
  intro id hid hrange
  obtain ⟨hcalls, hdue⟩ := h id hid hrange
  exact ⟨fun _ => hcalls, fun _ => .inl hcalls, fun hnot hle => absurd (hdue hle) hnot⟩

/-- An update that has returned has shifted the time. -/
theorem completed_le_shifts (h : Inv s) : s.completed ≤ s.shifts := by
  have hpc := h.pc
  unfold PcOk Runs at hpc
  unfold State.completed
  split at hpc
  · rename_i hidle
    rw [if_pos hidle]
    exact hpc.le
  · rename_i pass _ hpc'
    rw [if_neg (by simp [hpc'])]
    cases pass <;> simp only at hpc <;> omega
  · rename_i pass _ _ hpc'
    rw [if_neg (by simp [hpc'])]
    cases pass <;> simp only at hpc <;> omega
  · rename_i pass _ hpc'
    rw [if_neg (by simp [hpc'])]
    cases pass <;> simp only at hpc <;> omega
  · rename_i hpc'
    rw [if_neg (by simp [hpc'])]
    omega
  · rename_i hpc'
    rw [if_neg (by simp [hpc'])]
    omega

/-- Cancelling a timer once more, or before its update, leaves it cancelled in time. -/
theorem ClockHandle.CancelledInTime.cancel {t : ClockHandle} {n : ℕ} (h : t.CancelledInTime) :
    ClockHandle.CancelledInTime
      { t with _cancel := true, cancelledAfter := some (t.cancelledAfter.getD n) } := by
  obtain ⟨m, hm, hlt⟩ := h
  exact ⟨m, by simp [hm], hlt⟩

/-- A step that meets the condition calls no function.
SOURCE: operation/clock.cc:23-29 -/
theorem step_quiet {e : Event} (hI : Inv s) (h : Quiet s) (hc : Cond s e)
    (hs : step s e = some s') : Quiet s' := by
  cases e with
  | timeOut time =>
    obtain ⟨-, hzero, rfl⟩ := step_timeOut hs
    intro id hid hrange
    have hcompleted := completed_le_shifts hI
    simp only [State.local_append, State.completed, push_handles, push_allocated, push_pc,
      push_updates] at hid hrange ⊢
    by_cases hnew : id = s.allocated
    · subst hnew
      simp only [Function.update_self] at hrange ⊢
      refine ⟨trivial, fun hle => ?_⟩
      have hpos : 0 < time.toNat := Nat.pos_of_ne_zero fun h0 => hzero (BitVec.eq_of_toNat_eq h0)
      unfold State.completed at hcompleted
      omega
    · simp only [Function.update_of_ne hnew] at hrange ⊢
      exact h id (by omega) hrange
  | timeCancel id =>
    obtain ⟨hlt, rfl⟩ := step_timeCancel hs
    intro id' hid' hrange
    by_cases heq : id' = id
    · subst heq
      simp only [Function.update_self] at hrange ⊢
      obtain ⟨hcalls, hdue⟩ := h _ hlt hrange
      exact ⟨hcalls, fun hle => (hdue hle).cancel⟩
    · simp only [Function.update_of_ne heq] at hrange ⊢
      exact h id' hid' hrange
  | update =>
    obtain ⟨hpc, rfl⟩ := step_update hs
    refine h.of_eq rfl rfl ?_
    simp [State.completed, State.execute, hpc]
  | process =>
    obtain ⟨pass, idx, hpc, hcases⟩ := step_process hs
    rcases hcases with ⟨-, rfl, rfl⟩ | ⟨hempty, rfl, rfl⟩ | ⟨id, rest, -, rfl⟩
    · refine h.of_eq rfl rfl ?_
      simp [State.completed, hpc]
    · intro id hid hrange
      obtain ⟨hcalls, hdue⟩ := h id hid hrange
      refine ⟨hcalls, fun hle => ?_⟩
      simp only [State.completed, if_true] at hle
      rcases hle.lt_or_eq with hlt | heq
      · apply hdue
        simp only [State.completed, hpc, reduceCtorEq, if_false]
        omega
      · exact hc.returns idx rfl hpc hempty id hid hrange heq
    · refine h.of_eq rfl rfl ?_
      simp [State.completed, hpc]
  | dispatch =>
    obtain ⟨pass, idx, id, hpc, hcases⟩ := step_dispatch hs
    rcases hcases with ⟨-, rfl⟩ | ⟨hcancel, rfl⟩
    · refine h.of_eq rfl rfl ?_
      simp [State.completed, hpc]
    · intro id' hid' hrange
      have hcompleted : State.completed { s with pc := .calling pass idx } = s.completed := by
        simp [State.completed, hpc]
      by_cases heq : id' = id
      · subst heq
        simp only [Function.update_self] at hrange
        have := hc.dispatches pass idx _ rfl hpc hrange
        simp [hcancel] at this
      · simp only [Function.update_of_ne heq] at hrange ⊢
        obtain ⟨hcalls, hdue⟩ := h id' hid' hrange
        exact ⟨hcalls, fun hle => hdue (hcompleted ▸ hle)⟩
  | returned =>
    obtain ⟨pass, idx, hpc, rfl⟩ := step_returned hs
    refine h.of_eq rfl rfl ?_
    simp [State.completed, hpc]
  | shift =>
    obtain ⟨hpc, hcases⟩ := step_shift hs
    rcases hcases with ⟨level, idx, rfl⟩ | rfl
    · refine h.of_eq rfl rfl ?_
      simp [State.completed, hpc]
    · refine h.of_eq rfl rfl ?_
      simp [State.completed, State.execute, hpc]
  | move =>
    obtain ⟨level, idx, hpc, hcases⟩ := step_move hs
    rcases hcases with ⟨-, rfl⟩ | ⟨id, rest, -, rfl⟩
    · refine h.of_eq rfl rfl ?_
      simp [State.completed, State.execute, hpc]
    · apply h.of_eq
      · exact push_handles _ _
      · exact push_allocated _ _
      · simp [State.completed, State.local_append]

/-- A step that breaks the condition leaves a timer that is not exact. -/
theorem step_inexact {e : Event} (hI : Inv s) (h : Quiet s) (hc : ¬ Cond s e)
    (hs : step s e = some s') : ¬ AllExact s' := by
  intro hexact
  apply hc
  constructor
  · rintro idx rfl hpc hempty id hid hrange hdue
    obtain ⟨pass, idx', hpc', hcases⟩ := step_process hs
    obtain ⟨rfl, rfl⟩ : Pass.second = pass ∧ idx = idx' := by simpa [hpc] using hpc'
    rcases hcases with ⟨-, hpass, -⟩ | ⟨-, -, rfl⟩ | ⟨_, _, hcons, -⟩
    · cases hpass
    · by_contra hnot
      have hcalled := (hexact id hid hrange).returned hnot (by simp [State.completed, hdue])
      have hnone := (h id hid hrange).1
      simp [hnone] at hcalled
    · simp [hempty] at hcons
  · rintro pass idx id rfl hpc hrange
    obtain ⟨pass', idx', id', hpc', hcases⟩ := step_dispatch hs
    obtain ⟨rfl, rfl, rfl⟩ : pass = pass' ∧ idx = idx' ∧ id = id' := by simpa [hpc] using hpc'
    rcases hcases with ⟨hcancel, -⟩ | ⟨hcancel, rfl⟩
    · exact hcancel
    · exfalso
      have hdisp := hI.pc
      rw [PcOk, hpc] at hdisp
      obtain ⟨⟨hidx, hupdates⟩, hid, hnear, hlow⟩ := hdisp
      have hex := hexact id hid
      dsimp only at hex
      rw [Function.update_self] at hex
      have hnone := (h id hid hrange).1
      have hnot : ¬ (s.handles id).CancelledInTime := by
        rintro ⟨n, hn, -⟩
        have := (hI.handles id hid).cancel
        simp [hcancel, hn] at this
      have hcalled := (hex hrange).called hnot
      simp only [hnone, List.nil_append, List.cons_ne_nil, false_or, List.cons.injEq,
        and_true] at hcalled
      cases pass <;> simp only at hupdates <;> omega

/-! ## A cascade that never ends -/

/-- `local_move` is emptying a bucket that a timer of it goes back to. -/
structure Stuck (level idx id : ℕ) (s : State) : Prop where
  pc : s.pc = .moving level idx
  mem : id ∈ s.m_ts level idx
  place : place (s.handles id)._expire s.m_time = .ts level idx

/-- A timer in a bucket stays there when another is pushed. -/
theorem mem_push_of_mem {p : Place} {id id' level idx : ℕ} (h : id ∈ s.m_ts level idx) :
    id ∈ (s.push p id').m_ts level idx :=
  mem_push_ts_iff.mpr (.inl h)

/-- A timer that is pushed into a bucket is there. -/
theorem mem_push_self (level idx id : ℕ) :
    id ∈ (s.push (.ts level idx) id).m_ts level idx :=
  mem_push_ts_iff.mpr (.inr ⟨rfl, rfl⟩)

/-- The lock is held, so a timer can only be cancelled, and the timer comes back. -/
theorem step_stuck {level idx id : ℕ} {e : Event} (h : Stuck level idx id s)
    (hs : step s e = some s') : Stuck level idx id s' := by
  obtain ⟨hpc, hmem, hplace⟩ := h
  cases e with
  | timeOut time =>
    have hfree := (step_timeOut hs).1
    simp [hpc, Unlocked] at hfree
  | timeCancel id' =>
    obtain ⟨-, rfl⟩ := step_timeCancel hs
    refine ⟨hpc, hmem, ?_⟩
    by_cases heq : id = id'
    · subst heq
      simpa only [Function.update_self] using hplace
    · simpa only [Function.update_of_ne heq] using hplace
  | update =>
    have hidle := (step_update hs).1
    simp [hpc] at hidle
  | process =>
    obtain ⟨_, _, hother, -⟩ := step_process hs
    simp [hpc] at hother
  | dispatch =>
    obtain ⟨_, _, _, hother, -⟩ := step_dispatch hs
    simp [hpc] at hother
  | returned =>
    obtain ⟨_, _, hother, -⟩ := step_returned hs
    simp [hpc] at hother
  | shift =>
    have hother := (step_shift hs).1
    simp [hpc] at hother
  | move =>
    obtain ⟨level', idx', hpc', hcases⟩ := step_move hs
    obtain ⟨rfl, rfl⟩ : level = level' ∧ idx = idx' := by simpa [hpc] using hpc'
    rcases hcases with ⟨hempty, -⟩ | ⟨front, rest, hcons, rfl⟩
    · simp [hempty] at hmem
    · refine ⟨by simpa [State.local_append] using hpc, ?_, ?_⟩
      · rw [hcons] at hmem
        rcases List.mem_cons.mp hmem with rfl | hrest
        · unfold State.local_append
          rw [hplace]
          exact mem_push_self level idx _
        · apply mem_push_of_mem
          simpa using hrest
      · simpa [State.local_append] using hplace

/-- A bucket that gets a timer back while it is emptied is emptied for ever.
SOURCE: operation/clock.h:124-130 -/
theorem run_stuck {level idx id : ℕ} {es : List Event} (h : Stuck level idx id s)
    (hrun : system.run s es = some s') : Stuck level idx id s' := by
  induction es generalizing s with
  | nil =>
    rw [System.run_nil, Option.some.injEq] at hrun
    exact hrun ▸ h
  | cons e es ih =>
    obtain ⟨t, ht, hrest⟩ := Option.bind_eq_some_iff.mp hrun
    exact ih (step_stuck h ht) hrest

/-- A round of `local_move` that puts no timer back leaves one timer less in the bucket.
SOURCE: operation/clock.h:124-130 -/
theorem step_move_front {level idx id : ℕ} {rest : List ℕ} (hpc : s.pc = .moving level idx)
    (hcons : s.m_ts level idx = id :: rest)
    (hfront : place (s.handles id)._expire s.m_time ≠ .ts level idx) :
    ∃ t, step s .move = some t ∧ t.pc = .moving level idx ∧ t.m_ts level idx = rest ∧
      t.handles = s.handles ∧ t.m_time = s.m_time := by
  have hs : step s .move = some (State.local_append
      { s with
        m_ts := Function.update s.m_ts level (Function.update (s.m_ts level) idx rest) } id) := by
    simp only [step, hpc, hcons]
  refine ⟨_, hs, ?_, ?_, push_handles _ _, push_m_time _ _⟩
  · rw [State.local_append, push_pc]
    exact hpc
  · rw [State.local_append, push_m_ts, if_neg hfront]
    simp

/-- `local_move` ends where none of the timers of the bucket is put back. -/
theorem exists_run_of_not_putsBack {level idx : ℕ} {bucket : List ℕ}
    (hpc : s.pc = .moving level idx) (hbucket : s.m_ts level idx = bucket)
    (hback : ∀ id ∈ bucket, place (s.handles id)._expire s.m_time ≠ .ts level idx) :
    ∃ es t, system.run s es = some t ∧ t.pc ≠ .moving level idx := by
  induction bucket generalizing s with
  | nil =>
    refine ⟨[.move], s.execute .second, ?_, nofun⟩
    rw [System.run_singleton]
    simp only [system, step, hpc, hbucket]
  | cons id rest ih =>
    obtain ⟨t, hs, htpc, htbucket, hhandles, htime⟩ :=
      step_move_front hpc hbucket (hback id List.mem_cons_self)
    obtain ⟨es, u, hrun, hupc⟩ := ih htpc htbucket fun id' hid' => by
      rw [hhandles, htime]
      exact hback id' (List.mem_cons_of_mem id hid')
    refine ⟨.move :: es, u, ?_, hupc⟩
    rw [System.run_cons]
    exact Option.bind_eq_some_iff.mpr ⟨t, hs, hrun⟩

/-- **An update never returns** exactly when its cascade puts a timer back into the bucket it
empties. -/
theorem hangs_iff : s.Hangs ↔ s.PutsBack := by
  constructor
  · rintro ⟨level, idx, hnever⟩
    have hpc : s.pc = .moving level idx := hnever [] s rfl
    by_contra hback
    obtain ⟨es, t, hrun, htpc⟩ := exists_run_of_not_putsBack hpc rfl fun id hmem hplace =>
      hback ⟨level, idx, hpc, id, hmem, hplace⟩
    exact htpc (hnever es t hrun)
  · rintro ⟨level, idx, hpc, id, hmem, hplace⟩
    exact ⟨level, idx, fun es t hrun => (run_stuck ⟨hpc, hmem, hplace⟩ hrun).pc⟩

/-! ## The timers -/

/-- A new wheel is in order, and has called nothing. -/
theorem inv_of_starts (h : Starts s) : Inv s ∧ Quiet s := by
  constructor
  · refine ⟨?_, ?_, ?_, ?_, ?_⟩
    · intro idx id hid
      simp [h.slots] at hid
    · intro level idx id hid
      simp [h.ts] at hid
    · intro id hid
      simp [h.allocated] at hid
    · rw [h.time, h.shifts]
      rfl
    · rw [PcOk, h.pc]
      exact h.updates.trans h.shifts.symm
  · intro id hid
    simp [h.allocated] at hid

/-- No timer has been called, so the last update is exact where all timers had been cancelled. -/
theorem endsExact_iff (h : Quiet s) : EndsExact s ↔ EndCond s := by
  rw [EndsExact, EndCond, hangs_iff]
  refine forall_congr' fun _ => forall₃_congr fun id hid hrange => ?_
  rw [(h id hid hrange).1]
  simp

/-- **Timers.**  All along a run every timer set for a time below `2 ^ 31` is exact, and so is an
update that never returns, exactly when every timer due in an update that returned had been cancelled
before it, no timer came to its dispatch that had not been cancelled, and where the cascade of an
update puts a timer back into the bucket it empties, so that the update never returns, all timers had
been cancelled before the updates they were due in.
SOURCE: operation/clock.h:52-60, 90-150, operation/clock.cc:58-91 -/
theorem timer_exactness (s₀ s : State) (es : List Event) (h0 : Starts s₀)
    (hrun : system.run s₀ es = some s) :
    ((∀ fs t, fs <+: es → system.run s₀ fs = some t → AllExact t) ∧ EndsExact s) ↔
      system.Meets Cond s₀ es ∧ EndCond s := by
  have hkeep : ∀ t e t', Inv t ∧ Quiet t → Cond t e → step t e = some t' → Inv t' ∧ Quiet t' :=
    fun t e t' hI hc hs => ⟨step_inv hI.1 hs, step_quiet hI.1 hI.2 hc hs⟩
  have hall : (∀ fs t, fs <+: es → system.run s₀ fs = some t → AllExact t) ↔
      system.Meets Cond s₀ es :=
    System.throughout_iff_meets (I := fun t => Inv t ∧ Quiet t)
      (fun t hI => allExact_of_quiet hI.2) hkeep
      (fun t e t' hI hc hs => step_inexact hI.1 hI.2 hc hs) (inv_of_starts h0) hrun
  rw [hall]
  refine and_congr_right fun hmeets => ?_
  have hend : Inv s ∧ Quiet s :=
    System.run_invariant (I := fun t => Inv t ∧ Quiet t) hkeep (inv_of_starts h0) hrun hmeets
  exact endsExact_iff hend.2

/-- A clock that has just been made. -/
def start : State :=
  { m_slots := fun _ => [], m_ts := fun _ _ => [], m_time := 0, pc := .idle
    handles := fun _ => ⟨0, false, 0, 0, none, []⟩, allocated := 0, shifts := 0, updates := 0 }

/-- A wheel that has just been made. -/
theorem start_starts : Starts start :=
  ⟨fun _ => rfl, fun _ _ => rfl, rfl, rfl, rfl, rfl, rfl⟩

/-- A timer that is cancelled before the update it is due in is exact.
SOURCE: operation/clock.cc:58-83, 85-91, operation/clock.h:52-60, 90-109, 111-114, 116-122 -/
theorem timer_exactness_cancelled : ∃ s,
    system.run start [.timeOut 1, .timeCancel 0, .update, .process, .shift, .process] = some s ∧
      s.completed = 1 ∧ AllExact s := by
  refine ⟨_, rfl, rfl, ((timer_exactness start _
    [.timeOut 1, .timeCancel 0, .update, .process, .shift, .process] start_starts rfl).mpr
      ⟨?_, ?_⟩).1 _ _ List.prefix_rfl rfl⟩
  swap
  · rintro ⟨level, idx, hpc, -⟩
    cases hpc
  have hquiet : ∀ {t : State} {e : Event}, e ≠ .process → e ≠ .dispatch → Cond t e :=
    fun hprocess hdispatch =>
      ⟨fun _ he => absurd he hprocess, fun _ _ _ he => absurd he hdispatch⟩
  refine ⟨hquiet nofun nofun, ?_⟩
  rintro _ ⟨⟩
  refine ⟨hquiet nofun nofun, ?_⟩
  rintro _ ⟨⟩
  refine ⟨hquiet nofun nofun, ?_⟩
  rintro _ ⟨⟩
  refine ⟨⟨fun _ _ hpc => ?_, nofun⟩, ?_⟩
  · cases hpc
  rintro _ ⟨⟩
  refine ⟨hquiet nofun nofun, ?_⟩
  rintro _ ⟨⟩
  refine ⟨⟨fun _ _ _ _ id hid _ _ => ?_, nofun⟩, fun _ _ => trivial⟩
  obtain rfl : id = 0 := Nat.lt_one_iff.mp hid
  exact ⟨0, rfl, Nat.zero_lt_one⟩

/-- The timer set for the first update is not called in it. -/
theorem timer_is_missed : ¬ ∀ s, system.Reachable s → AllExact s := by
  intro hall
  have hrun : (system.run start [.timeOut 1, .update, .process, .shift, .process]).any
      (fun s => s.allocated == 1 && s.completed == 1 && (s.handles 0).delay == 1 &&
        (s.handles 0).due == 1 && (s.handles 0).calls == [] &&
          (s.handles 0).cancelledAfter == none) = true := by
    decide
  obtain ⟨s, hreach, hs⟩ := System.exists_reachable _ _ start_starts hrun
  simp only [Bool.and_eq_true, beq_iff_eq] at hs
  obtain ⟨⟨⟨⟨⟨hallocated, hcompleted⟩, hdelay⟩, hdue⟩, hcalls⟩, hcancel⟩ := hs
  have hexact := hall s hreach 0 (by omega) ⟨by omega, by omega⟩
  have hcalled := hexact.returned (fun ⟨n, hn, _⟩ => by simp [hcancel] at hn) (by omega)
  simp [hcalls] at hcalled

end MagicNet.Clock
