import MagicNet.Model.WrMutex

/-!
# What the lock of readers and writers keeps

`Counts` ties the two counts and the flag to the threads: a writer is counted from its first test on,
so while it is between two waits it is in no list and `moving` counts it.  While the flag is set no
reader is in, and no reader is blocked with `m_writeCount` at 0, as the release that brings it to 0
notifies them all.

For the writers the wake-up is handed on: whoever makes the predicate true notifies one of them, and
that one makes it false when it tests it.

SOURCE: util/mutex.h:10-50
-/

set_option autoImplicit false

namespace MagicNet.Util.WrMutex

open MagicNet.Foundation

variable {T : Type} {s s' : State T} {moving : ℕ}

/-! ## The invariant -/

/-- The counts, the flag and the blocked readers, with `moving` writers at their test. -/
structure Counts (moving : ℕ) (s : State T) : Prop where
  readers : s.m_readCount = s.reading.length
  writers : s.m_writeCount = s.m_condWrite.waiters + s.writing.length + moving
  flag : s.writing.length = if s.m_inWriteFlag then 1 else 0
  exclusive : s.m_inWriteFlag = true → s.m_readCount = 0
  blocked : s.m_condRead.blocked ≠ [] → ¬ s.CanRead

/-- With no writer at its test, no wake-up of a writer is lost either. -/
structure Inv (s : State T) : Prop extends Counts 0 s where
  write : s.m_condWrite.NoLost s.CanWrite

/-- A new lock has neither readers nor writers. -/
theorem inv_start : Inv (start : State T) where
  readers := rfl
  writers := rfl
  flag := rfl
  exclusive := by simp [start]
  blocked := by simp [start, CondVar.empty]
  write := CondVar.noLost_of_blocked_nil rfl

/-! ## Coming in -/

/-- A writer at its test comes in or blocks; either way the predicate is false after it.
SOURCE: util/mutex.h:20-26 -/
theorem inv_enterWrite (h : Counts 1 s) (t : T) : Inv (s.enterWrite t) := by
  have hwriters := h.writers
  unfold State.enterWrite
  split
  · next hcan =>
    obtain ⟨hread, hflag⟩ := hcan
    have hnone : s.writing.length = 0 := by simp [h.flag, hflag]
    refine ⟨⟨h.readers, ?_, ?_, fun _ => hread, h.blocked⟩, ?_⟩
    · simp only [List.length_cons]
      omega
    · simp [hnone]
    · exact CondVar.noLost_of_not (by simp [State.CanWrite])
  · next hcan =>
    refine ⟨⟨h.readers, ?_, h.flag, h.exclusive, h.blocked⟩, ?_⟩
    · simp only [CondVar.waiters_wait]
      omega
    · exact CondVar.noLost_of_not hcan

/-- A reader comes in, which keeps the writers out, or blocks with a writer counted.
SOURCE: util/mutex.h:15-19 -/
theorem inv_enterRead (h : Inv s) (t : T) : Inv (s.enterRead t) := by
  have hwriters := h.writers
  have hreaders := h.readers
  unfold State.enterRead
  split
  · next hcan =>
    have hzero : s.m_writeCount = 0 := hcan
    have hnone : s.writing.length = 0 := by omega
    have hflag : s.m_inWriteFlag = false := by
      have := h.flag
      cases hf : s.m_inWriteFlag with
      | false => rfl
      | true =>
        simp only [hf, if_true] at this
        omega
    refine ⟨⟨?_, h.writers, h.flag, ?_, h.blocked⟩, ?_⟩
    · simp only [List.length_cons]
      omega
    · simp [hflag]
    · exact CondVar.noLost_of_not (by simp [State.CanWrite])
  · next hcan => exact ⟨⟨h.readers, h.writers, h.flag, h.exclusive, fun _ => hcan⟩, h.write⟩

/-! ## One step -/

variable [DecidableEq T]

/-- The last reader to go hands the lock to a writer.
SOURCE: util/mutex.h:27-32 -/
theorem inv_release_read {t : T} {choice : Option T} (h : Inv s)
    (hs : step s (.release_read t choice) = some s') : Inv s' := by
  have hreaders := h.readers
  have hwriters := h.writers
  obtain ⟨hmem, hcases⟩ := step_release_read.mp hs
  have hlen := CondVar.length_erase_add_one hmem
  have hflag : s.m_inWriteFlag = false := by
    cases hf : s.m_inWriteFlag with
    | false => rfl
    | true =>
      have := h.exclusive hf
      omega
  rcases hcases with ⟨hnot, rfl⟩ | ⟨hlast, c, hc, rfl⟩
  · refine ⟨⟨?_, h.writers, h.flag, by simp [hflag], h.blocked⟩, ?_⟩
    · simp only
      omega
    · -- readers are left, or no writer is counted, let alone blocked
      rintro hblocked ⟨hzero, -⟩
      have hpos : 0 < s.m_condWrite.blocked.length := List.length_pos_iff.mpr hblocked
      have hcount : 0 < s.m_writeCount := by
        unfold CondVar.waiters at hwriters
        omega
      exact absurd ⟨hzero, hcount⟩ hnot
  · refine ⟨⟨?_, ?_, h.flag, by simp [hflag], h.blocked⟩, CondVar.noLost_notifyOne hc⟩
    · simp only
      omega
    · simp only [CondVar.waiters_notifyOne hc]
      exact h.writers

/-- A writer that goes hands the lock to a writer, or to the readers.
SOURCE: util/mutex.h:33-41 -/
theorem inv_release_write {t : T} {choice : Option T} (h : Inv s)
    (hs : step s (.release_write t choice) = some s') : Inv s' := by
  have hwriters := h.writers
  have hflag := h.flag
  obtain ⟨hmem, hcases⟩ := step_release_write.mp hs
  have hlen := CondVar.length_erase_add_one hmem
  have hnone : (s.writing.erase t).length = 0 := by
    split at hflag <;> omega
  rcases hcases with ⟨hlast, rfl⟩ | ⟨hleft, c, hc, rfl⟩
  · refine ⟨⟨h.readers, ?_, by simp [hnone], by simp, by simp [CondVar.notifyAll]⟩, ?_⟩
    · simp only
      omega
    · have hzero : s.m_condWrite.blocked.length = 0 := by
        unfold CondVar.waiters at hwriters
        omega
      exact CondVar.noLost_of_blocked_nil (List.length_eq_zero_iff.mp hzero)
  · refine ⟨⟨h.readers, ?_, by simp [hnone], by simp, fun _ => hleft⟩,
      CondVar.noLost_notifyOne hc⟩
    simp only [CondVar.waiters_notifyOne hc]
    omega

/-- **One step** keeps the invariant. -/
theorem inv_step {e : Event T} (h : Inv s) (hs : step s e = some s') : Inv s' := by
  cases e with
  | lock_read t =>
    obtain rfl := Option.some.inj hs
    exact inv_enterRead h t
  | lock_write t =>
    obtain rfl := Option.some.inj hs
    have hwriters := h.writers
    apply inv_enterWrite
    refine ⟨h.readers, ?_, h.flag, h.exclusive, ?_⟩
    · simp only
      omega
    · intro _ hcan
      simp [State.CanRead] at hcan
  | release_read t choice => exact inv_release_read h hs
  | release_write t choice => exact inv_release_write h hs
  | wakeRead t =>
    obtain ⟨c, hc, rfl⟩ := step_wakeRead.mp hs
    obtain ⟨hmem, -⟩ := CondVar.spurious_eq hc
    exact ⟨⟨h.readers, h.writers, h.flag, h.exclusive,
      fun _ => h.blocked (List.ne_nil_of_mem hmem)⟩, h.write⟩
  | wakeWrite t =>
    obtain ⟨c, hc, rfl⟩ := step_wakeWrite.mp hs
    refine ⟨⟨h.readers, ?_, h.flag, h.exclusive, h.blocked⟩, CondVar.noLost_spurious h.write hc⟩
    simp only [CondVar.waiters_spurious hc]
    exact h.writers
  | againRead t w =>
    obtain ⟨c, hc, rfl⟩ := step_againRead.mp hs
    obtain ⟨hblocked, -⟩ := CondVar.leave_eq hc
    apply inv_enterRead
    refine ⟨⟨h.readers, h.writers, h.flag, h.exclusive, ?_⟩, h.write⟩
    simp only [hblocked]
    exact h.blocked
  | againWrite t w =>
    obtain ⟨c, hc, rfl⟩ := step_againWrite.mp hs
    obtain ⟨-, hcount⟩ := CondVar.leave_eq hc
    have hwriters := h.writers
    apply inv_enterWrite
    refine ⟨h.readers, ?_, h.flag, h.exclusive, h.blocked⟩
    simp only
    omega

/-! ## Runs -/

/-- **Readers and writers.**  In every reachable state: with `m_inWriteFlag` set no reader is in and
exactly one thread holds the lock for writing; `m_writeCount` counts the writers that wait or hold
it; and on both condition variables, while a thread is blocked whose predicate holds, one that has
been notified has yet to test it.
SOURCE: util/mutex.h:10-50 -/
theorem readers_writers (T : Type) [DecidableEq T] (s : State T) (h : (system T).Reachable s) :
    (s.m_inWriteFlag = true → s.m_readCount = 0 ∧ ∃ t, s.writing = [t]) ∧
      s.m_writeCount = s.m_condWrite.waiters + s.writing.length ∧
      s.m_condWrite.NoLost s.CanWrite ∧ s.m_condRead.NoLost s.CanRead := by
  have hinv : Inv s := by
    refine h.invariant ?_ ?_
    · rintro t rfl
      exact inv_start
    · intro t e t' hi _ hs
      exact inv_step hi hs
  refine ⟨fun hflag => ⟨hinv.exclusive hflag, ?_⟩, hinv.writers, hinv.write, ?_⟩
  · have hone := hinv.flag
    rw [hflag, if_pos rfl] at hone
    exact List.length_eq_one_iff.mp hone
  · intro hblocked hcan
    exact absurd hcan (hinv.blocked hblocked)

/-- A writer holds the lock, one waits for it and a reader waits for both; the first hands on. -/
theorem readers_writers_handed_on : ∃ s, (system ℕ).Reachable s ∧ s.m_condWrite.notified = [2] ∧
    s.m_condRead.blocked = [3] ∧ s.m_writeCount = s.m_condWrite.waiters + s.writing.length := by
  obtain ⟨s, hreach, hs⟩ := System.exists_reachable (A := system ℕ)
    [.lock_write 1, .lock_write 2, .lock_read 3, .release_write 1 (some 2)]
    (fun s => decide (s.m_condWrite.notified = [2] ∧ s.m_condRead.blocked = [3]))
    (show (system ℕ).init start from rfl) rfl
  obtain ⟨hnotified, hblocked⟩ := of_decide_eq_true hs
  exact ⟨s, hreach, hnotified, hblocked, (readers_writers ℕ s hreach).2.1⟩

end MagicNet.Util.WrMutex
