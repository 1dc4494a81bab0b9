import MagicNet.Model.Steal
import MagicNet.Analysis.TwoWayLists

/-!
# What `steal` takes

The test that should let `steal(n)` go on to the runnable queue is `size() >= 0`, which holds of
every list, so the runnable queue is never touched; and a single task in the new queue is not found.
-/

set_option autoImplicit false

namespace MagicNet.Steal

open MagicNet.Util

variable {A : Type} {s s' : State A} {new runnable : List A} {n : ℕ} {returned : Ends A}

/-! ## The tasks that are asked for -/

/-- As many tasks are asked for as there are, at most `n`.
SOURCE: operation/worker.cc:217-247 -/
theorem length_asked :
    (asked new runnable n).length = min n (new.length + runnable.length) := by
  rw [asked, List.length_append, List.length_drop, List.length_drop]
  omega

/-- No task is asked for twice. -/
theorem nodup_asked (h : (new ++ runnable).Nodup) : (asked new runnable n).Nodup := by
  apply List.Nodup.sublist _ h
  apply List.Sublist.append
  · exact List.drop_sublist _ _
  · exact List.drop_sublist _ _

/-- **What is returned** is as many tasks as were asked for, or all there are, and no task twice. -/
theorem Takes.count (h : Takes new runnable n s' returned) (hnodup : (new ++ runnable).Nodup) :
    ∃ l, returned.Exact s'.mem l ∧ l.Nodup ∧
      l.length = min n (new.length + runnable.length) := by
  obtain ⟨l, hl, hperm⟩ := h.returned
  refine ⟨l, hl, ?_, ?_⟩
  · exact hperm.nodup_iff.mpr (nodup_asked hnodup)
  · rw [hperm.length_eq, length_asked]

/-- What is taken is what is asked for when it leaves as much of either queue. -/
theorem takes_iff {rest : ℕ} (hreturned : returned.Exact s'.mem (new.drop rest))
    (hnew : s'.m_newQueue.Exact s'.mem (new.take rest)) (hrest : rest ≤ new.length)
    (hrunnable : s'.m_runnableQueue.Exact s'.mem runnable) :
    Takes new runnable n s' returned ↔
      rest = new.length - n ∧ (n ≤ new.length ∨ runnable = []) := by
  constructor
  · intro h
    have hleft := hnew.count.symm.trans h.m_newQueue.count
    have hkept := hrunnable.count.symm.trans h.m_runnableQueue.count
    rw [List.length_take, List.length_take] at hleft
    rw [List.length_take] at hkept
    refine ⟨by omega, ?_⟩
    rw [← List.length_eq_zero_iff]
    omega
  · rintro ⟨rfl, hmore⟩
    have hall : runnable.length - (n - new.length) = runnable.length := by
      rcases hmore with hle | rfl
      · omega
      · simp
    refine ⟨⟨_, hreturned, ?_⟩, hnew, ?_⟩
    · rw [asked, hall, List.drop_length, List.append_nil]
    · rw [hall, List.take_length]
      exact hrunnable

/-- The same, by the numbers that are in the two queues. -/
theorem enough_iff {rest : ℕ} (hn : 0 < n)
    (hrest : rest = if new.length ≤ 1 then new.length else new.length - max 1 (n % 2 ^ 32)) :
    rest = new.length - n ∧ (n ≤ new.length ∨ runnable = []) ↔ Enough new runnable n := by
  have hmod : n % 2 ^ 32 ≤ n := Nat.mod_le _ _
  have hlow : n < 2 ^ 32 → n % 2 ^ 32 = n := Nat.mod_eq_of_lt
  have hlt : n % 2 ^ 32 < 2 ^ 32 := Nat.mod_lt _ (by decide)
  rw [Enough, ← List.length_eq_zero_iff, ← List.length_eq_zero_iff]
  generalize n % 2 ^ 32 = k at *
  split at hrest
  · omega
  · omega

/-! ## What the code takes -/

variable [DecidableEq A]

/-- **`steal(n)`** takes the last tasks of the new queue, at least one where there are several and
none where there is one; and it leaves the runnable queue alone.
SOURCE: operation/worker.cc:217-247 -/
theorem steal_pos (h : Contents s new runnable) (hn : 0 < n) :
    ∃ s' returned rest, steal s n = some (s', returned) ∧
      rest = (if new.length ≤ 1 then new.length else new.length - max 1 (n % 2 ^ 32)) ∧
      returned.Exact s'.mem (new.drop rest) ∧ s'.m_newQueue.Exact s'.mem (new.take rest) ∧
      s'.m_runnableQueue.Exact s'.mem runnable := by
  obtain ⟨hnew, -, hdisj⟩ := List.nodup_append'.mp h.nodup
  obtain ⟨mem, q, o, rest, hpop, hrest, hq, ho, hsame⟩ :=
    Ends.popBackUnlock_exact (n := n % 2 ^ 32) h.m_newQueue hnew
  have hrunnable : s.m_runnableQueue.Exact mem runnable := by
    refine ⟨h.m_runnableQueue.toHolds.congr fun a ha => hsame a fun hmem => ?_,
      h.m_runnableQueue.head⟩
    exact hdisj hmem ha
  refine ⟨⟨mem, q, s.m_runnableQueue⟩, o, rest, ?_, hrest, ho, hq, hrunnable⟩
  have hbefore := Ends.assertLink_ok h.m_newQueue
  have hafter := Ends.assertLink_ok hq
  rw [steal, if_pos hn, hbefore, hpop]
  simp [hafter]

/-- **Steal takes what was asked**, of any contents of the queues, exactly when both queues are
empty, or the new queue has several tasks, `n` is no more than they are or the runnable queue is
empty, and `n` is below 2^32 or still no less than they are when it is cut to 32 bits.
SOURCE: operation/worker.cc:217-234, util/deque.h:156-180, util/list.h:111-130 -/
theorem steal_takes_iff (h : Contents s new runnable) (hn : 0 < n) :
    (∃ s' returned, steal s n = some (s', returned) ∧ Takes new runnable n s' returned) ↔
      Enough new runnable n := by
  obtain ⟨s', returned, rest, hsteal, hrest, hreturned, hnew, hrunnable⟩ := steal_pos h hn
  have hle : rest ≤ new.length := by
    rw [hrest]
    split <;> omega
  rw [← enough_iff hn hrest, ← takes_iff hreturned hnew hle hrunnable]
  constructor
  · rintro ⟨t, o, ht, htakes⟩
    obtain ⟨rfl, rfl⟩ := Prod.mk.inj (Option.some.inj (ht.symm.trans hsteal))
    exact htakes
  · intro htakes
    exact ⟨s', returned, hsteal, htakes⟩

/-- Three tasks in the new queue, and one in the runnable queue. -/
def fourTasks : State ℕ where
  mem := ⟨fun a => if a = 1 ∨ a = 2 then some (a - 1) else none,
    fun a => if a < 2 then some (a + 1) else none⟩
  m_newQueue := ⟨some 0, some 2, 3⟩
  m_runnableQueue := ⟨some 3, some 3, 1⟩

/-- Two tasks are asked for.
SOURCE: operation/worker.cc:217-247 -/
theorem steal_takes_two : ∃ s' returned, steal fourTasks 2 = some (s', returned) ∧
    Takes [0, 1, 2] [3] 2 s' returned :=
  (steal_takes_iff (by decide) (by decide)).mpr (by decide)

/-- All four are asked for, and the one in the runnable queue is not taken.
SOURCE: operation/worker.cc:217-247 -/
theorem steal_four_fails : ¬ ∀ (s : State ℕ) (new runnable : List ℕ) (n : ℕ),
    Contents s new runnable → 0 < n →
    ∃ s' returned, steal s n = some (s', returned) ∧ Takes new runnable n s' returned := by
  intro hall
  obtain ⟨s', returned, hsteal, htakes⟩ :=
    hall fourTasks [0, 1, 2] [3] 4 (by decide) (by decide)
  obtain ⟨rfl, rfl⟩ := Prod.mk.inj (Option.some.inj hsteal)
  exact absurd htakes.m_runnableQueue (by decide)

end MagicNet.Steal
