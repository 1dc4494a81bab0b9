import MagicNet.Analysis.TaskGarbage
import Mathlib.Data.Set.Card

/-!
# The references of a task and their count

The references of a task are its own, until a `gc` gives it up, one for the list that it stands in,
and those of the `incursivePtr`s.  Its count is their number all along, if no task is stolen from
under its worker: a finished task then comes to one `m_gccQueue` only, and one `gc` gives up its first
reference.
-/

set_option autoImplicit false

namespace MagicNet.TaskLife

open MagicNet.Foundation
open MagicNet.Worker (Place Pc Waker Steady Kept)

/-! ## The lists a task can stand in -/

/-- The deques, and the lists on their way between them: those of the tasks that are to run, and those
of the finished tasks. -/
inductive Box where
  | queue (p : Place)
  | trash (p : Trash)
  deriving DecidableEq

namespace State

def lists (s : State) : Box → List ℕ
  | .queue p => s.sched.queue p
  | .trash p => trash s.sched s.gc p

/-- The `incursivePtr`s to a task, those of the wakers among them. -/
def holders (s : State) (tk : ℕ) : ℕ := s.ptrs.count tk + (s.sched.wakers.map Waker.tk).count tk

/-- The reference that a task is created with. -/
def own (s : State) (tk : ℕ) : ℕ := if tk ∈ s.dropped then 0 else 1

end State

/-- The count of a task that is not deleted is the number of its references.  A task that is deleted
has finished, and stands in no list, is with no worker and has no `incursivePtr`; it is deleted once.
A task that has finished is deleted, or its worker has still to look at it, or a list or an
`incursivePtr` has it. -/
structure Counted (s : State) : Prop where
  balance : ∀ tk < s.sched.created, tk ∉ s.refs.deleted →
    s.refs.count tk = s.own tk + Set.ncard {b | tk ∈ s.lists b} + s.holders tk
  kept : ∀ tk ∈ s.refs.deleted, (s.sched.tasks tk)._state = .done ∧ (∀ b, tk ∉ s.lists b) ∧
    (∀ w, (s.sched.pc w).m_runnable ≠ some tk) ∧ s.holders tk = 0
  once : s.refs.deleted.Nodup
  finished : ∀ tk < s.sched.created, (s.sched.tasks tk)._state = .done → tk ∈ s.refs.deleted ∨
    (∃ w, (s.sched.pc w).m_runnable = some tk) ∨ (∃ b, tk ∈ s.lists b) ∨ 0 < s.holders tk

/-- A step deletes nothing, or it is a step of a `gc` or the end of an `incursivePtr` that deletes a
task whose first reference a `gc` has given up. -/
def Deletes (s : State) (e : Event) (s' : State) : Prop :=
  s'.refs.deleted = s.refs.deleted ∨ ∃ tk, s'.refs.deleted = tk :: s.refs.deleted ∧
    tk ∈ s.dropped ∧ ((∃ w, e = .gcErase w) ∨ e = .reset tk)

/-- A task gives its worker back suspended or done. -/
def yields (s : State) : Event → Bool
  | .sched (.swapOut w) =>
    match s.sched.pc w with
    | .executing tk => decide ((s.sched.tasks tk)._state ≠ .runnable)
    | _ => true
  | _ => true

/-- And `steal(0)` does not find in a worker's runnable queue the task that the worker has in
`m_runnable`. -/
def Cond (s : State) : Event → Prop
  | .sched e => Kept s.sched e
  | _ => True

instance (s : State) : ∀ e, Decidable (Cond s e)
  | .sched e => inferInstanceAs (Decidable (Kept s.sched e))
  | .lock _ | .reset _ | .gcTake _ | .gcDrop _ | .gcErase _ => inferInstanceAs (Decidable True)

/-! ## The references of a task -/

variable {s s' : State} {t : Worker.State} {e : Worker.Event} {w tk : ℕ}

/-- The task stands in some list. -/
def Listed (s : State) (tk : ℕ) : Prop := Stored s.sched.queue tk ∨ Stored (trash s.sched s.gc) tk

open Classical in
/-- The references of a task: its own, that of its list and those of the `incursivePtr`s. -/
noncomputable def owed (s : State) (tk : ℕ) : ℕ :=
  s.own tk + (if Listed s tk then 1 else 0) + s.holders tk

/-- The counts are the references; the tasks stand where they can. -/
structure Inv (s : State) : Prop where
  steady : Steady s.sched
  garbage : Garbage s.sched s.gc s.dropped
  ptrs : ∀ tk ∈ s.ptrs, tk < s.sched.created
  refs : s.refs.Settled (· < s.sched.created) (owed s)

/-- A task in a queue is owed one reference for it. -/
theorem owed_of_listed (h : Listed s tk) : owed s tk = s.own tk + 1 + s.holders tk := by
  rw [owed, if_pos h]

/-- Another is not. -/
theorem owed_of_not_listed (h : ¬ Listed s tk) : owed s tk = s.own tk + s.holders tk := by
  rw [owed, if_neg h, Nat.add_zero]

/-- The references of a task whose own one and whose lists a step does not touch. -/
theorem owed_add (hown : s'.own tk = s.own tk) (hlisted : Listed s' tk ↔ Listed s tk) :
    owed s' tk + s.holders tk = owed s tk + s'.holders tk := by
  by_cases h : Listed s tk
  · rw [owed_of_listed h, owed_of_listed (hlisted.mpr h), hown]
    omega
  · rw [owed_of_not_listed h, owed_of_not_listed fun h' => h (hlisted.mp h'), hown]
    omega

/-- The references of a task that a step does not touch. -/
theorem owed_congr (hown : s'.own tk = s.own tk) (hlisted : Listed s' tk ↔ Listed s tk)
    (hholders : s'.holders tk = s.holders tk) : owed s' tk = owed s tk := by
  have hadd := owed_add hown hlisted
  omega

/-- Who holds a task is a matter of the pointers and of the wakers. -/
theorem holders_congr (hptrs : s'.ptrs = s.ptrs) (hwakers : s'.sched.wakers = s.sched.wakers) :
    s'.holders tk = s.holders tk := by
  rw [State.holders, State.holders, hptrs, hwakers]

/-- Whether one is listed is a matter of the queues. -/
theorem listed_congr (hstored : Stored s'.sched.queue tk ↔ Stored s.sched.queue tk)
    (hgcc : s'.sched.m_gccQueue = s.sched.m_gccQueue) (hgc : s'.gc = s.gc) :
    Listed s' tk ↔ Listed s tk := by
  rw [Listed, Listed, hgc, trash_congr hgcc, hstored]

namespace Inv

/-- A task that a worker has in `m_runnable` has its own reference and is in no list of finished
tasks. -/
theorem running (h : Inv s) (hpc : (s.sched.pc w).m_runnable = some tk) :
    s.own tk = 1 ∧ ¬ Stored (trash s.sched s.gc) tk := by
  have hnone : ¬ (Stored (trash s.sched s.gc) tk ∨ tk ∈ s.dropped) := fun hold =>
    (h.garbage.ended tk hold).left w hpc
  rw [not_or] at hnone
  exact ⟨if_neg hnone.2, hnone.1⟩

/-- A task that stands in a queue has its own reference and is in no list of finished tasks. -/
theorem queued (h : Inv s) (hstored : Stored s.sched.queue tk) :
    s.own tk = 1 ∧ ¬ Stored (trash s.sched s.gc) tk := by
  have hnone : ¬ (Stored (trash s.sched s.gc) tk ∨ tk ∈ s.dropped) := fun hold =>
    (h.garbage.ended tk hold).not_stored h.steady hstored
  rw [not_or] at hnone
  exact ⟨if_neg hnone.2, hnone.1⟩

/-- There is no `incursivePtr` to a task that is still to be created. -/
theorem holders_created (h : Inv s) : s.holders s.sched.created = 0 := by
  have hptrs : s.sched.created ∉ s.ptrs := fun hmem => Nat.lt_irrefl _ (h.ptrs _ hmem)
  have hwakers : s.sched.created ∉ s.sched.wakers.map Waker.tk := by
    intro hmem
    obtain ⟨k, hk, heq⟩ := List.mem_map.mp hmem
    have hknown := (h.steady.sound.entries _ _ (h.steady.sound.wakers k hk).issued).known
    omega
  rw [State.holders, List.count_eq_zero_of_not_mem hptrs, List.count_eq_zero_of_not_mem hwakers]

end Inv

/-! ## Steps of the workers -/

/-- What the steps count. -/
inductive Counts (s : State) (t : Worker.State) : Worker.Event → State → Prop where
  | createTask {w : ℕ} : Counts s t (.createTask w)
      ({ s with sched := t, refs := s.refs.make s.sched.created }.incrementRef s.sched.created)
  | pop {w tk : ℕ} : t.pc w = .popped tk → Counts s t (.pop w) ({ s with sched := t }.decrementRef tk)
  | suspend {w tk : ℕ} : s.sched.pc w = .executing tk → (s.sched.tasks tk)._state = .runnable →
      Counts s t (.suspend w) ({ s with sched := t }.incrementRef tk)
  | switch {w tk : ℕ} : s.sched.pc w = .returned tk → (s.sched.tasks tk)._state = .done →
      Counts s t (.switch w) ({ s with sched := t }.incrementRef tk)
  | wakeup {tk id wrk : ℕ} : tk ∈ s.ptrs → (s.sched.tasks tk)._lpWorker = some wrk →
      Counts s t (.wakeup tk id) { s with sched := t, ptrs := s.ptrs.erase tk }
  | stale {k : Waker} : Counts s t (.wakeupBySelf k) { s with sched := t, ptrs := k.tk :: s.ptrs }
  | woken {k : Waker} : k.id = (s.sched.tasks k.tk)._supperId → Counts s t (.wakeupBySelf k)
      (({ s with sched := t, ptrs := k.tk :: s.ptrs }.decrementRef k.tk).incrementRef k.tk)
  | quiet {e : Worker.Event} : t.created = s.sched.created → t.wakers = s.sched.wakers →
      t.m_gccQueue = s.sched.m_gccQueue →
      (∀ tk, Stored t.queue tk ↔ Stored s.sched.queue tk) → Counts s t e { s with sched := t }

/-- **What a step of a worker, a waker or the dispatcher counts**, if it is not only seen in the
queues. -/
theorem counted_counts (hS : Worker.Sound s.sched) (hs : Worker.step s.sched e = some t)
    (hcount : TaskLife.counted s t e = some s') : Counts s t e s' := by
  obtain ⟨hcreated, hwakers, hgcc⟩ := Worker.step_rest hs
  have hplaces : ∀ tk, Stored t.queue tk ↔
      Stored s.sched.queue tk ∧ ¬ (∃ w, e = .pop w ∧ t.pc w = .popped tk) ∨
        (∃ w, e = .createTask w ∧ tk = s.sched.created) ∨
          ∃ w, e = .suspend w ∧ s.sched.pc w = .executing tk :=
    fun _ => Worker.step_stored hS hs
  cases e with
  | createTask w =>
    cases hcount
    exact .createTask
  | pop w =>
    simp only [counted] at hcount
    split at hcount
    · next tk hpc =>
      cases hcount
      exact .pop hpc
    · next hnone =>
      cases hcount
      refine .quiet hcreated hwakers hgcc fun tk => (hplaces tk).trans ?_
      simpa using fun _ => hnone tk
  | suspend w =>
    obtain ⟨tk, wrk, hpc, -, ⟨-, hstate⟩, ht⟩ := Worker.step_suspend.mp hs
    have hpc' : t.pc w = .executing tk := by
      rw [ht]
      exact hpc
    simp only [counted, hpc', Option.some.injEq] at hcount
    rw [← hcount]
    exact .suspend hpc hstate
  | switch w =>
    obtain ⟨tk, hpc, -⟩ := Worker.step_switch.mp hs
    simp only [counted, hpc] at hcount
    split at hcount
    · next hdone =>
      simp only [Option.ite_none_right_eq_some, Option.some.injEq] at hcount
      rw [← hcount.2]
      exact .switch hpc hdone
    · next hnot =>
      cases hcount
      refine .quiet hcreated hwakers ?_ fun tk => (hplaces tk).trans ?_
      · rw [hgcc]
        simp [Worker.gccAfter, hpc, hnot]
      · simp
  | wakeup tk id =>
    simp only [counted, Option.ite_none_right_eq_some] at hcount
    obtain ⟨hptr, hcount⟩ := hcount
    cases hwrk : (s.sched.tasks tk)._lpWorker with
    | none =>
      simp only [hwrk, Option.some.injEq] at hcount
      rw [← hcount]
      refine .quiet hcreated ?_ hgcc fun tk => (hplaces tk).trans ?_
      · rw [hwakers]
        simp [Worker.wakersAfter, hwrk]
      · simp
    | some wrk =>
      simp only [hwrk, Option.some.injEq] at hcount
      rw [← hcount]
      exact .wakeup hptr hwrk
  | wakeupBySelf k =>
    simp only [counted] at hcount
    split at hcount
    · next hid =>
      cases hcount
      exact .woken hid
    · cases hcount
      exact .stale
  | _ =>
    cases hcount
    refine .quiet hcreated hwakers hgcc fun tk => (hplaces tk).trans ?_
    simp

/-- A step that is only seen in the queues. -/
theorem Inv.quiet (h : Inv s) (hsteady : Steady t) (hgarbage : Garbage t s.gc s.dropped)
    (hcreated : t.created = s.sched.created) (hwakers : t.wakers = s.sched.wakers)
    (hgcc : t.m_gccQueue = s.sched.m_gccQueue)
    (hstored : ∀ tk, Stored t.queue tk ↔ Stored s.sched.queue tk) :
    Inv { s with sched := t } := by
  refine ⟨hsteady, hgarbage, ?_, ?_⟩
  · rw [hcreated]
    exact h.ptrs
  · rw [hcreated]
    refine h.refs.congr fun tk => owed_congr rfl ?_ ?_
    · exact listed_congr (hstored tk) hgcc rfl
    · exact holders_congr rfl hwakers

/-- A task is created and pushed.
SOURCE: operation/scheduler.cc:69-76, operation/worker.cc:21-29, 31-39 -/
theorem Inv.createTask (h : Inv s) (hsteady : Steady t) (hgarbage : Garbage t s.gc s.dropped)
    (hs : Worker.step s.sched (.createTask w) = some t) :
    Inv ({ s with sched := t, refs := s.refs.make s.sched.created }.incrementRef
      s.sched.created) := by
  obtain ⟨hcreated, hwakers, hgcc⟩ := Worker.step_rest hs
  have hcreated' : t.created = s.sched.created + 1 := hcreated
  have hstored : ∀ tk, Stored t.queue tk ↔ Stored s.sched.queue tk ∨ tk = s.sched.created := by
    intro tk
    rw [Worker.step_stored h.steady.sound hs]
    simp
  have hdropped : s.sched.created ∉ s.dropped := fun hmem =>
    Nat.lt_irrefl _ (h.garbage.ended _ (.inr hmem)).known
  have hholders : ∀ tk, State.holders ({ s with
      sched := t, refs := s.refs.make s.sched.created }.incrementRef s.sched.created) tk =
        s.holders tk := fun _ => holders_congr rfl hwakers
  refine ⟨hsteady, hgarbage, ?_, ?_⟩
  · intro tk htk
    have hold := h.ptrs tk htk
    show tk < t.created
    omega
  · -- the maker's reference, and then the one of the new queue
    have hmade : (s.refs.make s.sched.created).Settled (· < t.created)
        (Function.update (owed s) s.sched.created 1) := by
      refine h.refs.make (lt_irrefl _) ?_ (Function.update_self _ _ _) ?_
      · intro tk
        rw [hcreated']
        exact Nat.lt_succ_iff_lt_or_eq
      · intro tk hne
        exact Function.update_of_ne hne _ _
    refine hmade.incr ?_ ?_ ?_ ?_
    · omega
    · rw [Function.update_self]
      omega
    · have hlisted : Listed ({ s with
          sched := t, refs := s.refs.make s.sched.created }.incrementRef s.sched.created)
            s.sched.created := .inl ((hstored _).mpr (.inr rfl))
      rw [Function.update_self, owed_of_listed hlisted, hholders, h.holders_created]
      exact congrArg (· + 1 + 0) (if_neg hdropped)
    · intro tk hne
      rw [Function.update_of_ne hne]
      refine owed_congr rfl (listed_congr ?_ hgcc rfl) (hholders tk)
      exact (hstored tk).trans (or_iff_left hne)

/-- A worker takes a task from its runnable queue.
SOURCE: operation/worker.cc:178-215 -/
theorem Inv.pop (h : Inv s) (hsteady : Steady t) (hgarbage : Garbage t s.gc s.dropped)
    (hs : Worker.step s.sched (.pop w) = some t) (hpc : t.pc w = .popped tk) :
    Inv ({ s with sched := t }.decrementRef tk) := by
  obtain ⟨hcreated, hwakers, hgcc⟩ := Worker.step_rest hs
  have hcreated' : t.created = s.sched.created := hcreated
  have hold : Stored s.sched.queue tk := by
    rcases Worker.step_popped hs hpc with hold | ⟨-, hmem⟩
    · obtain ⟨htop, -⟩ := Worker.step_pop.mp hs
      rw [htop] at hold
      cases hold
    · exact ⟨_, hmem⟩
  have hstored : ∀ b, Stored t.queue b ↔ Stored s.sched.queue b ∧ b ≠ tk := by
    intro b
    rw [Worker.step_stored h.steady.sound hs]
    simp [hpc, eq_comm (a := b)]
  have hholders : ∀ b, State.holders ({ s with sched := t }.decrementRef tk) b = s.holders b :=
    fun _ => holders_congr rfl hwakers
  have hnot : ¬ Listed ({ s with sched := t }.decrementRef tk) tk := by
    rintro (hin | hin)
    · exact ((hstored tk).mp hin).2 rfl
    · rw [State.decrementRef, trash_congr hgcc] at hin
      exact (h.queued hold).2 hin
  refine ⟨hsteady, hgarbage, ?_, ?_⟩
  · intro b hb
    show b < t.created
    rw [hcreated']
    exact h.ptrs b hb
  · show (s.refs.decr tk).Settled (· < t.created) _
    rw [hcreated']
    refine h.refs.decr (h.steady.sound.stored tk hold) ?_ ?_
    · rw [owed_of_listed (.inl hold), owed_of_not_listed hnot, hholders, Nat.add_right_comm]
      rfl
    · intro b hne
      refine owed_congr rfl (listed_congr ?_ hgcc rfl) (hholders b)
      exact (hstored b).trans (and_iff_left hne)

/-- The task that a worker has goes to a list. -/
theorem Inv.push (h : Inv s) (hsteady : Steady t) (hgarbage : Garbage t s.gc s.dropped)
    (hcreated : t.created = s.sched.created) (hwakers : t.wakers = s.sched.wakers)
    (hpc : (s.sched.pc w).m_runnable = some tk) (hnot : ¬ Listed s tk)
    (hlisted : ∀ b, Listed { s with sched := t } b ↔ Listed s b ∨ b = tk) :
    Inv ({ s with sched := t }.incrementRef tk) := by
  have hholders : ∀ b, State.holders ({ s with sched := t }.incrementRef tk) b = s.holders b :=
    fun _ => holders_congr rfl hwakers
  have howed := owed_of_not_listed hnot
  rw [(h.running hpc).1] at howed
  refine ⟨hsteady, hgarbage, ?_, ?_⟩
  · intro b hb
    show b < t.created
    rw [hcreated]
    exact h.ptrs b hb
  · show (s.refs.incr tk).Settled (· < t.created) _
    rw [hcreated]
    refine h.refs.incr (h.steady.known hpc) ?_ ?_ ?_
    · omega
    · have hnew : Listed ({ s with sched := t }.incrementRef tk) tk :=
        (hlisted tk).mpr (.inr rfl)
      rw [owed_of_listed hnew, owed_of_not_listed hnot, hholders, Nat.add_right_comm]
      rfl
    · intro b hne
      refine owed_congr rfl ?_ (hholders b)
      exact (hlisted b).trans (or_iff_left hne)

/-- The task that a worker runs suspends itself.
SOURCE: operation/worker.cc:120-129 -/
theorem Inv.suspend (h : Inv s) (hsteady : Steady t) (hgarbage : Garbage t s.gc s.dropped)
    (hs : Worker.step s.sched (.suspend w) = some t) (hpc : s.sched.pc w = .executing tk)
    (hstate : (s.sched.tasks tk)._state = .runnable) :
    Inv ({ s with sched := t }.incrementRef tk) := by
  obtain ⟨hcreated, hwakers, hgcc⟩ := Worker.step_rest hs
  have hrunnable : (s.sched.pc w).m_runnable = some tk := by rw [hpc, Pc.m_runnable]
  refine h.push hsteady hgarbage hcreated hwakers hrunnable ?_ ?_
  · rintro (hin | hin)
    · exact h.steady.not_stored hpc hstate hin
    · exact (h.running hrunnable).2 hin
  · intro b
    have hstored : Stored t.queue b ↔ Stored s.sched.queue b ∨ b = tk := by
      rw [Worker.step_stored h.steady.sound hs]
      simp [hpc, eq_comm (a := b)]
    show Stored t.queue b ∨ Stored (trash t s.gc) b ↔ _
    rw [hstored, trash_congr hgcc, or_right_comm]
    rfl

/-- A worker finds its task done.
SOURCE: operation/worker.cc:178-215 -/
theorem Inv.switch (h : Inv s) (hsteady : Steady t) (hgarbage : Garbage t s.gc s.dropped)
    (hs : Worker.step s.sched (.switch w) = some t) (hpc : s.sched.pc w = .returned tk)
    (hdone : (s.sched.tasks tk)._state = .done) : Inv ({ s with sched := t }.incrementRef tk) := by
  obtain ⟨hcreated, hwakers, hgcc⟩ := Worker.step_rest hs
  have hrunnable : (s.sched.pc w).m_runnable = some tk := by rw [hpc, Pc.m_runnable]
  have hgcc' : t.m_gccQueue =
      Function.update s.sched.m_gccQueue w (s.sched.m_gccQueue w ++ [tk]) := by
    rw [hgcc]
    simp [Worker.gccAfter, hpc, hdone]
  refine h.push hsteady hgarbage hcreated hwakers hrunnable ?_ ?_
  · rintro (hin | hin)
    · exact h.steady.resting tk (.inl hin) hdone
    · exact (h.running hrunnable).2 hin
  · intro b
    have hstored : Stored t.queue b ↔ Stored s.sched.queue b := by
      rw [Worker.step_stored h.steady.sound hs]
      simp
    show Stored t.queue b ∨ Stored (trash t s.gc) b ↔ _
    rw [hstored, stored_push hgcc', ← or_assoc]
    rfl

/-- A waker has read the worker of the task: it goes on with its `incursivePtr`.
SOURCE: operation/worker.cc:131-141 -/
theorem Inv.wakeup {wrk id : ℕ} (h : Inv s) (hsteady : Steady t)
    (hgarbage : Garbage t s.gc s.dropped)
    (hs : Worker.step s.sched (.wakeup tk id) = some t) (hptr : tk ∈ s.ptrs)
    (hwrk : (s.sched.tasks tk)._lpWorker = some wrk) :
    Inv { s with sched := t, ptrs := s.ptrs.erase tk } := by
  obtain ⟨hcreated, hwakers, hgcc⟩ := Worker.step_rest hs
  have hwakers' : t.wakers = ⟨wrk, tk, id⟩ :: s.sched.wakers := by
    rw [hwakers]
    simp [Worker.wakersAfter, hwrk]
  have hcreated' : t.created = s.sched.created := hcreated
  have hholders : ∀ b, State.holders { s with sched := t, ptrs := s.ptrs.erase tk } b =
      s.holders b := by
    intro b
    have hsome : 0 < s.ptrs.count tk := List.count_pos_iff.mpr hptr
    show (s.ptrs.erase tk).count b + (t.wakers.map Waker.tk).count b = _
    rw [hwakers', List.map_cons, State.holders]
    by_cases hne : b = tk
    · subst hne
      rw [List.count_erase_self, List.count_cons_self]
      omega
    · rw [List.count_erase_of_ne hne, List.count_cons_of_ne (Ne.symm hne)]
  refine ⟨hsteady, hgarbage, ?_, ?_⟩
  · intro b hb
    show b < t.created
    rw [hcreated']
    exact h.ptrs b (List.mem_of_mem_erase hb)
  · show s.refs.Settled (· < t.created) _
    rw [hcreated']
    refine h.refs.congr fun b => owed_congr rfl (listed_congr ?_ hgcc rfl) (hholders b)
    rw [Worker.step_stored h.steady.sound hs]
    simp

/-- A waker is through: a task that it has woken has left its wait queue for its runnable queue.
SOURCE: operation/worker.cc:143-166 -/
theorem Inv.wakeupBySelf {k : Waker} (h : Inv s) (hsteady : Steady t)
    (hgarbage : Garbage t s.gc s.dropped)
    (hs : Worker.step s.sched (.wakeupBySelf k) = some t) :
    Inv { s with sched := t, ptrs := k.tk :: s.ptrs } ∧
      (k.id = (s.sched.tasks k.tk)._supperId →
        Inv (({ s with sched := t, ptrs := k.tk :: s.ptrs }.decrementRef k.tk).incrementRef
          k.tk)) := by
  obtain ⟨hcreated, hwakers, hgcc⟩ := Worker.step_rest hs
  have hwakers' : t.wakers = s.sched.wakers.erase k := hwakers
  have hcreated' : t.created = s.sched.created := hcreated
  obtain ⟨hk, -⟩ := Worker.step_wakeupBySelf.mp hs
  have hknown := (h.steady.sound.entries _ _ (h.steady.sound.wakers k hk).issued).known
  have hholders : ∀ b, State.holders { s with sched := t, ptrs := k.tk :: s.ptrs } b =
      s.holders b := by
    intro b
    have hperm : (s.sched.wakers.map Waker.tk).Perm
        (k.tk :: (s.sched.wakers.erase k).map Waker.tk) :=
      (List.perm_cons_erase hk).map Waker.tk
    show (k.tk :: s.ptrs).count b + (t.wakers.map Waker.tk).count b = _
    rw [hwakers', State.holders, hperm.count_eq]
    simp only [List.count_cons]
    omega
  have howed : ∀ b, owed { s with sched := t, ptrs := k.tk :: s.ptrs } b = owed s b := by
    intro b
    refine owed_congr rfl (listed_congr ?_ hgcc rfl) (hholders b)
    rw [Worker.step_stored h.steady.sound hs]
    simp
  have hptrs : ∀ b ∈ k.tk :: s.ptrs, b < t.created := by
    rw [hcreated']
    exact List.forall_mem_cons.mpr ⟨hknown, h.ptrs⟩
  have hrefs : s.refs.Settled (· < t.created) (owed { s with
      sched := t, ptrs := k.tk :: s.ptrs }) := by
    rw [hcreated']
    exact h.refs.congr howed
  refine ⟨⟨hsteady, hgarbage, hptrs, hrefs⟩, fun hid => ⟨hsteady, hgarbage, hptrs, ?_⟩⟩
  -- the list's reference is given up and taken again; the task's own is there all along
  obtain ⟨-, hwait⟩ := h.steady.sound.waits hk hid
  refine hrefs.decr_incr (hcreated' ▸ hknown) ?_
  have hstored : Stored s.sched.queue k.tk := ⟨_, hwait⟩
  have hlisted := owed_of_listed (.inl hstored)
  rw [(h.queued hstored).1] at hlisted
  rw [howed]
  omega

/-- **Each step of a worker, a waker or the dispatcher.** -/
theorem Inv.sched (h : Inv s) (hc : Kept s.sched e) (hs : Worker.step s.sched e = some t)
    (hcount : counted s t e = some s') : Inv s' := by
  have hsteady := Worker.step_steady h.steady hc hs
  have hgarbage := h.garbage.step h.steady hs
  cases counted_counts h.steady.sound hs hcount with
  | createTask => exact h.createTask hsteady hgarbage hs
  | pop hpc => exact h.pop hsteady hgarbage hs hpc
  | suspend hpc hstate => exact h.suspend hsteady hgarbage hs hpc hstate
  | switch hpc hdone => exact h.switch hsteady hgarbage hs hpc hdone
  | wakeup hptr hwrk => exact h.wakeup hsteady hgarbage hs hptr hwrk
  | stale => exact (h.wakeupBySelf hsteady hgarbage hs).1
  | woken hid => exact (h.wakeupBySelf hsteady hgarbage hs).2 hid
  | quiet hcreated hwakers hgcc hstored =>
    exact h.quiet hsteady hgarbage hcreated hwakers hgcc hstored

/-! ## The steps of the `incursivePtr`s and of `gc` -/

/-- The references that there are keep a task alive. -/
theorem Inv.count_eq_zero (h : Inv s) (hknown : tk < s.sched.created) :
    s.refs.count tk = 0 ↔ owed s tk = 0 := by
  rw [h.refs.count tk hknown]
  exact Int.natCast_eq_zero

/-- The lock of a weak pointer keeps the count.
SOURCE: operation/worker.cc:131-141 -/
theorem Inv.lock (h : Inv s) (hs : step s (.lock tk) = some s') : Inv s' := by
  obtain ⟨⟨id, hissued⟩, ⟨-, rfl⟩ | ⟨hsome, rfl⟩⟩ := step_lock.mp hs
  · exact h
  · have hknown := (h.steady.sound.entries tk id hissued).known
    have howed : owed s tk ≠ 0 := fun hzero => hsome ((h.count_eq_zero hknown).mpr hzero)
    have hholders : ∀ b, State.holders { s.incrementRef tk with ptrs := tk :: s.ptrs } b =
        s.holders b + if b = tk then 1 else 0 := by
      intro b
      show (tk :: s.ptrs).count b + (s.sched.wakers.map Waker.tk).count b = _
      rw [List.count_cons, State.holders, Nat.add_right_comm]
      simp [eq_comm (a := b)]
    refine ⟨h.steady, h.garbage, List.forall_mem_cons.mpr ⟨hknown, h.ptrs⟩, ?_⟩
    refine h.refs.incr hknown (Nat.pos_of_ne_zero howed) ?_ ?_
    · have hadd : owed { s.incrementRef tk with ptrs := tk :: s.ptrs } tk + s.holders tk =
          owed s tk + State.holders { s.incrementRef tk with ptrs := tk :: s.ptrs } tk :=
        owed_add rfl Iff.rfl
      rw [hholders, if_pos rfl] at hadd
      omega
    · intro b hne
      refine owed_congr rfl Iff.rfl ?_
      rw [hholders, if_neg hne, Nat.add_zero]

/-- So does a pointer's reset.
SOURCE: operation/worker.cc:131-141 -/
theorem Inv.reset (h : Inv s) (hs : step s (.reset tk) = some s') : Inv s' := by
  obtain ⟨hptr, rfl⟩ := step_reset.mp hs
  have hsome : 0 < s.ptrs.count tk := List.count_pos_iff.mpr hptr
  have hself : s.holders tk =
      State.holders { s.decrementRef tk with ptrs := s.ptrs.erase tk } tk + 1 := by
    show s.ptrs.count tk + (s.sched.wakers.map Waker.tk).count tk =
      (s.ptrs.erase tk).count tk + (s.sched.wakers.map Waker.tk).count tk + 1
    rw [List.count_erase_self]
    omega
  refine ⟨h.steady, h.garbage, fun b hb => h.ptrs b (List.mem_of_mem_erase hb), ?_⟩
  refine h.refs.decr (h.ptrs tk hptr) ?_ ?_
  · have hadd : owed { s.decrementRef tk with ptrs := s.ptrs.erase tk } tk + s.holders tk =
        owed s tk + State.holders { s.decrementRef tk with ptrs := s.ptrs.erase tk } tk :=
      owed_add rfl Iff.rfl
    omega
  · intro b hne
    refine owed_congr rfl Iff.rfl ?_
    show (s.ptrs.erase tk).count b + (s.sched.wakers.map Waker.tk).count b = s.holders b
    rw [List.count_erase_of_ne hne]
    rfl

/-- So does the collector that takes its list.
SOURCE: operation/worker.cc:170-176 -/
theorem Inv.gcTake (h : Inv s) (hs : step s (.gcTake w) = some s') : Inv s' := by
  obtain ⟨tk, -, ⟨-, -, hempty⟩, rfl⟩ := step_gcTake.mp hs
  obtain ⟨hstored, hgarbage⟩ := h.garbage.gcTake hempty
  refine ⟨h.steady.frame _, hgarbage, h.ptrs, ?_⟩
  exact h.refs.congr fun b => owed_congr rfl (or_congr Iff.rfl (hstored b)) rfl

/-- So do the references that it drops.
SOURCE: operation/worker.cc:170-176 -/
theorem Inv.gcDrop (h : Inv s) (hs : step s (.gcDrop w) = some s') : Inv s' := by
  obtain ⟨tk, todo, htodo, rfl⟩ := step_gcDrop.mp hs
  obtain ⟨hfresh, hstored, htrash, hgarbage⟩ := h.garbage.gcDrop htodo
  have hknown := (h.garbage.ended tk (.inl hstored)).known
  refine ⟨h.steady, hgarbage, h.ptrs, ?_⟩
  refine h.refs.decr hknown ?_ ?_
  · have hlisted : Listed s tk := .inr hstored
    rw [owed_of_listed hlisted, owed_of_listed (.inr (htrash ▸ hstored))]
    simp only [State.own, State.holders, State.decrementRef, hfresh, if_false, List.mem_cons_self,
      if_true]
    omega
  · intro b hne
    refine owed_congr ?_ (or_congr Iff.rfl ?_) rfl
    · simp [State.own, hne]
    · show Stored (trash s.sched _) b ↔ _
      rw [htrash]

/-- So does the removal from the list.
SOURCE: operation/worker.cc:170-176 -/
theorem Inv.gcErase (h : Inv s) (hs : step s (.gcErase w) = some s') : Inv s' := by
  obtain ⟨tk, l, hgc, rfl⟩ := step_gcErase.mp hs
  obtain ⟨-, hold, hstored, hgarbage⟩ := h.garbage.gcErase hgc
  have hended := h.garbage.ended tk (.inl hold)
  refine ⟨h.steady, hgarbage, h.ptrs, ?_⟩
  refine h.refs.decr hended.known ?_ ?_
  · have hnot : ¬ Listed { s.decrementRef tk with gc := Function.update s.gc w ⟨l, []⟩ } tk := by
      rintro (hin | hin)
      · exact hended.not_stored h.steady hin
      · exact ((hstored tk).mp hin).2 rfl
    rw [owed_of_listed (.inr hold), owed_of_not_listed hnot, Nat.add_right_comm]
    rfl
  · intro b hne
    refine owed_congr rfl (or_congr Iff.rfl ?_) rfl
    exact (hstored b).trans (and_iff_left hne)

/-! ## Runs -/

/-- **Each step** that takes no task from under its worker. -/
theorem step_inv {e : Event} (h : Inv s) (hc : Cond s e) (hs : step s e = some s') : Inv s' := by
  cases e with
  | sched e =>
    obtain ⟨t, ht, hcount⟩ := step_sched.mp hs
    exact h.sched hc ht hcount
  | lock tk => exact h.lock hs
  | reset tk => exact h.reset hs
  | gcTake w => exact h.gcTake hs
  | gcDrop w => exact h.gcDrop hs
  | gcErase w => exact h.gcErase hs

/-- At the start there are no references. -/
theorem inv_of_starts (h : Starts s) : Inv s := by
  have hcreated : s.sched.created = 0 := h.sched.created
  have htrash : ∀ p, trash s.sched s.gc p = [] := by
    intro p
    cases p with
    | m_gccQueue w => exact h.m_gccQueue w
    | gc w => simp [trash, h.gc w]
  refine ⟨Worker.steady_of_starts h.sched, ⟨exclusive_of_empty htrash, ?_, ?_, ?_, ?_, ?_⟩, ?_, ?_⟩
  · rintro tk (⟨p, hp⟩ | hdropped)
    · simp [htrash p] at hp
    · simp [h.dropped] at hdropped
  · intro w
    simp [h.gc w]
  · intro w tk hmem
    simp [h.m_gccQueue w] at hmem
  · intro w tk hmem
    simp [h.gc w] at hmem
  · intro tk hlt
    omega
  · intro tk hmem
    simp [h.ptrs] at hmem
  · refine ⟨fun tk hlt => ?_, fun tk hmem => ?_, fun tk hlt => ?_, fun tk hlt => ?_⟩
    · omega
    · simp [h.deleted] at hmem
    · omega
    · omega

/-- Every run whose steps meet the condition keeps the counts. -/
theorem inv_of_via (h : system.Via Cond s) : Inv s :=
  h.invariant (fun _ => inv_of_starts) fun _ _ _ => step_inv

/-! ## The counts -/

/-- A task that is listed is in one of the lists. -/
theorem listed_iff : Listed s tk ↔ ∃ b, tk ∈ s.lists b := by
  constructor
  · rintro (⟨p, hp⟩ | ⟨p, hp⟩)
    · exact ⟨.queue p, hp⟩
    · exact ⟨.trash p, hp⟩
  · rintro ⟨b, hb⟩
    cases b with
    | queue p => exact .inl ⟨p, hb⟩
    | trash p => exact .inr ⟨p, hb⟩

/-- A task stands in one list at most. -/
theorem Inv.unique (h : Inv s) {b b' : Box} (hb : tk ∈ s.lists b) (hb' : tk ∈ s.lists b') :
    b = b' := by
  cases b with
  | queue p =>
    cases b' with
    | queue p' => exact congrArg Box.queue (h.steady.sound.queue.unique hb hb')
    | trash p' => exact ((h.queued ⟨p, hb⟩).2 ⟨p', hb'⟩).elim
  | trash p =>
    cases b' with
    | queue p' => exact ((h.queued ⟨p', hb'⟩).2 ⟨p, hb⟩).elim
    | trash p' => exact congrArg Box.trash (h.garbage.lists.unique hb hb')

/-- A task is owed its own reference, one for every list and one for every holder. -/
theorem Inv.owed_eq (h : Inv s) (tk : ℕ) :
    owed s tk = s.own tk + Set.ncard {b | tk ∈ s.lists b} + s.holders tk := by
  by_cases hlisted : Listed s tk
  · obtain ⟨b, hb⟩ := listed_iff.mp hlisted
    have hone : {b | tk ∈ s.lists b} = {b} := by
      ext b'
      constructor
      · intro hb'
        exact h.unique hb' hb
      · rintro rfl
        exact hb
    rw [owed_of_listed hlisted, hone, Set.ncard_singleton]
  · have hnone : {b | tk ∈ s.lists b} = ∅ :=
      Set.eq_empty_of_forall_notMem fun b hb => hlisted (listed_iff.mpr ⟨b, hb⟩)
    rw [owed_of_not_listed hlisted, hnone, Set.ncard_empty, Nat.add_zero]

/-- The counts are those that the holders make up. -/
theorem Inv.counted (h : Inv s) : Counted s := by
  have hown : ∀ {tk}, s.own tk = 0 → tk ∈ s.dropped := by
    intro tk hzero
    by_contra hnot
    rw [State.own, if_neg hnot] at hzero
    cases hzero
  refine ⟨?_, ?_, h.refs.nodup, ?_⟩
  · intro tk hknown _
    rw [h.refs.count tk hknown, h.owed_eq]
    push_cast
    rfl
  · intro tk hdeleted
    have hzero := (h.refs.mem_deleted (h.refs.known tk hdeleted)).mp hdeleted
    have hnot : ¬ Listed s tk := by
      intro hlisted
      rw [owed_of_listed hlisted] at hzero
      omega
    rw [owed_of_not_listed hnot] at hzero
    have hended := h.garbage.ended tk (.inr (hown (by omega)))
    exact ⟨hended.done, fun b hb => hnot (listed_iff.mpr ⟨b, hb⟩), hended.left, by omega⟩
  · intro tk hknown hdone
    rcases h.garbage.finished tk hknown hdone with hpc | hstored | hdropped
    · exact .inr (.inl hpc)
    · exact .inr (.inr (.inl (listed_iff.mp (.inr hstored))))
    · by_cases hlisted : Listed s tk
      · exact .inr (.inr (.inl (listed_iff.mp hlisted)))
      · by_cases hholders : 0 < s.holders tk
        · exact .inr (.inr (.inr hholders))
        · left
          have hzero : s.own tk = 0 := if_pos hdropped
          rw [h.refs.mem_deleted hknown, owed_of_not_listed hlisted]
          omega

/-- A worker, a waker and the dispatcher delete nothing: a list gives up its reference only to a
worker that has the task, or to another list. -/
theorem Inv.sched_deleted (h : Inv s) (hs : Worker.step s.sched e = some t)
    (hcount : TaskLife.counted s t e = some s') : s'.refs.deleted = s.refs.deleted := by
  have hkept : ∀ {tk}, Stored s.sched.queue tk → (s.refs.decr tk).deleted = s.refs.deleted := by
    intro tk hstored
    have howed := owed_of_listed (.inl hstored)
    rw [(h.queued hstored).1] at howed
    exact h.refs.decr_deleted (h.steady.sound.stored tk hstored) (by omega)
  cases counted_counts h.steady.sound hs hcount with
  | pop hpc =>
    obtain ⟨htop, -⟩ := Worker.step_pop.mp hs
    rcases Worker.step_popped hs hpc with hold | ⟨-, hmem⟩
    · rw [htop] at hold
      cases hold
    · exact hkept ⟨_, hmem⟩
  | woken hid =>
    obtain ⟨hk, -⟩ := Worker.step_wakeupBySelf.mp hs
    obtain ⟨-, hwait⟩ := h.steady.sound.waits hk hid
    exact hkept ⟨_, hwait⟩
  | createTask | suspend | switch | wakeup | stale | quiet => rfl

/-- What the steps delete. -/
theorem Inv.deletes {e : Event} (h : Inv s) (hs : step s e = some s') : Deletes s e s' := by
  cases e with
  | sched e =>
    obtain ⟨t, ht, hcount⟩ := step_sched.mp hs
    exact .inl (h.sched_deleted ht hcount)
  | lock tk =>
    left
    obtain ⟨-, ⟨-, rfl⟩ | ⟨-, rfl⟩⟩ := step_lock.mp hs
    · rfl
    · rfl
  | reset tk =>
    obtain ⟨hptr, rfl⟩ := step_reset.mp hs
    rcases s.refs.decr_deleted tk with hsame | ⟨hone, hdeleted⟩
    · exact .inl hsame
    · refine .inr ⟨tk, hdeleted, ?_, .inr rfl⟩
      -- the last reference was this one
      have hsome : 0 < s.ptrs.count tk := List.count_pos_iff.mpr hptr
      have hcount := h.refs.count tk (h.ptrs tk hptr)
      have howed := h.owed_eq tk
      rw [State.holders] at howed
      by_contra hnot
      have hown : s.own tk = 1 := if_neg hnot
      omega
  | gcTake w =>
    left
    obtain ⟨tk, -, -, rfl⟩ := step_gcTake.mp hs
    rfl
  | gcDrop w =>
    left
    obtain ⟨tk, todo, htodo, rfl⟩ := step_gcDrop.mp hs
    obtain ⟨hfresh, hstored, -, -⟩ := h.garbage.gcDrop htodo
    have howed := owed_of_listed (.inr hstored)
    have hown : s.own tk = 1 := if_neg hfresh
    exact h.refs.decr_deleted (h.garbage.ended tk (.inl hstored)).known (by omega)
  | gcErase w =>
    obtain ⟨tk, l, hgc, rfl⟩ := step_gcErase.mp hs
    rcases s.refs.decr_deleted tk with hsame | ⟨-, hdeleted⟩
    · exact .inl hsame
    · exact .inr ⟨tk, hdeleted, (h.garbage.gcErase hgc).1, .inl ⟨w, rfl⟩⟩

end MagicNet.TaskLife
