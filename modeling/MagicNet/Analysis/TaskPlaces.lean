import MagicNet.Model.Worker

/-!
# Where a task can stand

A task stands in one place at most, and one that stands in a list, or has been popped and not
switched to, does not run: it cannot suspend itself or come to its end.  The entry that `suspend`
has given out is current only while the task waits, so a waker with a current entry finds the task
where it looks.  This holds in every run, also in one in which tasks are lost or run on two
workers.
-/

set_option autoImplicit false

namespace MagicNet.Worker

open MagicNet.Foundation

variable {s s' : State} {w w' tk : ℕ}

/-! ## Entries and wakers -/

/-- The last entry given out for a task is current only while the task waits. -/
structure EntryOk (s : State) (tk id : ℕ) : Prop where
  known : tk < s.created
  le : id ≤ (s.tasks tk)._supperId
  waits : id = (s.tasks tk)._supperId →
    ∃ w, (s.tasks tk)._lpWorker = some w ∧ tk ∈ s.queue (.m_waitQueue w)

/-- A waker goes to the worker the task waits at, if its entry is current. -/
structure WakerOk (s : State) (k : Waker) : Prop where
  issued : (k.tk, k.id) ∈ s.issued
  worker : k.id = (s.tasks k.tk)._supperId → (s.tasks k.tk)._lpWorker = some k.wrk

section Transfer

variable {t : State} {id : ℕ} {k : Waker}

/-- An entry stays in order while its task's record is as it was and the task waits where it
did. -/
theorem EntryOk.transfer (h : EntryOk s tk id) (hcreated : s.created ≤ t.created)
    (htask : t.tasks tk = s.tasks tk)
    (hwait : ∀ w, tk ∈ s.queue (.m_waitQueue w) → tk ∈ t.queue (.m_waitQueue w)) :
    EntryOk t tk id := by
  obtain ⟨hknown, hle, hcurrent⟩ := h
  rw [← htask] at hle hcurrent
  refine ⟨hknown.trans_le hcreated, hle, fun heq => ?_⟩
  obtain ⟨w, hw, hmem⟩ := hcurrent heq
  exact ⟨w, hw, hwait w hmem⟩

/-- The entry of an earlier suspension is in order. -/
theorem EntryOk.of_lt (hknown : tk < s.created) (hlt : id < (s.tasks tk)._supperId) :
    EntryOk s tk id := ⟨hknown, hlt.le, fun heq => absurd heq hlt.ne⟩

/-- The entries of a task that stands nowhere are not current. -/
theorem EntryOk.lt_of_not_stored (h : EntryOk s tk id) (hnone : ¬ Stored s.queue tk) :
    id < (s.tasks tk)._supperId := by
  apply lt_of_le_of_ne h.le
  intro heq
  obtain ⟨w, -, hmem⟩ := h.waits heq
  exact hnone ⟨_, hmem⟩

/-- So is a waker, where its task is as before. -/
theorem WakerOk.transfer (h : WakerOk s k) (htask : t.tasks k.tk = s.tasks k.tk)
    (hissued : ∀ e ∈ s.issued, e ∈ t.issued) : WakerOk t k := by
  constructor
  · exact hissued _ h.issued
  · rw [htask]
    exact h.worker

/-- The step changes the record of `tk` only, and no entry given out for `tk` before is current
after it. -/
structure Retires (s t : State) (tk : ℕ) : Prop where
  created : s.created ≤ t.created
  other : ∀ tk', tk' ≠ tk → t.tasks tk' = s.tasks tk'
  stale : ∀ id, (tk, id) ∈ s.issued → id < (t.tasks tk)._supperId

/-- The task that goes on takes no other task's entry with it. -/
theorem Retires.entries (hr : Retires s t tk)
    (h : ∀ tk id, (tk, id) ∈ s.issued → EntryOk s tk id)
    (hwait : ∀ tk' w, tk' ≠ tk → tk' ∈ s.queue (.m_waitQueue w) →
      tk' ∈ t.queue (.m_waitQueue w)) :
    ∀ tk' id, (tk', id) ∈ s.issued → EntryOk t tk' id := by
  intro tk' id hid
  have hold := h tk' id hid
  by_cases hne : tk' = tk
  · subst hne
    exact .of_lt (hold.known.trans_le hr.created) (hr.stale id hid)
  · exact hold.transfer hr.created (hr.other tk' hne) fun w => hwait tk' w hne

/-- Nor a waker. -/
theorem Retires.wakers (hr : Retires s t tk) (h : ∀ k ∈ s.wakers, WakerOk s k)
    (hissued : ∀ e ∈ s.issued, e ∈ t.issued) : ∀ k ∈ s.wakers, WakerOk t k := by
  intro k hk
  have hold := h k hk
  by_cases hne : k.tk = tk
  · refine ⟨hissued _ hold.issued, fun heq => ?_⟩
    have hlt := hr.stale k.id (hne ▸ hold.issued)
    rw [← hne, heq] at hlt
    exact absurd hlt (Nat.lt_irrefl _)
  · exact hold.transfer (hr.other k.tk hne) hissued

end Transfer

/-! ## Steps of one worker -/

@[simp] theorem setPc_self (pc : Pc) : (s.setPc w pc).pc w = pc := Function.update_self _ _ _

/-- The others stay where they are. -/
theorem setPc_of_ne {pc : Pc} (hw : w' ≠ w) : (s.setPc w pc).pc w' = s.pc w' :=
  Function.update_of_ne hw _ _

/-- A worker that holds no task after the step is another one. -/
theorem pc_of_holds {pc : Pc} (hnew : ∀ tk, ¬ pc.Holds tk)
    (hholds : ((s.setPc w pc).pc w').Holds tk) : w' ≠ w ∧ (s.setPc w pc).pc w' = s.pc w' := by
  by_cases hw : w' = w
  · subst hw
    rw [setPc_self] at hholds
    exact absurd hholds (hnew tk)
  · exact ⟨hw, setPc_of_ne hw⟩

/-! ## The invariant -/

/-- A task that stands in a list or has just been popped is not about to suspend itself; the
entries and the wakers are in order. -/
structure Sound (s : State) : Prop where
  queue : Exclusive s.queue
  stored : ∀ tk, Stored s.queue tk → tk < s.created
  known : ∀ w tk, (s.pc w).Holds tk → tk < s.created
  popped : ∀ w tk, s.pc w = .popped tk → ¬ Stored s.queue tk
  alone : ∀ w w' tk, s.pc w = .popped tk → s.pc w' = .popped tk → w = w'
  owned : ∀ w tk, s.pc w = .executing tk → (s.tasks tk)._lpWorker ≠ none
  resting : ∀ tk, (Stored s.queue tk ∨ ∃ w, s.pc w = .popped tk) →
    (s.tasks tk)._lpWorker = none ∨ (s.tasks tk)._state ≠ .runnable
  entries : ∀ tk id, (tk, id) ∈ s.issued → EntryOk s tk id
  wakers : ∀ k ∈ s.wakers, WakerOk s k

/-- A task that can suspend itself stands nowhere and has not been popped. -/
theorem Sound.active (h : Sound s) (hpc : s.pc w = .executing tk)
    (hstate : (s.tasks tk)._state = .runnable) :
    ¬ Stored s.queue tk ∧ ∀ w', s.pc w' ≠ .popped tk := by
  have hnot : ¬ (Stored s.queue tk ∨ ∃ w', s.pc w' = .popped tk) := by
    intro hrest
    rcases h.resting tk hrest with hnone | hstate'
    · exact h.owned w tk hpc hnone
    · exact hstate' hstate
  rw [not_or, not_exists] at hnot
  exact hnot

/-- The invariant does not look at the garbage queues and the dispatcher's progress, and asks of
the wakers only that each is in order. -/
theorem Sound.frame {m_gccQueue : ℕ → List ℕ} {stealing : Option ℕ} {wakers : List Waker}
    (h : Sound s) (hw : ∀ k ∈ wakers, WakerOk s k) :
    Sound { s with m_gccQueue := m_gccQueue, stealing := stealing, wakers := wakers } := by
  refine ⟨h.queue, h.stored, h.known, h.popped, h.alone, h.owned, h.resting, ?_, ?_⟩
  · intro tk id hid
    exact (h.entries tk id hid).transfer le_rfl rfl fun _ hmem => hmem
  · intro k hk
    exact (hw k hk).transfer rfl fun _ he => he

/-! ## Steps that suspend and wake nothing -/

/-- A move out of a list that is no wait queue. -/
theorem Sound.move {p p' : Place} {moved rest : List ℕ} (h : Sound s) (hne : p ≠ p')
    (hperm : (s.queue p).Perm (moved ++ rest)) (hwait : ∀ w, p ≠ .m_waitQueue w) :
    Sound (s.move p p' moved rest) := by
  have hstored : ∀ tk, Stored (s.move p p' moved rest).queue tk ↔ Stored s.queue tk :=
    fun tk => h.queue.stored_move hne hperm
  refine ⟨h.queue.move hne hperm, ?_, h.known, ?_, h.alone, h.owned, ?_, ?_, ?_⟩
  · intro tk htk
    exact h.stored tk ((hstored tk).mp htk)
  · intro w tk hpc htk
    exact h.popped w tk hpc ((hstored tk).mp htk)
  · intro tk hrest
    exact h.resting tk (hrest.imp_left (hstored tk).mp)
  · intro tk id hid
    refine (h.entries tk id hid).transfer le_rfl rfl fun w hmem => ?_
    refine (h.queue.mem_move hne hperm).mpr (.inr ⟨fun hmoved => ?_, hmem⟩)
    have hp := hperm.mem_iff.mpr (List.mem_append_left _ hmoved)
    exact hwait w (h.queue.unique hp hmem)
  · intro k hk
    exact (h.wakers k hk).transfer rfl fun _ he => he

/-- All tasks of a place in another, where none of them waits. -/
theorem Sound.moveAll {p p' : Place} (h : Sound s) (hne : p ≠ p')
    (hwait : ∀ w, p ≠ .m_waitQueue w) : Sound (s.moveAll p p') := by
  apply h.move hne _ hwait
  rw [List.append_nil]

/-- A worker goes on to a place at which it holds no task. -/
theorem Sound.setPc {pc : Pc} (h : Sound s) (hnew : ∀ tk, ¬ pc.Holds tk) :
    Sound (s.setPc w pc) := by
  have hback : ∀ {w' tk}, ((s.setPc w pc).pc w').Holds tk → (s.setPc w pc).pc w' = s.pc w' :=
    fun hholds => (pc_of_holds hnew hholds).2
  refine ⟨h.queue, h.stored, ?_, ?_, ?_, ?_, ?_, ?_, ?_⟩
  · intro w' tk hholds
    exact h.known w' tk (hback hholds ▸ hholds)
  · intro w' tk hpc
    exact h.popped w' tk ((hback (.inl hpc)).symm.trans hpc)
  · intro w₁ w₂ tk h₁ h₂
    exact h.alone w₁ w₂ tk ((hback (.inl h₁)).symm.trans h₁) ((hback (.inl h₂)).symm.trans h₂)
  · intro w' tk hpc
    exact h.owned w' tk ((hback (.inr hpc)).symm.trans hpc)
  · rintro tk (hstored | ⟨w', hpc⟩)
    · exact h.resting tk (.inl hstored)
    · exact h.resting tk (.inr ⟨w', (hback (.inl hpc)).symm.trans hpc⟩)
  · intro tk id hid
    exact (h.entries tk id hid).transfer le_rfl rfl fun _ hmem => hmem
  · intro k hk
    exact (h.wakers k hk).transfer rfl fun _ he => he

/-- The worker takes a task from the front of its runnable queue.
SOURCE: operation/worker.cc:178-215 -/
theorem Sound.pop {rest : List ℕ} (h : Sound s) (hq : s.queue (.m_runnableQueue w) = tk :: rest) :
    Sound { s.setPc w (.popped tk) with
      queue := Function.update s.queue (.m_runnableQueue w) rest } := by
  have hperm : (s.queue (.m_runnableQueue w)).Perm (tk :: rest) := by rw [hq]
  have hmem : tk ∈ s.queue (.m_runnableQueue w) := hq ▸ List.mem_cons_self
  have hstored : Stored s.queue tk := ⟨_, hmem⟩
  have hback : ∀ {tk'}, Stored (Function.update s.queue (.m_runnableQueue w) rest) tk' →
      Stored s.queue tk' := fun hin => ((h.queue.stored_take hperm).mp hin).1
  have hpopped : ∀ {w' tk'}, (s.setPc w (.popped tk)).pc w' = .popped tk' →
      w' = w ∧ tk' = tk ∨ s.pc w' = .popped tk' := by
    intro w' tk' hpc
    by_cases hw : w' = w
    · subst hw
      rw [setPc_self] at hpc
      exact .inl ⟨rfl, (Pc.popped.inj hpc).symm⟩
    · exact .inr ((setPc_of_ne hw).symm.trans hpc)
  have hrunning : ∀ {w' tk'}, (s.setPc w (.popped tk)).pc w' = .executing tk' →
      s.pc w' = .executing tk' := by
    intro w' tk' hpc
    by_cases hw : w' = w
    · subst hw
      rw [setPc_self] at hpc
      cases hpc
    · exact (setPc_of_ne hw).symm.trans hpc
  refine ⟨h.queue.take hperm, ?_, ?_, ?_, ?_, ?_, ?_, ?_, ?_⟩
  · intro tk' htk
    exact h.stored tk' (hback htk)
  · rintro w' tk' (hpc | hpc)
    · rcases hpopped hpc with ⟨-, rfl⟩ | hold
      · exact h.stored _ hstored
      · exact h.known w' tk' (.inl hold)
    · exact h.known w' tk' (.inr (hrunning hpc))
  · intro w' tk' hpc hin
    rcases hpopped hpc with ⟨-, rfl⟩ | hold
    · exact ((h.queue.stored_take hperm).mp hin).2 rfl
    · exact h.popped w' tk' hold (hback hin)
  · intro w₁ w₂ tk' h₁ h₂
    rcases hpopped h₁ with ⟨rfl, rfl⟩ | hold₁ <;> rcases hpopped h₂ with ⟨rfl, heq⟩ | hold₂
    · rfl
    · exact absurd hstored (h.popped w₂ _ hold₂)
    · exact absurd hstored (h.popped w₁ _ (heq ▸ hold₁))
    · exact h.alone w₁ w₂ tk' hold₁ hold₂
  · intro w' tk' hpc
    exact h.owned w' tk' (hrunning hpc)
  · rintro tk' (hin | ⟨w', hpc⟩)
    · exact h.resting tk' (.inl (hback hin))
    · rcases hpopped hpc with ⟨-, rfl⟩ | hold
      · exact h.resting _ (.inl hstored)
      · exact h.resting tk' (.inr ⟨w', hold⟩)
  · intro tk' id hid
    refine (h.entries tk' id hid).transfer le_rfl rfl fun w' hwait => ?_
    refine (h.queue.mem_take hperm).mpr ⟨hwait, ?_⟩
    rintro rfl
    cases h.queue.unique hwait hmem
  · intro k hk
    exact (h.wakers k hk).transfer rfl fun _ he => he

/-- The worker switches to the task it has popped.
SOURCE: operation/worker.cc:178-215 -/
theorem Sound.swapIn (h : Sound s) (hpc : s.pc w = .popped tk) :
    Sound ((s.setTask tk { s.tasks tk with _state := .runnable, _lpWorker := some w }).setPc w
      (.executing tk)) := by
  have hnone := h.popped w tk hpc
  have hr : Retires s
      ((s.setTask tk { s.tasks tk with _state := .runnable, _lpWorker := some w }).setPc w
        (.executing tk)) tk := by
    refine ⟨le_rfl, fun tk' hne => Function.update_of_ne hne _ _, fun id hid => ?_⟩
    simpa [State.setPc, State.setTask] using (h.entries tk id hid).lt_of_not_stored hnone
  have hpopped : ∀ {w' tk'}, ((s.setTask tk
      { s.tasks tk with _state := .runnable, _lpWorker := some w }).setPc w (.executing tk)).pc w' =
        .popped tk' → w' ≠ w ∧ s.pc w' = .popped tk' := by
    intro w' tk' hpc'
    by_cases hw : w' = w
    · subst hw
      rw [setPc_self] at hpc'
      cases hpc'
    · exact ⟨hw, (setPc_of_ne hw).symm.trans hpc'⟩
  refine ⟨h.queue, h.stored, ?_, ?_, ?_, ?_, ?_, ?_, ?_⟩
  · rintro w' tk' (hpc' | hpc')
    · exact h.known w' tk' (.inl (hpopped hpc').2)
    · by_cases hw : w' = w
      · subst hw
        rw [setPc_self] at hpc'
        cases hpc'
        exact h.known w' tk (.inl hpc)
      · exact h.known w' tk' (.inr ((setPc_of_ne hw).symm.trans hpc'))
  · intro w' tk' hpc'
    exact h.popped w' tk' (hpopped hpc').2
  · intro w₁ w₂ tk' h₁ h₂
    exact h.alone w₁ w₂ tk' (hpopped h₁).2 (hpopped h₂).2
  · intro w' tk' hpc'
    by_cases hne : tk' = tk
    · subst hne
      simp [State.setPc, State.setTask]
    · rw [hr.other tk' hne]
      have hw : w' ≠ w := by
        rintro rfl
        rw [setPc_self] at hpc'
        exact hne (Pc.executing.inj hpc').symm
      exact h.owned w' tk' ((setPc_of_ne hw).symm.trans hpc')
  · intro tk' hrest
    have hne : tk' ≠ tk := by
      rintro rfl
      rcases hrest with hin | ⟨w', hpc'⟩
      · exact hnone hin
      · exact (hpopped hpc').1 (h.alone w' w _ (hpopped hpc').2 hpc)
    rw [hr.other tk' hne]
    apply h.resting tk'
    rcases hrest with hin | ⟨w', hpc'⟩
    · exact .inl hin
    · exact .inr ⟨w', (hpopped hpc').2⟩
  · exact hr.entries h.entries fun _ _ _ hmem => hmem
  · exact hr.wakers h.wakers fun _ he => he

/-- The task the worker runs comes to its end.
SOURCE: operation/task.cc:17-31 -/
theorem Sound.finish (h : Sound s) (hpc : s.pc w = .executing tk)
    (hstate : (s.tasks tk)._state = .runnable) :
    Sound (s.setTask tk { s.tasks tk with _state := .done }) := by
  obtain ⟨hnone, -⟩ := h.active hpc hstate
  have hr : Retires s (s.setTask tk { s.tasks tk with _state := .done }) tk := by
    refine ⟨le_rfl, fun tk' hne => Function.update_of_ne hne _ _, fun id hid => ?_⟩
    simpa [State.setTask] using (h.entries tk id hid).lt_of_not_stored hnone
  refine ⟨h.queue, h.stored, h.known, h.popped, h.alone, ?_, ?_, ?_, ?_⟩
  · intro w' tk' hpc'
    by_cases hne : tk' = tk
    · subst hne
      simpa [State.setTask] using h.owned w' _ hpc'
    · rw [hr.other tk' hne]
      exact h.owned w' tk' hpc'
  · intro tk' hrest
    by_cases hne : tk' = tk
    · subst hne
      simp [State.setTask]
    · rw [hr.other tk' hne]
      exact h.resting tk' hrest
  · exact hr.entries h.entries fun _ _ _ hmem => hmem
  · exact hr.wakers h.wakers fun _ he => he

/-- A new task is runnable.
SOURCE: operation/scheduler.cc:69-76 -/
theorem Sound.createTask (h : Sound s) :
    Sound { (s.setTask s.created ⟨.runnable, 0, none⟩).push (.m_newQueue w) s.created with
      created := s.created + 1 } := by
  have hnone : ¬ Stored s.queue s.created := fun hstored => Nat.lt_irrefl _ (h.stored _ hstored)
  have hother : ∀ {tk'}, tk' < s.created →
      Function.update s.tasks s.created ⟨.runnable, 0, none⟩ tk' = s.tasks tk' :=
    fun hlt => Function.update_of_ne hlt.ne _ _
  have hback : ∀ {tk'}, Stored (Function.update s.queue (.m_newQueue w)
      (s.queue (.m_newQueue w) ++ [s.created])) tk' → Stored s.queue tk' ∨ tk' = s.created :=
    Exclusive.stored_put.mp
  refine ⟨h.queue.put hnone, ?_, ?_, ?_, h.alone, ?_, ?_, ?_, ?_⟩
  · intro tk' hstored
    rcases hback hstored with hold | rfl
    · exact (h.stored tk' hold).trans (Nat.lt_succ_self _)
    · exact Nat.lt_succ_self _
  · intro w' tk' hholds
    exact (h.known w' tk' hholds).trans (Nat.lt_succ_self _)
  · intro w' tk' hpc hstored
    rcases hback hstored with hold | rfl
    · exact h.popped w' tk' hpc hold
    · exact Nat.lt_irrefl _ (h.known w' _ (.inl hpc))
  · intro w' tk' hpc
    show (Function.update s.tasks s.created ⟨.runnable, 0, none⟩ tk')._lpWorker ≠ none
    rw [hother (h.known w' tk' (.inr hpc))]
    exact h.owned w' tk' hpc
  · intro tk' hrest
    show (Function.update s.tasks s.created ⟨.runnable, 0, none⟩ tk')._lpWorker = none ∨
      (Function.update s.tasks s.created ⟨.runnable, 0, none⟩ tk')._state ≠ .runnable
    by_cases hne : tk' = s.created
    · left
      rw [hne, Function.update_self]
    · rw [Function.update_of_ne hne]
      apply h.resting tk'
      rcases hrest with hin | hpc
      · exact .inl ((hback hin).resolve_right hne)
      · exact .inr hpc
  · intro tk' id hid
    have hold := h.entries tk' id hid
    have hkeep : ∀ {p}, tk' ∈ s.queue p → tk' ∈ Function.update s.queue (.m_newQueue w)
        (s.queue (.m_newQueue w) ++ [s.created]) p := fun hmem => Exclusive.mem_put.mpr (.inl hmem)
    exact hold.transfer (Nat.le_succ _) (hother hold.known) fun _ => hkeep
  · intro k hk
    have hold := h.wakers k hk
    exact hold.transfer (hother (h.entries _ _ hold.issued).known) fun _ he => he

/-! ## Suspending and waking -/

/-- The task the worker runs suspends itself: it goes to the wait queue of its `_lpWorker`.
SOURCE: operation/worker.cc:120-129 -/
theorem Sound.suspend {wrk : ℕ} (h : Sound s) (hpc : s.pc w = .executing tk)
    (hwrk : (s.tasks tk)._lpWorker = some wrk) (hstate : (s.tasks tk)._state = .runnable) :
    Sound { (s.setTask tk { s.tasks tk with
        _state := .block, _supperId := (s.tasks tk)._supperId + 1 }).push (.m_waitQueue wrk) tk with
      issued := (tk, (s.tasks tk)._supperId + 1) :: s.issued } := by
  obtain ⟨hnone, hunpopped⟩ := h.active hpc hstate
  have hself : tk ∈ Function.update s.queue (.m_waitQueue wrk)
      (s.queue (.m_waitQueue wrk) ++ [tk]) (.m_waitQueue wrk) :=
    Exclusive.mem_put.mpr (.inr ⟨rfl, rfl⟩)
  have hback : ∀ {tk'}, Stored (Function.update s.queue (.m_waitQueue wrk)
      (s.queue (.m_waitQueue wrk) ++ [tk])) tk' → Stored s.queue tk' ∨ tk' = tk :=
    Exclusive.stored_put.mp
  have hr : Retires s { (s.setTask tk { s.tasks tk with
        _state := .block, _supperId := (s.tasks tk)._supperId + 1 }).push (.m_waitQueue wrk) tk with
      issued := (tk, (s.tasks tk)._supperId + 1) :: s.issued } tk := by
    refine ⟨le_rfl, fun tk' hne => Function.update_of_ne hne _ _, fun id hid => ?_⟩
    have hle := (h.entries tk id hid).le
    simp only [State.push, State.setTask, Function.update_self]
    omega
  refine ⟨h.queue.put hnone, ?_, h.known, ?_, h.alone, ?_, ?_, ?_, ?_⟩
  · intro tk' hstored
    rcases hback hstored with hold | rfl
    · exact h.stored tk' hold
    · exact h.known w _ (.inr hpc)
  · intro w' tk' hpc' hstored
    rcases hback hstored with hold | rfl
    · exact h.popped w' tk' hpc' hold
    · exact hunpopped w' hpc'
  · intro w' tk' hpc'
    by_cases hne : tk' = tk
    · subst hne
      simp [State.push, State.setTask, hwrk]
    · rw [hr.other tk' hne]
      exact h.owned w' tk' hpc'
  · intro tk' hrest
    by_cases hne : tk' = tk
    · subst hne
      simp [State.push, State.setTask]
    · rw [hr.other tk' hne]
      apply h.resting tk'
      rcases hrest with hin | hpc'
      · exact .inl ((hback hin).resolve_right hne)
      · exact .inr hpc'
  · intro tk' id hid
    rcases List.mem_cons.mp hid with hnew | hold
    · -- the entry just given out
      cases hnew
      refine ⟨h.known w _ (.inr hpc), ?_, fun _ => ⟨wrk, ?_, hself⟩⟩
      · simp [State.push, State.setTask]
      · simpa [State.push, State.setTask] using hwrk
    · refine hr.entries h.entries (fun tk' _ hne hmem => ?_) tk' id hold
      exact Exclusive.mem_put.mpr (.inl hmem)
  · exact hr.wakers h.wakers fun _ he => List.mem_cons_of_mem _ he

/-- A waker whose entry is current finds the task in the wait queue of its worker. -/
theorem Sound.waits {k : Waker} (h : Sound s) (hk : k ∈ s.wakers)
    (hid : k.id = (s.tasks k.tk)._supperId) :
    (s.tasks k.tk)._lpWorker = some k.wrk ∧ k.tk ∈ s.queue (.m_waitQueue k.wrk) := by
  obtain ⟨hissued, hworker⟩ := h.wakers k hk
  obtain ⟨w, hw, hwait⟩ := (h.entries _ _ hissued).waits hid
  obtain rfl : k.wrk = w := Option.some.inj ((hworker hid).symm.trans hw)
  exact ⟨hw, hwait⟩

/-- A waker with a current entry moves the task from the wait queue to the runnable queue. -/
theorem Sound.wake {k : Waker} (h : Sound s) (hk : k ∈ s.wakers)
    (hid : k.id = (s.tasks k.tk)._supperId) :
    Sound ((s.setTask k.tk
      { s.tasks k.tk with _supperId := (s.tasks k.tk)._supperId + 1 }).move
        (.m_waitQueue k.wrk) (.m_runnableQueue k.wrk) [k.tk]
        ((s.queue (.m_waitQueue k.wrk)).erase k.tk)) := by
  obtain ⟨howns, hwait⟩ := h.waits hk hid
  have hne : Place.m_waitQueue k.wrk ≠ .m_runnableQueue k.wrk := by simp
  have hperm : (s.queue (.m_waitQueue k.wrk)).Perm
      ([k.tk] ++ (s.queue (.m_waitQueue k.wrk)).erase k.tk) := List.perm_cons_erase hwait
  have hstored : ∀ tk, Stored (moveTable s.queue (.m_waitQueue k.wrk) (.m_runnableQueue k.wrk)
      [k.tk] ((s.queue (.m_waitQueue k.wrk)).erase k.tk)) tk ↔ Stored s.queue tk :=
    fun tk => h.queue.stored_move hne hperm
  have hr : Retires s ((s.setTask k.tk
      { s.tasks k.tk with _supperId := (s.tasks k.tk)._supperId + 1 }).move
        (.m_waitQueue k.wrk) (.m_runnableQueue k.wrk) [k.tk]
        ((s.queue (.m_waitQueue k.wrk)).erase k.tk)) k.tk := by
    refine ⟨le_rfl, fun tk hnot => Function.update_of_ne hnot _ _, fun id hid' => ?_⟩
    have hle := (h.entries k.tk id hid').le
    simp only [State.move, State.setTask, Function.update_self]
    omega
  refine ⟨h.queue.move hne hperm, ?_, h.known, ?_, h.alone, ?_, ?_, ?_, ?_⟩
  · intro tk htk
    exact h.stored tk ((hstored tk).mp htk)
  · intro w tk hpc htk
    exact h.popped w tk hpc ((hstored tk).mp htk)
  · intro w tk hpc
    by_cases heq : tk = k.tk
    · subst heq
      simpa [State.move, State.setTask] using h.owned w _ hpc
    · rw [hr.other tk heq]
      exact h.owned w tk hpc
  · intro tk hrest
    have hold := h.resting tk (hrest.imp_left (hstored tk).mp)
    by_cases heq : tk = k.tk
    · subst heq
      simpa [State.move, State.setTask] using hold
    · rw [hr.other tk heq]
      exact hold
  · refine hr.entries h.entries fun tk w hnot hmem => ?_
    exact (h.queue.mem_move hne hperm).mpr (.inr ⟨by simpa using hnot, hmem⟩)
  · exact hr.wakers h.wakers fun _ he => he

/-! ## Runs -/

/-- **Each step**, whatever it is, keeps the invariant. -/
theorem step_sound {e : Event} (h : Sound s) (hs : step s e = some s') : Sound s' := by
  cases e with
  | createTask w =>
    rw [step_createTask.mp hs]
    exact h.createTask
  | pop w =>
    obtain ⟨-, ⟨-, rfl⟩ | ⟨tk, rest, hq, rfl⟩⟩ := step_pop.mp hs
    · exact h.setPc (by simp [Pc.Holds])
    · exact h.pop hq
  | swapIn w =>
    obtain ⟨tk, hpc, rfl⟩ := step_swapIn.mp hs
    exact h.swapIn hpc
  | suspend w =>
    obtain ⟨tk, wrk, hpc, hwrk, ⟨-, hstate⟩, rfl⟩ := step_suspend.mp hs
    exact h.suspend hpc hwrk hstate
  | finish w =>
    obtain ⟨tk, hpc, hstate, rfl⟩ := step_finish.mp hs
    exact h.finish hpc hstate
  | swapOut w =>
    obtain ⟨tk, -, rfl⟩ := step_swapOut.mp hs
    exact h.setPc (by simp [Pc.Holds])
  | switch w =>
    obtain ⟨tk, -, hcase⟩ := step_switch.mp hs
    have hforget : Sound (s.setPc w .check) := h.setPc (by simp [Pc.Holds])
    rcases hcase with ⟨-, rfl⟩ | ⟨-, rfl⟩
    · exact hforget
    · exact hforget.frame hforget.wakers
  | check w =>
    obtain ⟨-, rfl⟩ := step_check.mp hs
    apply h.setPc
    split <;> simp [Pc.Holds]
  | takeNew w =>
    obtain ⟨-, rfl⟩ := step_takeNew.mp hs
    exact (h.moveAll (by simp) (by simp)).setPc (by simp [Pc.Holds])
  | moveRunnable w =>
    obtain ⟨-, rfl⟩ := step_moveRunnable.mp hs
    exact (h.moveAll (by simp) (by simp)).setPc (by simp [Pc.Holds])
  | wakeup tk id =>
    obtain ⟨hissued, ⟨-, rfl⟩ | ⟨wrk, hwrk, rfl⟩⟩ := step_wakeup.mp hs
    · exact h
    · exact h.frame (List.forall_mem_cons.mpr ⟨⟨hissued, fun _ => hwrk⟩, h.wakers⟩)
  | wakeupBySelf k =>
    obtain ⟨hk, ⟨-, rfl⟩ | ⟨hid, -, rfl⟩⟩ := step_wakeupBySelf.mp hs
    · exact h.frame fun k' hk' => h.wakers k' (List.mem_of_mem_erase hk')
    · have hwoken := h.wake hk hid
      exact hwoken.frame fun k' hk' => hwoken.wakers k' (List.mem_of_mem_erase hk')
  | steal w n =>
    rcases step_steal hs with rfl | ⟨rest, rfl⟩
    · exact h
    · refine h.move (by simp) (List.Perm.trans ?_ List.perm_append_comm) (by simp)
      rw [List.take_append_drop]
  | stealNew w =>
    obtain ⟨-, rfl⟩ := step_stealNew.mp hs
    have hmoved : Sound (s.moveAll (.m_newQueue w) .steal_list) := h.moveAll (by simp) (by simp)
    exact hmoved.frame hmoved.wakers
  | stealRunnable =>
    obtain ⟨w, -, rfl⟩ := step_stealRunnable.mp hs
    have hmoved : Sound ((s.moveAll (.m_runnableQueue w) .tasks).moveAll .steal_list .tasks) :=
      (h.moveAll (by simp) (by simp)).moveAll (by simp) (by simp)
    exact hmoved.frame hmoved.wakers
  | addTask w n =>
    obtain ⟨-, rfl⟩ := step_addTask.mp hs
    refine h.move (by simp) ?_ (by simp)
    rw [List.take_append_drop]

/-- At the start there are no tasks. -/
theorem sound_of_starts (h : Starts s) : Sound s := by
  have hnone : ∀ tk, ¬ Stored s.queue tk := by
    rintro tk ⟨p, hp⟩
    simp [h.queue p] at hp
  refine ⟨exclusive_of_empty h.queue, ?_, ?_, ?_, ?_, ?_, ?_, ?_, ?_⟩
  · intro tk hstored
    exact absurd hstored (hnone tk)
  · intro w tk hholds
    rcases hholds with heq | heq <;> simp [h.pc w] at heq
  · intro w tk _
    exact hnone tk
  · intro w w' tk hpc
    simp [h.pc w] at hpc
  · intro w tk hpc
    simp [h.pc w] at hpc
  · rintro tk (hstored | ⟨w, hpc⟩)
    · exact absurd hstored (hnone tk)
    · simp [h.pc w] at hpc
  · intro tk id hid
    simp [h.issued] at hid
  · intro k hk
    simp [h.wakers] at hk

/-- Every reachable state is sound. -/
theorem sound_of_reachable (h : system.Reachable s) : Sound s :=
  System.Via.invariant (I := Sound) (fun _ => sound_of_starts)
    (fun _ _ _ hI _ hs => step_sound hI hs) h

end MagicNet.Worker
