import MagicNet.Analysis.TaskCustody

/-!
# A task that its worker has not looked at yet

Between the return of `SwapIn` and the `switch` over the task's `_state` the worker still has the task
in `m_runnable`, and a waker may already have put it into a queue again.  As far as the queues and the
other workers are concerned it might as well still run: every step, with the task taken to run until
its worker looks at it, is a step or two of the workers (`run_back`).  So a task that is not stolen
from under its worker stands where a running task stands, and its worker finds it suspended or done.
-/

set_option autoImplicit false

namespace MagicNet.Worker

open MagicNet.Foundation

variable {s s' : State} {e : Event} {w w' tk : ℕ}

/-! ## What a step does to one worker and to one task -/

/-- Where a worker goes. -/
inductive Goes (s : State) : Event → ℕ → Pc → Prop where
  | pop {w tk : ℕ} {rest : List ℕ} : s.pc w = .top → s.queue (.m_runnableQueue w) = tk :: rest →
      Goes s (.pop w) w (.popped tk)
  | swapIn {w tk : ℕ} : s.pc w = .popped tk → Goes s (.swapIn w) w (.executing tk)
  | swapOut {w tk : ℕ} : s.pc w = .executing tk → Goes s (.swapOut w) w (.returned tk)
  | free {e : Event} {w : ℕ} {pc : Pc} : pc.m_runnable = none →
      (∀ tk, (s.pc w).m_runnable = some tk → e = .switch w ∧ s.pc w = .returned tk) → Goes s e w pc

/-- **What a step does to the workers**: one of them goes on, or none does. -/
theorem step_pc (hs : step s e = some s') :
    s'.pc = s.pc ∨ ∃ w pc, s'.pc = Function.update s.pc w pc ∧ Goes s e w pc := by
  cases e with
  | createTask w =>
    rw [step_createTask.mp hs]
    exact .inl rfl
  | pop w =>
    obtain ⟨hpc, ⟨-, rfl⟩ | ⟨tk, rest, hq, rfl⟩⟩ := step_pop.mp hs
    · exact .inr ⟨w, .check, rfl, .free rfl (by simp [hpc, Pc.m_runnable])⟩
    · exact .inr ⟨w, .popped tk, rfl, .pop hpc hq⟩
  | swapIn w =>
    obtain ⟨tk, hpc, rfl⟩ := step_swapIn.mp hs
    exact .inr ⟨w, .executing tk, rfl, .swapIn hpc⟩
  | suspend w =>
    obtain ⟨tk, wrk, -, -, -, rfl⟩ := step_suspend.mp hs
    exact .inl rfl
  | finish w =>
    obtain ⟨tk, -, -, rfl⟩ := step_finish.mp hs
    exact .inl rfl
  | swapOut w =>
    obtain ⟨tk, hpc, rfl⟩ := step_swapOut.mp hs
    exact .inr ⟨w, .returned tk, rfl, .swapOut hpc⟩
  | switch w =>
    obtain ⟨tk, hpc, ⟨-, rfl⟩ | ⟨-, rfl⟩⟩ := step_switch.mp hs
    · exact .inr ⟨w, .check, rfl, .free rfl (by simp [hpc, Pc.m_runnable])⟩
    · exact .inr ⟨w, .check, rfl, .free rfl (by simp [hpc, Pc.m_runnable])⟩
  | check w =>
    obtain ⟨hpc, rfl⟩ := step_check.mp hs
    refine .inr ⟨w, _, rfl, .free ?_ (by simp [hpc, Pc.m_runnable])⟩
    split <;> rfl
  | takeNew w =>
    obtain ⟨hpc, rfl⟩ := step_takeNew.mp hs
    exact .inr ⟨w, .moving, rfl, .free rfl (by simp [hpc, Pc.m_runnable])⟩
  | moveRunnable w =>
    obtain ⟨hpc, rfl⟩ := step_moveRunnable.mp hs
    exact .inr ⟨w, .top, rfl, .free rfl (by simp [hpc, Pc.m_runnable])⟩
  | wakeup tk id =>
    obtain ⟨-, ⟨-, rfl⟩ | ⟨wrk, -, rfl⟩⟩ := step_wakeup.mp hs
    · exact .inl rfl
    · exact .inl rfl
  | wakeupBySelf k =>
    obtain ⟨-, ⟨-, rfl⟩ | ⟨-, -, rfl⟩⟩ := step_wakeupBySelf.mp hs
    · exact .inl rfl
    · exact .inl rfl
  | steal w n =>
    rcases step_steal hs with rfl | ⟨rest, rfl⟩
    · exact .inl rfl
    · exact .inl rfl
  | stealNew w =>
    obtain ⟨-, rfl⟩ := step_stealNew.mp hs
    exact .inl rfl
  | stealRunnable =>
    obtain ⟨w, -, rfl⟩ := step_stealRunnable.mp hs
    exact .inl rfl
  | addTask w n =>
    obtain ⟨-, rfl⟩ := step_addTask.mp hs
    exact .inl rfl

/-- What a step does to one worker. -/
theorem step_at (hs : step s e = some s') (w : ℕ) :
    s'.pc w = s.pc w ∨ Goes s e w (s'.pc w) := by
  rcases step_pc hs with hsame | ⟨w', pc, hupdate, hgoes⟩
  · exact .inl (congrFun hsame w)
  · by_cases hw : w = w'
    · subst hw
      right
      rw [hupdate, Function.update_self]
      exact hgoes
    · left
      rw [hupdate, Function.update_of_ne hw]

/-- A worker gets the task it has in `m_runnable` from the front of its runnable queue.
SOURCE: operation/worker.cc:178-215 -/
theorem step_runnable (hs : step s e = some s') (hpc : (s'.pc w).m_runnable = some tk) :
    (s.pc w).m_runnable = some tk ∨
      e = .pop w ∧ s'.pc w = .popped tk ∧ tk ∈ s.queue (.m_runnableQueue w) := by
  rcases step_at hs w with hsame | hgoes
  · left
    rw [← hsame]
    exact hpc
  · generalize hpc' : s'.pc w = pc at hgoes hpc
    cases hgoes with
    | pop hold hq =>
      obtain rfl : _ = tk := Option.some.inj hpc
      exact .inr ⟨rfl, rfl, hq ▸ List.mem_cons_self⟩
    | swapIn hold =>
      left
      rw [hold]
      exact hpc
    | swapOut hold =>
      left
      rw [hold]
      exact hpc
    | free hnone _ =>
      rw [hnone] at hpc
      cases hpc

/-- It keeps the task until it has looked at the task's `_state`.
SOURCE: operation/worker.cc:178-215 -/
theorem step_keeps (hs : step s e = some s') (hpc : (s.pc w).m_runnable = some tk) :
    (s'.pc w).m_runnable = some tk ∨ e = .switch w ∧ s.pc w = .returned tk := by
  rcases step_at hs w with hsame | hgoes
  · left
    rw [hsame]
    exact hpc
  · generalize s'.pc w = pc at hgoes ⊢
    cases hgoes with
    | pop hold _ =>
      rw [hold] at hpc
      cases hpc
    | swapIn hold =>
      left
      rw [hold] at hpc
      exact hpc
    | swapOut hold =>
      left
      rw [hold] at hpc
      exact hpc
    | free _ hswitch => exact .inr (hswitch tk hpc)

/-- A worker has switched out of the task it ran.
SOURCE: operation/worker.h:128-134 -/
theorem step_returned (hs : step s e = some s') (hpc : s'.pc w = .returned tk) :
    s.pc w = .returned tk ∨ e = .swapOut w ∧ s.pc w = .executing tk := by
  rcases step_at hs w with hsame | hgoes
  · exact .inl (hsame.symm.trans hpc)
  · rw [hpc] at hgoes
    cases hgoes with
    | swapOut hold => exact .inr ⟨rfl, hold⟩
    | free hnone _ => cases hnone

/-- A worker has popped a task of its runnable queue.
SOURCE: operation/worker.cc:178-215 -/
theorem step_popped (hs : step s e = some s') (hpc : s'.pc w = .popped tk) :
    s.pc w = .popped tk ∨ e = .pop w ∧ tk ∈ s.queue (.m_runnableQueue w) := by
  rcases step_at hs w with hsame | hgoes
  · exact .inl (hsame.symm.trans hpc)
  · rw [hpc] at hgoes
    cases hgoes with
    | pop _ hq => exact .inr ⟨rfl, hq ▸ List.mem_cons_self⟩
    | free hnone _ => cases hnone

/-- The `_state` of a task after a step. -/
def stateAfter (s : State) (tk : ℕ) : Event → TaskState
  | .createTask _ => if tk = s.created then .runnable else (s.tasks tk)._state
  | .swapIn w => if s.pc w = .popped tk then .runnable else (s.tasks tk)._state
  | .suspend w => if s.pc w = .executing tk then .block else (s.tasks tk)._state
  | .finish w => if s.pc w = .executing tk then .done else (s.tasks tk)._state
  | _ => (s.tasks tk)._state

/-- **What a step does to the `_state` of a task.** -/
theorem step_state (hs : step s e = some s') (tk : ℕ) :
    (s'.tasks tk)._state = stateAfter s tk e := by
  have hset : ∀ {s : State} {tk' : ℕ} {t : Task}, ((s.setTask tk' t).tasks tk)._state =
      if tk' = tk then t._state else (s.tasks tk)._state := by
    intro s tk' t
    by_cases heq : tk' = tk
    · subst heq
      simp [State.setTask]
    · simp [State.setTask, heq, Ne.symm heq]
  cases e with
  | createTask w =>
    rw [step_createTask.mp hs]
    refine hset.trans ?_
    simp [stateAfter, eq_comm (a := tk)]
  | swapIn w =>
    obtain ⟨tk', hpc, rfl⟩ := step_swapIn.mp hs
    refine hset.trans ?_
    simp [stateAfter, hpc]
  | suspend w =>
    obtain ⟨tk', wrk, hpc, -, -, rfl⟩ := step_suspend.mp hs
    refine hset.trans ?_
    simp [stateAfter, hpc]
  | finish w =>
    obtain ⟨tk', hpc, -, rfl⟩ := step_finish.mp hs
    refine hset.trans ?_
    simp [stateAfter, hpc]
  | pop w =>
    obtain ⟨-, ⟨-, rfl⟩ | ⟨tk', rest, -, rfl⟩⟩ := step_pop.mp hs
    · rfl
    · rfl
  | swapOut w =>
    obtain ⟨tk', -, rfl⟩ := step_swapOut.mp hs
    rfl
  | switch w =>
    obtain ⟨tk', -, ⟨-, rfl⟩ | ⟨-, rfl⟩⟩ := step_switch.mp hs
    · rfl
    · rfl
  | check w =>
    obtain ⟨-, rfl⟩ := step_check.mp hs
    rfl
  | takeNew w =>
    obtain ⟨-, rfl⟩ := step_takeNew.mp hs
    rfl
  | moveRunnable w =>
    obtain ⟨-, rfl⟩ := step_moveRunnable.mp hs
    rfl
  | wakeup tk' id =>
    obtain ⟨-, ⟨-, rfl⟩ | ⟨wrk, -, rfl⟩⟩ := step_wakeup.mp hs
    · rfl
    · rfl
  | wakeupBySelf k =>
    obtain ⟨-, ⟨-, rfl⟩ | ⟨-, -, rfl⟩⟩ := step_wakeupBySelf.mp hs
    · rfl
    · refine hset.trans ?_
      split
      · next heq =>
        rw [← heq]
        rfl
      · rfl
  | steal w n =>
    rcases step_steal hs with rfl | ⟨rest, rfl⟩
    · rfl
    · rfl
  | stealNew w =>
    obtain ⟨-, rfl⟩ := step_stealNew.mp hs
    rfl
  | stealRunnable =>
    obtain ⟨w, -, rfl⟩ := step_stealRunnable.mp hs
    rfl
  | addTask w n =>
    obtain ⟨-, rfl⟩ := step_addTask.mp hs
    rfl

def createdAfter (s : State) : Event → ℕ
  | .createTask _ => s.created + 1
  | _ => s.created

def wakersAfter (s : State) : Event → List Waker
  | .wakeup tk id =>
    match (s.tasks tk)._lpWorker with
    | some wrk => ⟨wrk, tk, id⟩ :: s.wakers
    | none => s.wakers
  | .wakeupBySelf k => s.wakers.erase k
  | _ => s.wakers

def gccAfter (s : State) : Event → ℕ → List ℕ
  | .switch w =>
    match s.pc w with
    | .returned tk =>
      if (s.tasks tk)._state = .done then
        Function.update s.m_gccQueue w (s.m_gccQueue w ++ [tk])
      else s.m_gccQueue
    | _ => s.m_gccQueue
  | _ => s.m_gccQueue

/-- **What a step does to the rest of the state**: the tasks created, the wakers on their way and the
finished tasks. -/
theorem step_rest (hs : step s e = some s') : s'.created = createdAfter s e ∧
    s'.wakers = wakersAfter s e ∧ s'.m_gccQueue = gccAfter s e := by
  cases e with
  | createTask w =>
    rw [step_createTask.mp hs]
    exact ⟨rfl, rfl, rfl⟩
  | pop w =>
    obtain ⟨-, ⟨-, rfl⟩ | ⟨tk, rest, -, rfl⟩⟩ := step_pop.mp hs
    · exact ⟨rfl, rfl, rfl⟩
    · exact ⟨rfl, rfl, rfl⟩
  | swapIn w =>
    obtain ⟨tk, -, rfl⟩ := step_swapIn.mp hs
    exact ⟨rfl, rfl, rfl⟩
  | suspend w =>
    obtain ⟨tk, wrk, -, -, -, rfl⟩ := step_suspend.mp hs
    exact ⟨rfl, rfl, rfl⟩
  | finish w =>
    obtain ⟨tk, -, -, rfl⟩ := step_finish.mp hs
    exact ⟨rfl, rfl, rfl⟩
  | swapOut w =>
    obtain ⟨tk, -, rfl⟩ := step_swapOut.mp hs
    exact ⟨rfl, rfl, rfl⟩
  | switch w =>
    obtain ⟨tk, hpc, ⟨hstate, rfl⟩ | ⟨hstate, rfl⟩⟩ := step_switch.mp hs
    · refine ⟨rfl, rfl, ?_⟩
      simp [State.setPc, gccAfter, hpc, hstate]
    · refine ⟨rfl, rfl, ?_⟩
      simp [gccAfter, hpc, hstate]
  | check w =>
    obtain ⟨-, rfl⟩ := step_check.mp hs
    exact ⟨rfl, rfl, rfl⟩
  | takeNew w =>
    obtain ⟨-, rfl⟩ := step_takeNew.mp hs
    exact ⟨rfl, rfl, rfl⟩
  | moveRunnable w =>
    obtain ⟨-, rfl⟩ := step_moveRunnable.mp hs
    exact ⟨rfl, rfl, rfl⟩
  | wakeup tk id =>
    obtain ⟨-, ⟨hwrk, rfl⟩ | ⟨wrk, hwrk, rfl⟩⟩ := step_wakeup.mp hs
    · refine ⟨rfl, ?_, rfl⟩
      simp [wakersAfter, hwrk]
    · refine ⟨rfl, ?_, rfl⟩
      simp [wakersAfter, hwrk]
  | wakeupBySelf k =>
    obtain ⟨-, ⟨-, rfl⟩ | ⟨-, -, rfl⟩⟩ := step_wakeupBySelf.mp hs
    · exact ⟨rfl, rfl, rfl⟩
    · exact ⟨rfl, rfl, rfl⟩
  | steal w n =>
    rcases step_steal hs with rfl | ⟨rest, rfl⟩
    · exact ⟨rfl, rfl, rfl⟩
    · exact ⟨rfl, rfl, rfl⟩
  | stealNew w =>
    obtain ⟨-, rfl⟩ := step_stealNew.mp hs
    exact ⟨rfl, rfl, rfl⟩
  | stealRunnable =>
    obtain ⟨w, -, rfl⟩ := step_stealRunnable.mp hs
    exact ⟨rfl, rfl, rfl⟩
  | addTask w n =>
    obtain ⟨-, rfl⟩ := step_addTask.mp hs
    exact ⟨rfl, rfl, rfl⟩

/-- **What a step does to the places of a task**: a pop takes it out of its queue, and it is put into
one when it is created and when it suspends itself.
SOURCE: operation/worker.cc:21-29, 31-39, 120-129, 178-215, operation/scheduler.cc:69-76 -/
theorem step_stored (hS : Sound s) (hs : step s e = some s') : Stored s'.queue tk ↔
    Stored s.queue tk ∧ ¬ (∃ w, e = .pop w ∧ s'.pc w = .popped tk) ∨
      (∃ w, e = .createTask w ∧ tk = s.created) ∨ ∃ w, e = .suspend w ∧ s.pc w = .executing tk := by
  have hput : ∀ {s : State} {p : Place} {tk' : ℕ}, Stored (s.push p tk').queue tk ↔
      Stored s.queue tk ∨ tk = tk' := Exclusive.stored_put
  have hmove : ∀ {s : State} {p p' : Place}, Exclusive s.queue → p ≠ p' →
      (Stored (s.moveAll p p').queue tk ↔ Stored s.queue tk) := fun hq hne =>
    hq.stored_move hne (by rw [List.append_nil])
  cases e with
  | createTask w =>
    rw [step_createTask.mp hs]
    refine hput.trans ?_
    simp [State.setTask]
  | pop w =>
    obtain ⟨-, ⟨-, rfl⟩ | ⟨tk', rest, hq, rfl⟩⟩ := step_pop.mp hs
    · simp [State.setPc]
    · have hperm : (s.queue (.m_runnableQueue w)).Perm (tk' :: rest) := by rw [hq]
      have htaken : Stored (Function.update s.queue (.m_runnableQueue w) rest) tk ↔
          Stored s.queue tk ∧ tk ≠ tk' := hS.queue.stored_take hperm
      simpa [State.setPc, eq_comm (a := tk')] using htaken
  | suspend w =>
    obtain ⟨tk', wrk, hpc, -, -, rfl⟩ := step_suspend.mp hs
    refine hput.trans ?_
    simp [State.setTask, hpc, eq_comm (a := tk')]
  | takeNew w =>
    obtain ⟨-, rfl⟩ := step_takeNew.mp hs
    refine (hmove hS.queue (by simp)).trans ?_
    simp
  | moveRunnable w =>
    obtain ⟨-, rfl⟩ := step_moveRunnable.mp hs
    refine (hmove hS.queue (by simp)).trans ?_
    simp
  | wakeupBySelf k =>
    obtain ⟨-, ⟨-, rfl⟩ | ⟨-, hwait, rfl⟩⟩ := step_wakeupBySelf.mp hs
    · simp
    · refine (hS.queue.stored_move (by simp) (List.perm_cons_erase hwait)).trans ?_
      simp
  | steal w n =>
    rcases step_steal hs with rfl | ⟨rest, rfl⟩
    · simp
    · have hperm : (s.queue (.m_newQueue w)).Perm ((s.queue (.m_newQueue w)).drop rest ++
          (s.queue (.m_newQueue w)).take rest) := by
        refine List.Perm.trans ?_ List.perm_append_comm
        rw [List.take_append_drop]
      refine (hS.queue.stored_move (by simp) hperm).trans ?_
      simp
  | stealNew w =>
    obtain ⟨-, rfl⟩ := step_stealNew.mp hs
    refine (hmove hS.queue (by simp)).trans ?_
    simp
  | stealRunnable =>
    obtain ⟨w, -, rfl⟩ := step_stealRunnable.mp hs
    have hmoved : Sound (s.moveAll (.m_runnableQueue w) .tasks) := hS.moveAll (by simp) (by simp)
    refine ((hmove hmoved.queue (by simp)).trans (hmove hS.queue (by simp))).trans ?_
    simp
  | addTask w n =>
    obtain ⟨-, rfl⟩ := step_addTask.mp hs
    have hperm : (s.queue .tasks).Perm ((s.queue .tasks).take n ++ (s.queue .tasks).drop n) := by
      rw [List.take_append_drop]
    refine (hS.queue.stored_move (by simp) hperm).trans ?_
    simp
  | swapIn w =>
    obtain ⟨tk', -, rfl⟩ := step_swapIn.mp hs
    simp [State.setPc, State.setTask]
  | finish w =>
    obtain ⟨tk', -, -, rfl⟩ := step_finish.mp hs
    simp [State.setTask]
  | swapOut w =>
    obtain ⟨tk', -, rfl⟩ := step_swapOut.mp hs
    simp [State.setPc]
  | switch w =>
    obtain ⟨tk', -, ⟨-, rfl⟩ | ⟨-, rfl⟩⟩ := step_switch.mp hs
    · simp [State.setPc]
    · simp [State.setPc]
  | check w =>
    obtain ⟨-, rfl⟩ := step_check.mp hs
    simp [State.setPc]
  | wakeup tk' id =>
    obtain ⟨-, ⟨-, rfl⟩ | ⟨wrk, -, rfl⟩⟩ := step_wakeup.mp hs
    · simp
    · simp

/-- A task comes to its end where it runs.
SOURCE: operation/task.cc:17-31 -/
theorem done_before (hs : step s e = some s') (hknown : tk < s.created)
    (hdone : (s'.tasks tk)._state = .done) :
    (s.tasks tk)._state = .done ∨
      ∃ w, e = .finish w ∧ s.pc w = .executing tk ∧ (s.tasks tk)._state = .runnable := by
  rw [step_state hs tk] at hdone
  cases e with
  | createTask w =>
    rw [stateAfter, if_neg (by omega)] at hdone
    exact .inl hdone
  | swapIn w =>
    rw [stateAfter] at hdone
    split at hdone
    · cases hdone
    · exact .inl hdone
  | suspend w =>
    rw [stateAfter] at hdone
    split at hdone
    · cases hdone
    · exact .inl hdone
  | finish w =>
    obtain ⟨tk', hpc, hstate, -⟩ := step_finish.mp hs
    rw [stateAfter] at hdone
    split at hdone
    · next hpc' =>
      obtain rfl : tk' = tk := Pc.executing.inj (hpc.symm.trans hpc')
      exact .inr ⟨w, rfl, hpc, hstate⟩
    · exact .inl hdone
  | _ => exact .inl hdone

/-! ## The task taken to run -/

/-- Where the worker is when the task it has switched out of is taken to run. -/
def Pc.back : Pc → Pc
  | .returned tk => .executing tk
  | pc => pc

def State.back (s : State) : State := { s with pc := Pc.back ∘ s.pc }

/-- Going back leaves the task in hand. -/
@[simp] theorem back_m_runnable (pc : Pc) : pc.back.m_runnable = pc.m_runnable := by
  cases pc <;> rfl

/-- To go back and to go on commute. -/
theorem back_setPc (pc : Pc) : (s.setPc w pc).back = s.back.setPc w pc.back := by
  simp [State.back, State.setPc, Function.comp_update]

/-- Where a worker is then. -/
theorem back_pc {pc : Pc} (hpc : s.pc w = pc) : s.back.pc w = pc.back := congrArg Pc.back hpc

/-- The steps of the workers when the task runs until its worker looks at it. -/
def backEvents : Event → List Event
  | .swapOut _ => []
  | .switch w => [.swapOut w, .switch w]
  | e => [e]

/-- **The task might as well still run**: a step is the steps of `backEvents` then. -/
theorem run_back (hs : step s e = some s') : system.run s.back (backEvents e) = some s'.back := by
  have hone : ∀ {e}, step s.back e = some s'.back → system.run s.back [e] = some s'.back :=
    fun h => (System.run_singleton _ _).trans h
  cases e with
  | createTask w =>
    rw [step_createTask.mp hs] at hone ⊢
    exact hone rfl
  | pop w =>
    obtain ⟨hpc, ⟨hq, rfl⟩ | ⟨tk, rest, hq, rfl⟩⟩ := step_pop.mp hs
    · exact hone (step_pop.mpr ⟨back_pc hpc, .inl ⟨hq, back_setPc _⟩⟩)
    · refine hone (step_pop.mpr ⟨back_pc hpc, .inr ⟨tk, rest, hq, ?_⟩⟩)
      show { (s.setPc w (.popped tk)).back with
        queue := Function.update s.queue (.m_runnableQueue w) rest } = _
      rw [back_setPc]
      rfl
  | swapIn w =>
    obtain ⟨tk, hpc, rfl⟩ := step_swapIn.mp hs
    refine hone (step_swapIn.mpr ⟨tk, back_pc hpc, ?_⟩)
    rw [back_setPc]
    rfl
  | suspend w =>
    obtain ⟨tk, wrk, hpc, hwrk, ⟨hrunnable, hstate⟩, rfl⟩ := step_suspend.mp hs
    refine hone (step_suspend.mpr ⟨tk, wrk, back_pc hpc, hwrk, ⟨?_, hstate⟩, rfl⟩)
    exact (back_m_runnable _).trans hrunnable
  | finish w =>
    obtain ⟨tk, hpc, hstate, rfl⟩ := step_finish.mp hs
    exact hone (step_finish.mpr ⟨tk, back_pc hpc, hstate, rfl⟩)
  | swapOut w =>
    obtain ⟨tk, hpc, rfl⟩ := step_swapOut.mp hs
    have hrun : s.back.pc w = .executing tk := back_pc hpc
    have hsame : s.back.setPc w (.executing tk) = s.back := by
      rw [State.setPc, ← hrun, Function.update_eq_self]
    rw [back_setPc]
    exact congrArg some hsame.symm
  | switch w =>
    obtain ⟨tk, hpc, hcase⟩ := step_switch.mp hs
    have hout : step s.back (.swapOut w) = some (s.back.setPc w (.returned tk)) :=
      step_swapOut.mpr ⟨tk, back_pc hpc, rfl⟩
    have hself : (s.back.setPc w (.returned tk)).pc w = .returned tk := setPc_self _
    rw [backEvents, System.run_cons]
    show (step s.back (.swapOut w)).bind _ = _
    rw [hout, Option.bind_some, System.run_singleton]
    refine step_switch.mpr ⟨tk, hself, ?_⟩
    have hforget : ((s.back.setPc w (.returned tk)).setPc w .check) = (s.setPc w .check).back := by
      rw [back_setPc]
      simp [State.setPc, Pc.back]
    rcases hcase with ⟨hstate, rfl⟩ | ⟨hstate, rfl⟩
    · exact .inl ⟨hstate, hforget.symm⟩
    · refine .inr ⟨hstate, ?_⟩
      rw [hforget]
      rfl
  | check w =>
    obtain ⟨hpc, rfl⟩ := step_check.mp hs
    refine hone (step_check.mpr ⟨back_pc hpc, ?_⟩)
    rw [back_setPc]
    show _ = s.back.setPc w (if s.queue (.m_runnableQueue w) = [] then .refill else .top)
    split <;> rfl
  | takeNew w =>
    obtain ⟨hpc, rfl⟩ := step_takeNew.mp hs
    refine hone (step_takeNew.mpr ⟨back_pc hpc, ?_⟩)
    rw [back_setPc]
    rfl
  | moveRunnable w =>
    obtain ⟨hpc, rfl⟩ := step_moveRunnable.mp hs
    refine hone (step_moveRunnable.mpr ⟨back_pc hpc, ?_⟩)
    rw [back_setPc]
    rfl
  | wakeup tk id =>
    obtain ⟨hissued, ⟨hwrk, rfl⟩ | ⟨wrk, hwrk, rfl⟩⟩ := step_wakeup.mp hs
    · exact hone (step_wakeup.mpr ⟨hissued, .inl ⟨hwrk, rfl⟩⟩)
    · exact hone (step_wakeup.mpr ⟨hissued, .inr ⟨wrk, hwrk, rfl⟩⟩)
  | wakeupBySelf k =>
    obtain ⟨hk, ⟨hid, rfl⟩ | ⟨hid, hwait, rfl⟩⟩ := step_wakeupBySelf.mp hs
    · exact hone (step_wakeupBySelf.mpr ⟨hk, .inl ⟨hid, rfl⟩⟩)
    · exact hone (step_wakeupBySelf.mpr ⟨hk, .inr ⟨hid, hwait, rfl⟩⟩)
  | steal w n =>
    simp only [step, Option.ite_none_right_eq_some] at hs
    obtain ⟨hfree, hs⟩ := hs
    refine hone ((if_pos hfree).trans ?_)
    by_cases hlen : (s.queue (.m_newQueue w)).length ≤ 1
    · rw [if_pos hlen] at hs
      rw [← Option.some.inj hs]
      exact if_pos hlen
    · rw [if_neg hlen] at hs
      rw [← Option.some.inj hs]
      exact if_neg hlen
  | stealNew w =>
    obtain ⟨hnone, rfl⟩ := step_stealNew.mp hs
    exact hone (step_stealNew.mpr ⟨hnone, rfl⟩)
  | stealRunnable =>
    obtain ⟨w, hw, rfl⟩ := step_stealRunnable.mp hs
    exact hone (step_stealRunnable.mpr ⟨w, hw, rfl⟩)
  | addTask w n =>
    obtain ⟨hnone, rfl⟩ := step_addTask.mp hs
    exact hone (step_addTask.mpr ⟨hnone, rfl⟩)

/-! ## The invariant -/

/-- A task gives its worker back suspended or done, and `steal(0)` does not find in a worker's
runnable queue the task that the worker has in `m_runnable`. -/
structure Kept (s : State) (e : Event) : Prop where
  swapOut : ∀ w tk, e = .swapOut w → s.pc w = .executing tk → (s.tasks tk)._state ≠ .runnable
  steal : ∀ w tk, e = .stealRunnable → s.stealing = some w → (s.pc w).m_runnable = some tk →
    tk ∉ s.queue (.m_runnableQueue w)

/-- The test of the condition. -/
def kept (s : State) : Event → Bool
  | .swapOut w =>
    match s.pc w with
    | .executing tk => decide ((s.tasks tk)._state ≠ .runnable)
    | _ => true
  | .stealRunnable =>
    match s.stealing with
    | some w => (s.pc w).m_runnable.all fun tk => decide (tk ∉ s.queue (.m_runnableQueue w))
    | none => true
  | _ => true

/-- The test decides the property. -/
theorem kept_iff : kept s e = true ↔ Kept s e := by
  cases e with
  | swapOut w =>
    constructor
    · intro h
      refine ⟨?_, nofun⟩
      rintro w' tk heq hpc
      cases heq
      simpa [kept, hpc] using h
    · intro h
      simp only [kept]
      split
      · next tk hpc => exact decide_eq_true (h.swapOut w tk rfl hpc)
      · rfl
  | stealRunnable =>
    constructor
    · intro h
      refine ⟨nofun, ?_⟩
      intro w tk _ hw hpc
      simpa [kept, hw, hpc] using h
    · intro h
      simp only [kept]
      split
      · next w hw =>
        cases hpc : (s.pc w).m_runnable with
        | none => rfl
        | some tk => exact decide_eq_true (h.steal w tk rfl hw hpc)
      · rfl
  | _ => exact ⟨fun _ => ⟨nofun, nofun⟩, fun _ => rfl⟩

instance (s : State) (e : Event) : Decidable (Kept s e) :=
  decidable_of_iff (kept s e = true) kept_iff

/-- Tasks stand where they can, also when those that their worker has not looked at are taken to run;
a worker finds its task suspended or done; and no task that is done stands in a list or is switched
to again. -/
structure Steady (s : State) : Prop where
  sound : Sound s
  places : Sound s.back
  custody : Inv s.back
  returned : ∀ w tk, s.pc w = .returned tk → (s.tasks tk)._state ≠ .runnable
  resting : ∀ tk, (Stored s.queue tk ∨ ∃ w, s.pc w = .popped tk) → (s.tasks tk)._state ≠ .done

namespace Steady

/-- A worker holds the task that it has in hand, also when it goes back to running it. -/
theorem holds (hpc : (s.pc w).m_runnable = some tk) : (s.back.pc w).Holds tk := by
  show ((s.pc w).back).Holds tk
  cases hold : s.pc w <;> rw [hold] at hpc <;> cases hpc
  · exact .inl rfl
  · exact .inr rfl
  · exact .inr rfl

/-- A task is in the `m_runnable` of one worker. -/
theorem sole (h : Steady s) (hpc : (s.pc w).m_runnable = some tk)
    (hpc' : (s.pc w').m_runnable = some tk) : w = w' :=
  h.custody.holder w w' tk (holds hpc) (holds hpc')

/-- That task has been made. -/
theorem known (h : Steady s) (hpc : (s.pc w).m_runnable = some tk) : tk < s.created :=
  h.custody.known w tk (holds hpc)

/-- A task that runs, awake, stands in no list. -/
theorem not_stored (h : Steady s) (hpc : s.pc w = .executing tk)
    (hstate : (s.tasks tk)._state = .runnable) : ¬ Stored s.queue tk :=
  (h.sound.active hpc hstate).1

/-- The invariant does not look at the garbage queues. -/
theorem frame (h : Steady s) (m_gccQueue : ℕ → List ℕ) :
    Steady { s with m_gccQueue := m_gccQueue } :=
  ⟨h.sound.frame h.sound.wakers, h.places.frame h.places.wakers,
    h.custody.frame h.places h.custody.wakers, h.returned, h.resting⟩

/-- A task that is done stays so. -/
theorem done_after (h : Steady s) (hs : step s e = some s') (hknown : tk < s.created)
    (hdone : (s.tasks tk)._state = .done) : (s'.tasks tk)._state = .done := by
  rw [step_state hs tk]
  cases e with
  | createTask w => rw [stateAfter, if_neg (by omega), hdone]
  | swapIn w =>
    rw [stateAfter, if_neg, hdone]
    intro hpc
    exact h.resting tk (.inr ⟨w, hpc⟩) hdone
  | suspend w =>
    obtain ⟨tk', wrk, hpc, -, ⟨-, hstate⟩, -⟩ := step_suspend.mp hs
    rw [stateAfter, if_neg, hdone]
    intro hpc'
    obtain rfl : tk' = tk := Pc.executing.inj (hpc.symm.trans hpc')
    rw [hdone] at hstate
    cases hstate
  | finish w =>
    rw [stateAfter]
    split
    · rfl
    · exact hdone
  | _ => exact hdone

/-- A task that its worker has switched out of is not set to run by another one. -/
theorem returned_after (h : Steady s) (hs : step s e = some s') (hpc : s.pc w = .returned tk) :
    (s'.tasks tk)._state ≠ .runnable := by
  have hrunnable : (s.pc w).m_runnable = some tk := by rw [hpc, Pc.m_runnable]
  have hold := h.returned w tk hpc
  rw [step_state hs tk]
  cases e with
  | createTask w' =>
    have hknown := h.known hrunnable
    rw [stateAfter, if_neg (by omega)]
    exact hold
  | swapIn w' =>
    rw [stateAfter, if_neg]
    · exact hold
    · intro hpc'
      obtain rfl := h.sole hrunnable (by rw [hpc', Pc.m_runnable])
      rw [hpc] at hpc'
      cases hpc'
  | suspend w' =>
    rw [stateAfter]
    split
    · simp
    · exact hold
  | finish w' =>
    rw [stateAfter]
    split
    · simp
    · exact hold
  | _ => exact hold

end Steady

/-! ## Runs -/

/-- The steps of a task that runs until its worker looks at it meet the condition on the workers. -/
theorem meets_back (h : Steady s) (hc : Kept s e) (hs : step s e = some s') :
    system.Meets Cond s.back (backEvents e) := by
  cases e with
  | swapOut w => trivial
  | switch w =>
    obtain ⟨tk, hpc, -⟩ := step_switch.mp hs
    refine ⟨⟨?_, nofun⟩, fun u _ => ⟨⟨nofun, nofun⟩, fun _ _ => trivial⟩⟩
    rintro w' tk' heq hpc'
    cases heq
    obtain rfl : tk = tk' := Pc.executing.inj ((back_pc hpc).symm.trans hpc')
    exact h.returned w tk hpc
  | stealRunnable =>
    refine ⟨⟨nofun, ?_⟩, fun _ _ => trivial⟩
    intro w tk _ hw hpc
    apply hc.steal w tk rfl hw
    rw [← back_m_runnable]
    exact congrArg Pc.m_runnable hpc
  | _ => exact ⟨⟨nofun, nofun⟩, fun _ _ => trivial⟩

/-- **Each step** that takes no task from under its worker. -/
theorem step_steady (h : Steady s) (hc : Kept s e) (hs : step s e = some s') : Steady s' := by
  have hback : Inv s'.back ∧ Sound s'.back := by
    refine System.run_invariant (I := fun s => Inv s ∧ Sound s) ?_ ⟨h.custody, h.places⟩
      (run_back hs) (meets_back h hc hs)
    intro s e s' hI hg hs
    exact ⟨step_inv hI.1 hI.2 hg hs, step_sound hI.2 hs⟩
  have hsound := step_sound h.sound hs
  refine ⟨hsound, hback.2, hback.1, ?_, ?_⟩
  · intro w tk hpc
    rcases step_returned hs hpc with hold | ⟨rfl, hold⟩
    · exact h.returned_after hs hold
    · rw [step_state hs tk]
      exact hc.swapOut w tk rfl hold
  · intro tk hrest hdone
    have hrested : Stored s.queue tk ∨ ∃ w, s.pc w = .popped tk := by
      rcases hrest with hstored | ⟨w, hpc⟩
      · rcases (step_stored h.sound hs).mp hstored with ⟨hold, -⟩ | ⟨w, rfl, rfl⟩ | ⟨w, rfl, hpc⟩
        · exact .inl hold
        · rw [step_state hs, stateAfter, if_pos rfl] at hdone
          cases hdone
        · rw [step_state hs, stateAfter, if_pos hpc] at hdone
          cases hdone
      · rcases step_popped hs hpc with hold | ⟨-, hmem⟩
        · exact .inr ⟨w, hold⟩
        · exact .inl ⟨_, hmem⟩
    have hknown : tk < s.created := by
      rcases hrested with hstored | ⟨w, hpc⟩
      · exact h.sound.stored tk hstored
      · exact h.sound.known w tk (.inl hpc)
    rcases done_before hs hknown hdone with hold | ⟨w, -, hpc, hstate⟩
    · exact h.resting tk hrested hold
    · obtain ⟨hnone, hnot⟩ := h.sound.active hpc hstate
      rcases hrested with hstored | ⟨w', hpc'⟩
      · exact hnone hstored
      · exact hnot w' hpc'

/-- At the start no worker has one. -/
theorem steady_of_starts (h : Starts s) : Steady s := by
  have hback : s.back = s := by
    have hpc : Pc.back ∘ s.pc = s.pc := by
      funext w
      simp [h.pc w, Pc.back]
    rw [State.back, hpc]
  have hsound := sound_of_starts h
  refine ⟨hsound, ?_, ?_, ?_, ?_⟩
  · rw [hback]
    exact hsound
  · rw [hback]
    exact inv_of_starts h
  · intro w tk hpc
    rw [h.pc w] at hpc
    cases hpc
  · rintro tk (⟨p, hp⟩ | ⟨w, hpc⟩)
    · rw [h.queue p] at hp
      cases hp
    · rw [h.pc w] at hpc
      cases hpc

end MagicNet.Worker
