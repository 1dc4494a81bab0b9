import MagicNet.Analysis.TaskCustody
import MagicNet.Foundation.Ticket

/-!
# One wake for each suspension

The `_supperId` of a task is a counter of tickets: `suspend` gives one out, and a `wakeupBySelf` that
returns true redeems it.  Two threads can only disagree about the counter while the task is on its
way between the two, so what has to be seen is that a task whose entry is current stands in the
wait queue of its `_lpWorker`, where the lock is that the waker takes.

That is part of `Sound`, which holds in every run, also in one in which tasks are lost or run on
two workers.
-/

set_option autoImplicit false

namespace MagicNet.Worker

open MagicNet.Foundation

variable {s s' : State} {w w' tk : ℕ}

/-! ## Suspensions as tickets -/

/-- The waker's call returns true. -/
def Wakes (s : State) (k : Waker) : Prop := k.id = (s.tasks k.tk)._supperId

instance (s : State) (k : Waker) : Decidable (Wakes s k) :=
  inferInstanceAs (Decidable (k.id = _))

/-- The suspension of the task that a step ends, by its id. -/
def wokenBy (tk : ℕ) (s : State) : Event → Option ℕ
  | .wakeupBySelf k => if k.tk = tk ∧ Wakes s k then some k.id else none
  | _ => none

/-- The ids of the calls in a run that returned true for the task, oldest first. -/
def woken (tk : ℕ) (s : State) (es : List Event) : List ℕ := system.trace (wokenBy tk) s es

/-- The ids given out for the task, the last one first. -/
def entriesOf (s : State) (tk : ℕ) : List ℕ :=
  (s.issued.filter fun e => e.1 = tk).map Prod.snd

/-- The step on the tickets of the task. -/
def ticket (tk : ℕ) (s : State) : Event → Option TicketEvent
  | .suspend w => if s.pc w = .executing tk then some .issue else none
  | .wakeupBySelf k => if k.tk = tk ∧ Wakes s k then some (.redeem k.id) else none
  | _ => none

/-- The tickets of the task; one that has not been created yet has none. -/
def tickets (tk : ℕ) (s : State) : Tickets where
  count := if tk < s.created then (s.tasks tk)._supperId else 0
  issued := entriesOf s tk

/-- The entries of a task. -/
theorem mem_entriesOf {id : ℕ} : id ∈ entriesOf s tk ↔ (tk, id) ∈ s.issued := by
  simp [entriesOf]

/-- The step of a run that is read off its ticket. -/
theorem bind_ticket (s : State) (e : Event) :
    (ticket tk s e).bind TicketEvent.redeemed = wokenBy tk s e := by
  cases e with
  | suspend w =>
    simp only [ticket, wokenBy]
    split <;> rfl
  | wakeupBySelf k =>
    simp only [ticket, wokenBy]
    split <;> rfl
  | _ => rfl

/-- Steps that change no counter and give nothing out leave the tickets as they are. -/
theorem tickets_of_same (hcreated : s'.created = s.created) (hissued : s'.issued = s.issued)
    (hid : ∀ tk, (s'.tasks tk)._supperId = (s.tasks tk)._supperId) :
    tickets tk s' = tickets tk s := by
  simp only [tickets, entriesOf, hcreated, hissued, hid]

/-- The counts of all tasks, where one keeps its own. -/
theorem supperId_setTask {t : Task} (ht : t._supperId = (s.tasks tk)._supperId) (tk' : ℕ) :
    ((s.setTask tk t).tasks tk')._supperId = (s.tasks tk')._supperId := by
  by_cases hne : tk' = tk
  · subst hne
    simpa [State.setTask] using ht
  · simp [State.setTask, Function.update_of_ne hne]

/-- A suspension gives out a ticket of the task that runs, and of no other.
SOURCE: operation/worker.cc:120-129 -/
theorem tickets_suspend {wrk : ℕ} (h : Sound s) (hpc : s.pc w = .executing tk) (tk' : ℕ) :
    Tickets.system.run (tickets tk' s) (ticket tk' s (.suspend w)).toList =
      some (tickets tk' { (s.setTask tk { s.tasks tk with
        _state := .block, _supperId := (s.tasks tk)._supperId + 1 }).push (.m_waitQueue wrk) tk with
      issued := (tk, (s.tasks tk)._supperId + 1) :: s.issued }) := by
  have hlt := h.known w tk (.inr hpc)
  by_cases hne : tk' = tk
  · subst hne
    simp [ticket, hpc, Tickets.system, Tickets.step, tickets, entriesOf, State.push,
      State.setTask, hlt]
  · have hne' : tk ≠ tk' := fun heq => hne heq.symm
    simp [ticket, hpc, hne', tickets, entriesOf, State.push, State.setTask,
      Function.update_of_ne hne]

/-- A call that returns true redeems the ticket of its entry.
SOURCE: operation/worker.cc:143-166 -/
theorem tickets_wake {k : Waker} (h : Sound s) (hk : k ∈ s.wakers) (hid : Wakes s k) (tk' : ℕ) :
    Tickets.system.run (tickets tk' s) (ticket tk' s (.wakeupBySelf k)).toList =
      some (tickets tk' { (s.setTask k.tk
        { s.tasks k.tk with _supperId := (s.tasks k.tk)._supperId + 1 }).move
          (.m_waitQueue k.wrk) (.m_runnableQueue k.wrk) [k.tk]
          ((s.queue (.m_waitQueue k.wrk)).erase k.tk) with
        wakers := s.wakers.erase k }) := by
  have hissued := (h.wakers k hk).issued
  have hlt := (h.entries _ _ hissued).known
  by_cases hne : k.tk = tk'
  · subst hne
    have hmem : k.id ∈ entriesOf s k.tk := mem_entriesOf.mpr hissued
    have hcount : k.id = (tickets k.tk s).count := by
      rw [tickets, if_pos hlt]
      exact hid
    have hredeem : ticket k.tk s (.wakeupBySelf k) = some (.redeem k.id) := if_pos ⟨rfl, hid⟩
    have hstep : Tickets.system.step (tickets k.tk s) (.redeem k.id) =
        some { tickets k.tk s with count := (tickets k.tk s).count + 1 } := if_pos ⟨hcount, hmem⟩
    rw [hredeem, Option.toList_some, System.run_singleton, hstep]
    simp [tickets, entriesOf, State.move, State.setTask, hlt]
  · have hne' : tk' ≠ k.tk := fun heq => hne heq.symm
    simp [ticket, hne, tickets, entriesOf, State.move, State.setTask,
      Function.update_of_ne hne']

/-- A new task has no tickets.
SOURCE: operation/scheduler.cc:69-76, operation/worker.cc:21-29, 31-39 -/
theorem tickets_createTask (s : State) (w tk' : ℕ) :
    tickets tk' { (s.setTask s.created ⟨.runnable, 0, none⟩).push (.m_newQueue w) s.created with
      created := s.created + 1 } = tickets tk' s := by
  by_cases hne : tk' = s.created
  · subst hne
    simp [tickets, entriesOf, State.push, State.setTask]
  · have hiff : tk' < s.created + 1 ↔ tk' < s.created := by omega
    simp [tickets, entriesOf, State.push, State.setTask, Function.update_of_ne hne, hiff]

/-- **Each step of the workers** is the step of its ticket, for any task. -/
theorem step_ticket {e : Event} (h : Sound s) (hs : step s e = some s') (tk : ℕ) :
    Tickets.system.run (tickets tk s) (ticket tk s e).toList = some (tickets tk s') := by
  have hsame : tickets tk s' = tickets tk s → ticket tk s e = none →
      Tickets.system.run (tickets tk s) (ticket tk s e).toList = some (tickets tk s') := by
    intro htickets hnone
    rw [hnone, htickets]
    rfl
  cases e with
  | createTask w =>
    rw [step_createTask.mp hs] at hsame ⊢
    exact hsame (tickets_createTask s w tk) rfl
  | pop w =>
    obtain ⟨-, ⟨-, rfl⟩ | ⟨tk', rest, -, rfl⟩⟩ := step_pop.mp hs
    · exact hsame rfl rfl
    · exact hsame rfl rfl
  | swapIn w =>
    obtain ⟨tk', -, rfl⟩ := step_swapIn.mp hs
    exact hsame (tickets_of_same rfl rfl (supperId_setTask rfl)) rfl
  | suspend w =>
    obtain ⟨tk', wrk, hpc, -, -, rfl⟩ := step_suspend.mp hs
    exact tickets_suspend h hpc tk
  | finish w =>
    obtain ⟨tk', -, -, rfl⟩ := step_finish.mp hs
    exact hsame (tickets_of_same rfl rfl (supperId_setTask rfl)) rfl
  | swapOut w =>
    obtain ⟨tk', -, rfl⟩ := step_swapOut.mp hs
    exact hsame rfl rfl
  | switch w =>
    obtain ⟨tk', -, ⟨-, rfl⟩ | ⟨-, rfl⟩⟩ := step_switch.mp hs
    · exact hsame rfl rfl
    · exact hsame rfl rfl
  | check w =>
    obtain ⟨-, rfl⟩ := step_check.mp hs
    exact hsame rfl rfl
  | takeNew w =>
    obtain ⟨-, rfl⟩ := step_takeNew.mp hs
    exact hsame rfl rfl
  | moveRunnable w =>
    obtain ⟨-, rfl⟩ := step_moveRunnable.mp hs
    exact hsame rfl rfl
  | wakeup tk' id =>
    obtain ⟨-, ⟨-, rfl⟩ | ⟨wrk, -, rfl⟩⟩ := step_wakeup.mp hs
    · exact hsame rfl rfl
    · exact hsame rfl rfl
  | wakeupBySelf k =>
    obtain ⟨hk, ⟨hid, rfl⟩ | ⟨hid, -, rfl⟩⟩ := step_wakeupBySelf.mp hs
    · exact hsame rfl (if_neg fun hwakes => hid hwakes.2)
    · exact tickets_wake h hk hid tk
  | steal w n =>
    rcases step_steal hs with rfl | ⟨rest, rfl⟩
    · exact hsame rfl rfl
    · exact hsame rfl rfl
  | stealNew w =>
    obtain ⟨-, rfl⟩ := step_stealNew.mp hs
    exact hsame rfl rfl
  | stealRunnable =>
    obtain ⟨w, -, rfl⟩ := step_stealRunnable.mp hs
    exact hsame rfl rfl
  | addTask w n =>
    obtain ⟨-, rfl⟩ := step_addTask.mp hs
    exact hsame rfl rfl

/-- The tickets of a task after a run are those of the run's ticket steps. -/
theorem run_tickets {s₀ : State} {es : List Event} (h0 : Starts s₀)
    (hrun : system.run s₀ es = some s) (tk : ℕ) :
    Tickets.system.run (tickets tk s₀) (system.trace (ticket tk) s₀ es) = some (tickets tk s) :=
  System.run_trace_of (I := Sound) (fun _ _ _ h hs => step_sound h hs)
    (fun _ _ _ h hs => step_ticket h hs tk) (sound_of_starts h0) hrun

/-- The tickets that a run redeems are the calls that return true. -/
theorem redeemed_woken (tk : ℕ) (s : State) (es : List Event) :
    (system.trace (ticket tk) s es).filterMap TicketEvent.redeemed = woken tk s es := by
  rw [System.trace_filterMap]
  have hlabel : (fun s e => (ticket tk s e).bind TicketEvent.redeemed) = wokenBy tk := by
    funext s e
    exact bind_ticket s e
  rw [hlabel, woken]

/-! ## One wake for each suspension -/

/-- The entry of the waker is the last one given out for the task, and no call has returned true
for it. -/
def Pending (s₀ : State) (es : List Event) (s : State) (k : Waker) : Prop :=
  (entriesOf s k.tk).head? = some k.id ∧ k.id ∉ woken k.tk s₀ es

/-- The call moves the task, which stands once in the wait queue of its worker, to that worker's
runnable queue. -/
structure Moves (s : State) (k : Waker) (s' : State) : Prop where
  worker : (s.tasks k.tk)._lpWorker = some k.wrk
  waits : (s.queue (.m_waitQueue k.wrk)).count k.tk = 1
  waitQueue : s'.queue (.m_waitQueue k.wrk) = (s.queue (.m_waitQueue k.wrk)).erase k.tk
  runnableQueue : s'.queue (.m_runnableQueue k.wrk) = s.queue (.m_runnableQueue k.wrk) ++ [k.tk]
  others : ∀ p, p ≠ .m_waitQueue k.wrk → p ≠ .m_runnableQueue k.wrk → s'.queue p = s.queue p

/-- What a call does in a state, be it that its suspension is pending or that it has ended.
SOURCE: operation/worker.cc:143-166 -/
theorem wakeupBySelf_moves {k : Waker} (h : Sound s) (hk : k ∈ s.wakers) :
    ∃ s', step s (.wakeupBySelf k) = some s' ∧ (Wakes s k → Moves s k s') ∧
      (¬ Wakes s k → s' = { s with wakers := s.wakers.erase k }) := by
  by_cases hid : Wakes s k
  · obtain ⟨howns, hwait⟩ := h.waits hk hid
    refine ⟨_, step_wakeupBySelf.mpr ⟨hk, .inr ⟨hid, hwait, rfl⟩⟩, fun _ => ?_,
      fun hnot => absurd hid hnot⟩
    refine ⟨howns, List.count_eq_one_of_mem (h.queue.nodup _) hwait, ?_, ?_, ?_⟩
    · simp [State.move, State.setTask, moveTable]
    · simp [State.move, State.setTask, moveTable]
    · intro p hp hp'
      simp [State.move, State.setTask, moveTable, Function.update_of_ne hp,
        Function.update_of_ne hp']
  · exact ⟨_, step_wakeupBySelf.mpr ⟨hk, .inl ⟨hid, rfl⟩⟩, fun hyes => absurd hyes hid,
      fun _ => rfl⟩

/-- **Exactly one wake per suspension.**  In every run of the workers no two calls of `wakeup` return
true for one suspension of a task.  A call that has come to its worker always goes through: if its
suspension is the task's last and nobody has woken it, the call returns true and moves the task
once; otherwise it returns false and changes nothing but itself.
SOURCE: operation/worker.cc:113-166, 178-191 -/
theorem wake_once (s₀ s : State) (es : List Event) (h0 : Starts s₀)
    (hrun : system.run s₀ es = some s) :
    (∀ tk, (woken tk s₀ es).Nodup) ∧
      ∀ k ∈ s.wakers, ∃ s', step s (.wakeupBySelf k) = some s' ∧
        (Wakes s k ↔ Pending s₀ es s k) ∧ (Pending s₀ es s k → Moves s k s') ∧
        (¬ Pending s₀ es s k → s' = { s with wakers := s.wakers.erase k }) := by
  have hstart : ∀ tk, Tickets.system.init (tickets tk s₀) := by
    intro tk
    constructor
    · simp [tickets, h0.created]
    · simp [tickets, entriesOf, h0.issued]
  have hexact := fun tk => Tickets.tickets_exact (hstart tk) (run_tickets h0 hrun tk)
  have hsound := sound_of_reachable (System.reachable_of_run h0 hrun)
  constructor
  · intro tk
    rw [← redeemed_woken]
    exact (hexact tk).1
  · intro k hk
    have hissued := (hsound.wakers k hk).issued
    have hlt := (hsound.entries _ _ hissued).known
    have hiff : Wakes s k ↔ Pending s₀ es s k := by
      have hcurrent := (hexact k.tk).2 k.id (mem_entriesOf.mpr hissued)
      rw [redeemed_woken] at hcurrent
      simpa [Wakes, Pending, tickets, hlt] using hcurrent
    obtain ⟨s', hs, hmoves, hstays⟩ := wakeupBySelf_moves hsound hk
    rw [hiff] at hmoves hstays
    exact ⟨s', hs, hiff, hmoves, hstays⟩

/-- Two wakers with the same entry: the first has woken the task, and the second returns false.
SOURCE: operation/worker.cc:120-129, 131-141, 143-166 -/
theorem wake_once_race : ∃ s, system.run start (firstTask ++ [.suspend 0, .wakeup 0 1,
      .wakeup 0 1, .wakeupBySelf ⟨0, 0, 1⟩]) = some s ∧ s.wakers = [⟨0, 0, 1⟩] ∧
    ¬ Pending start (firstTask ++ [.suspend 0, .wakeup 0 1, .wakeup 0 1,
      .wakeupBySelf ⟨0, 0, 1⟩]) s ⟨0, 0, 1⟩ := by
  obtain ⟨-, hcalls⟩ := wake_once start _ (firstTask ++ [.suspend 0, .wakeup 0 1, .wakeup 0 1,
    .wakeupBySelf ⟨0, 0, 1⟩]) start_starts rfl
  refine ⟨_, rfl, rfl, ?_⟩
  obtain ⟨-, -, hiff, -⟩ := hcalls ⟨0, 0, 1⟩ List.mem_cons_self
  rw [← hiff]
  decide

end MagicNet.Worker
