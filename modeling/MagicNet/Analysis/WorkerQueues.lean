import MagicNet.Analysis.TwoWayLists
import MagicNet.Analysis.WakeOnce
import MagicNet.Model.Dispatcher

/-!
# The workers' steps on linked queues

No task stands in two places, so the queues and lists share no node, and an operation on one of
them leaves the links of the others alone.  `Shape` says so of all of them at once; every queue
step of the workers keeps it, and does to the items what the step of `Model.Worker` does
(`work_step`).  What keeps the nodes apart is the invariant of the workers, and that the tasks
whose links `m_gccQueue` uses, those that are done, stand nowhere else.
-/

set_option autoImplicit false

namespace MagicNet.Worker

open MagicNet.Foundation

variable {s s' : State} {w tk : ℕ}

/-! ## Tasks that are done -/

/-- The task stands in a list, or it has been popped and not switched to. -/
def Resting (s : State) (tk : ℕ) : Prop := Stored s.queue tk ∨ ∃ w, s.pc w = .popped tk

def Ended (s : State) : Prop := ∀ tk, (s.tasks tk)._state = .done → ¬ Resting s tk

/-- Nothing comes to rest, and no task comes to its end, except those for which it is no matter. -/
theorem Ended.transfer (h : Ended s) (hback : ∀ tk, (s'.tasks tk)._state = .done →
    Resting s' tk → (s.tasks tk)._state = .done ∧ Resting s tk) : Ended s' := by
  intro tk hdone hrest
  obtain ⟨hdone, hrest⟩ := hback tk hdone hrest
  exact h tk hdone hrest

/-- A worker goes on, and has not popped a task. -/
theorem Ended.setPc {pc : Pc} (h : Ended s) (hpc : ∀ tk, pc ≠ .popped tk) :
    Ended (s.setPc w pc) := by
  apply h.transfer
  rintro tk hdone (hstored | ⟨w', hw'⟩)
  · exact ⟨hdone, .inl hstored⟩
  · refine ⟨hdone, .inr ⟨w', ?_⟩⟩
    by_cases hw : w' = w
    · subst hw
      rw [setPc_self] at hw'
      exact absurd hw' (hpc tk)
    · rwa [setPc_of_ne hw] at hw'

/-- Where tasks are moved none that has ended comes to rest. -/
theorem Ended.move {p p' : Place} {moved rest : List ℕ} (h : Ended s) (hq : Exclusive s.queue)
    (hne : p ≠ p') (hperm : (s.queue p).Perm (moved ++ rest)) : Ended (s.move p p' moved rest) := by
  apply h.transfer
  intro tk hdone hrest
  exact ⟨hdone, hrest.imp_left (hq.stored_move hne hperm).mp⟩

/-- Nor where all of a place are. -/
theorem Ended.moveAll {p p' : Place} (h : Ended s) (hq : Exclusive s.queue) (hne : p ≠ p') :
    Ended (s.moveAll p p') := by
  apply h.move hq hne
  rw [List.append_nil]

/-- A task changes; if it is done now, it is not at rest. -/
theorem Ended.setTask {t : Task} (h : Ended s) (ht : t._state = .done → ¬ Resting s tk) :
    Ended (s.setTask tk t) := by
  intro tk' hdone hrest
  by_cases hne : tk' = tk
  · subst hne
    exact ht (by simpa [State.setTask] using hdone) hrest
  · exact h tk' (by simpa [State.setTask, hne] using hdone) hrest

/-- A task that is not done is put in a list. -/
theorem Ended.push {p : Place} (h : Ended s) (htk : (s.tasks tk)._state ≠ .done) :
    Ended (s.push p tk) := by
  apply h.transfer
  intro tk' hdone hrest
  have hne : tk' ≠ tk := by
    rintro rfl
    exact htk hdone
  refine ⟨hdone, hrest.imp_left ?_⟩
  intro hin
  exact (Exclusive.stored_put.mp hin).resolve_right hne

/-- A task of the runnable queue is popped.
SOURCE: operation/worker.cc:178-215 -/
theorem Ended.pop {rest : List ℕ} (h : Ended s) (hexclusive : Exclusive s.queue)
    (hq : s.queue (.m_runnableQueue w) = tk :: rest) :
    Ended { s.setPc w (.popped tk) with
      queue := Function.update s.queue (.m_runnableQueue w) rest } := by
  apply h.transfer
  rintro tk' hdone (hin | ⟨w', hw'⟩)
  · exact ⟨hdone, .inl ((hexclusive.stored_take (by rw [hq])).mp hin).1⟩
  · refine ⟨hdone, ?_⟩
    by_cases hw : w' = w
    · subst hw
      change (s.setPc w' (.popped tk)).pc w' = _ at hw'
      rw [setPc_self] at hw'
      cases hw'
      exact .inl ⟨.m_runnableQueue w', by rw [hq]; exact List.mem_cons_self⟩
    · exact .inr ⟨w', (setPc_of_ne hw).symm.trans hw'⟩

/-- **Each step** keeps the tasks that are done out of all lists. -/
theorem step_ended {e : Event} (h : Sound s) (he : Ended s) (hs : step s e = some s') :
    Ended s' := by
  cases e with
  | createTask w =>
    rw [step_createTask.mp hs]
    have hnew : Ended ((s.setTask s.created ⟨.runnable, 0, none⟩).push (.m_newQueue w) s.created) :=
      (he.setTask (by simp)).push (by simp [State.setTask])
    exact hnew
  | pop w =>
    obtain ⟨-, ⟨-, rfl⟩ | ⟨tk, rest, hq, rfl⟩⟩ := step_pop.mp hs
    · exact he.setPc (by simp)
    · exact he.pop h.queue hq
  | swapIn w =>
    obtain ⟨tk, hpc, rfl⟩ := step_swapIn.mp hs
    exact (he.setTask (by simp)).setPc (by simp)
  | suspend w =>
    obtain ⟨tk, wrk, hpc, hwrk, -, rfl⟩ := step_suspend.mp hs
    have hblocked : Ended ((s.setTask tk { s.tasks tk with
        _state := .block, _supperId := (s.tasks tk)._supperId + 1 }).push (.m_waitQueue wrk) tk) :=
      (he.setTask (by simp)).push (by simp [State.setTask])
    exact hblocked
  | finish w =>
    obtain ⟨tk, hpc, hstate, rfl⟩ := step_finish.mp hs
    obtain ⟨hnone, hpopped⟩ := h.active hpc hstate
    apply he.setTask
    rintro - (hstored | ⟨w', hw'⟩)
    · exact hnone hstored
    · exact hpopped w' hw'
  | swapOut w =>
    obtain ⟨tk, -, rfl⟩ := step_swapOut.mp hs
    exact he.setPc (by simp)
  | switch w =>
    obtain ⟨tk, -, ⟨-, rfl⟩ | ⟨-, rfl⟩⟩ := step_switch.mp hs
    · exact he.setPc (by simp)
    · have hforget : Ended (s.setPc w .check) := he.setPc (by simp)
      exact hforget
  | check w =>
    obtain ⟨-, rfl⟩ := step_check.mp hs
    apply he.setPc
    intro tk
    split <;> simp
  | takeNew w =>
    obtain ⟨-, rfl⟩ := step_takeNew.mp hs
    exact (he.moveAll h.queue (by simp)).setPc (by simp)
  | moveRunnable w =>
    obtain ⟨-, rfl⟩ := step_moveRunnable.mp hs
    exact (he.moveAll h.queue (by simp)).setPc (by simp)
  | wakeup tk id =>
    obtain ⟨-, ⟨-, rfl⟩ | ⟨wrk, -, rfl⟩⟩ := step_wakeup.mp hs
    · exact he
    · exact he
  | wakeupBySelf k =>
    obtain ⟨-, ⟨-, rfl⟩ | ⟨-, hmem, rfl⟩⟩ := step_wakeupBySelf.mp hs
    · exact he
    · have hcounted : Ended (s.setTask k.tk
          { s.tasks k.tk with _supperId := (s.tasks k.tk)._supperId + 1 }) :=
        he.setTask (he k.tk)
      have hwoken : Ended ((s.setTask k.tk
          { s.tasks k.tk with _supperId := (s.tasks k.tk)._supperId + 1 }).move
            (.m_waitQueue k.wrk) (.m_runnableQueue k.wrk) [k.tk]
            ((s.queue (.m_waitQueue k.wrk)).erase k.tk)) :=
        hcounted.move h.queue (by simp) (List.perm_cons_erase hmem)
      exact hwoken
  | steal w n =>
    rcases step_steal hs with rfl | ⟨rest, rfl⟩
    · exact he
    · refine he.move h.queue (by simp) (List.Perm.trans ?_ List.perm_append_comm)
      rw [List.take_append_drop]
  | stealNew w =>
    obtain ⟨-, rfl⟩ := step_stealNew.mp hs
    have hmoved : Ended (s.moveAll (.m_newQueue w) .steal_list) := he.moveAll h.queue (by simp)
    exact hmoved
  | stealRunnable =>
    obtain ⟨w, -, rfl⟩ := step_stealRunnable.mp hs
    have hmoved : Sound (s.moveAll (.m_runnableQueue w) .tasks) := h.moveAll (by simp) (by simp)
    have hboth : Ended ((s.moveAll (.m_runnableQueue w) .tasks).moveAll .steal_list .tasks) :=
      (he.moveAll h.queue (by simp)).moveAll hmoved.queue (by simp)
    exact hboth
  | addTask w n =>
    obtain ⟨-, rfl⟩ := step_addTask.mp hs
    refine he.move h.queue (by simp) ?_
    rw [List.take_append_drop]

end MagicNet.Worker

namespace MagicNet.Dispatcher

open MagicNet.Foundation MagicNet.Util
open MagicNet.Worker (Place Sound Ended)

/-! ## Queues that share no node -/

/-- The queues and lists hold the items of the table, each item once.  Of a wait queue's `m_head`
nothing is known but whether it is null. -/
structure Shape (mem : Memory ℕ) (ends : Place → Ends ℕ) (t : Place → List ℕ) : Prop where
  exclusive : Exclusive t
  holds : ∀ p, (ends p).Holds mem (t p)
  head : ∀ p, (∀ w, p ≠ .m_waitQueue w) → (ends p).m_head = (t p).head?

namespace Shape

variable {mem mem' : Memory ℕ} {ends ends' : Place → Ends ℕ} {t t' : Place → List ℕ}
  {p p' : Place} {q q' : Ends ℕ} {moved rest : List ℕ} {a : ℕ}

/-- A place where nobody waits has an exact list. -/
theorem exact (h : Shape mem ends t) (hp : ∀ w, p ≠ .m_waitQueue w) :
    (ends p).Exact mem (t p) := ⟨h.holds p, h.head p hp⟩

/-- The items that are read back from the tails. -/
theorem items_eq (h : Shape mem ends t) : (fun p => (ends p).items mem) = t :=
  funext fun p => (h.holds p).items_eq

/-- Each queue is one of those the operation is about, or the operation leaves it and its nodes
alone. -/
theorem change (h : Shape mem ends t) (hexclusive : Exclusive t')
    (hplaces : ∀ p, ((ends' p).Holds mem' (t' p) ∧
        ((∀ w, p ≠ .m_waitQueue w) → (ends' p).m_head = (t' p).head?)) ∨
      (ends' p = ends p ∧ t' p = t p ∧ ∀ a ∈ t p, mem.Same mem' a)) : Shape mem' ends' t' := by
  refine ⟨hexclusive, fun p => ?_, fun p hp => ?_⟩
  · rcases hplaces p with ⟨hholds, -⟩ | ⟨hends, ht, hsame⟩
    · exact hholds
    · rw [hends, ht]
      exact (h.holds p).congr hsame
  · rcases hplaces p with ⟨-, hhead⟩ | ⟨hends, ht, -⟩
    · exact hhead hp
    · rw [hends, ht]
      exact h.head p hp

/-- An item that stands nowhere is put behind the items at `p`. -/
theorem put (h : Shape mem ends t) (ha : ¬ Stored t a) (hq : q.Holds mem' (t p ++ [a]))
    (hhead : (ends p).m_head = (t p).head? → q.m_head = (t p ++ [a]).head?)
    (hsame : ∀ b ∉ t p ++ [a], mem.Same mem' b) :
    Shape mem' (Function.update ends p q) (Function.update t p (t p ++ [a])) := by
  apply h.change (h.exclusive.put ha)
  intro p'
  by_cases hne : p' = p
  · subst hne
    rw [Function.update_self, Function.update_self]
    exact .inl ⟨hq, fun hp => hhead (h.head _ hp)⟩
  · refine .inr ⟨Function.update_of_ne hne _ _, Function.update_of_ne hne _ _, fun b hb => ?_⟩
    apply hsame
    rw [List.mem_append, List.mem_singleton]
    rintro (hmem | rfl)
    · exact hne (h.exclusive.unique hb hmem)
    · exact ha ⟨p', hb⟩

/-- An item is taken out of the items at `p`. -/
theorem take (h : Shape mem ends t) (hperm : (t p).Perm (a :: rest)) (hq : q.Exact mem' rest)
    (hsame : ∀ b ∉ t p, mem.Same mem' b) :
    Shape mem' (Function.update ends p q) (Function.update t p rest) := by
  apply h.change (h.exclusive.take hperm)
  intro p'
  by_cases hne : p' = p
  · subst hne
    rw [Function.update_self, Function.update_self]
    exact .inl ⟨hq.toHolds, fun _ => hq.head⟩
  · refine .inr ⟨Function.update_of_ne hne _ _, Function.update_of_ne hne _ _, fun b hb => ?_⟩
    exact hsame b fun hmem => hne (h.exclusive.unique hb hmem)

/-- A part of the items at `p` goes behind those at `p'`. -/
theorem move (h : Shape mem ends t) (hne : p ≠ p') (hperm : (t p).Perm (moved ++ rest))
    (hq : q.Holds mem' rest) (hhead : (∀ w, p ≠ .m_waitQueue w) → q.m_head = rest.head?)
    (hq' : q'.Exact mem' (t p' ++ moved))
    (hsame : ∀ b, b ∉ t p → b ∉ t p' → mem.Same mem' b) :
    Shape mem' (Function.update (Function.update ends p q) p' q')
      (moveTable t p p' moved rest) := by
  apply h.change (h.exclusive.move hne hperm)
  intro r
  by_cases hr' : r = p'
  · subst hr'
    rw [Function.update_self, moveTable_target]
    exact .inl ⟨hq'.toHolds, fun _ => hq'.head⟩
  · rw [Function.update_of_ne hr']
    by_cases hr : r = p
    · subst hr
      rw [Function.update_self, moveTable_source hne]
      exact .inl ⟨hq, hhead⟩
    · rw [Function.update_of_ne hr, moveTable_of_ne hr hr']
      refine .inr ⟨rfl, rfl, fun b hb => hsame b ?_ ?_⟩
      · exact fun hmem => hr (h.exclusive.unique hb hmem)
      · exact fun hmem => hr' (h.exclusive.unique hb hmem)

/-- All items at `p` and then all at `p'` go behind those at `r`. -/
theorem gather {r : Place} (h : Shape mem ends t) (hp : p ≠ p') (hr : p ≠ r) (hr' : p' ≠ r)
    (hq : q.Exact mem' (t r ++ (t p ++ t p')))
    (hsame : ∀ b, b ∉ t r → b ∉ t p → b ∉ t p' → mem.Same mem' b) :
    Shape mem' (Function.update (Function.update (Function.update ends p .zero) p' .zero) r q)
      (moveTable (moveTable t p r (t p) []) p' r (moveTable t p r (t p) [] p') []) := by
  have hfirst : Exclusive (moveTable t p r (t p) []) :=
    h.exclusive.move hr (by rw [List.append_nil])
  apply h.change (hfirst.move hr' (by rw [List.append_nil]))
  intro k
  by_cases hk : k = r
  · subst hk
    refine .inl ⟨?_, fun _ => ?_⟩
    · simpa [moveTable, hr, hr', hp.symm] using hq.toHolds
    · simpa [moveTable, hr, hr', hp.symm] using hq.head
  · by_cases hk' : k = p ∨ k = p'
    · have hzero : (Function.update (Function.update (Function.update ends p .zero) p' .zero)
          r q) k = .zero := by
        rcases hk' with rfl | rfl
        · simp [hk, hp]
        · simp [hk]
      have hnil : moveTable (moveTable t p r (t p) []) p' r (moveTable t p r (t p) [] p') [] k =
          [] := by
        rcases hk' with rfl | rfl
        · simp [moveTable, hk, hp]
        · simp [moveTable, hk]
      rw [hzero, hnil]
      exact .inl ⟨Ends.exact_zero.toHolds, fun _ => rfl⟩
    · rw [not_or] at hk'
      refine .inr ⟨by simp [hk, hk'], by simp [moveTable, hk, hk'], fun b hb => ?_⟩
      have hne : ∀ {i}, k ≠ i → b ∉ t i := fun hki hmem => hki (h.exclusive.unique hb hmem)
      exact hsame b (hne hk) (hne hk'.1) (hne hk'.2)

end Shape

/-! ## The workers' steps -/

variable {s s' : State} {a : Worker.State} {w : ℕ}

/-- The step has kept the queues in shape, has brought the workers to `a`, and has left the
dispatcher where it was. -/
structure Result (s : State) (a : Worker.State) (s' : State) : Prop where
  shape : Shape s'.mem s'.ends s'.items
  workers : s'.workers = a
  works : s'.works = s.works
  pc : s'.pc = s.pc
  busyings : s'.busyings = s.busyings
  loadMaps : s'.loadMaps = s.loadMaps
  newLoadMaps : s'.newLoadMaps = s.newLoadMaps

/-- The items of lists in shape. -/
theorem items_of_shape {t : Place → List ℕ} (h : Shape s.mem s.ends t) : s.items = t := h.items_eq

/-- Lists in shape are so for their own items. -/
theorem shape_items {t : Place → List ℕ} (h : Shape s.mem s.ends t) :
    Shape s.mem s.ends s.items := by
  rw [items_of_shape h]
  exact h

/-- The parts of the workers' state. -/
theorem workers_eq (hqueue : s.items = a.queue) (hpc : s.worker = a.pc)
    (hgcc : s.m_gccQueue = a.m_gccQueue) (htasks : s.tasks = a.tasks)
    (hcreated : s.created = a.created) (hissued : s.issued = a.issued)
    (hwakers : s.wakers = a.wakers) (hstealing : s.pc.stealing = a.stealing) : s.workers = a := by
  obtain ⟨queue, pc, gcc, tasks, created, issued, wakers, stealing⟩ := a
  subst hqueue hpc hgcc htasks hcreated hissued hwakers hstealing
  rfl

/-- A step of the workers that touches no queue. -/
theorem setWorkers_result (h : Shape s.mem s.ends s.items) (hqueue : a.queue = s.items)
    (hstealing : a.stealing = s.pc.stealing) : Result s a (s.setWorkers a) := by
  refine ⟨h, ?_, rfl, rfl, rfl, rfl, rfl⟩
  exact workers_eq hqueue.symm rfl rfl rfl rfl rfl rfl hstealing.symm

/-- A task that is nowhere can be put at the end. -/
theorem nodup_concat {t : Place → List ℕ} {p : Place} {tk : ℕ} (h : Exclusive t)
    (htk : ¬ Stored t tk) : (t p ++ [tk]).Nodup := by
  rw [List.nodup_append_comm, List.singleton_append, List.nodup_cons]
  exact ⟨fun hmem => htk ⟨p, hmem⟩, h.nodup p⟩

/-- Two places have no task in common. -/
theorem nodup_append {t : Place → List ℕ} {p p' : Place} (h : Exclusive t) (hne : p ≠ p') :
    (t p ++ t p').Nodup :=
  List.nodup_append'.mpr ⟨h.nodup p, h.nodup p', fun _ ha ha' => hne (h.unique ha ha')⟩

/-- A new task on the lists of pointers.
SOURCE: operation/scheduler.cc:69-76 -/
theorem createTask_result (h : Shape s.mem s.ends s.items) (hs : Sound s.workers)
    (hstep : Worker.step s.workers (.createTask w) = some a) :
    ∃ s', work s (.createTask w) = some s' ∧ Result s a s' := by
  have hnone : ¬ Stored s.items s.created := fun hstored =>
    absurd (hs.stored _ hstored) (Nat.lt_irrefl _)
  obtain ⟨mem, q, hpush, hq, hhead, hsame⟩ :=
    Ends.pushUnlock_holds (h.holds (.m_newQueue w)) (nodup_concat h.exclusive hnone)
  have hshape := h.put hnone hq hhead hsame
  rw [Worker.step_createTask] at hstep
  subst hstep
  refine ⟨{ s.setEnds mem (.m_newQueue w) q with
    tasks := Function.update s.tasks s.created ⟨.runnable, 0, none⟩
    created := s.created + 1 }, ?_, shape_items hshape, ?_, rfl, rfl, rfl, rfl, rfl⟩
  · simp only [work, hpush]
    rfl
  · exact workers_eq (items_of_shape hshape) rfl rfl rfl rfl rfl rfl rfl

/-- So the task that a worker runs next.
SOURCE: operation/worker.cc:178-215 -/
theorem pop_result (h : Shape s.mem s.ends s.items)
    (hstep : Worker.step s.workers (.pop w) = some a) :
    ∃ s', work s (.pop w) = some s' ∧ Result s a s' := by
  have hq := h.exact (p := .m_runnableQueue w) (by simp)
  obtain ⟨htop, hcase⟩ := Worker.step_pop.mp hstep
  have htop : s.worker w = .top := htop
  rcases hcase with ⟨hnil, rfl⟩ | ⟨tk, rest, hcons, rfl⟩
  · have hnil : s.items (.m_runnableQueue w) = [] := hnil
    rw [hnil] at hq
    have hsame : Function.update s.ends (.m_runnableQueue w) (s.ends (.m_runnableQueue w)) =
        s.ends := Function.update_eq_self _ _
    refine ⟨(s.setEnds s.mem (.m_runnableQueue w) (s.ends (.m_runnableQueue w))).setWorker w .check,
      ?_, ?_⟩
    · simp only [work, if_pos htop, Ends.popUnlock_nil hq]
      rfl
    · have hshape : Shape s.mem (Function.update s.ends (.m_runnableQueue w)
          (s.ends (.m_runnableQueue w))) s.items := hsame.symm ▸ h
      refine ⟨shape_items hshape, ?_, rfl, rfl, rfl, rfl, rfl⟩
      exact workers_eq (items_of_shape hshape) rfl rfl rfl rfl rfl rfl rfl
  · have hcons : s.items (.m_runnableQueue w) = tk :: rest := hcons
    have hnodup := h.exclusive.nodup (.m_runnableQueue w)
    rw [hcons] at hq hnodup
    obtain ⟨mem, q, hpop, hq', hsame⟩ := Ends.popUnlock_exact hq hnodup
    rw [← hcons] at hsame
    have hshape := h.take (by rw [hcons]) hq' hsame
    refine ⟨(s.setEnds mem (.m_runnableQueue w) q).setWorker w (.popped tk), ?_,
      shape_items hshape, ?_, rfl, rfl, rfl, rfl, rfl⟩
    · simp only [work, if_pos htop, hpop]
      rfl
    · exact workers_eq (items_of_shape hshape) rfl rfl rfl rfl rfl rfl rfl

/-- So a suspension.
SOURCE: operation/worker.cc:120-129 -/
theorem suspend_result (h : Shape s.mem s.ends s.items) (hs : Sound s.workers)
    (hstep : Worker.step s.workers (.suspend w) = some a) :
    ∃ s', work s (.suspend w) = some s' ∧ Result s a s' := by
  obtain ⟨tk, wrk, hpc, hwrk, hassert, rfl⟩ := Worker.step_suspend.mp hstep
  have hnone : ¬ Stored s.items tk := (hs.active hpc hassert.2).1
  have hpc : s.worker w = .executing tk := hpc
  have hwrk : (s.tasks tk)._lpWorker = some wrk := hwrk
  have hassert : (s.worker wrk).m_runnable = some tk ∧ (s.tasks tk)._state = .runnable := hassert
  obtain ⟨mem, q, hpush, hq, hhead, hsame⟩ :=
    Ends.pushUnlock_holds (h.holds (.m_waitQueue wrk)) (nodup_concat h.exclusive hnone)
  have hshape := h.put hnone hq hhead hsame
  refine ⟨{ s.setEnds mem (.m_waitQueue wrk) q with
    tasks := Function.update s.tasks tk
      { s.tasks tk with _state := .block, _supperId := (s.tasks tk)._supperId + 1 }
    issued := (tk, (s.tasks tk)._supperId + 1) :: s.issued }, ?_, shape_items hshape, ?_, rfl, rfl,
    rfl, rfl, rfl⟩
  · simp only [work, hpc, hwrk, if_pos hassert, hpush]
    rfl
  · exact workers_eq (items_of_shape hshape) rfl rfl rfl rfl rfl rfl rfl

/-- So a look at the queues.
SOURCE: operation/worker.cc:178-215 -/
theorem check_result (h : Shape s.mem s.ends s.items)
    (hstep : Worker.step s.workers (.check w) = some a) :
    ∃ s', work s (.check w) = some s' ∧ Result s a s' := by
  obtain ⟨hpc, rfl⟩ := Worker.step_check.mp hstep
  have hpc : s.worker w = .check := hpc
  have hempty := (h.holds (.m_runnableQueue w)).empty
  refine ⟨_, if_pos hpc, h, ?_, rfl, rfl, rfl, rfl, rfl⟩
  refine workers_eq rfl ?_ rfl rfl rfl rfl rfl rfl
  by_cases hnil : (s.ends (.m_runnableQueue w)).m_head = none
  · have hitems : s.workers.queue (.m_runnableQueue w) = [] := hempty.mp hnil
    rw [if_pos hnil, if_pos hitems]
    rfl
  · have hitems : s.workers.queue (.m_runnableQueue w) ≠ [] := fun heq => hnil (hempty.mpr heq)
    rw [if_neg hnil, if_neg hitems]
    rfl

/-- So the first half of `moveRunnable`, which takes the new tasks.
SOURCE: operation/worker.cc:168 -/
theorem takeNew_result (h : Shape s.mem s.ends s.items) (hmoving : s.items (.moving w) = [])
    (hstep : Worker.step s.workers (.takeNew w) = some a) :
    ∃ s', work s (.takeNew w) = some s' ∧ Result s a s' := by
  obtain ⟨hpc, rfl⟩ := Worker.step_takeNew.mp hstep
  have hpc : s.worker w = .refill := hpc
  have hnew := h.exact (p := .m_newQueue w) (by simp)
  have hshape : Shape s.mem _ (moveTable s.items (.m_newQueue w) (.moving w)
      (s.items (.m_newQueue w)) []) :=
    h.move (by simp) (by rw [List.append_nil]) Ends.exact_zero.toHolds (fun _ => rfl)
      (by rw [hmoving]; exact hnew) fun _ _ _ => ⟨rfl, rfl⟩
  refine ⟨((s.setEnds s.mem (.m_newQueue w) .zero).setEnds s.mem (.moving w)
    (s.ends (.m_newQueue w))).setWorker w .moving, ?_, shape_items hshape, ?_, rfl, rfl, rfl, rfl,
    rfl⟩
  · simp only [work, if_pos hpc, Ends.popBackAllUnlock_eq hnew]
  · exact workers_eq (items_of_shape hshape) rfl rfl rfl rfl rfl rfl rfl

/-- And the second, which puts them behind the runnable ones.
SOURCE: operation/worker.cc:168 -/
theorem moveRunnable_result (h : Shape s.mem s.ends s.items)
    (hstep : Worker.step s.workers (.moveRunnable w) = some a) :
    ∃ s', work s (.moveRunnable w) = some s' ∧ Result s a s' := by
  obtain ⟨hpc, rfl⟩ := Worker.step_moveRunnable.mp hstep
  have hpc : s.worker w = .moving := hpc
  obtain ⟨mem, q, hpush, hq, hsame⟩ := Ends.pushListUnlock_exact
    (h.exact (p := .m_runnableQueue w) (by simp)) (h.exact (p := .moving w) (by simp))
    (nodup_append h.exclusive (by simp))
  have hshape : Shape mem _ (moveTable s.items (.moving w) (.m_runnableQueue w)
      (s.items (.moving w)) []) :=
    h.move (by simp) (by rw [List.append_nil]) Ends.exact_zero.toHolds (fun _ => rfl) hq
      fun b hb hb' => hsame b (by simp [hb, hb'])
  refine ⟨((s.setEnds mem (.moving w) .zero).setEnds mem (.m_runnableQueue w) q).setWorker w .top,
    ?_, shape_items hshape, ?_, rfl, rfl, rfl, rfl, rfl⟩
  · simp only [work, if_pos hpc, hpush]
    rfl
  · exact workers_eq (items_of_shape hshape) rfl rfl rfl rfl rfl rfl rfl

/-- So a wake-up.
SOURCE: operation/worker.cc:143-166 -/
theorem wakeupBySelf_result {k : Worker.Waker} (h : Shape s.mem s.ends s.items)
    (hstep : Worker.step s.workers (.wakeupBySelf k) = some a) :
    ∃ s', work s (.wakeupBySelf k) = some s' ∧ Result s a s' := by
  obtain ⟨hk, hcase⟩ := Worker.step_wakeupBySelf.mp hstep
  have hk : k ∈ s.wakers := hk
  rcases hcase with ⟨hid, rfl⟩ | ⟨hid, hmem, rfl⟩
  · have hid : k.id ≠ (s.tasks k.tk)._supperId := hid
    refine ⟨{ s with wakers := s.wakers.erase k }, ?_, h, rfl, rfl, rfl, rfl, rfl, rfl⟩
    simp only [work, if_pos hk, if_neg hid]
  · have hid : k.id = (s.tasks k.tk)._supperId := hid
    have hmem : k.tk ∈ s.items (.m_waitQueue k.wrk) := hmem
    obtain ⟨l, m, hsplit⟩ := List.append_of_mem hmem
    have hwait := h.holds (.m_waitQueue k.wrk)
    have hnodup := h.exclusive.nodup (.m_waitQueue k.wrk)
    have hrun := h.exact (p := .m_runnableQueue k.wrk) (by simp)
    have hapart : ∀ b ∈ s.items (.m_runnableQueue k.wrk), b ∉ s.items (.m_waitQueue k.wrk) := by
      intro b hb hb'
      cases h.exclusive.unique hb hb'
    rw [hsplit] at hwait hnodup hapart
    obtain ⟨mem₁, wait, mem₂, q, herase, hpush, hwait', hq, hsame⟩ :=
      Ends.erase_push hwait hrun hnodup (h.exclusive.nodup _) hapart
    rw [← hsplit] at hsame
    have herased : (s.items (.m_waitQueue k.wrk)).erase k.tk = l ++ m := by
      have hnot : k.tk ∉ l := fun hb =>
        (List.nodup_cons.mp (List.perm_middle.nodup_iff.mp hnodup)).1 (List.mem_append_left m hb)
      rw [hsplit, List.erase_append_right _ hnot, List.erase_cons_head]
    have hshape : Shape mem₂ _ (moveTable s.items (.m_waitQueue k.wrk) (.m_runnableQueue k.wrk)
        [k.tk] ((s.items (.m_waitQueue k.wrk)).erase k.tk)) :=
      h.move (by simp) (List.perm_cons_erase hmem) (herased ▸ hwait')
        (fun hnot => absurd rfl (hnot k.wrk)) hq hsame
    refine ⟨{ (s.setEnds mem₂ (.m_waitQueue k.wrk) wait).setEnds mem₂ (.m_runnableQueue k.wrk) q
        with
      tasks := Function.update s.tasks k.tk
        { s.tasks k.tk with _supperId := (s.tasks k.tk)._supperId + 1 }
      wakers := s.wakers.erase k }, ?_, shape_items hshape, ?_, rfl, rfl, rfl, rfl, rfl⟩
    · simp only [work, if_pos hk, if_pos hid, herase, Option.bind_eq_bind, Option.bind_some, hpush]
      rfl
    · exact workers_eq (items_of_shape hshape) rfl rfl rfl rfl rfl rfl rfl

/-! ## Any step of the workers -/

/-- The steps that `Model.Worker` has for the dispatcher. -/
def IsDispatcher : Worker.Event → Prop
  | .steal _ _ | .stealNew _ | .stealRunnable | .addTask _ _ => True
  | _ => False

/-- **A step of the workers**, done on the linked queues, is the step of `Model.Worker`. -/
theorem work_result {e : Worker.Event} (h : Shape s.mem s.ends s.items) (hs : Sound s.workers)
    (hmoving : ∀ w, s.worker w ≠ .moving → s.items (.moving w) = []) (he : ¬ IsDispatcher e)
    (hstep : Worker.step s.workers e = some a) : ∃ s', work s e = some s' ∧ Result s a s' := by
  have hplain : ∀ {e}, work s e = (Worker.step s.workers e).map s.setWorkers →
      Worker.step s.workers e = some a → a.queue = s.items → a.stealing = s.pc.stealing →
      ∃ s', work s e = some s' ∧ Result s a s' := by
    intro e hwork hstep hqueue hstealing
    refine ⟨s.setWorkers a, ?_, setWorkers_result h hqueue hstealing⟩
    rw [hwork, hstep]
    rfl
  cases e with
  | createTask w => exact createTask_result h hs hstep
  | pop w => exact pop_result h hstep
  | suspend w => exact suspend_result h hs hstep
  | check w => exact check_result h hstep
  | takeNew w =>
    have hpc : s.worker w = .refill := (Worker.step_takeNew.mp hstep).1
    exact takeNew_result h (hmoving w (by simp [hpc])) hstep
  | moveRunnable w => exact moveRunnable_result h hstep
  | wakeupBySelf k => exact wakeupBySelf_result h hstep
  | swapIn w =>
    obtain ⟨tk, -, rfl⟩ := Worker.step_swapIn.mp hstep
    exact hplain rfl hstep rfl rfl
  | finish w =>
    obtain ⟨tk, -, -, rfl⟩ := Worker.step_finish.mp hstep
    exact hplain rfl hstep rfl rfl
  | swapOut w =>
    obtain ⟨tk, -, rfl⟩ := Worker.step_swapOut.mp hstep
    exact hplain rfl hstep rfl rfl
  | switch w =>
    obtain ⟨tk, -, ⟨-, rfl⟩ | ⟨-, rfl⟩⟩ := Worker.step_switch.mp hstep
    · exact hplain rfl hstep rfl rfl
    · exact hplain rfl hstep rfl rfl
  | wakeup tk id =>
    obtain ⟨-, ⟨-, rfl⟩ | ⟨wrk, -, rfl⟩⟩ := Worker.step_wakeup.mp hstep
    · exact hplain rfl hstep rfl rfl
    · exact hplain rfl hstep rfl rfl
  | steal | stealNew | stealRunnable | addTask => exact absurd trivial he

/-- And where `Model.Worker` has no step, there is none. -/
theorem work_none {e : Worker.Event} (hs : Sound s.workers)
    (hstep : Worker.step s.workers e = none) : work s e = none := by
  cases e with
  | createTask w => simp [Worker.step] at hstep
  | pop w =>
    have htop : s.worker w ≠ .top := by
      intro htop
      have htop : s.workers.pc w = .top := htop
      cases hq : s.workers.queue (.m_runnableQueue w) <;> simp [Worker.step, htop, hq] at hstep
    simp [work, htop]
  | suspend w =>
    cases hpc : s.worker w with
    | executing tk =>
      have hpc' : s.workers.pc w = .executing tk := hpc
      cases hwrk : (s.tasks tk)._lpWorker with
      | none => simp [work, hpc, hwrk]
      | some wrk =>
        have hwrk' : (s.workers.tasks tk)._lpWorker = some wrk := hwrk
        simp only [Worker.step, hpc', hwrk'] at hstep
        split at hstep
        · cases hstep
        · next hassert => simp only [work, hpc, hwrk]; exact if_neg hassert
    | _ => simp [work, hpc]
  | check w =>
    have hpc : s.worker w ≠ .check := fun hpc => by
      simp [Worker.step, show s.workers.pc w = .check from hpc] at hstep
    exact if_neg hpc
  | takeNew w =>
    have hpc : s.worker w ≠ .refill := fun hpc => by
      simp [Worker.step, show s.workers.pc w = .refill from hpc] at hstep
    exact if_neg hpc
  | moveRunnable w =>
    have hpc : s.worker w ≠ .moving := fun hpc => by
      simp [Worker.step, show s.workers.pc w = .moving from hpc] at hstep
    exact if_neg hpc
  | wakeupBySelf k =>
    have hk : k ∉ s.wakers := by
      intro hk
      by_cases hid : k.id = (s.workers.tasks k.tk)._supperId
      · have hmem := (hs.waits hk hid).2
        have hk : k ∈ s.workers.wakers := hk
        simp [Worker.step, hk, hid, hmem] at hstep
      · have hk : k ∈ s.workers.wakers := hk
        simp [Worker.step, hk, hid] at hstep
    exact if_neg hk
  | swapIn w => simp [work, hstep]
  | finish w => simp [work, hstep]
  | swapOut w => simp [work, hstep]
  | switch w => simp [work, hstep]
  | wakeup tk id => simp [work, hstep]
  | steal | stealNew | stealRunnable | addTask => rfl

end MagicNet.Dispatcher
