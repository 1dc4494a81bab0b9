import MagicNet.Analysis.TaskPlaces

/-!
# When the workers lose no task and run none twice

A task that yields without having been suspended is forgotten by its worker: nobody has put it
into a queue.  A task that has been woken before it has given its worker back stands in the
runnable queue while it runs, and `steal(0)`, which empties that queue, gives it to another
worker, which switches to a context that has not been saved.  Without these two steps every task
that is not done is held by one worker or stands in one place.
-/

set_option autoImplicit false

namespace MagicNet.Worker

open MagicNet.Foundation

variable {s s' : State} {w w' tk : ℕ}

/-! ## The invariant -/

/-- A running task belongs to the worker; it stands in one of the worker's queues when it has
been suspended, and nowhere else. -/
structure Runs (s : State) (w tk : ℕ) : Prop where
  owner : (s.tasks tk)._lpWorker = some w
  suspended : (s.tasks tk)._state = .block →
    tk ∈ s.queue (.m_waitQueue w) ∨ tk ∈ s.queue (.m_runnableQueue w)
  awake : (s.tasks tk)._state ≠ .block → ¬ Stored s.queue tk

structure Inv (s : State) : Prop where
  queue : Exclusive s.queue
  stored : ∀ tk, Stored s.queue tk → tk < s.created
  known : ∀ w tk, (s.pc w).Holds tk → tk < s.created
  holder : ∀ w w' tk, (s.pc w).Holds tk → (s.pc w').Holds tk → w = w'
  popped : ∀ w tk, s.pc w = .popped tk → ¬ Stored s.queue tk
  runs : ∀ w tk, s.pc w = .executing tk → Runs s w tk
  kept : NoneLost s
  entries : ∀ tk id, (tk, id) ∈ s.issued → EntryOk s tk id
  wakers : ∀ k ∈ s.wakers, WakerOk s k

/-- A running task stands in its worker's own queues only. -/
theorem Inv.place_of_runs {p : Place} (h : Inv s) (hpc : s.pc w = .executing tk)
    (hp : tk ∈ s.queue p) : p = .m_waitQueue w ∨ p = .m_runnableQueue w := by
  have hruns := h.runs w tk hpc
  by_cases hstate : (s.tasks tk)._state = .block
  · rcases hruns.suspended hstate with hwait | hrun
    · exact .inl (h.queue.unique hp hwait)
    · exact .inr (h.queue.unique hp hrun)
  · exact absurd ⟨p, hp⟩ (hruns.awake hstate)

/-- A state whose tasks stand where they can. -/
theorem Inv.of_sound (h : Sound s)
    (hholder : ∀ w w' tk, (s.pc w).Holds tk → (s.pc w').Holds tk → w = w')
    (hruns : ∀ w tk, s.pc w = .executing tk → Runs s w tk) (hkept : NoneLost s) : Inv s :=
  ⟨h.queue, h.stored, h.known, hholder, h.popped, hruns, hkept, h.entries, h.wakers⟩

/-- A task whose record and places are as they were runs as it did. -/
theorem Runs.transfer {t : State} (h : Runs s w tk) (htask : t.tasks tk = s.tasks tk)
    (hmem : ∀ p, tk ∈ t.queue p ↔ tk ∈ s.queue p) : Runs t w tk := by
  constructor
  · rw [htask]
    exact h.owner
  · intro hstate
    rw [htask] at hstate
    rw [hmem, hmem]
    exact h.suspended hstate
  · rintro hstate ⟨p, hp⟩
    rw [htask] at hstate
    exact h.awake hstate ⟨p, (hmem p).mp hp⟩

/-! ## Moves between lists -/

/-- Moving tasks that no worker runs, out of a list that is no wait queue, keeps the invariant. -/
theorem Inv.move {p p' : Place} {moved rest : List ℕ} (h : Inv s) (hS : Sound s) (hne : p ≠ p')
    (hperm : (s.queue p).Perm (moved ++ rest)) (hwait : ∀ w, p ≠ .m_waitQueue w)
    (hruns : ∀ w tk, s.pc w = .executing tk → tk ∉ moved) : Inv (s.move p p' moved rest) := by
  have hstay : ∀ {tk q}, tk ∉ moved →
      (tk ∈ (s.move p p' moved rest).queue q ↔ tk ∈ s.queue q) := by
    intro tk q hnot
    rw [State.move, h.queue.mem_move hne hperm]
    simp [hnot]
  apply Inv.of_sound (hS.move hne hperm hwait) h.holder
  · intro w tk hpc
    exact (h.runs w tk hpc).transfer rfl fun _ => hstay (hruns w tk hpc)
  · intro tk hlt hstate hfree
    exact (h.queue.stored_move hne hperm).mpr (h.kept tk hlt hstate hfree)

/-- The lists that hold no running task. -/
def Place.Idle : Place → Prop
  | .m_newQueue _ | .moving _ | .steal_list | .tasks => True
  | .m_runnableQueue _ | .m_waitQueue _ => False

/-- Tasks moved between places of which one is idle. -/
theorem Inv.move_idle {p p' : Place} {moved rest : List ℕ} (h : Inv s) (hS : Sound s) (hp : p.Idle)
    (hne : p ≠ p') (hperm : (s.queue p).Perm (moved ++ rest)) :
    Inv (s.move p p' moved rest) := by
  apply h.move hS hne hperm
  · rintro w rfl
    exact hp
  · intro w tk hpc hmem
    have hmem' := hperm.mem_iff.mpr (List.mem_append_left _ hmem)
    rcases h.place_of_runs hpc hmem' with rfl | rfl <;> exact hp

/-- So for all tasks of a place. -/
theorem Inv.moveAll {p p' : Place} (h : Inv s) (hS : Sound s) (hp : p.Idle) (hne : p ≠ p') :
    Inv (s.moveAll p p') := by
  apply h.move_idle hS hp hne
  rw [List.append_nil]

/-! ## Steps of a worker that holds no task -/

/-- The invariant does not look at the garbage queues and the dispatcher's progress, and asks of
the wakers only that each is in order. -/
theorem Inv.frame {m_gccQueue : ℕ → List ℕ} {stealing : Option ℕ} {wakers : List Waker}
    (h : Inv s) (hS : Sound s) (hw : ∀ k ∈ wakers, WakerOk s k) :
    Inv { s with m_gccQueue := m_gccQueue, stealing := stealing, wakers := wakers } := by
  apply Inv.of_sound (hS.frame hw) h.holder _ h.kept
  intro w tk hpc
  exact (h.runs w tk hpc).transfer rfl fun _ => Iff.rfl

/-- A worker goes on to a place at which it holds no task; the task it held, if any, stands in
some list or is done. -/
theorem Inv.setPc {pc : Pc} (h : Inv s) (hS : Sound s) (hnew : ∀ tk, ¬ pc.Holds tk)
    (hold : ∀ tk, (s.pc w).Holds tk → (s.tasks tk)._state ≠ .done → Stored s.queue tk) :
    Inv (s.setPc w pc) := by
  have hback : ∀ {w' tk}, ((s.setPc w pc).pc w').Holds tk → (s.pc w').Holds tk :=
    fun hholds => (pc_of_holds hnew hholds).2 ▸ hholds
  apply Inv.of_sound (hS.setPc hnew)
  · intro w₁ w₂ tk h₁ h₂
    exact h.holder w₁ w₂ tk (hback h₁) (hback h₂)
  · intro w' tk hpc
    have hruns := h.runs w' tk ((pc_of_holds hnew (.inr hpc)).2.symm.trans hpc)
    exact hruns.transfer rfl fun _ => Iff.rfl
  · intro tk hlt hstate hfree
    by_cases hheld : (s.pc w).Holds tk
    · exact hold tk hheld hstate
    · refine h.kept tk hlt hstate fun w' hholds => ?_
      by_cases hw : w' = w
      · subst hw
        exact hheld hholds
      · exact hfree w' (by rw [setPc_of_ne hw]; exact hholds)

/-- A worker goes on, with a task in hand neither before nor after. -/
theorem Inv.setPc_idle {pc : Pc} (h : Inv s) (hS : Sound s) (hnew : ∀ tk, ¬ pc.Holds tk)
    (hold : ∀ tk, ¬ (s.pc w).Holds tk) : Inv (s.setPc w pc) :=
  h.setPc hS hnew fun tk hholds => absurd hholds (hold tk)

/-! ## Steps of a worker that holds a task -/

/-- The worker takes a task from the front of its runnable queue.
SOURCE: operation/worker.cc:178-215 -/
theorem Inv.pop {rest : List ℕ} (h : Inv s) (hS : Sound s) (hpc : s.pc w = .top)
    (hq : s.queue (.m_runnableQueue w) = tk :: rest) :
    Inv { s.setPc w (.popped tk) with
      queue := Function.update s.queue (.m_runnableQueue w) rest } := by
  have hperm : (s.queue (.m_runnableQueue w)).Perm (tk :: rest) := by rw [hq]
  have hmem : tk ∈ s.queue (.m_runnableQueue w) := hq ▸ List.mem_cons_self
  have hfree : ∀ w', ¬ (s.pc w').Holds tk := by
    rintro w' (hpopped | hrun)
    · exact h.popped w' tk hpopped ⟨_, hmem⟩
    · rcases h.place_of_runs hrun hmem with hp | hp
      · cases hp
      · cases hp
        rw [hpc] at hrun
        cases hrun
  have hold : ∀ {w' tk'}, ((s.setPc w (.popped tk)).pc w').Holds tk' →
      w' = w ∧ tk' = tk ∨ w' ≠ w ∧ (s.pc w').Holds tk' := by
    intro w' tk' hholds
    by_cases hw : w' = w
    · subst hw
      rw [setPc_self] at hholds
      rcases hholds with heq | heq
      · exact .inl ⟨rfl, (Pc.popped.inj heq).symm⟩
      · cases heq
    · rw [setPc_of_ne hw] at hholds
      exact .inr ⟨hw, hholds⟩
  have hstay : ∀ {tk' p}, tk' ≠ tk →
      (tk' ∈ Function.update s.queue (.m_runnableQueue w) rest p ↔ tk' ∈ s.queue p) := by
    intro tk' p hne
    rw [h.queue.mem_take hperm]
    exact and_iff_left hne
  apply Inv.of_sound (hS.pop hq)
  · intro w₁ w₂ tk' h₁ h₂
    rcases hold h₁ with ⟨rfl, rfl⟩ | ⟨-, h₁'⟩ <;> rcases hold h₂ with ⟨rfl, heq⟩ | ⟨-, h₂'⟩
    · rfl
    · exact absurd h₂' (hfree w₂)
    · exact absurd (heq ▸ h₁') (hfree w₁)
    · exact h.holder w₁ w₂ tk' h₁' h₂'
  · intro w' tk' hpc'
    rcases hold (.inr hpc') with ⟨rfl, rfl⟩ | ⟨hw, hold'⟩
    · rw [setPc_self] at hpc'
      cases hpc'
    · have hne : tk' ≠ tk := fun heq => hfree w' (heq ▸ hold')
      have hruns := h.runs w' tk' ((setPc_of_ne hw).symm.trans hpc')
      exact hruns.transfer rfl fun _ => hstay hne
  · intro tk' hlt hstate hnone
    have hne : tk' ≠ tk := by
      rintro rfl
      exact hnone w (.inl (setPc_self _))
    have hfree' : ∀ w', ¬ (s.pc w').Holds tk' := by
      intro w' hholds
      by_cases hw : w' = w
      · subst hw
        rw [hpc] at hholds
        rcases hholds with heq | heq <;> cases heq
      · exact hnone w' (by rw [← setPc_of_ne hw] at hholds; exact hholds)
    obtain ⟨p, hp⟩ := h.kept tk' hlt hstate hfree'
    exact ⟨p, (hstay hne).mpr hp⟩

/-- The worker switches to the task it has popped.
SOURCE: operation/worker.cc:178-215 -/
theorem Inv.swapIn (h : Inv s) (hS : Sound s) (hpc : s.pc w = .popped tk) :
    Inv ((s.setTask tk { s.tasks tk with _state := .runnable, _lpWorker := some w }).setPc w
      (.executing tk)) := by
  have hnone := h.popped w tk hpc
  have hother : ∀ {tk'}, tk' ≠ tk → Function.update s.tasks tk
      { s.tasks tk with _state := .runnable, _lpWorker := some w } tk' = s.tasks tk' :=
    fun hne => Function.update_of_ne hne _ _
  have hiff : ∀ {w' tk'}, (Function.update s.pc w (.executing tk) w').Holds tk' ↔
      (s.pc w').Holds tk' := by
    intro w' tk'
    by_cases hw : w' = w
    · subst hw
      simp [hpc, Pc.Holds]
    · rw [Function.update_of_ne hw]
  apply Inv.of_sound (hS.swapIn hpc)
  · intro w₁ w₂ tk' h₁ h₂
    exact h.holder w₁ w₂ tk' (hiff.mp h₁) (hiff.mp h₂)
  · intro w' tk' hpc'
    by_cases hw : w' = w
    · subst hw
      rw [setPc_self] at hpc'
      cases hpc'
      refine ⟨?_, fun hstate => ?_, fun _ => hnone⟩
      · simp [State.setPc, State.setTask]
      · simp [State.setPc, State.setTask] at hstate
    · rw [setPc_of_ne hw] at hpc'
      have hne : tk' ≠ tk := by
        rintro rfl
        exact hw (h.holder w' w _ (.inr hpc') (.inl hpc))
      exact (h.runs w' tk' hpc').transfer (hother hne) fun _ => Iff.rfl
  · intro tk' hlt hstate hfree
    have hne : tk' ≠ tk := by
      rintro rfl
      exact hfree w (hiff.mpr (.inl hpc))
    have hstate' : (s.tasks tk')._state ≠ .done := by
      rw [← hother hne]
      exact hstate
    exact h.kept tk' hlt hstate' fun w' hw' => hfree w' (hiff.mpr hw')

/-- The task the worker runs suspends itself: it goes to the worker's wait queue.
SOURCE: operation/worker.cc:120-129 -/
theorem Inv.suspend (h : Inv s) (hS : Sound s) (hpc : s.pc w = .executing tk)
    (hstate : (s.tasks tk)._state = .runnable) :
    Inv { (s.setTask tk { s.tasks tk with
        _state := .block, _supperId := (s.tasks tk)._supperId + 1 }).push (.m_waitQueue w) tk with
      issued := (tk, (s.tasks tk)._supperId + 1) :: s.issued } := by
  have howner := (h.runs w tk hpc).owner
  have hother : ∀ {tk'}, tk' ≠ tk → Function.update s.tasks tk { s.tasks tk with
      _state := .block, _supperId := (s.tasks tk)._supperId + 1 } tk' = s.tasks tk' :=
    fun hne => Function.update_of_ne hne _ _
  have hself : tk ∈ Function.update s.queue (.m_waitQueue w) (s.queue (.m_waitQueue w) ++ [tk])
      (.m_waitQueue w) := Exclusive.mem_put.mpr (.inr ⟨rfl, rfl⟩)
  have hstay : ∀ {tk' p}, tk' ≠ tk → (tk' ∈ Function.update s.queue (.m_waitQueue w)
      (s.queue (.m_waitQueue w) ++ [tk]) p ↔ tk' ∈ s.queue p) := by
    intro tk' p hne
    rw [Exclusive.mem_put]
    simp [hne]
  apply Inv.of_sound (hS.suspend hpc howner hstate) h.holder
  · intro w' tk' hpc'
    by_cases hne : tk' = tk
    · subst hne
      obtain rfl := h.holder w' w _ (.inr hpc') (.inr hpc)
      refine ⟨?_, fun _ => .inl hself, fun hnot => absurd ?_ hnot⟩
      · simpa [State.push, State.setTask] using howner
      · simp [State.push, State.setTask]
    · exact (h.runs w' tk' hpc').transfer (hother hne) fun _ => hstay hne
  · intro tk' hlt hstate' hfree
    have hne : tk' ≠ tk := by
      rintro rfl
      exact hfree w (.inr hpc)
    have hold : (s.tasks tk')._state ≠ .done := by
      rw [← hother hne]
      exact hstate'
    obtain ⟨p, hp⟩ := h.kept tk' hlt hold hfree
    exact ⟨p, (hstay hne).mpr hp⟩

/-- The task the worker runs comes to its end.
SOURCE: operation/task.cc:17-31 -/
theorem Inv.finish (h : Inv s) (hS : Sound s) (hpc : s.pc w = .executing tk)
    (hstate : (s.tasks tk)._state = .runnable) :
    Inv (s.setTask tk { s.tasks tk with _state := .done }) := by
  have hruns := h.runs w tk hpc
  have hnone : ¬ Stored s.queue tk := hruns.awake (by simp [hstate])
  have hother : ∀ {tk'}, tk' ≠ tk →
      Function.update s.tasks tk { s.tasks tk with _state := .done } tk' = s.tasks tk' :=
    fun hne => Function.update_of_ne hne _ _
  apply Inv.of_sound (hS.finish hpc hstate) h.holder
  · intro w' tk' hpc'
    by_cases hne : tk' = tk
    · subst hne
      obtain rfl := h.holder w' w _ (.inr hpc') (.inr hpc)
      refine ⟨?_, fun hblock => ?_, fun _ => hnone⟩
      · simpa [State.setTask] using hruns.owner
      · simp [State.setTask] at hblock
    · exact (h.runs w' tk' hpc').transfer (hother hne) fun _ => Iff.rfl
  · intro tk' hlt hstate' hfree
    have hne : tk' ≠ tk := by
      rintro rfl
      exact hfree w (.inr hpc)
    have hold : (s.tasks tk')._state ≠ .done := by
      rw [← hother hne]
      exact hstate'
    exact h.kept tk' hlt hold hfree

/-- The task gives its worker back: it has been suspended and stands in a queue, or is done.
SOURCE: operation/worker.h:128-134 -/
theorem Inv.swapOut (h : Inv s) (hS : Sound s) (hpc : s.pc w = .executing tk)
    (hkept : (s.tasks tk)._state ≠ .runnable) : Inv (s.setPc w (.returned tk)) := by
  apply h.setPc hS (by simp [Pc.Holds])
  rintro tk' hholds hdone
  obtain rfl : tk = tk' := by simpa [hpc, Pc.Holds] using hholds
  have hblock : (s.tasks tk)._state = .block := by
    cases heq : (s.tasks tk)._state with
    | runnable => exact absurd heq hkept
    | block => rfl
    | done => exact absurd heq hdone
  rcases (h.runs w tk hpc).suspended hblock with hmem | hmem
  · exact ⟨_, hmem⟩
  · exact ⟨_, hmem⟩

/-! ## Creating and waking tasks -/

/-- A new task is in one place.
SOURCE: operation/scheduler.cc:69-76 -/
theorem Inv.createTask (h : Inv s) (hS : Sound s) :
    Inv { (s.setTask s.created ⟨.runnable, 0, none⟩).push (.m_newQueue w) s.created with
      created := s.created + 1 } := by
  have hother : ∀ {tk'}, tk' < s.created →
      Function.update s.tasks s.created ⟨.runnable, 0, none⟩ tk' = s.tasks tk' :=
    fun hlt => Function.update_of_ne hlt.ne _ _
  have hstay : ∀ {tk' p}, tk' < s.created → (tk' ∈ Function.update s.queue (.m_newQueue w)
      (s.queue (.m_newQueue w) ++ [s.created]) p ↔ tk' ∈ s.queue p) := by
    intro tk' p hlt
    rw [Exclusive.mem_put]
    simp [hlt.ne]
  apply Inv.of_sound hS.createTask h.holder
  · intro w' tk' hpc
    have hlt := h.known w' tk' (.inr hpc)
    exact (h.runs w' tk' hpc).transfer (hother hlt) fun _ => hstay hlt
  · intro tk' hlt hstate hfree
    rcases Nat.lt_succ_iff_lt_or_eq.mp hlt with hlt' | rfl
    · obtain ⟨p, hp⟩ := h.kept tk' hlt' (by rw [← hother hlt']; exact hstate) hfree
      exact ⟨p, (hstay hlt').mpr hp⟩
    · exact ⟨.m_newQueue w, Exclusive.mem_put.mpr (.inr ⟨rfl, rfl⟩)⟩

/-- A waker with a current entry moves the task from the wait queue to the runnable queue. -/
theorem Inv.wake {k : Waker} (h : Inv s) (hS : Sound s) (hk : k ∈ s.wakers)
    (hid : k.id = (s.tasks k.tk)._supperId) :
    Inv ((s.setTask k.tk
      { s.tasks k.tk with _supperId := (s.tasks k.tk)._supperId + 1 }).move
        (.m_waitQueue k.wrk) (.m_runnableQueue k.wrk) [k.tk]
        ((s.queue (.m_waitQueue k.wrk)).erase k.tk)) := by
  obtain ⟨howns, hwait⟩ := hS.waits hk hid
  have hne : Place.m_waitQueue k.wrk ≠ .m_runnableQueue k.wrk := by simp
  have hperm : (s.queue (.m_waitQueue k.wrk)).Perm
      ([k.tk] ++ (s.queue (.m_waitQueue k.wrk)).erase k.tk) := List.perm_cons_erase hwait
  have hother : ∀ {tk}, tk ≠ k.tk → Function.update s.tasks k.tk
      { s.tasks k.tk with _supperId := (s.tasks k.tk)._supperId + 1 } tk = s.tasks tk :=
    fun hnot => Function.update_of_ne hnot _ _
  have hstay : ∀ {tk p}, tk ≠ k.tk → (tk ∈ moveTable s.queue (.m_waitQueue k.wrk)
      (.m_runnableQueue k.wrk) [k.tk] ((s.queue (.m_waitQueue k.wrk)).erase k.tk) p ↔
        tk ∈ s.queue p) := by
    intro tk p hnot
    rw [h.queue.mem_move hne hperm]
    simp [hnot]
  have hself : k.tk ∈ moveTable s.queue (.m_waitQueue k.wrk) (.m_runnableQueue k.wrk) [k.tk]
      ((s.queue (.m_waitQueue k.wrk)).erase k.tk) (.m_runnableQueue k.wrk) :=
    (h.queue.mem_move hne hperm).mpr (.inl ⟨by simp, rfl⟩)
  apply Inv.of_sound (hS.wake hk hid) h.holder
  · intro w tk hpc
    have hruns := h.runs w tk hpc
    by_cases heq : tk = k.tk
    · -- the task has been suspended and still runs: it goes on with its context
      subst heq
      obtain rfl : w = k.wrk := Option.some.inj (hruns.owner.symm.trans howns)
      refine ⟨?_, fun _ => .inr hself, fun hnot => absurd ⟨_, hwait⟩ (hruns.awake ?_)⟩
      · simpa [State.move, State.setTask] using hruns.owner
      · simpa [State.move, State.setTask] using hnot
    · exact hruns.transfer (hother heq) fun _ => hstay heq
  · intro tk hlt hstate hfree
    by_cases heq : tk = k.tk
    · subst heq
      exact ⟨_, hself⟩
    · have hold : (s.tasks tk)._state ≠ .done := by
        rw [← hother heq]
        exact hstate
      exact (h.queue.stored_move hne hperm).mpr (h.kept tk hlt hold hfree)

/-! ## Runs -/

/-- **One step under the condition keeps the invariant.** -/
theorem step_inv {e : Event} (h : Inv s) (hS : Sound s) (hc : Cond s e)
    (hs : step s e = some s') : Inv s' := by
  cases e with
  | createTask w =>
    rw [step_createTask.mp hs]
    exact h.createTask hS
  | pop w =>
    obtain ⟨hpc, ⟨-, rfl⟩ | ⟨tk, rest, hq, rfl⟩⟩ := step_pop.mp hs
    · exact h.setPc_idle hS (by simp [Pc.Holds]) (by simp [hpc, Pc.Holds])
    · exact h.pop hS hpc hq
  | swapIn w =>
    obtain ⟨tk, hpc, rfl⟩ := step_swapIn.mp hs
    exact h.swapIn hS hpc
  | suspend w =>
    obtain ⟨tk, wrk, hpc, hwrk, ⟨-, hstate⟩, rfl⟩ := step_suspend.mp hs
    obtain rfl : wrk = w := Option.some.inj (hwrk.symm.trans (h.runs w tk hpc).owner)
    exact h.suspend hS hpc hstate
  | finish w =>
    obtain ⟨tk, hpc, hstate, rfl⟩ := step_finish.mp hs
    exact h.finish hS hpc hstate
  | swapOut w =>
    obtain ⟨tk, hpc, rfl⟩ := step_swapOut.mp hs
    exact h.swapOut hS hpc (hc.swapOut w tk rfl hpc)
  | switch w =>
    obtain ⟨tk, hpc, hcase⟩ := step_switch.mp hs
    have hforget : Inv (s.setPc w .check) :=
      h.setPc_idle hS (by simp [Pc.Holds]) (by simp [hpc, Pc.Holds])
    rcases hcase with ⟨-, rfl⟩ | ⟨-, rfl⟩
    · exact hforget
    · exact hforget.frame (hS.setPc (by simp [Pc.Holds])) hforget.wakers
  | check w =>
    obtain ⟨hpc, rfl⟩ := step_check.mp hs
    refine h.setPc_idle hS ?_ (by simp [hpc, Pc.Holds])
    split <;> simp [Pc.Holds]
  | takeNew w =>
    obtain ⟨hpc, rfl⟩ := step_takeNew.mp hs
    have hmoved : Inv (s.moveAll (.m_newQueue w) (.moving w)) := h.moveAll hS trivial (by simp)
    exact hmoved.setPc_idle (hS.moveAll (by simp) (by simp)) (by simp [Pc.Holds])
      (by simp [State.moveAll, State.move, hpc, Pc.Holds])
  | moveRunnable w =>
    obtain ⟨hpc, rfl⟩ := step_moveRunnable.mp hs
    have hmoved : Inv (s.moveAll (.moving w) (.m_runnableQueue w)) :=
      h.moveAll hS trivial (by simp)
    exact hmoved.setPc_idle (hS.moveAll (by simp) (by simp)) (by simp [Pc.Holds])
      (by simp [State.moveAll, State.move, hpc, Pc.Holds])
  | wakeup tk id =>
    obtain ⟨hissued, ⟨-, rfl⟩ | ⟨wrk, hwrk, rfl⟩⟩ := step_wakeup.mp hs
    · exact h
    · exact h.frame hS (List.forall_mem_cons.mpr ⟨⟨hissued, fun _ => hwrk⟩, h.wakers⟩)
  | wakeupBySelf k =>
    obtain ⟨hk, ⟨-, rfl⟩ | ⟨hid, -, rfl⟩⟩ := step_wakeupBySelf.mp hs
    · exact h.frame hS fun k' hk' => h.wakers k' (List.mem_of_mem_erase hk')
    · have hwoken := h.wake hS hk hid
      exact hwoken.frame (hS.wake hk hid) fun k' hk' => hwoken.wakers k' (List.mem_of_mem_erase hk')
  | steal w n =>
    rcases step_steal hs with rfl | ⟨rest, rfl⟩
    · exact h
    · refine h.move_idle hS trivial (by simp) (List.Perm.trans ?_ List.perm_append_comm)
      rw [List.take_append_drop]
  | stealNew w =>
    obtain ⟨-, rfl⟩ := step_stealNew.mp hs
    have hmoved : Inv (s.moveAll (.m_newQueue w) .steal_list) := h.moveAll hS trivial (by simp)
    exact hmoved.frame (hS.moveAll (by simp) (by simp)) hmoved.wakers
  | stealRunnable =>
    obtain ⟨w, hw, rfl⟩ := step_stealRunnable.mp hs
    have hmoved : Inv (s.moveAll (.m_runnableQueue w) .tasks) := by
      refine h.move hS (by simp) (by rw [List.append_nil]) (by simp) ?_
      intro w' tk hpc hmem
      rcases h.place_of_runs hpc hmem with hp | hp
      · cases hp
      · cases hp
        exact hc.steal w tk rfl hw hpc hmem
    have hplaces : Sound (s.moveAll (.m_runnableQueue w) .tasks) := hS.moveAll (by simp) (by simp)
    have hall : Inv ((s.moveAll (.m_runnableQueue w) .tasks).moveAll .steal_list .tasks) :=
      hmoved.moveAll hplaces trivial (by simp)
    exact hall.frame (hplaces.moveAll (by simp) (by simp)) hall.wakers
  | addTask w n =>
    obtain ⟨-, rfl⟩ := step_addTask.mp hs
    refine h.move_idle hS trivial (by simp) ?_
    rw [List.take_append_drop]

/-- At the start there are no tasks. -/
theorem inv_of_starts (h : Starts s) : Inv s := by
  have hfree : ∀ w tk, ¬ (s.pc w).Holds tk := by
    intro w tk hholds
    rcases hholds with heq | heq <;> simp [h.pc w] at heq
  apply Inv.of_sound (sound_of_starts h)
  · intro w w' tk hholds
    exact absurd hholds (hfree w tk)
  · intro w tk hpc
    exact absurd (.inr hpc) (hfree w tk)
  · intro tk hlt
    simp [h.created] at hlt

/-- Every run whose steps meet the condition keeps the invariant. -/
theorem inv_of_via (h : system.Via Cond s) : Inv s := by
  have hboth : Inv s ∧ Sound s := by
    apply h.invariant (I := fun s => Inv s ∧ Sound s)
    · intro s hs
      exact ⟨inv_of_starts hs, sound_of_starts hs⟩
    · intro s e s' hI hc hs
      exact ⟨step_inv hI.1 hI.2 hc hs, step_sound hI.2 hs⟩
  exact hboth.1

/-- A task that gives its worker back is kept exactly when it had not just yielded; it then
stands in one of the worker's own queues, unless it is done.
SOURCE: operation/worker.h:128-134 -/
theorem swapOut_kept (h : Inv s) (hS : Sound s) (hpc : s.pc w = .executing tk)
    (hs : step s (.swapOut w) = some s') :
    (NoneLost s' ↔ (s.tasks tk)._state ≠ .runnable) ∧
      ((s.tasks tk)._state = .block →
        tk ∈ s'.queue (.m_waitQueue w) ∨ tk ∈ s'.queue (.m_runnableQueue w)) := by
  simp only [step, hpc, Option.some.injEq] at hs
  subst hs
  have hruns := h.runs w tk hpc
  refine ⟨⟨fun hkept hstate => ?_, fun hstate => (h.swapOut hS hpc hstate).kept⟩,
    hruns.suspended⟩
  refine hruns.awake (by simp [hstate]) (hkept tk (h.known w tk (.inr hpc)) ?_ ?_)
  · intro hdone
    rw [State.setPc, hstate] at hdone
    cases hdone
  · intro w' hholds
    by_cases hw : w' = w
    · subst hw
      rw [setPc_self] at hholds
      rcases hholds with heq | heq <;> cases heq
    · rw [setPc_of_ne hw] at hholds
      exact hw (h.holder w' w tk hholds (.inr hpc))

/-- **Tasks.**  In every run whose steps meet the condition no task is lost and none runs on two
workers; and at each step at which a task gives its worker back, it is lost exactly when it has
not been suspended and is not done, and stands in the worker's wait queue or runnable queue when
it has been suspended.
SOURCE: operation/worker.cc:120-166, 178-247, operation/worker.h:121-134 -/
theorem tasks_kept (s : State) (h : system.Via Cond s) :
    NoneLost s ∧ NoneTwice s ∧
      ∀ w tk s', s.pc w = .executing tk → step s (.swapOut w) = some s' →
        (NoneLost s' ↔ (s.tasks tk)._state ≠ .runnable) ∧
          ((s.tasks tk)._state = .block →
            tk ∈ s'.queue (.m_waitQueue w) ∨ tk ∈ s'.queue (.m_runnableQueue w)) := by
  have hI := inv_of_via h
  refine ⟨hI.kept, ?_, fun w tk s' hpc hs => swapOut_kept hI (sound_of_reachable h.reachable) hpc hs⟩
  intro w w' tk hw hw'
  exact hI.holder w w' tk (.inr hw) (.inr hw')

/-- Workers without tasks. -/
def start : State :=
  { queue := fun _ => [], pc := fun _ => .top, m_gccQueue := fun _ => []
    tasks := fun _ => ⟨.runnable, 0, none⟩, created := 0, issued := [], wakers := []
    stealing := none }

/-- A scheduler without tasks. -/
theorem start_starts : Starts start := ⟨fun _ => rfl, fun _ => rfl, rfl, rfl, rfl, rfl⟩

/-- A task is created for worker 0, which takes it and switches to it. -/
def firstTask : List Event :=
  [.createTask 0, .pop 0, .check 0, .takeNew 0, .moveRunnable 0, .pop 0, .swapIn 0]

/-- The task suspends itself and is woken before it gives its worker back. -/
def wokenEarly : List Event := [.suspend 0, .wakeup 0 1, .wakeupBySelf ⟨0, 0, 1⟩]

/-- The condition says nothing of the step. -/
def Event.Free : Event → Bool
  | .swapOut _ | .stealRunnable => false
  | _ => true

/-- Steps on which the condition says nothing meet it. -/
theorem meets_of_free {es : List Event} (hes : ∀ e ∈ es, e.Free = true) (s : State) :
    system.Meets Cond s es := by
  induction es generalizing s with
  | nil => trivial
  | cons e es ih =>
    obtain ⟨hfree, hrest⟩ := List.forall_mem_cons.mp hes
    constructor
    · constructor
      · rintro w tk rfl
        cases hfree
      · rintro w tk rfl
        cases hfree
    · intro t _
      exact ih hrest t

/-- A task that is woken before it gives its worker back is kept.
SOURCE: operation/worker.h:128-134 -/
theorem tasks_kept_woken : ∃ s,
    system.run start (firstTask ++ wokenEarly ++ [.swapOut 0]) = some s ∧
      s.queue (.m_runnableQueue 0) = [0] ∧ NoneLost s ∧ NoneTwice s := by
  have hvia := System.via_iff_run.mpr ⟨start, firstTask ++ wokenEarly ++ [.swapOut 0],
    start_starts, rfl, System.meets_append.mpr ⟨meets_of_free (by decide) start, ?_⟩⟩
  · obtain ⟨hlost, htwice, -⟩ := tasks_kept _ hvia
    exact ⟨_, rfl, rfl, hlost, htwice⟩
  · rintro _ ⟨⟩
    refine ⟨⟨?_, nofun⟩, fun _ _ => trivial⟩
    rintro w tk ⟨⟩ ⟨⟩
    decide

/-- A task that yields without having been suspended is lost; and a task that is woken before it
gives its worker back, and is then stolen, runs on two workers. -/
theorem tasks_lost_and_doubled : (¬ ∀ s, system.Reachable s → NoneLost s) ∧
    ¬ ∀ s, system.Reachable s → NoneTwice s := by
  constructor
  · intro hall
    have hvia := System.via_iff_run.mpr ⟨start, firstTask, start_starts, rfl,
      meets_of_free (by decide) start⟩
    have hkept := @swapOut_kept _ _ 0 0 (inv_of_via hvia) (sound_of_reachable hvia.reachable) rfl rfl
    exact hkept.1.mp (hall _ (.step (e := .swapOut 0) hvia.reachable trivial rfl)) rfl
  · intro hall
    have hrun : (system.run start (firstTask ++ wokenEarly ++ [.stealNew 0, .stealRunnable,
        .addTask 1 1, .pop 1, .check 1, .takeNew 1, .moveRunnable 1, .pop 1, .swapIn 1])).any
          (fun s => decide (s.pc 0 = .executing 0 ∧ s.pc 1 = .executing 0)) = true := by
      decide
    obtain ⟨s, hreach, hs⟩ := System.exists_reachable _ _ start_starts hrun
    obtain ⟨h0, h1⟩ := of_decide_eq_true hs
    have hsame := hall s hreach 0 1 0 h0 h1
    cases hsame

end MagicNet.Worker
