import MagicNet.Model.LogSystem

/-!
# Which log lines reach the log before the shutdown is over

`post::defaultExecute` calls its function only where it finds `m_shutdown` not set.  A log thread that
is in `doDispatch` when `m_shutdown` is set goes on until the queue is empty; one that is anywhere
else, asleep or about to drain the lines it has been notified of, never takes another line, and
`doShutdown` joins it and deletes the log.

`InTime` is the condition on the step that sets the flag, and `Missed` the fault it avoids, which no
later step repairs.

SOURCE: log/logSystem.cc:25-61, util/post.cc:16-50
-/

set_option autoImplicit false

namespace MagicNet.LogSystem

open MagicNet.Foundation

variable {Line : Type} {s s' : State Line}

/-! ## Lines that are due -/

/-- The lines that were due when `doShutdown` was called. -/
def State.dueLines (s : State Line) : List ℕ := s.due.getD []

/-- What has been passed to the log are the first lines that entered the queue, in their order, each
once, and the lines that were due are among them. -/
structure Delivered (s : State Line) : Prop where
  inOrder : s.post.handled <+: s.entered
  delivered : ∀ k ∈ s.dueLines, k < s.post.handled.length

/-- `m_shutdown` is set while the log thread is in `doDispatch`, or with every line that is due
passed on. -/
def InTime (s : State Line) : Event Line → Prop
  | .doShutdown => s.post.pc = .running ∨ ∀ k ∈ s.dueLines, k < s.post.handled.length
  | _ => True

instance (s : State Line) : ∀ e, Decidable (InTime s e)
  | .doShutdown =>
    inferInstanceAs (Decidable (_ ∨ ∀ k ∈ s.dueLines, k < s.post.handled.length))
  | .push _ | .doPost _ | .call | .delete | .thread _ => isTrue trivial

/-- The post is shut down, its thread is not in `doDispatch`, and a line that is due has not been
passed on. -/
def Missed (s : State Line) : Prop :=
  s.post.m_shutdown = true ∧ s.post.pc ≠ .running ∧
    ∃ k ∈ s.dueLines, s.post.handled.length ≤ k

/-! ## What the runs keep -/

/-- The lines that have entered the queue are those passed on and those still in it; the lines that
are due have entered it; the post is only shut down by a `doShutdown` that has been called, and the
log only deleted when the thread is out of its function. -/
structure Inv (s : State Line) : Prop where
  fifo : s.post.handled ++ s.post.queue = s.entered
  due : ∀ k ∈ s.dueLines, k < s.entered.length
  called : s.post.m_shutdown = true → s.due ≠ none
  deleted : s.m_log = false → s.post.m_shutdown = true ∧ s.post.pc = .exited

/-- A log without lines is in order. -/
theorem inv_start : Inv (start : State Line) :=
  ⟨rfl, by simp [start, State.dueLines], by simp [start, Post.start], by simp [start]⟩

/-- A notification changes where the thread is, and only from `waiting` to `notified`. -/
theorem notify_frame (p : Post.State Line) :
    (Post.notify p).handled = p.handled ∧ (Post.notify p).queue = p.queue ∧
      (Post.notify p).m_shutdown = p.m_shutdown ∧
      ((Post.notify p).pc = .running ↔ p.pc = .running) ∧
      ((Post.notify p).pc = .exited ↔ p.pc = .exited) := by
  unfold Post.notify
  split
  · next hpc => simp [hpc]
  · simp

/-- `doPost` wakes the thread and handles nothing.
SOURCE: util/post.cc:28-33 -/
theorem doPost_frame (p : Post.State Line) :
    (Post.doPost p).handled = p.handled ∧ (Post.doPost p).queue = p.queue ∧
      (Post.doPost p).m_shutdown = p.m_shutdown ∧
      ((Post.doPost p).pc = .running ↔ p.pc = .running) ∧
      ((Post.doPost p).pc = .exited ↔ p.pc = .exited) := by
  unfold Post.doPost
  split
  · exact notify_frame p
  · simp

/-- A step of the thread is a pop, or it leaves the lines alone; then a thread of a post that is
shut down does not get into `doDispatch`, and one that is in it stays there.
SOURCE: util/post.cc:35-50 -/
theorem thread_frame {t : ThreadStep} {p p' : Post.State Line}
    (hs : Post.step false p (t.event Line) = some p') :
    p'.m_shutdown = p.m_shutdown ∧ p.pc ≠ .exited ∧
      (t = .pop ∨ p'.handled = p.handled ∧ p'.queue = p.queue ∧ p.pc ≠ .running ∧
        (p.m_shutdown = true → p'.pc ≠ .running)) := by
  cases t with
  | loop =>
    obtain ⟨hpc, rfl⟩ := Post.step_loop.mp hs
    cases hd : p.m_shutdown <;> simp [hpc]
  | sleep =>
    obtain ⟨hpc, ⟨hd, rfl⟩ | ⟨hd, rfl⟩⟩ := Post.step_sleep.mp hs <;> simp [hpc]
  | spurious =>
    obtain ⟨hpc, rfl⟩ := Post.step_spurious.mp hs
    simp [hpc]
  | wake =>
    obtain ⟨hpc, rfl⟩ := Post.step_wake.mp hs
    simp [hpc]
  | check =>
    obtain ⟨hpc, rfl⟩ := Post.step_check.mp hs
    cases hd : p.m_shutdown <;> simp [hpc]
  | pop =>
    obtain ⟨hpc, ⟨hq, rfl⟩ | ⟨line, rest, hq, rfl⟩⟩ := Post.step_pop.mp hs <;> simp [hpc]

/-- A pop takes the first line and stays in `doDispatch`, or leaves it with the queue empty. -/
theorem pop_cases {p p' : Post.State Line}
    (hs : Post.step false p (ThreadStep.pop.event Line) = some p') :
    p.pc = .running ∧ p'.handled ++ p'.queue = p.handled ++ p.queue ∧
      (p'.pc = .running ∨ p'.queue = []) := by
  obtain ⟨hpc, ⟨hq, rfl⟩ | ⟨line, rest, hq, rfl⟩⟩ := Post.step_pop.mp hs
  · exact ⟨hpc, rfl, .inr hq⟩
  · exact ⟨hpc, by simp [hq], .inl rfl⟩

/-- One step keeps the invariant.
SOURCE: log/logSystem.cc:25-31, 48-61, util/post.cc:35-50 -/
theorem inv_step {e : Event Line} (h : Inv s) (hs : step s e = some s') : Inv s' := by
  cases e with
  | push line =>
    obtain ⟨hlog, rfl⟩ := step_push.mp hs
    refine ⟨?_, ?_, h.called, h.deleted⟩
    · rw [← h.fifo]
      simp
    · intro k hk
      have := h.due k hk
      simp only [List.length_append, List.length_singleton]
      omega
  | doPost number =>
    obtain ⟨-, -, rfl⟩ := step_doPost.mp hs
    obtain ⟨hh, hq, hd, -, hex⟩ := doPost_frame { s.post with posting := s.post.posting - 1 }
    refine ⟨?_, h.due, ?_, ?_⟩
    · rw [hh, hq]
      exact h.fifo
    · rw [hd]
      exact h.called
    · rw [hd, hex]
      exact h.deleted
  | call =>
    obtain ⟨hdue, rfl⟩ := step_call.mp hs
    refine ⟨h.fifo, ?_, by simp, h.deleted⟩
    intro k hk
    have hmem : k ∈ s.returned := hk
    exact List.mem_range.mp (List.mem_filter.mp hmem).1
  | doShutdown =>
    obtain ⟨hdue, hnot, rfl⟩ := step_doShutdown.mp hs
    obtain ⟨hh, hq, hd, -, hex⟩ := notify_frame { s.post with m_shutdown := true }
    refine ⟨?_, h.due, fun _ => hdue, ?_⟩
    · rw [hh, hq]
      exact h.fifo
    · intro hlog
      have := (h.deleted hlog).1
      simp [hnot] at this
  | delete =>
    obtain ⟨hdone, rfl⟩ := step_delete.mp hs
    exact ⟨h.fifo, h.due, h.called, fun _ => hdone⟩
  | thread t =>
    obtain ⟨p, hp, rfl⟩ := step_thread.mp hs
    obtain ⟨hd, hex, hlines⟩ := thread_frame hp
    have hfifo : p.handled ++ p.queue = s.post.handled ++ s.post.queue := by
      rcases hlines with rfl | ⟨hh, hq, -, -⟩
      · exact (pop_cases hp).2.1
      · rw [hh, hq]
    refine ⟨hfifo.trans h.fifo, h.due, ?_, ?_⟩
    · rw [hd]
      exact h.called
    · intro hlog
      exact absurd (h.deleted hlog).2 hex

/-! ## The fault -/

/-- A step that sets no flag, passes no line on and does not move the thread in or out of
`doDispatch`. -/
theorem missed_congr (hd : s'.post.m_shutdown = s.post.m_shutdown)
    (hh : s'.post.handled = s.post.handled) (hdue : s'.due = s.due)
    (hpc : s.post.m_shutdown = true → (s'.post.pc = .running ↔ s.post.pc = .running)) :
    Missed s' ↔ Missed s := by
  unfold Missed State.dueLines
  rw [hd, hh, hdue]
  constructor
  · rintro ⟨hdown, hrun, hk⟩
    exact ⟨hdown, fun hr => hrun ((hpc hdown).mpr hr), hk⟩
  · rintro ⟨hdown, hrun, hk⟩
    exact ⟨hdown, fun hr => hrun ((hpc hdown).mp hr), hk⟩

/-- **One step**: a line is missed from then on when `m_shutdown` is not set in time, and from
nothing else. -/
theorem missed_step {e : Event Line} (h : Inv s) (hs : step s e = some s') :
    Missed s' ↔ Missed s ∨ ¬ InTime s e := by
  -- the steps that ask for nothing
  have hfree (hk : InTime s e) (hiff : Missed s' ↔ Missed s) :
      Missed s' ↔ Missed s ∨ ¬ InTime s e := by
    rw [hiff, or_iff_left (not_not.mpr hk)]
  cases e with
  | push line =>
    obtain ⟨-, rfl⟩ := step_push.mp hs
    exact hfree trivial (missed_congr rfl rfl rfl fun _ => Iff.rfl)
  | doPost number =>
    obtain ⟨-, -, rfl⟩ := step_doPost.mp hs
    obtain ⟨hh, -, hd, hrun, -⟩ := doPost_frame { s.post with posting := s.post.posting - 1 }
    exact hfree trivial (missed_congr hd hh rfl fun _ => hrun)
  | call =>
    obtain ⟨hdue, rfl⟩ := step_call.mp hs
    -- nothing is shut down before the call
    have hnot : ¬ s.post.m_shutdown = true := fun hd => h.called hd hdue
    exact hfree trivial ⟨fun hm => absurd hm.1 hnot, fun hm => absurd hm.1 hnot⟩
  | doShutdown =>
    obtain ⟨hdue, hnot, rfl⟩ := step_doShutdown.mp hs
    obtain ⟨hh, -, hd, hrun, -⟩ := notify_frame { s.post with m_shutdown := true }
    have hbefore : ¬ Missed s := by
      rintro ⟨hdown, -⟩
      simp [hnot] at hdown
    rw [or_iff_right hbefore]
    unfold Missed InTime State.dueLines
    rw [hh, hd]
    simp only [ne_eq, hrun, not_or, not_forall, not_lt, true_and, exists_prop]
  | delete =>
    obtain ⟨-, rfl⟩ := step_delete.mp hs
    exact hfree trivial (missed_congr rfl rfl rfl fun _ => Iff.rfl)
  | thread t =>
    obtain ⟨p, hp, rfl⟩ := step_thread.mp hs
    refine hfree trivial ?_
    obtain ⟨hd, -, rfl | ⟨hh, -, hrun, hrun'⟩⟩ := thread_frame hp
    · -- in `doDispatch` nothing is missed, and it is left with every line passed on
      obtain ⟨hpc, hlines, hgo⟩ := pop_cases hp
      refine ⟨fun hm => ?_, fun hm => absurd hpc hm.2.1⟩
      obtain ⟨-, hrun, k, hk, hle⟩ := hm
      have hempty := hgo.resolve_left hrun
      have hlt := h.due k hk
      rw [← h.fifo, ← hlines, hempty, List.append_nil] at hlt
      exact absurd hle (not_le.mpr hlt)
    · exact missed_congr hd hh rfl fun hdown =>
        ⟨fun hr => absurd hr (hrun' hdown), fun hr => absurd hr hrun⟩

/-! ## Runs -/

/-- **No line lost.**  When `doShutdown` returns, every line that was due has been passed to the log,
in the order of the queue, exactly when `m_shutdown` was set while the log thread was in `doDispatch`
or with all of them passed on.
SOURCE: log/logSystem.cc:25-61, util/post.cc:16-50 -/
theorem log_delivered (Line : Type) (es : List (Event Line)) (s : State Line)
    (hrun : (system Line).run start es = some s) (hret : s.m_log = false) :
    Delivered s ↔ (system Line).Meets InTime start es := by
  have hreach : Inv s := by
    refine (System.reachable_of_run (A := system Line) rfl hrun).invariant ?_ ?_
    · rintro t rfl
      exact inv_start
    · intro t e t' h _ hs
      exact inv_step h hs
  have hfinal := System.not_final_iff_meets (A := system Line) (g := InTime) (I := Inv) (L := Missed)
    (fun _ _ _ h hs => inv_step h hs) (fun _ _ _ h hs => missed_step h hs) inv_start hrun
  have hstart : ¬ Missed (start : State Line) := by simp [Missed, start, Post.start]
  rw [and_iff_right hstart] at hfinal
  rw [← hfinal]
  obtain ⟨hdown, hpc⟩ := hreach.deleted hret
  constructor
  · rintro ⟨-, hall⟩ ⟨-, -, k, hk, hle⟩
    exact absurd (hall k hk) (not_lt.mpr hle)
  · intro hmiss
    refine ⟨⟨s.post.queue, hreach.fifo⟩, fun k hk => ?_⟩
    by_contra hlt
    exact hmiss ⟨hdown, by simp [hpc], k, hk, not_lt.mp hlt⟩

/-- Two lines are logged, and `doShutdown` finds the log thread at the second.
SOURCE: util/post.cc:16-26, 28-33, 35-50, log/logSystem.cc:25-31, 48-61 -/
theorem log_delivered_draining : ∃ s, (system ℕ).run start
    [.thread .loop, .thread .sleep, .push 7, .push 8, .doPost 0, .doPost 1, .thread .wake,
      .thread .check, .thread .pop, .call, .doShutdown, .thread .pop, .thread .pop, .thread .loop,
      .delete] = some s ∧ Delivered s :=
  ⟨_, rfl, (log_delivered ℕ
    [.thread .loop, .thread .sleep, .push 7, .push 8, .doPost 0, .doPost 1, .thread .wake,
      .thread .check, .thread .pop, .call, .doShutdown, .thread .pop, .thread .pop, .thread .loop,
      .delete] _ rfl rfl).mpr (by decide)⟩

/-- A line is logged and wakes the log thread, and `m_shutdown` is set before the thread has tested
it: the thread goes without the line. -/
theorem log_line_lost : ¬ ∀ (es : List (Event ℕ)) (s : State ℕ),
    (system ℕ).run start es = some s → s.m_log = false → Delivered s := by
  intro hall
  have hlost := (hall
    [.thread .loop, .thread .sleep, .push 7, .doPost 0, .call, .doShutdown, .thread .wake,
      .thread .check, .thread .loop, .delete] _ rfl rfl).delivered 0 (by decide)
  revert hlost
  decide

end MagicNet.LogSystem
