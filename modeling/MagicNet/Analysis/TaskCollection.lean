import MagicNet.Analysis.TaskLifetime

/-!
# Every finished task is collected

A worker that finds its task done adds it to its `m_gccQueue`, with a `gc` before that when the queue
has more than 16 tasks.  So a queue has 17 tasks at most, and a worker that comes to its `gc` takes all
of them: it gives up the reference that each was created with, and then that of the list.  What is left
of a task's references then are the `incursivePtr`s of its wakers, and the task is deleted with the last
of these.  Up to 17 finished tasks of a worker wait for its next `gc`.  A task that has been stolen
from under its worker runs on two workers; each finds it done, and the first `gc` deletes it for the
other one.
-/

set_option autoImplicit false

namespace MagicNet.TaskLife

open MagicNet.Foundation
open MagicNet.Worker (Pc)

variable {s s' : State} {t : Worker.State} {w tk tk' n : ℕ}

/-- The worker has found its task done. -/
def AtDone (s : State) (w : ℕ) : Prop :=
  ∃ tk, s.sched.pc w = .returned tk ∧ (s.sched.tasks tk)._state = .done

/-- The steps of the `gc` of a worker. -/
def Event.isGc (w : ℕ) : Event → Bool
  | .gcTake w' | .gcDrop w' | .gcErase w' => decide (w' = w)
  | _ => false

/-- What happens to the finished tasks.  A task is deleted exactly when a `gc` has given up its first
reference, no list has it and no `incursivePtr` to it is left.  Until then its worker has still to look
at it, or it waits in an `m_gccQueue`, which has 17 tasks at most, or for a `gc` that has begun, or for
its last `incursivePtr`.  A worker that has found a task done can always go on; and when it finds more
than 16 tasks in its `m_gccQueue`, the steps of its `gc` delete them all, but for those that an
`incursivePtr` still has. -/
structure Collected (s : State) : Prop where
  deleted_iff : ∀ tk < s.sched.created, tk ∈ s.refs.deleted ↔
    tk ∈ s.dropped ∧ (∀ b, tk ∉ s.lists b) ∧ s.holders tk = 0
  waits : ∀ tk < s.sched.created, (s.sched.tasks tk)._state = .done → tk ∈ s.refs.deleted ∨
    (∃ w, (s.sched.pc w).m_runnable = some tk) ∨ (∃ w, tk ∈ s.sched.m_gccQueue w) ∨
      (∃ w, tk ∈ (s.gc w).l ∧ AtDone s w) ∨ tk ∈ s.dropped ∧ 0 < s.holders tk
  short : ∀ w, (s.sched.m_gccQueue w).length ≤ 17
  goes_on : ∀ w, AtDone s w → ∃ e s', (e.isGc w = true ∨ e = .sched (.switch w)) ∧
    step s e = some s'
  takes : ∀ w es t, AtDone s w → 16 < (s.sched.m_gccQueue w).length → (s.gc w).l = [] →
    system.run s es = some t → system.Meets Cond s es →
    2 * (s.sched.m_gccQueue w).length + 1 ≤ es.countP (Event.isGc w) →
    ∀ tk ∈ s.sched.m_gccQueue w, tk ∈ t.refs.deleted ∨ tk ∈ t.dropped ∧ 0 < t.holders tk

/-! ## When a task is deleted -/

/-- A task is deleted when the last of its three kinds of references is gone, and not before. -/
theorem Inv.deleted_iff (h : Inv s) (hknown : tk < s.sched.created) :
    tk ∈ s.refs.deleted ↔ tk ∈ s.dropped ∧ (∀ b, tk ∉ s.lists b) ∧ s.holders tk = 0 := by
  rw [h.refs.mem_deleted hknown]
  by_cases hlisted : Listed s tk
  · obtain ⟨b, hb⟩ := listed_iff.mp hlisted
    rw [owed_of_listed hlisted]
    constructor
    · omega
    · rintro ⟨-, hnone, -⟩
      exact absurd hb (hnone b)
  · have hnone : ∀ b, tk ∉ s.lists b := fun b hb => hlisted (listed_iff.mpr ⟨b, hb⟩)
    rw [owed_of_not_listed hlisted]
    by_cases hdropped : tk ∈ s.dropped
    · have hown : s.own tk = 0 := if_pos hdropped
      simp [hown, hdropped, hnone]
    · have hown : s.own tk = 1 := if_neg hdropped
      simp [hown, hdropped]

/-! ## The garbage queue of a worker -/

/-- Only the worker itself touches its `m_gccQueue` and the list of its `gc`: while the `gc` goes on,
the worker stays at its finished task and its queue is empty. -/
structure Tidy (s : State) (w : ℕ) : Prop where
  short : (s.sched.m_gccQueue w).length ≤ 17
  during : (s.gc w).l ≠ [] → s.sched.m_gccQueue w = [] ∧ AtDone s w

/-- The counting of a step leaves the `gc`s alone. -/
theorem counted_frame {e : Worker.Event} (h : Inv s) (hs : Worker.step s.sched e = some t)
    (hcount : counted s t e = some s') : s'.sched = t ∧ s'.gc = s.gc ∧ s'.dropped = s.dropped := by
  cases counted_counts h.steady.sound hs hcount with
  | createTask | pop | suspend | switch | wakeup | stale | woken | quiet => exact ⟨rfl, rfl, rfl⟩

/-- A worker goes on from a finished task when its `gc` is done and its queue is short. -/
theorem counted_switch (hpc : s.sched.pc w = .returned tk)
    (hdone : (s.sched.tasks tk)._state = .done)
    (hcount : counted s t (.switch w) = some s') :
    (s.sched.m_gccQueue w).length ≤ 16 ∧ (s.gc w).l = [] := by
  simp only [counted, hpc, hdone, if_true, Option.ite_none_right_eq_some] at hcount
  exact hcount.1

/-- A worker stays at its finished task until its own `switch`, whatever the others do. -/
theorem AtDone.sched {e : Worker.Event} (hat : AtDone s w) (h : Inv s)
    (hs : Worker.step s.sched e = some t) (hcount : counted s t e = some s')
    (hne : e ≠ .switch w) : AtDone s' w := by
  obtain ⟨tk, hpc, hdone⟩ := hat
  have hrunnable : (s.sched.pc w).m_runnable = some tk := by rw [hpc, Pc.m_runnable]
  rw [AtDone, (counted_frame h hs hcount).1]
  refine ⟨tk, ?_, h.steady.done_after hs (h.steady.known hrunnable) hdone⟩
  rcases Worker.step_at hs w with hsame | hgoes
  · exact hsame.trans hpc
  · generalize t.pc w = pc at hgoes ⊢
    cases hgoes with
    | pop hold _ | swapIn hold | swapOut hold =>
      rw [hold] at hpc
      cases hpc
    | free _ hswitch => exact absurd (hswitch tk hrunnable).1 hne

/-- The garbage queue of a worker grows in its own `switch`. -/
theorem gcc_of_ne {e : Worker.Event} (hs : Worker.step s.sched e = some t)
    (hne : e ≠ .switch w) : t.m_gccQueue w = s.sched.m_gccQueue w := by
  have hgcc := (Worker.step_rest hs).2.2
  cases e with
  | switch w' =>
    have hw : w ≠ w' := fun heq => hne (heq ▸ rfl)
    obtain ⟨tk, -, ⟨-, rfl⟩ | ⟨-, rfl⟩⟩ := Worker.step_switch.mp hs
    · rfl
    · exact Function.update_of_ne hw _ _
  | _ => exact congrFun hgcc w

/-- **Each step of a worker, a waker or the dispatcher** leaves the garbage queues tidy. -/
theorem Tidy.sched {e : Worker.Event} (htidy : Tidy s w) (h : Inv s)
    (hs : Worker.step s.sched e = some t) (hcount : counted s t e = some s') : Tidy s' w := by
  obtain ⟨hsched, hgc, -⟩ := counted_frame h hs hcount
  by_cases hswitch : e = .switch w
  · subst hswitch
    obtain ⟨tk, hpc, hcases⟩ := Worker.step_switch.mp hs
    have hgcc := (Worker.step_rest hs).2.2
    simp only [Worker.gccAfter, hpc] at hgcc
    by_cases hdone : (s.sched.tasks tk)._state = .done
    · -- the `gc` has come to its end, and the queue had room
      obtain ⟨hlen, hempty⟩ := counted_switch hpc hdone hcount
      rw [if_pos hdone] at hgcc
      refine ⟨?_, fun hl => absurd (hgc ▸ hempty) hl⟩
      rw [hsched, hgcc, Function.update_self, List.length_append, List.length_singleton]
      omega
    · rw [if_neg hdone] at hgcc
      refine ⟨by rw [hsched, hgcc]; exact htidy.short, fun hl => ?_⟩
      obtain ⟨-, tk', hpc', hdone'⟩ := htidy.during (hgc ▸ hl)
      obtain rfl : tk = tk' := Pc.returned.inj (hpc.symm.trans hpc')
      exact absurd hdone' hdone
  · have hgcc := gcc_of_ne hs hswitch
    refine ⟨by rw [hsched, hgcc]; exact htidy.short, fun hl => ?_⟩
    obtain ⟨hempty, hat⟩ := htidy.during (hgc ▸ hl)
    exact ⟨by rw [hsched, hgcc]; exact hempty, hat.sched h hs hcount hswitch⟩

/-- And so does each step of an `incursivePtr` or of a `gc`. -/
theorem Tidy.step {e : Event} (htidy : ∀ w, Tidy s w) (h : Inv s) (hs : step s e = some s')
    (w : ℕ) : Tidy s' w := by
  obtain ⟨hshort, hduring⟩ := htidy w
  cases e with
  | sched e =>
    obtain ⟨t, ht, hcount⟩ := step_sched.mp hs
    exact (htidy w).sched h ht hcount
  | lock tk =>
    obtain ⟨-, ⟨-, rfl⟩ | ⟨-, rfl⟩⟩ := step_lock.mp hs
    · exact ⟨hshort, hduring⟩
    · exact ⟨hshort, hduring⟩
  | reset tk =>
    obtain ⟨-, rfl⟩ := step_reset.mp hs
    exact ⟨hshort, hduring⟩
  | gcTake w' =>
    obtain ⟨tk, hpc, ⟨hdone, -, -⟩, rfl⟩ := step_gcTake.mp hs
    by_cases hw : w = w'
    · subst hw
      exact ⟨by simp, fun _ => ⟨Function.update_self _ _ _, tk, hpc, hdone⟩⟩
    · refine ⟨by simpa [Function.update_of_ne hw] using hshort, fun hl => ?_⟩
      simp only [Function.update_of_ne hw] at hl
      exact ⟨(Function.update_of_ne hw _ _).trans (hduring hl).1, (hduring hl).2⟩
  | gcDrop w' =>
    obtain ⟨tk, todo, -, rfl⟩ := step_gcDrop.mp hs
    refine ⟨hshort, fun hl => hduring ?_⟩
    by_cases hw : w = w'
    · subst hw
      simpa using hl
    · simpa [Function.update_of_ne hw] using hl
  | gcErase w' =>
    obtain ⟨tk, l, hgc, rfl⟩ := step_gcErase.mp hs
    refine ⟨hshort, fun hl => hduring ?_⟩
    by_cases hw : w = w'
    · subst hw
      simp [hgc]
    · simpa [Function.update_of_ne hw] using hl

/-- At the start the collector has nothing. -/
theorem tidy_of_starts (h : Starts s) (w : ℕ) : Tidy s w :=
  ⟨by simp [h.m_gccQueue w], fun hl => absurd (by simp [h.gc w]) hl⟩

/-- **Runs** that meet the condition keep the counts and the garbage queues in order. -/
theorem tidy_of_via (h : system.Via Cond s) : Inv s ∧ ∀ w, Tidy s w := by
  refine h.invariant (I := fun s => Inv s ∧ ∀ w, Tidy s w)
    (fun _ h0 => ⟨inv_of_starts h0, tidy_of_starts h0⟩) ?_
  rintro s e s' ⟨hI, htidy⟩ hg hs
  exact ⟨step_inv hI hg hs, Tidy.step htidy hI hs⟩

/-! ## A `gc` to its end -/

/-- A task that waits for a `gc`, with the steps that the `gc` has still to do: it stands in a queue
that the worker is about to take, or in the list that the worker has taken. -/
inductive Pending (s : State) (w tk : ℕ) : ℕ → Prop where
  | queued : AtDone s w → 16 < (s.sched.m_gccQueue w).length → (s.gc w).l = [] →
      tk ∈ s.sched.m_gccQueue w → Pending s w tk (2 * (s.sched.m_gccQueue w).length + 1)
  | listed : tk ∈ (s.gc w).l → Pending s w tk ((s.gc w).todo.length + (s.gc w).l.length)

/-- A task in the collector's list is pending for as many steps as the list has. -/
theorem Pending.of_mem (hmem : tk ∈ (s.gc w).l)
    (hn : (s.gc w).todo.length + (s.gc w).l.length = n) : Pending s w tk n :=
  hn ▸ .listed hmem

/-- A task that a `gc` is through with. -/
def Gone (s : State) (tk : ℕ) : Prop := tk ∈ s.dropped ∧ ¬ Stored (trash s.sched s.gc) tk

/-- No task is pending for none. -/
theorem not_pending_zero : ¬ Pending s w tk 0 := by
  intro h
  generalize hn : 0 = n at h
  cases h with
  | queued => omega
  | listed hmem =>
    have hpos := List.length_pos_of_mem hmem
    omega

/-- A step that leaves the queue and the `gc` of the worker alone. -/
theorem Pending.frame (h : Pending s w tk n) (hgcc : s'.sched.m_gccQueue w = s.sched.m_gccQueue w)
    (hgc : s'.gc w = s.gc w) (hat : AtDone s w → AtDone s' w) : Pending s' w tk n := by
  cases h with
  | queued hdone hlen hl hmem =>
    rw [← hgcc]
    exact .queued (hat hdone) (hgcc ▸ hlen) (hgc ▸ hl) (hgcc ▸ hmem)
  | listed hmem =>
    rw [← hgc]
    exact .listed (hgc ▸ hmem)

/-- The worker does not go on while a task waits for its `gc`. -/
theorem Pending.sched {e : Worker.Event} (h : Pending s w tk n) (hI : Inv s) (htidy : Tidy s w)
    (hs : Worker.step s.sched e = some t) (hcount : counted s t e = some s') :
    Pending s' w tk n := by
  obtain ⟨hsched, hgc, -⟩ := counted_frame hI hs hcount
  have hne : e ≠ .switch w := by
    rintro rfl
    have hat : AtDone s w := by
      cases h with
      | queued hat => exact hat
      | listed hmem => exact (htidy.during (List.ne_nil_of_mem hmem)).2
    obtain ⟨tk', hpc, hdone⟩ := hat
    obtain ⟨hlen, hl⟩ := counted_switch hpc hdone hcount
    cases h with
    | queued _ hlong => omega
    | listed hmem =>
      rw [hl] at hmem
      cases hmem
  refine h.frame ?_ (congrFun hgc w) fun hat => hat.sched hI hs hcount hne
  rw [hsched]
  exact gcc_of_ne hs hne

/-- The worker takes its queue, or another one does.
SOURCE: operation/worker.cc:170-176, 178-215 -/
theorem Pending.gcTake {w' : ℕ} (h : Pending s w tk n) (hs : TaskLife.step s (.gcTake w') = some s') :
    Pending s' w tk (n - if w' = w then 1 else 0) := by
  obtain ⟨tk', hpc, ⟨hdone, -, hl'⟩, rfl⟩ := step_gcTake.mp hs
  by_cases hw : w = w'
  · subst hw
    cases h with
    | queued hat hlen hl hmem =>
      have hcount : (s.sched.m_gccQueue w).length + (s.sched.m_gccQueue w).length =
          2 * (s.sched.m_gccQueue w).length + 1 - (if w = w then 1 else 0) := by
        rw [if_pos rfl]
        omega
      exact .of_mem (by simpa using hmem) (by simpa using hcount)
    | listed hmem =>
      rw [hl'] at hmem
      cases hmem
  · rw [if_neg (Ne.symm hw), Nat.sub_zero]
    exact h.frame (Function.update_of_ne hw _ _) (Function.update_of_ne hw _ _) id

/-- One round of the loop of the worker's `gc`, or of another one's.
SOURCE: operation/worker.cc:170-176 -/
theorem Pending.gcDrop {w' : ℕ} (h : Pending s w tk n) (hI : Inv s)
    (hs : TaskLife.step s (.gcDrop w') = some s') :
    Pending s' w tk (n - if w' = w then 1 else 0) := by
  obtain ⟨tk', todo, htodo, rfl⟩ := step_gcDrop.mp hs
  by_cases hw : w = w'
  · subst hw
    cases h with
    | queued _ _ hl =>
      -- nothing is still to come in an empty list
      have hsuffix := hI.garbage.todo w
      rw [htodo, hl, List.suffix_nil] at hsuffix
      cases hsuffix
    | listed hmem =>
      have hcount : todo.length + (s.gc w).l.length =
          (s.gc w).todo.length + (s.gc w).l.length - (if w = w then 1 else 0) := by
        rw [if_pos rfl, htodo, List.length_cons]
        omega
      exact .of_mem (by simpa using hmem) (by simpa using hcount)
  · rw [if_neg (Ne.symm hw), Nat.sub_zero]
    exact h.frame rfl (Function.update_of_ne hw _ _) id

/-- One round of the `clear` of the worker's `gc`, which may be the task's, or of another one's.
SOURCE: operation/worker.cc:170-176 -/
theorem Pending.gcErase {w' : ℕ} (h : Pending s w tk n) (hI : Inv s)
    (hs : TaskLife.step s (.gcErase w') = some s') :
    Pending s' w tk (n - if w' = w then 1 else 0) ∨ Gone s' tk := by
  obtain ⟨tk', l, hgc, rfl⟩ := step_gcErase.mp hs
  obtain ⟨hdropped, -, hstored, -⟩ := hI.garbage.gcErase hgc
  by_cases hw : w = w'
  · subst hw
    cases h with
    | queued _ _ hl =>
      rw [hgc] at hl
      cases hl
    | listed hmem =>
      by_cases heq : tk = tk'
      · subst heq
        exact .inr ⟨hdropped, fun hin => ((hstored tk).mp hin).2 rfl⟩
      · left
        have hrest : tk ∈ l := by
          rw [hgc, List.mem_cons] at hmem
          exact hmem.resolve_left heq
        have hcount : l.length =
            (s.gc w).todo.length + (s.gc w).l.length - (if w = w then 1 else 0) := by
          rw [if_pos rfl, hgc, List.length_cons, List.length_nil]
          omega
        exact .of_mem (by simpa using hrest) (by simpa using hcount)
  · left
    rw [if_neg (Ne.symm hw), Nat.sub_zero]
    exact h.frame rfl (Function.update_of_ne hw _ _) id

/-- **Each step** of a worker's `gc` counts down, and no other step counts up. -/
theorem Pending.step {e : Event} (h : Pending s w tk n) (hI : Inv s) (htidy : Tidy s w)
    (hs : step s e = some s') :
    Pending s' w tk (n - if e.isGc w then 1 else 0) ∨ Gone s' tk := by
  cases e with
  | sched e =>
    obtain ⟨t, ht, hcount⟩ := step_sched.mp hs
    exact .inl (h.sched hI htidy ht hcount)
  | lock tk =>
    left
    obtain ⟨-, ⟨-, rfl⟩ | ⟨-, rfl⟩⟩ := step_lock.mp hs
    · exact h
    · exact h.frame rfl rfl id
  | reset tk =>
    obtain ⟨-, rfl⟩ := step_reset.mp hs
    exact .inl (h.frame rfl rfl id)
  | gcTake w' => exact .inl (by simpa [Event.isGc] using h.gcTake hs)
  | gcDrop w' => exact .inl (by simpa [Event.isGc] using h.gcDrop hI hs)
  | gcErase w' => simpa [Event.isGc] using h.gcErase hI hs

/-- A worker puts into its garbage queue only the task that it has found done. -/
theorem stored_trash {e : Worker.Event} {gc : ℕ → Gc} (hs : Worker.step s.sched e = some t)
    (hstored : Stored (trash t gc) tk) :
    Stored (trash s.sched gc) tk ∨ ∃ w, s.sched.pc w = .returned tk := by
  have hgcc := (Worker.step_rest hs).2.2
  cases e with
  | switch w =>
    obtain ⟨tk', hpc, ⟨-, rfl⟩ | ⟨-, rfl⟩⟩ := Worker.step_switch.mp hs
    · exact .inl hstored
    · rcases (stored_push rfl tk).mp hstored with hold | rfl
      · exact .inl hold
      · exact .inr ⟨w, hpc⟩
  | _ =>
    rw [trash_congr hgcc] at hstored
    exact .inl hstored

/-- What a `gc` is through with stands in no list again. -/
theorem Gone.step {e : Event} (h : Gone s tk) (hI : Inv s) (hs : step s e = some s') :
    Gone s' tk := by
  obtain ⟨hdropped, hnone⟩ := h
  have hended := hI.garbage.ended tk (.inr hdropped)
  cases e with
  | sched e =>
    obtain ⟨t, ht, hcount⟩ := step_sched.mp hs
    obtain ⟨hsched, hgc, hsame⟩ := counted_frame hI ht hcount
    refine ⟨hsame ▸ hdropped, fun hstored => ?_⟩
    rw [hsched, hgc] at hstored
    rcases stored_trash ht hstored with hold | ⟨w, hpc⟩
    · exact hnone hold
    · exact hended.left w (by rw [hpc, Pc.m_runnable])
  | lock tk' =>
    obtain ⟨-, ⟨-, rfl⟩ | ⟨-, rfl⟩⟩ := step_lock.mp hs
    · exact ⟨hdropped, hnone⟩
    · exact ⟨hdropped, hnone⟩
  | reset tk' =>
    obtain ⟨-, rfl⟩ := step_reset.mp hs
    exact ⟨hdropped, hnone⟩
  | gcTake w =>
    obtain ⟨-, -, ⟨-, -, hl⟩, rfl⟩ := step_gcTake.mp hs
    exact ⟨hdropped, fun hstored => hnone (((hI.garbage.gcTake hl).1 tk).mp hstored)⟩
  | gcDrop w =>
    obtain ⟨tk', todo, htodo, rfl⟩ := step_gcDrop.mp hs
    obtain ⟨-, -, htrash, -⟩ := hI.garbage.gcDrop htodo
    exact ⟨List.mem_cons_of_mem _ hdropped, fun hstored => hnone (htrash ▸ hstored)⟩
  | gcErase w =>
    obtain ⟨tk', l, hgc, rfl⟩ := step_gcErase.mp hs
    obtain ⟨-, -, hstored, -⟩ := hI.garbage.gcErase hgc
    exact ⟨hdropped, fun hin => hnone ((hstored tk).mp hin).1⟩

/-- What a `gc` is through with is deleted, or an `incursivePtr` still has it. -/
theorem Inv.deleted_of_gone (h : Inv s) (hgone : Gone s tk) :
    tk ∈ s.refs.deleted ∨ tk ∈ s.dropped ∧ 0 < s.holders tk := by
  obtain ⟨hdropped, hnone⟩ := hgone
  have hended := h.garbage.ended tk (.inr hdropped)
  have hnot : ∀ b, tk ∉ s.lists b := by
    intro b hb
    rcases listed_iff.mpr ⟨b, hb⟩ with hqueue | htrash
    · exact hended.not_stored h.steady hqueue
    · exact hnone htrash
  by_cases hholders : s.holders tk = 0
  · exact .inl ((h.deleted_iff hended.known).mpr ⟨hdropped, hnot, hholders⟩)
  · exact .inr ⟨hdropped, Nat.pos_of_ne_zero hholders⟩

/-! ## What becomes of the finished tasks -/

/-- Where a finished task waits. -/
theorem Inv.waits (h : Inv s) (htidy : ∀ w, Tidy s w) (hknown : tk < s.sched.created)
    (hdone : (s.sched.tasks tk)._state = .done) : tk ∈ s.refs.deleted ∨
      (∃ w, (s.sched.pc w).m_runnable = some tk) ∨ (∃ w, tk ∈ s.sched.m_gccQueue w) ∨
        (∃ w, tk ∈ (s.gc w).l ∧ AtDone s w) ∨ tk ∈ s.dropped ∧ 0 < s.holders tk := by
  by_cases hstored : Stored (trash s.sched s.gc) tk
  · obtain ⟨p, hp⟩ := hstored
    cases p with
    | m_gccQueue w => exact .inr (.inr (.inl ⟨w, hp⟩))
    | gc w => exact .inr (.inr (.inr (.inl ⟨w, hp, ((htidy w).during (List.ne_nil_of_mem hp)).2⟩)))
  · rcases h.garbage.finished tk hknown hdone with hpc | hin | hdropped
    · exact .inr (.inl hpc)
    · exact absurd hin hstored
    · rcases h.deleted_of_gone ⟨hdropped, hstored⟩ with hdeleted | hheld
      · exact .inl hdeleted
      · exact .inr (.inr (.inr (.inr hheld)))

/-- A worker that has found its task done can go on with its `gc`, or past it. -/
theorem AtDone.goes_on (hat : AtDone s w) :
    ∃ e s', (e.isGc w = true ∨ e = .sched (.switch w)) ∧ step s e = some s' := by
  obtain ⟨tk, hpc, hdone⟩ := hat
  cases hgc : s.gc w with
  | mk l todo =>
    cases todo with
    | cons tk' todo =>
      exact ⟨.gcDrop w, _, .inl (decide_eq_true rfl),
        step_gcDrop.mpr ⟨tk', todo, by rw [hgc], rfl⟩⟩
    | nil =>
      cases l with
      | cons tk' l =>
        exact ⟨.gcErase w, _, .inl (decide_eq_true rfl), step_gcErase.mpr ⟨tk', l, hgc, rfl⟩⟩
      | nil =>
        have hl : (s.gc w).l = [] := by rw [hgc]
        by_cases hlong : 16 < (s.sched.m_gccQueue w).length
        · exact ⟨.gcTake w, _, .inl (decide_eq_true rfl),
            step_gcTake.mpr ⟨tk, hpc, ⟨hdone, hlong, hl⟩, rfl⟩⟩
        · have hshort : (s.sched.m_gccQueue w).length ≤ 16 := by omega
          have hs : Worker.step s.sched (.switch w) = some { s.sched.setPc w .check with
              m_gccQueue := Function.update s.sched.m_gccQueue w
                (s.sched.m_gccQueue w ++ [tk]) } :=
            Worker.step_switch.mpr ⟨tk, hpc, .inr ⟨hdone, rfl⟩⟩
          have hcount : counted s { s.sched.setPc w .check with
              m_gccQueue := Function.update s.sched.m_gccQueue w
                (s.sched.m_gccQueue w ++ [tk]) } (.switch w) =
              some ({ s with sched := { s.sched.setPc w .check with
                m_gccQueue := Function.update s.sched.m_gccQueue w
                  (s.sched.m_gccQueue w ++ [tk]) } }.incrementRef tk) := by
            simp only [counted, hpc, hdone, if_true, hshort, hl, and_self]
          exact ⟨.sched (.switch w), _, .inr rfl, step_sched.mpr ⟨_, hs, hcount⟩⟩

/-- **The `gc` of a worker, to its end.**  However its steps are mixed with those of the others, as many
steps of it as there are references to give up leave no task of the queue behind. -/
theorem Inv.takes {es : List Event} {t : State} (h : Inv s) (htidy : ∀ w, Tidy s w)
    (hat : AtDone s w) (hlong : 16 < (s.sched.m_gccQueue w).length) (hl : (s.gc w).l = [])
    (hrun : system.run s es = some t) (hmeets : system.Meets Cond s es)
    (hcount : 2 * (s.sched.m_gccQueue w).length + 1 ≤ es.countP (Event.isGc w))
    (hmem : tk ∈ s.sched.m_gccQueue w) :
    tk ∈ t.refs.deleted ∨ tk ∈ t.dropped ∧ 0 < t.holders tk := by
  have hkeep : ∀ (u : State) (e : Event) (u' : State), (Inv u ∧ ∀ w, Tidy u w) → Cond u e →
      system.step u e = some u' → Inv u' ∧ ∀ w, Tidy u' w := fun _ _ _ hI hg hs =>
    ⟨step_inv hI.1 hg hs, Tidy.step hI.2 hI.1 hs⟩
  have hgone : Gone t tk := by
    refine System.run_countdown (P := fun u n => Pending u w tk n) (Q := fun u => Gone u tk)
      (Event.isGc w) hkeep ?_ ?_ (fun _ => not_pending_zero) ⟨h, htidy⟩
      (.queued hat hlong hl hmem) hrun hmeets hcount
    · intro u e u' n hI _ hs hP
      exact hP.step hI.1 (hI.2 w) hs
    · intro u e u' hI _ hs hQ
      exact hQ.step hI.1 hs
  have hend := System.run_invariant hkeep ⟨h, htidy⟩ hrun hmeets
  exact hend.1.deleted_of_gone hgone

/-- The finished tasks of every state so reached. -/
theorem collected (h : system.Via Cond s) : Collected s := by
  obtain ⟨hI, htidy⟩ := tidy_of_via h
  refine ⟨fun tk hknown => hI.deleted_iff hknown, fun tk hknown hdone => hI.waits htidy hknown hdone,
    fun w => (htidy w).short, fun w hat => hat.goes_on, ?_⟩
  intro w es t hat hlong hl hrun hmeets hcount tk hmem
  exact hI.takes htidy hat hlong hl hrun hmeets hcount hmem

/-- **The life of a task.**  In every run in which tasks give their workers back suspended or done and
`steal(0)` takes no task that its worker has in `m_runnable`, the count of a task is the number of its
references, no task is deleted that a list, a worker or an `incursivePtr` has, and each finished task
is deleted once, by the `gc` of its worker, which comes when its queue is long, or by the last
`incursivePtr` after it.
SOURCE: util/deque.h:53-154, util/list.h:90-109, util/shared_ptr.h:22-60, 107-148, 255-269,
operation/worker.cc:130-215, 217-247, operation/scheduler.cc:69-82 -/
theorem tasks_counted (s : State) (h : system.Via Cond s) :
    Counted s ∧ Collected s ∧ ∀ e s', step s e = some s' → Deletes s e s' :=
  ⟨(inv_of_via h).counted, collected h, fun _ _ hs => (inv_of_via h).deletes hs⟩

/-- The first task of worker 0 suspends itself and is woken before it gives its worker back; the
waker's `incursivePtr` is still there. -/
def woken : List Event :=
  [.sched (.createTask 0), .sched (.pop 0), .sched (.check 0), .sched (.takeNew 0),
    .sched (.moveRunnable 0), .sched (.pop 0), .sched (.swapIn 0), .sched (.suspend 0), .lock 0,
    .sched (.wakeup 0 1), .sched (.wakeupBySelf ⟨0, 0, 1⟩)]

/-- A worker takes a task and runs it to its end. -/
def runsOne (w : ℕ) : List Event :=
  [.sched (.pop w), .sched (.swapIn w), .sched (.finish w), .sched (.swapOut w), .sched (.switch w),
    .sched (.check w)]

/-- New tasks for a worker whose queue is empty. -/
def newTasks (w : ℕ) : List Event :=
  List.replicate 17 (.sched (.createTask w)) ++
    [.sched (.pop w), .sched (.check w), .sched (.takeNew w), .sched (.moveRunnable w)]

/-- The worker finds a task done while its `m_gccQueue` has 17. -/
def collects (w : ℕ) : List Event :=
  [.sched (.pop w), .sched (.swapIn w), .sched (.finish w), .sched (.swapOut w), .gcTake w] ++
    List.replicate 17 (.gcDrop w) ++ [.gcErase w]

/-- The waker's `incursivePtr` outlives the `gc` of the task: the task is deleted when it ends. -/
def heldLong : List Event :=
  woken ++ [.sched (.swapOut 0), .sched (.switch 0), .sched (.check 0)] ++ runsOne 0 ++
    [.sched (.takeNew 0), .sched (.moveRunnable 0)] ++ newTasks 0 ++
      (List.replicate 16 (runsOne 0)).flatten ++ collects 0 ++ [.reset 0]

/-- A run in which a finished task is held, let go of and deleted. -/
theorem tasks_counted_held : ∃ s, s.refs.deleted = [0] ∧ Counted s ∧ Collected s := by
  have hmeets : system.Meets Cond start heldLong := by decide +kernel
  have hrun : (system.run start heldLong).any (fun s => decide (s.refs.deleted = [0])) = true := by
    decide +kernel
  obtain ⟨s, hvia, hs⟩ := System.exists_via heldLong _ start_starts hmeets hrun
  obtain ⟨hcounted, hcollected, -⟩ := tasks_counted s hvia
  exact ⟨s, of_decide_eq_true hs, hcounted, hcollected⟩

/-- The task is stolen from under worker 0 and runs to its end on worker 1. -/
def stolen : List Event :=
  woken ++ [.reset 0, .sched (.stealNew 0), .sched .stealRunnable, .sched (.addTask 1 1)] ++
    newTasks 1 ++ (List.replicate 17 (runsOne 1)).flatten ++ collects 1

/-- Worker 1 deletes a task that still runs on worker 0. -/
theorem running_task_deleted :
    ¬ ∀ s, system.Via (fun s e => yields s e = true) s → Counted s := by
  intro hall
  have hmeets : system.Meets (fun s e => yields s e = true) start stolen := by decide +kernel
  have hrun : (system.run start stolen).any
      (fun s => decide (s.sched.pc 0 = .executing 0 ∧ 0 ∈ s.refs.deleted)) = true := by
    decide +kernel
  obtain ⟨s, hvia, hs⟩ := System.exists_via stolen _ start_starts hmeets hrun
  obtain ⟨hpc, hdeleted⟩ := of_decide_eq_true hs
  apply ((hall s hvia).kept 0 hdeleted).2.2.1 0
  rw [hpc, Pc.m_runnable]

end MagicNet.TaskLife
