import MagicNet.Analysis.TaskReturn
import MagicNet.Model.TaskLife

/-!
# Where the finished tasks are

A worker that finds its task done puts it into its `m_gccQueue`, and a `gc` takes it from there.  A
finished task stands in no other list and is with no worker any more, so it is put there once, and the
loop of one `gc` gives up the reference it was created with.
-/

set_option autoImplicit false

namespace MagicNet.TaskLife

open MagicNet.Foundation
open MagicNet.Worker (Pc Steady)

variable {sched t : Worker.State} {e : Worker.Event} {gc : ℕ → Gc} {dropped : List ℕ} {w w' tk : ℕ}

/-- A task that its worker has found done. -/
structure Ended (sched : Worker.State) (tk : ℕ) : Prop where
  known : tk < sched.created
  done : (sched.tasks tk)._state = .done
  left : ∀ w, (sched.pc w).m_runnable ≠ some tk

/-- A new task has the next number.
SOURCE: operation/scheduler.cc:69-76 -/
theorem step_created (hs : Worker.step sched e = some t) : sched.created ≤ t.created ∧
    ∀ tk < t.created, tk < sched.created ∨ tk = sched.created ∧ ∃ w, e = .createTask w := by
  rw [(Worker.step_rest hs).1]
  cases e with
  | createTask w =>
    refine ⟨Nat.le_succ _, fun tk hlt => ?_⟩
    rcases Nat.lt_succ_iff_lt_or_eq.mp hlt with hold | heq
    · exact .inl hold
    · exact .inr ⟨heq, w, rfl⟩
  | _ => exact ⟨le_rfl, fun tk hlt => .inl hlt⟩

/-- A task that has ended stays so. -/
theorem Ended.step (h : Ended sched tk) (hsteady : Steady sched)
    (hs : Worker.step sched e = some t) : Ended t tk := by
  refine ⟨?_, hsteady.done_after hs h.known h.done, ?_⟩
  · have hcreated := (step_created hs).1
    have hknown := h.known
    omega
  · intro w hpc
    rcases Worker.step_runnable hs hpc with hold | ⟨-, -, hmem⟩
    · exact h.left w hold
    · exact hsteady.resting tk (.inl ⟨_, hmem⟩) h.done

/-- And is in no queue of tasks that run. -/
theorem Ended.not_stored (h : Ended sched tk) (hsteady : Steady sched) :
    ¬ Stored sched.queue tk := fun hstored => hsteady.resting tk (.inl hstored) h.done

/-- Where the finished tasks are. -/
inductive Trash where
  | m_gccQueue (w : ℕ)
  | gc (w : ℕ)
  deriving DecidableEq

def trash (sched : Worker.State) (gc : ℕ → Gc) : Trash → List ℕ
  | .m_gccQueue w => sched.m_gccQueue w
  | .gc w => (gc w).l

/-- The lists of the collector, where `m_gccQueue` is the same. -/
theorem trash_congr (hgcc : t.m_gccQueue = sched.m_gccQueue) : trash t gc = trash sched gc := by
  funext p
  cases p with
  | m_gccQueue w => exact congrFun hgcc w
  | gc w => rfl

/-- And where a task is put there.
SOURCE: operation/worker.cc:178-215 -/
theorem trash_push
    (hgcc : t.m_gccQueue = Function.update sched.m_gccQueue w (sched.m_gccQueue w ++ [tk])) :
    trash t gc = Function.update (trash sched gc) (.m_gccQueue w)
      (trash sched gc (.m_gccQueue w) ++ [tk]) := by
  funext p
  cases p with
  | m_gccQueue w' =>
    by_cases hw : w' = w
    · subst hw
      simp [trash, hgcc]
    · simp [trash, hgcc, hw]
  | gc w' => simp [trash]

/-- That task is in it, and those from before. -/
theorem stored_push
    (hgcc : t.m_gccQueue = Function.update sched.m_gccQueue w (sched.m_gccQueue w ++ [tk]))
    (b : ℕ) : Stored (trash t gc) b ↔ Stored (trash sched gc) b ∨ b = tk := by
  rw [trash_push hgcc]
  exact Exclusive.stored_put

/-- Finished tasks stand in one list at most and have left their worker; a `gc` gives up their first
reference in the loop over its list, and all that have left their worker are in such a list or have
lost that reference. -/
structure Garbage (sched : Worker.State) (gc : ℕ → Gc) (dropped : List ℕ) : Prop where
  lists : Exclusive (trash sched gc)
  ended : ∀ tk, Stored (trash sched gc) tk ∨ tk ∈ dropped → Ended sched tk
  todo : ∀ w, (gc w).todo <:+ (gc w).l
  fresh : ∀ w, ∀ tk ∈ sched.m_gccQueue w, tk ∉ dropped
  loop : ∀ w, ∀ tk ∈ (gc w).l, (tk ∈ dropped ↔ tk ∉ (gc w).todo)
  finished : ∀ tk < sched.created, (sched.tasks tk)._state = .done →
    (∃ w, (sched.pc w).m_runnable = some tk) ∨ Stored (trash sched gc) tk ∨ tk ∈ dropped

namespace Garbage

/-- The worker finds its task done and puts it into its `m_gccQueue`. -/
theorem switch (h : Garbage sched gc dropped) (hsteady : Steady sched)
    (hpc : sched.pc w = .returned tk) (hdone : (sched.tasks tk)._state = .done) :
    Garbage { sched.setPc w .check with
      m_gccQueue := Function.update sched.m_gccQueue w (sched.m_gccQueue w ++ [tk]) }
      gc dropped := by
  have hrunnable : (sched.pc w).m_runnable = some tk := by rw [hpc, Pc.m_runnable]
  have htrash : trash { sched.setPc w .check with
      m_gccQueue := Function.update sched.m_gccQueue w (sched.m_gccQueue w ++ [tk]) } gc =
      Function.update (trash sched gc) (.m_gccQueue w)
        (trash sched gc (.m_gccQueue w) ++ [tk]) := trash_push rfl
  -- the worker still has the task, so no list of finished tasks does
  have hnone : ¬ (Stored (trash sched gc) tk ∨ tk ∈ dropped) := fun hold =>
    (h.ended tk hold).left w hrunnable
  rw [not_or] at hnone
  have hpcs : ∀ {w' b}, ((sched.setPc w .check).pc w').m_runnable = some b →
      w' ≠ w ∧ (sched.pc w').m_runnable = some b := by
    intro w' b hb
    by_cases hw : w' = w
    · subst hw
      rw [Worker.setPc_self] at hb
      cases hb
    · rw [Worker.setPc_of_ne hw] at hb
      exact ⟨hw, hb⟩
  have hstored : ∀ b, Stored (trash { sched.setPc w .check with
      m_gccQueue := Function.update sched.m_gccQueue w (sched.m_gccQueue w ++ [tk]) } gc) b ↔
        Stored (trash sched gc) b ∨ b = tk := stored_push rfl
  refine ⟨?_, ?_, h.todo, ?_, h.loop, ?_⟩
  · rw [htrash]
    exact h.lists.put hnone.1
  · intro b hb
    rw [hstored, or_right_comm] at hb
    rcases hb with hold | rfl
    · obtain ⟨hknown, hdone', hleft⟩ := h.ended b hold
      exact ⟨hknown, hdone', fun w' hpc' => hleft w' (hpcs hpc').2⟩
    · refine ⟨hsteady.known hrunnable, hdone, fun w' hpc' => ?_⟩
      exact (hpcs hpc').1 (hsteady.sole (hpcs hpc').2 hrunnable)
  · intro w' b hb
    have hb' : b ∈ Function.update sched.m_gccQueue w (sched.m_gccQueue w ++ [tk]) w' := hb
    rcases Exclusive.mem_put.mp hb' with hold | ⟨-, rfl⟩
    · exact h.fresh w' b hold
    · exact hnone.2
  · intro b hlt hdone'
    rw [hstored]
    rcases h.finished b hlt hdone' with ⟨w', hpc'⟩ | hold | hold
    · by_cases hw : w' = w
      · subst hw
        rw [hrunnable, Option.some.injEq] at hpc'
        exact .inr (.inl (.inr hpc'.symm))
      · refine .inl ⟨w', ?_⟩
        show ((sched.setPc w .check).pc w').m_runnable = some b
        rw [Worker.setPc_of_ne hw]
        exact hpc'
    · exact .inr (.inl (.inl hold))
    · exact .inr (.inr hold)

/-- A step at which no worker finds its task done. -/
theorem other (h : Garbage sched gc dropped) (hsteady : Steady sched)
    (hs : Worker.step sched e = some t) (hgcc : t.m_gccQueue = sched.m_gccQueue)
    (hswitch : ∀ w tk, e = .switch w → sched.pc w = .returned tk →
      (sched.tasks tk)._state ≠ .done) : Garbage t gc dropped := by
  have htrash : trash t gc = trash sched gc := trash_congr hgcc
  refine ⟨?_, ?_, h.todo, ?_, h.loop, ?_⟩
  · rw [htrash]
    exact h.lists
  · intro tk htk
    rw [htrash] at htk
    exact (h.ended tk htk).step hsteady hs
  · rw [hgcc]
    exact h.fresh
  · intro tk hlt hdone
    rw [htrash]
    rcases (step_created hs).2 tk hlt with hknown | ⟨heq, w, rfl⟩
    · rcases Worker.done_before hs hknown hdone with hold | ⟨w, rfl, hpc, -⟩
      · rcases h.finished tk hknown hold with ⟨w, hpc⟩ | hrest
        · rcases Worker.step_keeps hs hpc with hkept | ⟨rfl, hreturned⟩
          · exact .inl ⟨w, hkept⟩
          · exact absurd hold (hswitch w tk rfl hreturned)
        · exact .inr hrest
      · have hrunnable : (sched.pc w).m_runnable = some tk := by rw [hpc, Pc.m_runnable]
        rcases Worker.step_keeps hs hrunnable with hkept | ⟨heq, -⟩
        · exact .inl ⟨w, hkept⟩
        · cases heq
    · rw [Worker.step_state hs, Worker.stateAfter, if_pos heq] at hdone
      cases hdone

/-- **Each step of a worker, a waker or the dispatcher.** -/
theorem step (h : Garbage sched gc dropped) (hsteady : Steady sched)
    (hs : Worker.step sched e = some t) : Garbage t gc dropped := by
  have hrest := (Worker.step_rest hs).2.2
  cases e with
  | switch w =>
    obtain ⟨tk, hpc, ⟨hstate, rfl⟩ | ⟨hdone, rfl⟩⟩ := Worker.step_switch.mp hs
    · refine h.other hsteady hs rfl ?_
      intro w' tk' heq hpc'
      cases heq
      obtain rfl : tk = tk' := Pc.returned.inj (hpc.symm.trans hpc')
      exact hstate
    · exact h.switch hsteady hpc hdone
  | _ => exact h.other hsteady hs hrest (by simp)

/-- The garbage queue of a worker becomes the list of its `gc`.
SOURCE: operation/worker.cc:170-176, 178-215 -/
theorem gcTake (h : Garbage sched gc dropped) (hempty : (gc w).l = []) :
    (∀ b, Stored (trash { sched with m_gccQueue := Function.update sched.m_gccQueue w [] }
      (Function.update gc w ⟨sched.m_gccQueue w, sched.m_gccQueue w⟩)) b ↔
        Stored (trash sched gc) b) ∧
    Garbage { sched with m_gccQueue := Function.update sched.m_gccQueue w [] }
      (Function.update gc w ⟨sched.m_gccQueue w, sched.m_gccQueue w⟩) dropped := by
  have htrash : trash { sched with m_gccQueue := Function.update sched.m_gccQueue w [] }
      (Function.update gc w ⟨sched.m_gccQueue w, sched.m_gccQueue w⟩) =
      moveTable (trash sched gc) (.m_gccQueue w) (.gc w) (sched.m_gccQueue w) [] := by
    funext p
    cases p with
    | m_gccQueue w' =>
      by_cases hw : w' = w
      · subst hw
        simp [trash, moveTable]
      · simp [trash, moveTable, hw]
    | gc w' =>
      by_cases hw : w' = w
      · subst hw
        simp [trash, moveTable, hempty]
      · simp [trash, moveTable, hw]
  have hne : Trash.m_gccQueue w ≠ .gc w := by simp
  have hperm : (trash sched gc (.m_gccQueue w)).Perm (sched.m_gccQueue w ++ []) := by
    rw [List.append_nil]
    exact List.Perm.refl _
  have hstored : ∀ b, Stored (trash { sched with
      m_gccQueue := Function.update sched.m_gccQueue w [] }
      (Function.update gc w ⟨sched.m_gccQueue w, sched.m_gccQueue w⟩)) b ↔
        Stored (trash sched gc) b := by
    intro b
    rw [htrash]
    exact h.lists.stored_move hne hperm
  refine ⟨hstored, ?_, ?_, ?_, ?_, ?_, ?_⟩
  · rw [htrash]
    exact h.lists.move hne hperm
  · intro tk htk
    rw [hstored] at htk
    obtain ⟨hknown, hdone, hleft⟩ := h.ended tk htk
    exact ⟨hknown, hdone, hleft⟩
  · intro w'
    by_cases hw : w' = w
    · subst hw
      rw [Function.update_self]
    · rw [Function.update_of_ne hw]
      exact h.todo w'
  · intro w' tk htk
    have htk' : tk ∈ Function.update sched.m_gccQueue w [] w' := htk
    by_cases hw : w' = w
    · subst hw
      rw [Function.update_self] at htk'
      cases htk'
    · rw [Function.update_of_ne hw] at htk'
      exact h.fresh w' tk htk'
  · intro w' tk htk
    by_cases hw : w' = w
    · subst hw
      rw [Function.update_self] at htk ⊢
      simp only [htk, not_true, iff_false]
      exact h.fresh w' tk htk
    · rw [Function.update_of_ne hw] at htk ⊢
      exact h.loop w' tk htk
  · intro tk hlt hdone
    rw [hstored]
    exact h.finished tk hlt hdone

/-- One round of the loop of `gc`.
SOURCE: operation/worker.cc:170-176 -/
theorem gcDrop {todo : List ℕ} (h : Garbage sched gc dropped) (htodo : (gc w).todo = tk :: todo) :
    tk ∉ dropped ∧ Stored (trash sched gc) tk ∧
      trash sched (Function.update gc w ⟨(gc w).l, todo⟩) = trash sched gc ∧
      Garbage sched (Function.update gc w ⟨(gc w).l, todo⟩) (tk :: dropped) := by
  have hl : ∀ w', (Function.update gc w ⟨(gc w).l, todo⟩ w').l = (gc w').l := by
    intro w'
    by_cases hw : w' = w
    · subst hw
      rw [Function.update_self]
    · rw [Function.update_of_ne hw]
  have htrash : trash sched (Function.update gc w ⟨(gc w).l, todo⟩) = trash sched gc := by
    funext p
    cases p with
    | m_gccQueue w' => rfl
    | gc w' => exact hl w'
  have hmem : tk ∈ (gc w).l := (h.todo w).mem (by simp [htodo])
  have hstored : Stored (trash sched gc) tk := ⟨.gc w, hmem⟩
  have hnot : tk ∉ dropped := by
    rw [h.loop w tk hmem, htodo]
    simp
  refine ⟨hnot, hstored, htrash, ?_, ?_, ?_, ?_, ?_, ?_⟩
  · rw [htrash]
    exact h.lists
  · intro b hb
    rw [htrash, List.mem_cons] at hb
    rcases hb with hold | rfl | hold
    · exact h.ended b (.inl hold)
    · exact h.ended b (.inl hstored)
    · exact h.ended b (.inr hold)
  · intro w'
    by_cases hw : w' = w
    · subst hw
      rw [Function.update_self]
      have hsuffix := h.todo w'
      rw [htodo] at hsuffix
      exact (List.suffix_cons tk todo).trans hsuffix
    · rw [Function.update_of_ne hw]
      exact h.todo w'
  · intro w' b hb hdropped
    rcases List.mem_cons.mp hdropped with rfl | hold
    · have hcross : Trash.m_gccQueue w' = .gc w := h.lists.unique hb hmem
      cases hcross
    · exact h.fresh w' b hb hold
  · intro w' b hb
    rw [hl] at hb
    by_cases hw : w' = w
    · subst hw
      have hnodup : (tk :: todo).Nodup := htodo ▸ (h.todo w').sublist.nodup (h.lists.nodup (.gc w'))
      have hloop := h.loop w' b hb
      rw [htodo] at hloop
      rw [Function.update_self, List.mem_cons, hloop, List.mem_cons]
      by_cases heq : b = tk
      · subst heq
        simpa using (List.nodup_cons.mp hnodup).1
      · simp [heq]
    · rw [Function.update_of_ne hw, List.mem_cons, h.loop w' b hb]
      have hne : b ≠ tk := by
        rintro rfl
        have hcross : Trash.gc w' = .gc w := h.lists.unique hb hmem
        exact hw (Trash.gc.inj hcross)
      simp [hne]
  · intro b hlt hdone
    rw [htrash, List.mem_cons]
    rcases h.finished b hlt hdone with hold | hold | hold
    · exact .inl hold
    · exact .inr (.inl hold)
    · exact .inr (.inr (.inr hold))

/-- One round of the `clear` of a `gc`.
SOURCE: operation/worker.cc:170-176 -/
theorem gcErase {l : List ℕ} (h : Garbage sched gc dropped) (hgc : gc w = ⟨tk :: l, []⟩) :
    tk ∈ dropped ∧ Stored (trash sched gc) tk ∧
      (∀ b, Stored (trash sched (Function.update gc w ⟨l, []⟩)) b ↔
        Stored (trash sched gc) b ∧ b ≠ tk) ∧
      Garbage sched (Function.update gc w ⟨l, []⟩) dropped := by
  have htrash : trash sched (Function.update gc w ⟨l, []⟩) =
      Function.update (trash sched gc) (.gc w) l := by
    funext p
    cases p with
    | m_gccQueue w' => simp [trash]
    | gc w' =>
      by_cases hw : w' = w
      · subst hw
        simp [trash]
      · simp [trash, hw]
  have hperm : (trash sched gc (.gc w)).Perm (tk :: l) := by simp [trash, hgc]
  have hmem : tk ∈ (gc w).l := by simp [hgc]
  have hdropped : tk ∈ dropped := by
    rw [h.loop w tk hmem, hgc]
    simp
  have hstored : ∀ b, Stored (Function.update (trash sched gc) (.gc w) l) b ↔
      Stored (trash sched gc) b ∧ b ≠ tk := fun _ => h.lists.stored_take hperm
  refine ⟨hdropped, ⟨.gc w, hmem⟩, fun b => htrash ▸ hstored b, ?_, ?_, ?_, h.fresh, ?_, ?_⟩
  · rw [htrash]
    exact h.lists.take hperm
  · intro b hb
    rw [htrash, hstored] at hb
    exact h.ended b (hb.imp_left And.left)
  · intro w'
    by_cases hw : w' = w
    · subst hw
      rw [Function.update_self]
      exact List.nil_suffix
    · rw [Function.update_of_ne hw]
      exact h.todo w'
  · intro w' b hb
    by_cases hw : w' = w
    · subst hw
      rw [Function.update_self] at hb ⊢
      have hold := h.loop w' b (by simp [hgc, hb])
      rw [hold, hgc]
    · rw [Function.update_of_ne hw] at hb ⊢
      exact h.loop w' b hb
  · intro b hlt hdone
    rw [htrash, hstored]
    rcases h.finished b hlt hdone with hold | hold | hold
    · exact .inl hold
    · by_cases hne : b = tk
      · exact .inr (.inr (hne ▸ hdropped))
      · exact .inr (.inl ⟨hold, hne⟩)
    · exact .inr (.inr hold)

end Garbage

end MagicNet.TaskLife
