import MagicNet.Analysis.TaskReturn
import MagicNet.Model.Contexts

/-!
# The contexts take the workers to their tasks and back

A thread whose worker executes a task runs that task's code, and has in its `tls_context` the handle of
the worker's own `SwapIn`; it is back in `SwapIn` before `m_ctx` is written, and in `process`
otherwise.  The handle in a task's `m_ctx` has been jumped to while a worker executes the task, and is
that of the task's own code while none does (`Inv`).  Of the contexts only what `Coroutines.Lawful`
promises is used.  So a worker gets to a task it has popped exactly
when no other one executes it, whichever thread the task has last run on; and the steps of the workers
are all carried out by the contexts until a worker switches to a task that another one executes.
-/

set_option autoImplicit false

namespace MagicNet.Worker

open MagicNet.Foundation

variable {s s' : State} {e : Event} {w tk : ℕ}

/-! ## Tasks that are done -/

/-- No worker can pop a task that is done. -/
def Gone (s : State) : Prop :=
  ∀ tk < s.created, (s.tasks tk)._state = .done → ¬ Stored s.queue tk ∧ ∀ w, s.pc w ≠ .popped tk

/-- At the start there are no tasks that are done. -/
theorem gone_of_starts (h : Starts s) : Gone s := by
  intro tk hlt
  rw [h.created] at hlt
  exact absurd hlt (Nat.not_lt_zero tk)

/-- A step leaves tasks that are done out of the queues.
SOURCE: operation/worker.cc:178-215, operation/task.cc:17-31 -/
theorem step_gone (hS : Sound s) (h : Gone s) (hs : step s e = some s') : Gone s' := by
  intro tk hlt hdone
  have hknown : tk < s.created := by
    rw [(step_rest hs).1] at hlt
    by_contra hle
    cases e with
    | createTask w =>
      obtain rfl : tk = s.created := by simp only [createdAfter] at hlt; omega
      rw [step_state hs, stateAfter, if_pos rfl] at hdone
      cases hdone
    | _ => exact hle hlt
  rcases done_before hs hknown hdone with hbefore | ⟨w, rfl, hpc, hstate⟩
  · obtain ⟨hnone, hpopped⟩ := h tk hknown hbefore
    refine ⟨fun hstored => ?_, fun w hpc => ?_⟩
    · rcases (step_stored hS hs).mp hstored with ⟨hold, -⟩ | ⟨-, -, rfl⟩ | ⟨w, rfl, hpc⟩
      · exact hnone hold
      · exact hknown.false
      · rw [step_state hs, stateAfter, if_pos hpc] at hdone
        cases hdone
    · rcases step_popped hs hpc with hold | ⟨-, hmem⟩
      · exact hpopped w hold
      · exact hnone ⟨_, hmem⟩
  · obtain ⟨hnone, hpopped⟩ := hS.active hpc hstate
    refine ⟨fun hstored => ?_, fun w' hpc' => ?_⟩
    · rcases (step_stored hS hs).mp hstored with ⟨hold, -⟩ | ⟨_, heq, -⟩ | ⟨_, heq, -⟩
      · exact hnone hold
      · cases heq
      · cases heq
    · rcases step_popped hs hpc' with hold | ⟨heq, -⟩
      · exact hpopped w' hold
      · cases heq

/-- A task that is done stays so. -/
theorem done_stays (h : Gone s) (hs : step s e = some s') (hknown : tk < s.created)
    (hdone : (s.tasks tk)._state = .done) : (s'.tasks tk)._state = .done := by
  rw [step_state hs]
  cases e with
  | createTask w =>
    rw [stateAfter, if_neg (by omega)]
    exact hdone
  | swapIn w =>
    rw [stateAfter, if_neg ((h tk hknown hdone).2 w)]
    exact hdone
  | suspend w =>
    obtain ⟨tk', wrk, hpc, -, ⟨-, hstate⟩, -⟩ := step_suspend.mp hs
    have hne : s.pc w ≠ .executing tk := by
      intro hpc'
      obtain rfl := Pc.executing.inj (hpc.symm.trans hpc')
      rw [hdone] at hstate
      cases hstate
    rw [stateAfter, if_neg hne]
    exact hdone
  | finish w =>
    rw [stateAfter]
    split
    · rfl
    · exact hdone
  | _ => exact hdone

/-- Only `SwapIn` and its return change what a worker executes.
SOURCE: operation/worker.cc:178-215, operation/worker.h:128-134 -/
theorem step_executing (hs : step s e = some s') (hin : e ≠ .swapIn w) (hout : e ≠ .swapOut w) :
    s'.pc w = .executing tk ↔ s.pc w = .executing tk := by
  rcases step_at hs w with hsame | hgoes
  · rw [hsame]
  · generalize s'.pc w = pc at hgoes
    cases hgoes with
    | pop hold _ => simp [hold]
    | swapIn _ => exact absurd rfl hin
    | swapOut _ => exact absurd rfl hout
    | free hnone hswitch =>
      constructor
      · rintro rfl
        cases hnone
      · intro hpc
        have hreturned := (hswitch tk (by rw [hpc]; rfl)).2
        rw [hpc] at hreturned
        cases hreturned

end MagicNet.Worker

namespace MagicNet.Context

open MagicNet.Foundation
open MagicNet.Worker (Pc Sound Gone NoneTwice)

variable {κ η : Type} {K : Coroutines Code κ η} {saved : κ → η → Option Code} {s s' : State κ η}
  {e : Worker.Event} {t : Worker.State} {w w' tk : ℕ}

/-! ## The invariant -/

/-- The code is the task's. -/
def Code.IsOf (tk : ℕ) (code : Code) : Prop := code = .entry tk ∨ ∃ ended, code = .swapOut tk ended

/-- The task can be switched to. -/
structure Ready (saved : κ → η → Option Code) (s : State κ η) (tk : ℕ) : Prop where
  unused : s.used tk = false
  saved : ∃ code, saved s.contexts (s.m_ctx tk) = some code ∧ code.IsOf tk

/-- The thread runs the task, and can go back to its worker's `SwapIn`; or it is back there, with the
handle of the task. -/
def Runs (saved : κ → η → Option Code) (s : State κ η) (w tk : ℕ) : Prop :=
  (s.control w = .task tk ∧
      ∃ fctx, s.tls_context w = some fctx ∧ saved s.contexts fctx = some (.swapIn w tk)) ∨
    ∃ fctx ended, s.control w = .returned w tk fctx ∧
      saved s.contexts fctx = some (.swapOut tk ended)

structure Inv (saved : κ → η → Option Code) (s : State κ η) : Prop where
  sound : Sound s.workers
  gone : Gone s.workers
  alone : NoneTwice s.workers
  runs : ∀ w tk, s.workers.pc w = .executing tk → Runs saved s w tk
  process : ∀ w, (∀ tk, s.workers.pc w ≠ .executing tk) → s.control w = .process w
  used : ∀ w tk, s.workers.pc w = .executing tk → s.used tk = true
  ready : ∀ tk < s.workers.created, (∀ w, s.workers.pc w ≠ .executing tk) → Ready saved s tk
  ended : ∀ h tk, saved s.contexts h = some (.swapOut tk true) →
    tk < s.workers.created ∧ (s.workers.tasks tk)._state = .done

/-- A task whose code has ended is still done after a step of the workers. -/
theorem Inv.ended_after (h : Inv saved s) (hs : Worker.step s.workers e = some t) {h' : η}
    (hsaved : saved s.contexts h' = some (.swapOut tk true)) :
    tk < t.created ∧ (t.tasks tk)._state = .done := by
  obtain ⟨hknown, hdone⟩ := h.ended h' tk hsaved
  refine ⟨?_, Worker.done_stays h.gone hs hknown hdone⟩
  rw [(Worker.step_rest hs).1]
  cases e with
  | createTask w => exact hknown.trans (Nat.lt_succ_self _)
  | _ => exact hknown

/-! ## Steps that jump nowhere -/

/-- The workers take a step, and the contexts stay as they are. -/
theorem Inv.frame (h : Inv saved s) (hs : Worker.step s.workers e = some t)
    (hin : ∀ w, e ≠ .swapIn w) (hout : ∀ w, e ≠ .swapOut w)
    (hnew : ∀ tk < t.created, s.workers.created ≤ tk → Ready saved s tk) :
    Inv saved { s with workers := t } := by
  have hpc : ∀ {w tk}, t.pc w = .executing tk ↔ s.workers.pc w = .executing tk :=
    fun {w _} => Worker.step_executing hs (hin w) (hout w)
  refine ⟨Worker.step_sound h.sound hs, Worker.step_gone h.sound h.gone hs, ?_, ?_, ?_, ?_, ?_, ?_⟩
  · intro w w' tk hw hw'
    exact h.alone w w' tk (hpc.mp hw) (hpc.mp hw')
  · intro w tk hw
    exact h.runs w tk (hpc.mp hw)
  · intro w hnone
    exact h.process w fun tk hw => hnone tk (hpc.mpr hw)
  · intro w tk hw
    exact h.used w tk (hpc.mp hw)
  · intro tk hlt hnone
    by_cases hknown : tk < s.workers.created
    · obtain ⟨hunused, hcode⟩ := h.ready tk hknown fun w hw => hnone w (hpc.mpr hw)
      exact ⟨hunused, hcode⟩
    · obtain ⟨hunused, hcode⟩ := hnew tk hlt (Nat.le_of_not_lt hknown)
      exact ⟨hunused, hcode⟩
  · intro h' tk hsaved
    exact h.ended_after hs hsaved

/-- A new context changes nothing for the others.
SOURCE: operation/context.h:13-27 -/
theorem Inv.make_fcontext (h : Inv saved s) (hK : K.Lawful saved) :
    Inv saved (s.make_fcontext K s.workers.created) := by
  have hkeeps : ∀ {h' code}, saved s.contexts h' = some code →
      saved (K.make s.contexts (.entry s.workers.created)).2 h' = some code :=
    fun hsaved => hK.make_keeps _ _ _ _ hsaved
  refine ⟨h.sound, h.gone, h.alone, ?_, h.process, ?_, ?_, ?_⟩
  · intro w tk hpc
    rcases h.runs w tk hpc with ⟨hcontrol, fctx, htls, hsaved⟩ | ⟨fctx, ended, hcontrol, hsaved⟩
    · exact .inl ⟨hcontrol, fctx, htls, hkeeps hsaved⟩
    · exact .inr ⟨fctx, ended, hcontrol, hkeeps hsaved⟩
  · intro w tk hpc
    have hknown := h.sound.known w tk (.inr hpc)
    exact (Function.update_of_ne hknown.ne _ _).trans (h.used w tk hpc)
  · intro tk hknown hnone
    obtain ⟨hunused, code, hsaved, hof⟩ := h.ready tk hknown hnone
    have hctx : (s.make_fcontext K s.workers.created).m_ctx tk = s.m_ctx tk :=
      Function.update_of_ne hknown.ne _ _
    refine ⟨(Function.update_of_ne hknown.ne _ _).trans hunused, code, ?_, hof⟩
    rw [hctx]
    exact hkeeps hsaved
  · intro h' tk hsaved
    rcases hK.make_only _ _ _ _ hsaved with heq | hold
    · cases heq
    · exact h.ended h' tk hold

/-- A new task can be switched to.
SOURCE: operation/context.h:13-27 -/
theorem ready_new (hK : K.Lawful saved) : Ready saved (s.make_fcontext K tk) tk := by
  refine ⟨Function.update_self .., .entry tk, ?_, .inl rfl⟩
  simp only [State.make_fcontext, Function.update_self]
  exact hK.made _ _

/-! ## Jumps -/

section Jump

variable {c : κ} {k code : Code} {target fctx : η}

/-- A thread that has nothing to do with the jump runs its task as before. -/
theorem Runs.jump (h : Runs saved s w tk) (hK : K.Lawful saved)
    (hjump : K.Jumps saved s.contexts k target code fctx c)
    (hcontext : s'.contexts = c) (hcontrol : s'.control w = s.control w)
    (htls : s'.tls_context w = s.tls_context w) (hin : code ≠ .swapIn w tk)
    (hout : ∀ ended, code ≠ .swapOut tk ended) : Runs saved s' w tk := by
  rw [Runs, hcontext, hcontrol, htls]
  rcases h with ⟨htask, fctx, hfctx, hsaved⟩ | ⟨fctx, ended, hreturned, hsaved⟩
  · exact .inl ⟨htask, fctx, hfctx, hjump.saved_of_ne hK hsaved hin.symm⟩
  · exact .inr ⟨fctx, ended, hreturned, hjump.saved_of_ne hK hsaved (hout ended).symm⟩

/-- A task that is not the one jumped to can be switched to as before. -/
theorem Ready.jump (h : Ready saved s tk) (hK : K.Lawful saved)
    (hjump : K.Jumps saved s.contexts k target code fctx c)
    (hcontext : s'.contexts = c) (hctx : s'.m_ctx tk = s.m_ctx tk) (hused : s'.used tk = s.used tk)
    (hof : ¬ code.IsOf tk) : Ready saved s' tk := by
  obtain ⟨hunused, code', hsaved, hof'⟩ := h
  refine ⟨hused.trans hunused, code', ?_, hof'⟩
  rw [hcontext, hctx]
  exact hjump.saved_of_ne hK hsaved fun heq => hof (heq ▸ hof')

end Jump

/-! ## To a task -/

/-- A worker that has popped a task comes to the task's code when nobody executes the task.
SOURCE: operation/worker.cc:178-215 -/
theorem Inv.swapIn_jumps (h : Inv saved s) (hK : K.Lawful saved)
    (hpc : s.workers.pc w = .popped tk) (hnone : ∀ w', s.workers.pc w' ≠ .executing tk) :
    ∃ code fctx c, code.IsOf tk ∧
      K.Jumps saved s.contexts (.swapIn w tk) (s.m_ctx tk) code fctx c ∧
        s.swapIn K w tk = some { s with
          contexts := c
          used := Function.update s.used tk true
          tls_context := Function.update s.tls_context w (some fctx)
          control := Function.update s.control w (.task tk) } := by
  have hknown := h.sound.known w tk (.inl hpc)
  obtain ⟨hunused, code, hsaved, hof⟩ := h.ready tk hknown hnone
  obtain ⟨fctx, c, hjumps⟩ := hK.jumps hsaved (.swapIn w tk)
  have hprocess : s.control w = .process w := h.process w (by simp [hpc])
  refine ⟨code, fctx, c, hof, hjumps, ?_⟩
  rcases hof with rfl | ⟨ended, rfl⟩
  · simp [State.swapIn, State.jump_fcontext, State.land, hprocess, hunused, hjumps.jump]
  · -- a task that has been popped is not done
    obtain rfl : ended = false := by
      by_contra hended
      rw [Bool.not_eq_false] at hended
      subst hended
      have hdone := (h.ended _ _ hsaved).2
      exact (h.gone tk hknown hdone).2 w hpc
    simp [State.swapIn, State.jump_fcontext, State.land, hprocess, hunused, hjumps.jump]

/-- It jumps nowhere while another one executes the task.
SOURCE: operation/worker.cc:178-215 -/
theorem Inv.swapIn_none (h : Inv saved s) (hpc : s.workers.pc w' = .executing tk) :
    s.swapIn K w tk = none := by
  rw [State.swapIn]
  split
  · rw [if_pos (h.used w' tk hpc)]
  · rfl

/-- The invariant after a worker has got to a task.
SOURCE: operation/context.h:39-42 -/
theorem Inv.swapIn {c : κ} {code : Code} {fctx : η} (h : Inv saved s) (hK : K.Lawful saved)
    (hpc : s.workers.pc w = .popped tk) (hnone : ∀ w', s.workers.pc w' ≠ .executing tk)
    (hof : code.IsOf tk)
    (hjump : K.Jumps saved s.contexts (.swapIn w tk) (s.m_ctx tk) code fctx c)
    (hs : Worker.step s.workers (.swapIn w) = some t) : Inv saved { s with
      workers := t
      contexts := c
      used := Function.update s.used tk true
      tls_context := Function.update s.tls_context w (some fctx)
      control := Function.update s.control w (.task tk) } := by
  obtain ⟨tk', hpopped, rfl⟩ := Worker.step_swapIn.mp hs
  obtain rfl : tk = tk' := Pc.popped.inj (hpc.symm.trans hpopped)
  have hself : Function.update s.workers.pc w (.executing tk) w = .executing tk :=
    Function.update_self ..
  have hold : ∀ {w' tk'}, Function.update s.workers.pc w (.executing tk) w' = .executing tk' →
      w' = w ∧ tk' = tk ∨ w' ≠ w ∧ tk' ≠ tk ∧ s.workers.pc w' = .executing tk' := by
    intro w' tk' hpc'
    by_cases hw : w' = w
    · subst hw
      exact .inl ⟨rfl, (Pc.executing.inj (hself.symm.trans hpc')).symm⟩
    · rw [Function.update_of_ne hw] at hpc'
      exact .inr ⟨hw, fun heq => hnone w' (heq ▸ hpc'), hpc'⟩
  have hcode : ∀ {w' tk'}, code ≠ .swapIn w' tk' := by
    rintro w' tk' rfl
    rcases hof with heq | ⟨ended, heq⟩ <;> cases heq
  have hout : ∀ {tk' ended}, tk' ≠ tk → code ≠ .swapOut tk' ended := by
    rintro tk' ended hne rfl
    rcases hof with heq | ⟨ended', heq⟩
    · cases heq
    · exact hne (Code.swapOut.inj heq).1
  refine ⟨Worker.step_sound h.sound hs, Worker.step_gone h.sound h.gone hs, ?_, ?_, ?_, ?_, ?_, ?_⟩
  · intro w₁ w₂ tk' h₁ h₂
    rcases hold h₁ with ⟨rfl, rfl⟩ | ⟨-, hne, h₁'⟩ <;> rcases hold h₂ with ⟨rfl, heq⟩ | ⟨-, -, h₂'⟩
    · rfl
    · exact absurd h₂' (hnone w₂)
    · exact absurd heq hne
    · exact h.alone w₁ w₂ tk' h₁' h₂'
  · intro w' tk' hpc'
    rcases hold hpc' with ⟨rfl, rfl⟩ | ⟨hw, hne, hpc''⟩
    · exact .inl ⟨Function.update_self .., _, Function.update_self .., hjump.saved_self hK⟩
    · exact (h.runs w' tk' hpc'').jump hK hjump rfl (Function.update_of_ne hw _ _)
        (Function.update_of_ne hw _ _) hcode fun _ => hout hne
  · intro w' hidle
    have hw : w' ≠ w := by
      rintro rfl
      exact hidle tk hself
    refine (Function.update_of_ne hw _ _).trans (h.process w' fun tk' hpc' => hidle tk' ?_)
    exact (Function.update_of_ne hw _ _).trans hpc'
  · intro w' tk' hpc'
    rcases hold hpc' with ⟨rfl, rfl⟩ | ⟨hw, hne, hpc''⟩
    · exact Function.update_self ..
    · exact (Function.update_of_ne hne _ _).trans (h.used w' tk' hpc'')
  · intro tk' hknown hfree
    have hne : tk' ≠ tk := by
      rintro rfl
      exact hfree w hself
    refine (h.ready tk' hknown fun w' hpc' => ?_).jump hK hjump rfl rfl
      (Function.update_of_ne hne _ _) ?_
    · have hw : w' ≠ w := by
        rintro rfl
        rw [hpc] at hpc'
        cases hpc'
      exact hfree w' ((Function.update_of_ne hw _ _).trans hpc')
    · rintro (rfl | ⟨ended, rfl⟩)
      · rcases hof with heq | ⟨ended, heq⟩
        · exact hne (Code.entry.inj heq)
        · cases heq
      · exact hout hne rfl
  · intro h' tk' hsaved
    rcases hjump.of_saved hK hsaved with heq | hbefore
    · cases heq
    · exact h.ended_after hs hbefore

/-! ## Back to the worker -/

/-- The task a worker executes jumps back into the worker's `SwapIn`.
SOURCE: operation/worker.h:128-134, operation/worker.cc:178-215 -/
theorem Inv.coYield_jumps (h : Inv saved s) (hK : K.Lawful saved)
    (hpc : s.workers.pc w = .executing tk) (hcontrol : s.control w = .task tk) :
    ∃ ended target fctx c, (ended = true → (s.workers.tasks tk)._state = .done) ∧
      K.Jumps saved s.contexts (.swapOut tk ended) target (.swapIn w tk) fctx c ∧
        step K s (.coYield w) = some { s with
          contexts := c
          control := Function.update s.control w (.returned w tk fctx) } := by
  rcases h.runs w tk hpc with ⟨-, target, htls, hsaved⟩ | ⟨fctx, ended, hreturned, -⟩
  · let ended := decide ((s.workers.tasks tk)._state = .done)
    obtain ⟨fctx, c, hjumps⟩ := hK.jumps hsaved (.swapOut tk ended)
    refine ⟨ended, target, fctx, c, of_decide_eq_true, hjumps, ?_⟩
    simp [step, State.swapOut, State.jump_fcontext, State.land, hpc, hcontrol, htls, Pc.m_runnable,
      hjumps.jump, ended]
  · rw [hcontrol] at hreturned
    cases hreturned

/-- The invariant after the task has jumped back.
SOURCE: operation/worker.h:128-134, operation/context.h:49-52 -/
theorem Inv.coYield {c : κ} {ended : Bool} {target fctx : η} (h : Inv saved s) (hK : K.Lawful saved)
    (hpc : s.workers.pc w = .executing tk)
    (hended : ended = true → (s.workers.tasks tk)._state = .done)
    (hjump : K.Jumps saved s.contexts (.swapOut tk ended) target (.swapIn w tk) fctx c) :
    Inv saved { s with
      contexts := c
      control := Function.update s.control w (.returned w tk fctx) } := by
  refine ⟨h.sound, h.gone, h.alone, ?_, ?_, ?_, ?_, ?_⟩
  · intro w' tk' hpc'
    by_cases hw : w' = w
    · subst hw
      obtain rfl : tk = tk' := Pc.executing.inj (hpc.symm.trans hpc')
      exact .inr ⟨_, ended, Function.update_self .., hjump.saved_self hK⟩
    · refine (h.runs w' tk' hpc').jump hK hjump rfl (Function.update_of_ne hw _ _) rfl ?_ (by simp)
      rintro heq
      exact hw (Code.swapIn.inj heq).1.symm
  · intro w' hidle
    have hw : w' ≠ w := by
      rintro rfl
      exact hidle tk hpc
    exact (Function.update_of_ne hw _ _).trans (h.process w' hidle)
  · exact h.used
  · intro tk' hknown hfree
    exact (h.ready tk' hknown hfree).jump hK hjump rfl rfl rfl (by simp [Code.IsOf])
  · intro h' tk' hsaved
    rcases hjump.of_saved hK hsaved with heq | hbefore
    · obtain ⟨rfl, rfl⟩ := Code.swapOut.inj heq
      exact ⟨h.sound.known w tk' (.inr hpc), hended rfl⟩
    · exact h.ended h' tk' hbefore

/-- `SwapIn` writes the handle it has got, and the worker goes on.
SOURCE: operation/worker.h:128-134 -/
theorem Inv.setCtx {fctx : η} (h : Inv saved s) (hpc : s.workers.pc w = .executing tk)
    (hcontrol : s.control w = .returned w tk fctx)
    (hs : Worker.step s.workers (.swapOut w) = some t) : Inv saved { s with
      workers := t
      m_ctx := Function.update s.m_ctx tk fctx
      used := Function.update s.used tk false
      control := Function.update s.control w (.process w) } := by
  obtain ⟨tk', hexecuting, rfl⟩ := Worker.step_swapOut.mp hs
  obtain rfl : tk = tk' := Pc.executing.inj (hpc.symm.trans hexecuting)
  have hsaved : ∃ ended, saved s.contexts fctx = some (.swapOut tk ended) := by
    rcases h.runs w tk hpc with ⟨htask, -⟩ | ⟨fctx', ended, hreturned, hsaved⟩
    · rw [hcontrol] at htask
      cases htask
    · obtain ⟨-, -, rfl⟩ := Control.returned.inj (hcontrol.symm.trans hreturned)
      exact ⟨ended, hsaved⟩
  have hself : Function.update s.workers.pc w (.returned tk) w = .returned tk :=
    Function.update_self ..
  have hold : ∀ {w' tk'}, Function.update s.workers.pc w (.returned tk) w' = .executing tk' →
      w' ≠ w ∧ tk' ≠ tk ∧ s.workers.pc w' = .executing tk' := by
    intro w' tk' hpc'
    have hw : w' ≠ w := by
      rintro rfl
      rw [hself] at hpc'
      cases hpc'
    rw [Function.update_of_ne hw] at hpc'
    exact ⟨hw, fun heq => hw (h.alone w' w tk (heq ▸ hpc') hpc), hpc'⟩
  refine ⟨Worker.step_sound h.sound hs, Worker.step_gone h.sound h.gone hs, ?_, ?_, ?_, ?_, ?_, ?_⟩
  · intro w₁ w₂ tk' h₁ h₂
    exact h.alone w₁ w₂ tk' (hold h₁).2.2 (hold h₂).2.2
  · intro w' tk' hpc'
    obtain ⟨hw, -, hpc''⟩ := hold hpc'
    rw [Runs]
    simp only [Function.update_of_ne hw]
    exact h.runs w' tk' hpc''
  · intro w' hidle
    by_cases hw : w' = w
    · subst hw
      exact Function.update_self ..
    · refine (Function.update_of_ne hw _ _).trans (h.process w' fun tk' hpc' => hidle tk' ?_)
      exact (Function.update_of_ne hw _ _).trans hpc'
  · intro w' tk' hpc'
    obtain ⟨-, hne, hpc''⟩ := hold hpc'
    exact (Function.update_of_ne hne _ _).trans (h.used w' tk' hpc'')
  · intro tk' hknown hfree
    by_cases hne : tk' = tk
    · subst hne
      obtain ⟨ended, hsaved⟩ := hsaved
      refine ⟨Function.update_self .., _, ?_, .inr ⟨ended, rfl⟩⟩
      simpa only [Function.update_self] using hsaved
    · have hfree' : ∀ w', s.workers.pc w' ≠ .executing tk' := by
        intro w' hpc'
        have hw : w' ≠ w := by
          rintro rfl
          exact hne (Pc.executing.inj (hpc'.symm.trans hpc))
        exact hfree w' ((Function.update_of_ne hw _ _).trans hpc')
      obtain ⟨hunused, code, hcode, hof⟩ := h.ready tk' hknown hfree'
      refine ⟨(Function.update_of_ne hne _ _).trans hunused, code, ?_, hof⟩
      simpa only [Function.update_of_ne hne] using hcode
  · intro h' tk' hsaved
    exact h.ended_after hs hsaved

/-! ## Steps and runs -/

/-- A step of the workers that the contexts take with them. -/
theorem step_work : step K s (.work e) = some s' ↔
    ∃ s₁ t, s.act K e = some s₁ ∧ Worker.step s.workers e = some t ∧ s' = { s₁ with workers := t } := by
  cases hact : s.act K e <;> cases hs : Worker.step s.workers e <;>
    simp [step, hact, hs, eq_comm (a := s')]

/-- The code that yields is a task's.
SOURCE: operation/worker.h:128-134 -/
theorem task_of_coYield (hs : step K s (.coYield w) = some s') : ∃ tk, s.control w = .task tk := by
  rw [step] at hs
  split at hs
  · rw [State.swapOut] at hs
    split at hs
    · next tk _ hcontrol _ => exact ⟨tk, hcontrol⟩
    · cases hs
  · cases hs

/-- The steps that neither make a context nor jump. -/
def Plain (e : Worker.Event) : Prop :=
  (∀ w, e ≠ .createTask w) ∧ (∀ w, e ≠ .swapIn w) ∧ ∀ w, e ≠ .swapOut w

/-- A step makes a context, or jumps, or comes after a jump, or has nothing to do with contexts. -/
theorem event_cases (e : Worker.Event) :
    (∃ w, e = .createTask w) ∨ (∃ w, e = .swapIn w) ∨ (∃ w, e = .swapOut w) ∨ Plain e := by
  cases e with
  | createTask w => exact .inl ⟨w, rfl⟩
  | swapIn w => exact .inr (.inl ⟨w, rfl⟩)
  | swapOut w => exact .inr (.inr (.inl ⟨w, rfl⟩))
  | _ =>
    right; right; right
    simp [Plain]

/-- Those last leave the contexts alone. -/
theorem Plain.act_eq {s₁ : State κ η} (hplain : Plain e) (hact : s.act K e = some s₁) :
    s₁ = s := by
  cases e with
  | createTask w => exact absurd rfl (hplain.1 w)
  | swapIn w => exact absurd rfl (hplain.2.1 w)
  | swapOut w => exact absurd rfl (hplain.2.2 w)
  | suspend w | finish w =>
    rw [State.act] at hact
    split at hact
    · exact (Option.some.inj hact).symm
    · cases hact
  | pop w | switch w | check w | takeNew w | moveRunnable w =>
    rw [State.act] at hact
    split at hact
    · exact (Option.some.inj (Option.ite_none_right_eq_some.mp hact).2).symm
    · cases hact
  | _ => exact (Option.some.inj hact).symm

/-- They keep the invariant. -/
theorem Inv.plain (h : Inv saved s) (hplain : Plain e) (hs : Worker.step s.workers e = some t) :
    Inv saved { s with workers := t } := by
  refine h.frame hs hplain.2.1 hplain.2.2 fun tk hlt hle => ?_
  rw [(Worker.step_rest hs).1] at hlt
  cases e with
  | createTask w => exact absurd rfl (hplain.1 w)
  | _ => exact absurd hle (Nat.not_le_of_lt hlt)

/-- So does a new task.
SOURCE: operation/task.cc:7-8, operation/context.h:13-27 -/
theorem Inv.createTask (h : Inv saved s) (hK : K.Lawful saved)
    (hs : Worker.step s.workers (.createTask w) = some t) :
    Inv saved { s.make_fcontext K s.workers.created with workers := t } := by
  refine (h.make_fcontext hK).frame hs (by simp) (by simp) fun tk hlt hle => ?_
  rw [(Worker.step_rest hs).1] at hlt
  obtain rfl : s.workers.created = tk := Nat.le_antisymm hle (Nat.le_of_lt_succ hlt)
  exact ready_new hK

/-- **One step keeps the invariant.** -/
theorem step_inv {e : Event} (hK : K.Lawful saved) (h : Inv saved s) (hs : step K s e = some s') :
    Inv saved s' := by
  cases e with
  | coYield w =>
    obtain ⟨tk, hcontrol⟩ := task_of_coYield hs
    have hpc : s.workers.pc w = .executing tk := by
      by_cases hidle : ∀ tk, s.workers.pc w ≠ .executing tk
      · rw [h.process w hidle] at hcontrol
        cases hcontrol
      · simp only [not_forall, not_not] at hidle
        obtain ⟨tk', hpc⟩ := hidle
        rcases h.runs w tk' hpc with ⟨hcontrol', -⟩ | ⟨fctx, ended, hcontrol', -⟩
        · obtain rfl := Control.task.inj (hcontrol.symm.trans hcontrol')
          exact hpc
        · rw [hcontrol] at hcontrol'
          cases hcontrol'
    obtain ⟨ended, target, fctx, c, hended, hjump, hrun⟩ := h.coYield_jumps hK hpc hcontrol
    obtain rfl := Option.some.inj (hrun.symm.trans hs)
    exact h.coYield hK hpc hended hjump
  | work e =>
    obtain ⟨s₁, t, hact, hwork, rfl⟩ := step_work.mp hs
    rcases event_cases e with ⟨w, rfl⟩ | ⟨w, rfl⟩ | ⟨w, rfl⟩ | hplain
    · obtain rfl := Option.some.inj hact
      exact h.createTask hK hwork
    · obtain ⟨tk, hpc, -⟩ := Worker.step_swapIn.mp hwork
      simp only [State.act, hpc] at hact
      by_cases hnone : ∀ w', s.workers.pc w' ≠ .executing tk
      · obtain ⟨code, fctx, c, hof, hjump, hrun⟩ := h.swapIn_jumps hK hpc hnone
        obtain rfl := Option.some.inj (hrun.symm.trans hact)
        exact h.swapIn hK hpc hnone hof hjump hwork
      · simp only [not_forall, not_not] at hnone
        obtain ⟨w', hpc'⟩ := hnone
        rw [h.swapIn_none hpc'] at hact
        cases hact
    · obtain ⟨tk, hpc, -⟩ := Worker.step_swapOut.mp hwork
      rcases h.runs w tk hpc with ⟨hcontrol, -⟩ | ⟨fctx, ended, hcontrol, -⟩
      · simp [State.act, State.setCtx, hcontrol] at hact
      · simp only [State.act, State.setCtx, hcontrol, Option.some.injEq] at hact
        subst hact
        exact h.setCtx hpc hcontrol hwork
    · obtain rfl := hplain.act_eq hact
      exact h.plain hplain hwork

/-- It holds before there are any contexts. -/
theorem inv_of_starts (h : Starts saved s) : Inv saved s := by
  have hidle : ∀ w tk, s.workers.pc w ≠ .executing tk := by simp [h.workers.pc]
  refine ⟨Worker.sound_of_starts h.workers, Worker.gone_of_starts h.workers, ?_, ?_, ?_, ?_, ?_, ?_⟩
  · intro w w' tk hpc
    exact absurd hpc (hidle w tk)
  · intro w tk hpc
    exact absurd hpc (hidle w tk)
  · intro w _
    exact h.control w
  · intro w tk hpc
    exact absurd hpc (hidle w tk)
  · intro tk hlt
    rw [h.workers.created] at hlt
    exact absurd hlt (Nat.not_lt_zero tk)
  · intro h' tk hsaved
    rw [h.saved] at hsaved
    cases hsaved

/-- It holds after every run. -/
theorem inv_of_run {es : List Event} (hK : K.Lawful saved) (h : Inv saved s)
    (hrun : (system K saved).run s es = some s') : Inv saved s' :=
  System.run_invariant (A := system K saved) (fun _ _ _ hI _ hs => step_inv hK hI hs) h hrun
    (System.meets_true s es)

/-! ## What the workers can do -/

/-- **A worker gets to a task exactly when no other one executes it**, and to the task's own code; the
task gets back to the worker that executes it. -/
structure Switches (K : Coroutines Code κ η) (s : State κ η) : Prop where
  swapIn : ∀ w tk, s.workers.pc w = .popped tk →
    ((∃ s', step K s (.work (.swapIn w)) = some s') ↔ ∀ w', s.workers.pc w' ≠ .executing tk)
  swappedIn : ∀ w tk s', s.workers.pc w = .popped tk → step K s (.work (.swapIn w)) = some s' →
    s'.control w = .task tk
  swapOut : ∀ w tk, s.workers.pc w = .executing tk → s.control w = .task tk →
    ∃ s' fctx, step K s (.coYield w) = some s' ∧ s'.control w = .returned w tk fctx
  executing : ∀ w tk, s.workers.pc w = .executing tk →
    s.control w = .task tk ∨ ∃ fctx, s.control w = .returned w tk fctx
  process : ∀ w, (∀ tk, s.workers.pc w ≠ .executing tk) → s.control w = .process w

/-- A worker switches to the task it has popped.
SOURCE: operation/worker.cc:178-215 -/
theorem step_swapIn (hpc : s.workers.pc w = .popped tk) : step K s (.work (.swapIn w)) = some s' ↔
    ∃ s₁ t, s.swapIn K w tk = some s₁ ∧ Worker.step s.workers (.swapIn w) = some t ∧
      s' = { s₁ with workers := t } := by
  rw [step_work]
  simp only [State.act, hpc]

/-- Where the invariant holds, workers get to their tasks and back. -/
theorem Inv.switches (h : Inv saved s) (hK : K.Lawful saved) : Switches K s := by
  refine ⟨?_, ?_, ?_, ?_, h.process⟩
  · intro w tk hpc
    constructor
    · rintro ⟨s', hs⟩ w' hpc'
      obtain ⟨s₁, t, hrun, -, -⟩ := (step_swapIn hpc).mp hs
      rw [h.swapIn_none hpc'] at hrun
      cases hrun
    · intro hnone
      obtain ⟨code, fctx, c, -, -, hrun⟩ := h.swapIn_jumps hK hpc hnone
      exact ⟨_, (step_swapIn hpc).mpr ⟨_, _, hrun, Worker.step_swapIn.mpr ⟨tk, hpc, rfl⟩, rfl⟩⟩
  · intro w tk s' hpc hs
    obtain ⟨s₁, t, hrun, -, rfl⟩ := (step_swapIn hpc).mp hs
    have hnone : ∀ w', s.workers.pc w' ≠ .executing tk := by
      intro w' hpc'
      rw [h.swapIn_none hpc'] at hrun
      cases hrun
    obtain ⟨code, fctx, c, -, -, hrun'⟩ := h.swapIn_jumps hK hpc hnone
    obtain rfl := Option.some.inj (hrun'.symm.trans hrun)
    exact Function.update_self ..
  · intro w tk hpc hcontrol
    obtain ⟨ended, target, fctx, c, -, -, hrun⟩ := h.coYield_jumps hK hpc hcontrol
    exact ⟨_, fctx, hrun, Function.update_self ..⟩
  · intro w tk hpc
    rcases h.runs w tk hpc with ⟨hcontrol, -⟩ | ⟨fctx, ended, hcontrol, -⟩
    · exact .inl hcontrol
    · exact .inr ⟨fctx, hcontrol⟩

/-! ## The runs of the workers -/

/-- No thread is between a jump back and the write of `m_ctx`. -/
def Settled (s : State κ η) : Prop := ∀ w wrk tk fctx, s.control w ≠ .returned wrk tk fctx

/-- A thread that is put anywhere else leaves the others between nothing. -/
theorem Settled.update {control : Control η} (h : Settled s)
    (heq : s'.control = Function.update s.control w control)
    (hnew : ∀ wrk tk fctx, control ≠ .returned wrk tk fctx) : Settled s' := by
  intro w' wrk tk fctx hcontrol
  rw [heq] at hcontrol
  by_cases hw : w' = w
  · subst hw
    rw [Function.update_self] at hcontrol
    exact hnew wrk tk fctx hcontrol
  · rw [Function.update_of_ne hw] at hcontrol
    exact h w' wrk tk fctx hcontrol

/-- A thread that is not between a jump and a write runs its worker's task. -/
theorem Inv.task (h : Inv saved s) (hsettled : Settled s) (hpc : s.workers.pc w = .executing tk) :
    s.control w = .task tk := by
  rcases h.runs w tk hpc with ⟨hcontrol, -⟩ | ⟨fctx, ended, hcontrol, -⟩
  · exact hcontrol
  · exact absurd hcontrol (hsettled w w tk fctx)

/-- The thread that takes the step is where the step is taken from. -/
theorem Inv.act_plain (h : Inv saved s) (hsettled : Settled s) (hplain : Plain e)
    (hs : Worker.step s.workers e = some t) : s.act K e = some s := by
  cases e with
  | createTask w => exact absurd rfl (hplain.1 w)
  | swapIn w => exact absurd rfl (hplain.2.1 w)
  | swapOut w => exact absurd rfl (hplain.2.2 w)
  | suspend w =>
    obtain ⟨tk, wrk, hpc, -⟩ := Worker.step_suspend.mp hs
    simp [State.act, h.task hsettled hpc]
  | finish w =>
    obtain ⟨tk, hpc, -⟩ := Worker.step_finish.mp hs
    simp [State.act, h.task hsettled hpc]
  | pop w =>
    obtain ⟨hpc, -⟩ := Worker.step_pop.mp hs
    simp [State.act, h.process w (by simp [hpc])]
  | switch w =>
    obtain ⟨tk, hpc, -⟩ := Worker.step_switch.mp hs
    simp [State.act, h.process w (by simp [hpc])]
  | check w =>
    obtain ⟨hpc, -⟩ := Worker.step_check.mp hs
    simp [State.act, h.process w (by simp [hpc])]
  | takeNew w =>
    obtain ⟨hpc, -⟩ := Worker.step_takeNew.mp hs
    simp [State.act, h.process w (by simp [hpc])]
  | moveRunnable w =>
    obtain ⟨hpc, -⟩ := Worker.step_moveRunnable.mp hs
    simp [State.act, h.process w (by simp [hpc])]
  | _ => rfl

/-- A step that meets the condition is carried out. -/
theorem Inv.carried (h : Inv saved s) (hK : K.Lawful saved) (hsettled : Settled s)
    (hs : Worker.step s.workers e = some t) (halone : Alone s.workers e) :
    ∃ s', (system K saved).run s (carry e) = some s' ∧ s'.workers = t ∧ Settled s' := by
  rcases event_cases e with ⟨w, rfl⟩ | ⟨w, rfl⟩ | ⟨w, rfl⟩ | hplain
  · refine ⟨{ s.make_fcontext K s.workers.created with workers := t }, ?_, rfl, hsettled⟩
    exact (System.run_singleton _ _).trans (step_work.mpr ⟨_, t, rfl, hs, rfl⟩)
  · obtain ⟨tk, hpc, -⟩ := Worker.step_swapIn.mp hs
    obtain ⟨code, fctx, c, -, -, hrun⟩ := h.swapIn_jumps hK hpc (halone w tk rfl hpc)
    exact ⟨_, (System.run_singleton _ _).trans ((step_swapIn hpc).mpr ⟨_, t, hrun, hs, rfl⟩), rfl,
      hsettled.update rfl (by simp)⟩
  · obtain ⟨tk, hpc, -⟩ := Worker.step_swapOut.mp hs
    obtain ⟨ended, target, fctx, c, -, -, hrun⟩ := h.coYield_jumps hK hpc (h.task hsettled hpc)
    let s₁ : State κ η := { s with
      contexts := c
      m_ctx := Function.update s.m_ctx tk fctx
      used := Function.update s.used tk false
      control := Function.update s.control w (.process w) }
    refine ⟨{ s₁ with workers := t }, ?_, rfl, ?_⟩
    · rw [carry, System.run_cons]
      refine Option.bind_eq_some_iff.mpr ⟨_, hrun, (System.run_singleton _ _).trans ?_⟩
      refine step_work.mpr ⟨s₁, t, ?_, hs, rfl⟩
      simp [State.act, State.setCtx, s₁]
    · exact @Settled.update κ η s _ w (.process w) hsettled rfl (by simp)
  · refine ⟨{ s with workers := t }, ?_, rfl, hsettled⟩
    have hstep : step K s (.work e) = some { s with workers := t } :=
      step_work.mpr ⟨s, t, h.act_plain hsettled hplain hs, hs, rfl⟩
    cases e with
    | swapOut w => exact absurd rfl (hplain.2.2 w)
    | _ => exact (System.run_singleton _ _).trans hstep

/-- A step that does not meet it is not. -/
theorem Inv.not_carried (h : Inv saved s) (halone : ¬ Alone s.workers e) :
    (system K saved).run s (carry e) = none := by
  simp only [Alone, not_forall, not_not] at halone
  obtain ⟨w, tk, rfl, hpc, w', hpc'⟩ := halone
  refine (System.run_singleton _ _).trans ?_
  simp [system, step, State.act, hpc, h.swapIn_none hpc']

/-- **The contexts carry a run of the workers out exactly when its steps all meet the condition.** -/
theorem carried_iff (hK : K.Lawful saved) (h : Inv saved s) (hsettled : Settled s) {es : List Worker.Event}
    (hrun : Worker.system.run s.workers es = some t) :
    (∃ s', (system K saved).run s (es.flatMap carry) = some s' ∧ s'.workers = t) ↔
      Worker.system.Meets Alone s.workers es := by
  induction es generalizing s with
  | nil =>
    rw [System.run_nil, Option.some.injEq] at hrun
    exact iff_of_true ⟨s, rfl, hrun⟩ trivial
  | cons e es ih =>
    obtain ⟨t₁, hs, hrest⟩ := Option.bind_eq_some_iff.mp hrun
    rw [List.flatMap_cons, System.run_append]
    by_cases halone : Alone s.workers e
    · obtain ⟨s₁, hcarry, rfl, hsettled₁⟩ := h.carried hK hsettled hs halone
      rw [hcarry, Option.bind_some, ih (inv_of_run hK h hcarry) hsettled₁ hrest]
      refine ⟨fun hmeets => System.meets_cons halone hs hmeets, fun hmeets => hmeets.2 _ hs⟩
    · rw [h.not_carried halone, Option.bind_none]
      refine iff_of_false ?_ fun hmeets => halone hmeets.1
      rintro ⟨s', hnone, -⟩
      cases hnone

/-! ## The result -/

/-- **The contexts of the tasks.**  With every `make_fcontext` and `jump_fcontext` that keep their
promises, and in every state the steps of any number of threads lead to, with
tasks that are woken, stolen and switched to on other threads at any moment, a worker gets to the code
of a task it has popped exactly when no other worker executes that task, the write of `m_ctx` included;
the code that runs on the thread of a worker is that of the task the worker executes, or its own; and
the task gets back into the worker's own `SwapIn`.  A run of the workers is carried out by the contexts
exactly when in it no worker switches to a task that another one executes.
SOURCE: operation/context.h:13-57, operation/task.cc:17-37, operation/worker.h:121-134 -/
theorem contexts_switch {κ η : Type} (K : Coroutines Code κ η) (saved : κ → η → Option Code)
    (hK : K.Lawful saved) (s₀ : State κ η) (h0 : Starts saved s₀) :
    (∀ es s, (system K saved).run s₀ es = some s → Switches K s) ∧
      ∀ es t, Worker.system.run s₀.workers es = some t →
        ((∃ s, (system K saved).run s₀ (es.flatMap carry) = some s ∧ s.workers = t) ↔
          Worker.system.Meets Alone s₀.workers es) := by
  have hinv := inv_of_starts h0
  constructor
  · intro es s hrun
    exact (inv_of_run hK hinv hrun).switches hK
  · intro es t hrun
    refine carried_iff hK hinv (fun w wrk tk fctx => ?_) hrun
    simp [h0.control]

/-- Each jump gives out a new handle. -/
def start : State (Contexts Code) ℕ :=
  { workers := Worker.start
    contexts := ⟨fun _ => none, 0, fun _ _ => rfl⟩
    control := .process, m_ctx := fun _ => 0, used := fun _ => false, tls_context := fun _ => none }

/-- A scheduler without contexts. -/
theorem start_starts : Starts Contexts.saved start :=
  ⟨Worker.start_starts, fun _ => rfl, fun _ => rfl⟩

/-- The task is woken before it gives worker 0 back, stolen, and popped by worker 1. -/
def stolen : List Worker.Event :=
  Worker.firstTask ++ Worker.wokenEarly ++ [.stealNew 0, .stealRunnable, .addTask 1 1, .pop 1,
    .check 1, .takeNew 1, .moveRunnable 1, .pop 1]

/-- Worker 1 gets to the task when worker 0 has written its `m_ctx`, and not before.
SOURCE: operation/worker.cc:178-215, operation/worker.h:128-134 -/
theorem contexts_switch_stolen : ¬ Worker.system.Meets Alone Worker.start (stolen ++ [.swapIn 1]) ∧
    ∃ s s', (system (Contexts.coroutines Code) Contexts.saved).run start
        ((stolen ++ [Worker.Event.swapOut 0]).flatMap carry) = some s ∧
      step (Contexts.coroutines Code) s (.work (.swapIn 1)) = some s' ∧ s'.control 1 = .task 0 := by
  constructor
  · intro hmeets
    have hworkers : (Worker.system.run Worker.start (stolen ++ [.swapIn 1])).isSome = true := by
      decide +kernel
    obtain ⟨t, ht⟩ := Option.isSome_iff_exists.mp hworkers
    obtain ⟨s, hs, -⟩ := ((contexts_switch (Contexts.coroutines Code) Contexts.saved
      (Contexts.coroutines_lawful Code) start start_starts).2 _ t ht).mpr hmeets
    have hnone : ((system (Contexts.coroutines Code) Contexts.saved).run start
        ((stolen ++ [Worker.Event.swapIn 1]).flatMap carry)).isNone = true := by
      decide +kernel
    rw [hs] at hnone
    cases hnone
  · have hback : ((system (Contexts.coroutines Code) Contexts.saved).run start
        ((stolen ++ [Worker.Event.swapOut 0]).flatMap carry)).any
        (fun s => s.workers.pc 1 = .popped 0 ∧
          (step (Contexts.coroutines Code) s (.work (.swapIn 1))).isSome) = true := by
      decide +kernel
    obtain ⟨s, hrun, htest⟩ := (Option.any_eq_true _ _).mp hback
    obtain ⟨hpc, hsome⟩ := of_decide_eq_true htest
    obtain ⟨s', hstep⟩ := Option.isSome_iff_exists.mp hsome
    exact ⟨s, s', hrun, hstep, ((contexts_switch (Contexts.coroutines Code) Contexts.saved
      (Contexts.coroutines_lawful Code) start start_starts).1 _ _ hrun).swappedIn 1 0 s' hpc hstep⟩

end MagicNet.Context
