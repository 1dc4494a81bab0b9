import MagicNet.Model.WorkerSleep
import MagicNet.Foundation.Wakeup

/-!
# When a worker loses a wake-up

The worker reads `m_notified` and then blocks; a producer that reads `m_waiting` in between sets
`m_notified`, which the worker has already read, and one that reads it after `m_waiting = true`
but before `m_cv.wait` notifies nobody.  In both cases the task stays in `m_newQueue` while the
worker sleeps.

`abs` reads the worker as the sleeping consumer of `Foundation.Wakeup`: it is committed to sleep
from the moment `moveRunnable` found nothing, unless `m_notified` calls it back.
-/

set_option autoImplicit false

namespace MagicNet.WorkerSleep

open MagicNet.Foundation

variable {τ : Type}

/-! ## The invariant of the worker -/

/-- `m_waiting` is set between `m_waiting = true` and `m_waiting = false`. -/
def WaitingPc : Pc τ → Prop
  | .marked | .blocked | .notified => True
  | _ => False

/-- In `waitCondition` the runnable queue is empty: only the worker fills it. -/
def IdlePc : Pc τ → Prop
  | .enter | .clearing | .checked | .marked | .blocked | .notified => True
  | _ => False

/-- The places between `m_waiting = true` and the next `popBackAll`. -/
def BeforeTakePc : Pc τ → Prop
  | .marked | .blocked | .notified | .loop | .pop | .testEmpty | .take | .exited => True
  | _ => False

/-- What holds between the steps of every run. -/
structure Inv (s : State τ) : Prop where
  waiting : s.m_waiting = true ↔ WaitingPc s.pc
  idle : IdlePc s.pc → s.m_runnableQueue = []
  /-- A call that has read `m_waiting` as true keeps the worker out of `popBackAll`. -/
  held : ∀ call, s.holder = some (call, some true) →
    s.m_runnableQueue = [] ∧ BeforeTakePc s.pc
  /-- The task of an `addTask` in progress is still in `m_newQueue`. -/
  pushed : Adding s → s.m_newQueue ≠ []

/-- The worker's own steps keep the invariant.
SOURCE: operation/worker.cc:60-70 -/
theorem work_inv {s s' : State τ} (h : Inv s) (hs : work s = some s') : Inv s' := by
  obtain ⟨hw, hi, hh, hp⟩ := h
  unfold work at hs
  cases hpc : s.pc <;> simp only [hpc] at hs
  case loop =>
    obtain rfl := Option.some.inj hs
    refine ⟨?_, ?_, fun call hc => ⟨(hh call hc).1, ?_⟩, hp⟩
    · simp only [hpc, WaitingPc] at hw
      cases s.m_shutdown <;> simpa [WaitingPc] using hw
    · cases s.m_shutdown <;> simp [IdlePc]
    · cases s.m_shutdown <;> simp [BeforeTakePc]
  case pop =>
    split at hs <;> obtain rfl := Option.some.inj hs
    · next hq =>
      refine ⟨by simpa [hpc, WaitingPc] using hw, by simp [IdlePc], ?_, hp⟩
      exact fun call hc => ⟨hq, by simp [BeforeTakePc]⟩
    · next tk rest hq =>
      refine ⟨by simpa [hpc, WaitingPc] using hw, by simp [IdlePc], ?_, hp⟩
      intro call hc
      simp [hq] at hh
      exact absurd hc (by simpa using hh call)
  case running =>
    obtain rfl := Option.some.inj hs
    refine ⟨by simpa [hpc, WaitingPc] using hw, by simp [IdlePc], ?_, hp⟩
    exact fun call hc => ⟨(hh call hc).1, by simp [BeforeTakePc]⟩
  case testEmpty =>
    obtain rfl := Option.some.inj hs
    refine ⟨?_, ?_, fun call hc => ⟨(hh call hc).1, ?_⟩, hp⟩
    · cases hq : s.m_runnableQueue.isEmpty <;> simpa [hpc, WaitingPc] using hw
    · cases hq : s.m_runnableQueue.isEmpty <;> simp [IdlePc]
    · simp [(hh call hc).1, BeforeTakePc]
  case take =>
    split at hs
    · next hn =>
      obtain rfl := Option.some.inj hs
      rw [Option.isNone_iff_eq_none] at hn
      refine ⟨by simpa [hpc, WaitingPc] using hw, by simp [IdlePc], ?_, ?_⟩
      · exact fun call hc => absurd hc (by simp [hn])
      · rintro ⟨read, hr⟩
        exact absurd hr (by simp [hn])
    · cases hs
  case put =>
    obtain rfl := Option.some.inj hs
    refine ⟨by simpa [hpc, WaitingPc] using hw, by simp [IdlePc], ?_, hp⟩
    intro call hc
    exact absurd (hh call hc).2 (by simp [hpc, BeforeTakePc])
  case testAgain =>
    obtain rfl := Option.some.inj hs
    refine ⟨?_, ?_, ?_, hp⟩
    · cases hq : s.m_runnableQueue.isEmpty <;> simpa [hpc, WaitingPc] using hw
    · cases hq : s.m_runnableQueue.isEmpty <;> simp_all [IdlePc]
    · intro call hc
      exact absurd (hh call hc).2 (by simp [hpc, BeforeTakePc])
  case enter =>
    obtain rfl := Option.some.inj hs
    have hrun : s.m_runnableQueue = [] := hi (by simp [hpc, IdlePc])
    refine ⟨?_, fun _ => hrun, fun call hc => ?_, hp⟩
    · cases s.m_notified <;> simpa [hpc, WaitingPc] using hw
    · exact absurd (hh call hc).2 (by simp [hpc, BeforeTakePc])
  case clearing =>
    obtain rfl := Option.some.inj hs
    refine ⟨by simpa [hpc, WaitingPc] using hw, by simp [IdlePc], fun call hc => ?_, hp⟩
    exact absurd (hh call hc).2 (by simp [hpc, BeforeTakePc])
  case checked =>
    obtain rfl := Option.some.inj hs
    have hrun : s.m_runnableQueue = [] := hi (by simp [hpc, IdlePc])
    exact ⟨by simp [WaitingPc], fun _ => hrun, fun call hc => ⟨hrun, by simp [BeforeTakePc]⟩, hp⟩
  case marked =>
    obtain rfl := Option.some.inj hs
    have hrun : s.m_runnableQueue = [] := hi (by simp [hpc, IdlePc])
    exact ⟨by simpa [hpc, WaitingPc] using hw, fun _ => hrun,
      fun call hc => ⟨hrun, by simp [BeforeTakePc]⟩, hp⟩
  case notified =>
    obtain rfl := Option.some.inj hs
    have hrun : s.m_runnableQueue = [] := hi (by simp [hpc, IdlePc])
    exact ⟨by simp [WaitingPc], by simp [IdlePc],
      fun call hc => ⟨hrun, by simp [BeforeTakePc]⟩, hp⟩
  all_goals cases hs

/-- A notification wakes a blocked worker.
SOURCE: operation/worker.cc:21-29, 31-39, 72-79 -/
theorem signal_blocked {s : State τ} (hpc : s.pc = .blocked) :
    signal s true = { s with pc := .notified, holder := none } := by
  simp [signal, notifyAll, hpc]

/-- A notification goes nowhere when the worker is not blocked.
SOURCE: operation/worker.cc:21-29, 31-39, 72-79 -/
theorem signal_not_blocked {s : State τ} (hpc : s.pc ≠ .blocked) :
    signal s true = { s with holder := none } := by
  cases hq : s.pc <;> simp_all [signal, notifyAll]

/-- A signal keeps the invariant: it wakes a blocked worker or sets `m_notified`.
SOURCE: operation/worker.cc:24-28 -/
theorem signal_inv {s : State τ} {waiting : Bool} (h : Inv s) : Inv (signal s waiting) := by
  obtain ⟨hw, hi, hh, hp⟩ := h
  have hfree : ∀ call : Call × Option Bool, (none : Option (Call × Option Bool)) ≠ some call :=
    nofun
  cases waiting with
  | false =>
    exact ⟨hw, hi, fun call hc => absurd hc (hfree _), fun ⟨_, hr⟩ => absurd hr (hfree _)⟩
  | true =>
    by_cases hpc : s.pc = .blocked
    · rw [signal_blocked hpc]
      refine ⟨by simpa [hpc, WaitingPc] using hw, fun _ => hi (by simp [hpc, IdlePc]), ?_, ?_⟩
      · exact fun call hc => absurd hc (hfree _)
      · exact fun ⟨_, hr⟩ => absurd hr (hfree _)
    · rw [signal_not_blocked hpc]
      exact ⟨hw, hi, fun call hc => absurd hc (hfree _), fun ⟨_, hr⟩ => absurd hr (hfree _)⟩

/-- **One step keeps the invariant.** -/
theorem step_inv {s s' : State τ} {e : Event τ} (h : Inv s) (hs : step s e = some s') :
    Inv s' := by
  cases e with
  | addTask tk =>
    obtain ⟨hn, rfl⟩ := step_addTask.mp hs
    exact ⟨h.waiting, h.idle, fun call hc => absurd hc (by simp), fun _ => by simp⟩
  | notifyCondition =>
    obtain ⟨hn, rfl⟩ := step_notifyCondition.mp hs
    exact ⟨h.waiting, h.idle, fun call hc => absurd hc (by simp),
      fun ⟨read, hr⟩ => absurd hr (by simp)⟩
  | readWaiting =>
    obtain ⟨call, hc, rfl⟩ := step_readWaiting.mp hs
    refine ⟨h.waiting, h.idle, fun call' hc' => ?_, fun ⟨read, hr⟩ => h.pushed ⟨none, ?_⟩⟩
    · -- the call has just read `m_waiting` as true, so the worker is in `waitCondition`
      have hwait : WaitingPc s.pc := h.waiting.mp (by simp_all)
      have hidle : IdlePc s.pc ∧ BeforeTakePc s.pc := by
        cases hpc : s.pc <;> simp_all [WaitingPc, IdlePc, BeforeTakePc]
      exact ⟨h.idle hidle.1, hidle.2⟩
    · simp_all
  | signal =>
    obtain ⟨call, waiting, hc, rfl⟩ := step_signal.mp hs
    exact signal_inv h
  | shutdown =>
    obtain rfl := step_shutdown.mp hs
    exact ⟨h.waiting, h.idle, h.held, h.pushed⟩
  | work => exact work_inv h hs
  | spurious =>
    obtain ⟨hpc, rfl⟩ := step_spurious.mp hs
    refine ⟨by simpa [hpc, WaitingPc] using h.waiting,
      fun _ => h.idle (by simp [hpc, IdlePc]), fun call hc => ⟨(h.held call hc).1, ?_⟩, h.pushed⟩
    simp [BeforeTakePc]

/-- The invariant holds in every reachable state. -/
theorem inv_of_via {g : State τ → Event τ → Prop} {s : State τ} (h : (system τ).Via g s) :
    Inv s := by
  refine h.invariant (I := Inv) ?_ (fun s e s' hI _ hs => step_inv hI hs)
  rintro t rfl
  exact ⟨by simp [start, WaitingPc], fun _ => rfl, fun _ hc => absurd hc (by simp [start]),
    fun ⟨_, hr⟩ => absurd hr (by simp [start])⟩

/-! ## The worker as a sleeping consumer -/

/-- Something will make the worker skip the wait when it gets there. -/
def CalledBack (s : State τ) : Prop := s.m_notified = true ∨ s.m_runnableQueue ≠ []

instance (s : State τ) : Decidable (CalledBack s) := by
  unfold CalledBack
  exact inferInstance

/-- The tasks `moveRunnable` has taken and not yet put in the runnable queue. -/
def taken : Pc τ → List τ
  | .put tasks => tasks
  | _ => []

/-- What the worker is doing, as a phase of the sleeping consumer. -/
def phase (s : State τ) : Wakeup.Phase :=
  match s.pc with
  | .put tasks => if CalledBack s ∨ tasks ≠ [] then .looking else .committed
  | .testAgain | .enter => if CalledBack s then .looking else .committed
  | .checked | .marked => .committed
  | .blocked => .asleep
  | .loop | .pop | .running _ | .testEmpty | .take | .clearing | .notified | .exited => .looking

/-- The `addTask` calls in progress: the lock of `m_newQueue` admits one. -/
def posts (s : State τ) : ℕ :=
  match s.holder with
  | some (.addTask, _) => 1
  | _ => 0

/-- The abstract view of a worker. -/
def abs (s : State τ) : Wakeup.State :=
  { work := !(s.m_newQueue ++ taken s.pc ++ s.m_runnableQueue).isEmpty
    posts := posts s
    phase := phase s }

/-- The phase does not depend on `m_newQueue` or on the calls in progress. -/
@[simp] theorem phase_call (s : State τ) (tasks : List τ) (call : Option (Call × Option Bool)) :
    phase { s with m_newQueue := tasks, holder := call } = phase s := rfl

/-- A signal the worker is not deaf to makes it look at the queues again.
SOURCE: operation/worker.cc:21-29, 31-39, 72-79 -/
theorem phase_signal {s : State τ} {call : Call} {waiting : Bool} (hI : Inv s)
    (hc : s.holder = some (call, some waiting)) (hd : ¬ Deaf waiting s.pc) :
    phase (signal s waiting) = .looking := by
  cases waiting with
  | false => cases hpc : s.pc <;> simp_all [Deaf, signal, phase, CalledBack]
  | true =>
    have hbefore := (hI.held call hc).2
    cases hpc : s.pc <;> simp_all [Deaf, signal, notifyAll, phase, BeforeTakePc]

/-- What a signal does to the rest of the abstract view.
SOURCE: operation/worker.cc:21-29, 31-39, 72-79 -/
theorem abs_signal (s : State τ) (waiting : Bool) :
    abs (signal s waiting) = { abs s with posts := 0, phase := phase (signal s waiting) } := by
  cases waiting with
  | false => rfl
  | true => cases hpc : s.pc <;> simp [abs, signal, notifyAll, hpc, taken, posts]

/-- A signal changes the phase to `looking` or not at all.
SOURCE: operation/worker.cc:21-29, 31-39, 72-79 -/
theorem phase_signal_cases (s : State τ) (waiting : Bool) :
    phase (signal s waiting) = .looking ∨ phase (signal s waiting) = phase s := by
  cases waiting with
  | false => cases hpc : s.pc <;> simp [signal, phase, CalledBack, hpc]
  | true =>
    by_cases hpc : s.pc = .blocked
    · exact .inl (by simp [signal_blocked hpc, phase])
    · exact .inr (by rw [signal_not_blocked hpc]; rfl)

/-- A step of the worker is one look, one settling or one falling asleep of the consumer, or
changes nothing the protocol sees.
SOURCE: operation/worker.cc:60-70 -/
theorem work_simulates {s s' : State τ} (hI : Inv s) (hs : work s = some s') :
    abs s' = abs s ∨ ∃ d, Wakeup.Heard (abs s) d ∧ Wakeup.step (abs s) d = some (abs s') := by
  unfold work at hs
  cases hpc : s.pc <;> simp only [hpc] at hs
  case pop =>
    split at hs <;> obtain rfl := Option.some.inj hs
    · exact .inl (by simp [abs, posts, phase, taken, hpc])
    · next tk rest hq =>
      exact .inr ⟨.look !(s.m_newQueue ++ rest).isEmpty, Wakeup.heard_of_ne (by simp),
        by simp [abs, posts, phase, taken, hpc, hq, Wakeup.step]⟩
  case testEmpty =>
    obtain rfl := Option.some.inj hs
    left
    cases hq : s.m_runnableQueue <;> simp [abs, posts, phase, taken, CalledBack, hpc, hq]
  case take =>
    split at hs
    · obtain rfl := Option.some.inj hs
      by_cases hwork : s.m_newQueue = [] ∧ ¬ CalledBack s
      · -- nothing is queued and nothing calls the worker back: it is on its way to the wait
        have hrun : s.m_runnableQueue = [] := by
          by_contra hne
          exact hwork.2 (.inr hne)
        refine .inr ⟨.settle, Wakeup.heard_of_ne (by simp), ?_⟩
        have hnot : s.m_notified = false := by
          simpa [CalledBack, hrun] using hwork.2
        simp [abs, posts, phase, taken, CalledBack, hpc, hwork.1, hrun, hnot, Wakeup.step]
      · left
        have hlook : CalledBack s ∨ s.m_newQueue ≠ [] := by tauto
        have hphase : phase { s with pc := .put s.m_newQueue, m_newQueue := [] } = .looking :=
          if_pos hlook
        have hbefore : phase s = .looking := by simp [phase, hpc]
        simp only [abs, hphase, hbefore]
        simp [posts, taken, hpc]
    · cases hs
  case testAgain =>
    obtain rfl := Option.some.inj hs
    left
    cases hq : s.m_runnableQueue <;> simp [abs, posts, phase, taken, CalledBack, hpc, hq]
  case enter =>
    obtain rfl := Option.some.inj hs
    have hrun : s.m_runnableQueue = [] := hI.idle (by simp [hpc, IdlePc])
    left
    cases hn : s.m_notified <;> simp [abs, posts, phase, taken, CalledBack, hpc, hn, hrun]
  case put tasks =>
    obtain rfl := Option.some.inj hs
    left
    have hlook : CalledBack s ∨ tasks ≠ [] ↔
        CalledBack { s with pc := .testAgain, m_runnableQueue := s.m_runnableQueue ++ tasks } := by
      simp only [CalledBack, ne_eq, List.append_eq_nil_iff]
      tauto
    have hphase : phase { s with
        pc := .testAgain, m_runnableQueue := s.m_runnableQueue ++ tasks } = phase s := by
      simp only [phase, hpc, hlook]
    have hwork : (s.m_newQueue ++ (s.m_runnableQueue ++ tasks)).isEmpty =
        (s.m_newQueue ++ (tasks ++ s.m_runnableQueue)).isEmpty := by
      rw [Bool.eq_iff_iff]
      simp [and_comm]
    simp only [abs, hphase]
    simp [posts, taken, hpc, hwork]
  case marked =>
    obtain rfl := Option.some.inj hs
    refine .inr ⟨.sleep, Wakeup.heard_of_ne (by simp), ?_⟩
    simp [abs, posts, phase, taken, hpc, Wakeup.step]
  case blocked => cases hs
  case exited => cases hs
  all_goals
    obtain rfl := Option.some.inj hs
    left
    cases hd : s.m_shutdown <;> simp [abs, posts, phase, taken, hpc]

/-- One step of a run in which every `addTask` is heard is one step of the sleeping consumer, or
changes nothing it sees.
SOURCE: operation/worker.cc:21-29, 31-39 -/
theorem step_simulates (s : State τ) (e : Event τ) (s' : State τ) (hI : Inv s) (hg : Heard s e)
    (hs : step s e = some s') :
    abs s' = abs s ∨ ∃ d, Wakeup.Heard (abs s) d ∧ Wakeup.step (abs s) d = some (abs s') := by
  cases e with
  | addTask tk =>
    obtain ⟨hn, rfl⟩ := step_addTask.mp hs
    exact .inr ⟨.produce, Wakeup.heard_of_ne (by simp), by simp [abs, posts, hn, Wakeup.step]⟩
  | notifyCondition =>
    obtain ⟨hn, rfl⟩ := step_notifyCondition.mp hs
    exact .inl (by simp [abs, posts, hn])
  | readWaiting =>
    obtain ⟨call, hc, rfl⟩ := step_readWaiting.mp hs
    exact .inl (by cases call <;> simp [abs, posts, hc])
  | signal =>
    obtain ⟨call, waiting, hc, rfl⟩ := step_signal.mp hs
    cases call with
    | addTask =>
      have hlook := phase_signal hI hc (hg waiting rfl hc)
      have hposts : (abs s).posts = 1 := by simp [abs, posts, hc]
      refine .inr ⟨.signal true, Wakeup.heard_of_ne (by simp), ?_⟩
      simp [abs_signal, hlook, Wakeup.step, hposts]
    | notifyCondition =>
      have hposts : (abs s).posts = 0 := by simp [abs, posts, hc]
      rcases phase_signal_cases s waiting with hlook | hsame
      · refine .inr ⟨.nudge, Wakeup.heard_of_ne (by simp), ?_⟩
        simp [abs_signal, hlook, Wakeup.step, hposts.symm]
      · left
        rw [abs_signal, hsame, ← hposts]
        rfl
  | shutdown =>
    obtain rfl := step_shutdown.mp hs
    exact .inl rfl
  | work => exact work_simulates hI hs
  | spurious =>
    obtain ⟨hpc, rfl⟩ := step_spurious.mp hs
    refine .inr ⟨.nudge, Wakeup.heard_of_ne (by simp), ?_⟩
    simp [abs, posts, phase, taken, hpc, Wakeup.step]

/-- A worker to which every `addTask` is heard simulates the sleeping consumer. -/
def workerSim (τ : Type) : Sim (system τ) Wakeup.protocol Heard Wakeup.Heard Inv where
  abs := abs
  init := by
    rintro s rfl
    exact ⟨rfl, rfl⟩
  step := step_simulates

/-- A lost state of the worker is a lost state of the sleeping consumer. -/
theorem abs_lost {s : State τ} (h : Lost s) : Wakeup.Lost (abs s) := by
  obtain ⟨hpc, hadd, hq⟩ := h
  refine ⟨?_, ?_, by simp [abs, phase, hpc]⟩
  · have hne : s.m_newQueue ++ taken s.pc ++ s.m_runnableQueue ≠ [] := by
      rcases hq with hq | hq <;> simp [hq]
    simpa [abs] using hne
  · show posts s = 0
    unfold posts
    split
    · next read hc => exact absurd ⟨read, hc⟩ hadd
    · rfl

/-! ## The signals that are lost -/

/-- A worker that has decided to wait reaches the wait by its own steps.
SOURCE: operation/worker.cc:60-70 -/
theorem committed_loses {s : State τ} (hq : s.m_newQueue ≠ []) (hadd : ¬ Adding s)
    (hpc : s.pc = .checked ∨ s.pc = .marked ∨ s.pc = .blocked) :
    ∃ n s', (system τ).run s (List.replicate n .work) = some s' ∧ Lost s' := by
  have hmarked : ∀ t : State τ, t.pc = .marked → step t .work = some { t with pc := .blocked } :=
    fun t ht => by simp [step, work, ht]
  rcases hpc with hpc | hpc | hpc
  · have hchecked : step s .work = some { s with pc := .marked, m_waiting := true } := by
      simp [step, work, hpc]
    refine ⟨2, { s with pc := .blocked, m_waiting := true }, ?_, rfl, hadd, .inl hq⟩
    show (system τ).run s [.work, .work] = _
    rw [System.run_cons, system_step, hchecked, Option.bind_some, System.run_singleton,
      system_step]
    exact hmarked _ rfl
  · refine ⟨1, { s with pc := .blocked }, ?_, rfl, hadd, .inl hq⟩
    show (system τ).run s [.work] = _
    rw [System.run_singleton, system_step, hmarked s hpc]
  · exact ⟨0, s, rfl, hpc, hadd, .inl hq⟩

/-- The first signal the worker is deaf to leaves a state from which the worker alone reaches a
lost one: the condition `Heard` excludes nothing that is harmless.
SOURCE: operation/worker.cc:60-70 -/
theorem unheard_loses {s s' : State τ} {e : Event τ} (hI : Inv s) (hg : ¬ Heard s e)
    (hs : step s e = some s') :
    ∃ n s'', (system τ).run s' (List.replicate n .work) = some s'' ∧ Lost s'' := by
  simp only [Heard, not_forall, not_not] at hg
  obtain ⟨waiting, rfl, hc, hdeaf⟩ := hg
  obtain ⟨call, waiting', hc', rfl⟩ := step_signal.mp hs
  obtain ⟨rfl, rfl⟩ : call = .addTask ∧ waiting' = waiting := by
    simpa [hc, eq_comm] using hc'
  have hq : s.m_newQueue ≠ [] := hI.pushed ⟨_, hc⟩
  have hpc : s.pc = .checked ∨ s.pc = .marked ∨ s.pc = .blocked ∧ waiting' = false := by
    cases hp : s.pc <;> simp_all [Deaf]
  have hsame : (signal s waiting').pc = s.pc ∧ (signal s waiting').m_newQueue = s.m_newQueue ∧
      ¬ Adding (signal s waiting') := by
    cases waiting' with
    | false => exact ⟨rfl, rfl, by simp [Adding, signal]⟩
    | true =>
      have hne : s.pc ≠ .blocked := by
        rcases hpc with hpc | hpc | hpc <;> simp_all
      rw [signal_not_blocked hne]
      exact ⟨rfl, rfl, by simp [Adding]⟩
  refine committed_loses (by rwa [hsame.2.1]) hsame.2.2 ?_
  rw [hsame.1]
  tauto

/-! ## The worker's sleep -/

/-- **The worker's sleep and its wake-ups.**  In every run whose `addTask` signals are all heard,
no state has the worker blocked without a notification, no `addTask` in progress and a task
queued; and every step that breaks the condition leads, by the worker's own steps alone, to such
a state.
SOURCE: operation/worker.cc:21-29, 60-79, 178-215 -/
theorem worker_wakeup (τ : Type) (s : State τ) (h : (system τ).Via Heard s) :
    ¬ Lost s ∧
      ∀ e s', (system τ).step s e = some s' → ¬ Heard s e →
        ∃ n s'', (system τ).run s' (List.replicate n .work) = some s'' ∧ Lost s'' := by
  refine ⟨fun hl => ?_, fun e s' hs hg => unheard_loses (inv_of_via h) hg hs⟩
  exact Wakeup.not_lost ((workerSim τ).via (fun _ => inv_of_via) h) (abs_lost hl)

/-- A task added while the worker is on its way round the loop: every step meets the condition,
and the worker takes the task.
SOURCE: operation/worker.cc:21-29, 31-39, 60-70, 72-79 -/
theorem worker_wakeup_running : ∃ s, (system ℕ).run start
    [.work, .work, .addTask 7, .readWaiting, .signal, .work, .work, .work, .work, .work, .work] =
      some s ∧ s.pc = .running 7 ∧ ¬ Lost s := by
  refine ⟨_, rfl, rfl, (worker_wakeup ℕ _ (System.via_iff_run.mpr ⟨start,
    [.work, .work, .addTask 7, .readWaiting, .signal, .work, .work, .work, .work, .work, .work],
    rfl, rfl, ?_⟩)).1⟩
  simp [System.Meets, step, work, signal, Heard, Deaf, start]

/-- The worker has read `m_notified` and found it false; a task is added, `m_waiting` is still
false, so the call sets `m_notified` and returns; the worker then waits with the task in
`m_newQueue`. -/
theorem worker_loses_wakeup : ¬ ∀ s, (system ℕ).Reachable s → ¬ Lost s := by
  intro h
  have hrun : (system ℕ).run start
      [.work, .work, .work, .work, .work, .work, .work, .addTask 7, .readWaiting, .signal, .work,
        .work] =
      some { start with
        pc := .blocked, m_waiting := true, m_notified := true, m_newQueue := [7] } := rfl
  refine h _ (System.reachable_of_run rfl hrun) ⟨rfl, ?_, .inl (by decide)⟩
  rintro ⟨read, hr⟩
  cases hr

end MagicNet.WorkerSleep
