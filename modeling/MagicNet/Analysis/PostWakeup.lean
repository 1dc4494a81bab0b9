import MagicNet.Model.Post
import MagicNet.Foundation.Wakeup

/-!
# When `util::post` loses a wake-up

The thread waits at the top of every round without a look at the queue, and `doPost` notifies
only a thread that already waits.  An item pushed after the last failing pop of a round, whose
`doPost` runs before the thread waits, is not seen until somebody posts again.

`abs` reads a post as the sleeping consumer of `Foundation.Wakeup`; `postSim` shows that each
step is one of its steps, and the rule `Wakeup.not_lost` then gives that nothing is lost in a
run without such a `doPost`.  `unheard_loses` is the other direction: after the first such
`doPost` the thread needs at most two steps of its own to reach a lost state.
-/

set_option autoImplicit false

namespace MagicNet.Post

open MagicNet.Foundation

variable {α : Type} {breaks : Bool}

/-- What the thread is doing, as a phase of the sleeping consumer.  A post that is shut down
never sleeps again. -/
def phase (s : State α) : Wakeup.Phase :=
  if s.m_shutdown then .looking else
    match s.pc with
    | .top | .enter => .committed
    | .waiting => .asleep
    | .notified | .check | .running | .exited => .looking

/-- The abstract view of a post. -/
def abs (s : State α) : Wakeup.State :=
  { work := !s.queue.isEmpty, posts := s.posting, phase := phase s }

/-- `m_sleep` counts the thread between `++m_sleep` and `--m_sleep`. -/
def SleepCounts (s : State α) : Prop :=
  s.m_sleep = if s.pc = .waiting ∨ s.pc = .notified then 1 else 0

/-- Every step keeps `m_sleep` the count of the waiting thread.
SOURCE: util/post.cc:35-45 -/
theorem step_sleepCounts (s : State α) (e : Event α) (s' : State α) (h : SleepCounts s)
    (hs : step breaks s e = some s') : SleepCounts s' := by
  unfold SleepCounts at h ⊢
  cases e with
  | push item =>
    obtain rfl := step_push.mp hs
    exact h
  | doPost =>
    obtain ⟨-, rfl⟩ := step_doPost.mp hs
    cases hpc : s.pc <;> simp_all [doPost, notify]
  | loop =>
    obtain ⟨hpc, rfl⟩ := step_loop.mp hs
    cases hd : s.m_shutdown <;> simp_all
  | sleep =>
    obtain ⟨hpc, ⟨-, rfl⟩ | ⟨-, rfl⟩⟩ := step_sleep.mp hs <;> simp_all
  | spurious =>
    obtain ⟨hpc, rfl⟩ := step_spurious.mp hs
    simp_all
  | wake =>
    obtain ⟨hpc, rfl⟩ := step_wake.mp hs
    simp_all
  | check =>
    obtain ⟨hpc, rfl⟩ := step_check.mp hs
    cases hd : s.m_shutdown <;> simp_all
  | pop =>
    obtain ⟨hpc, ⟨-, rfl⟩ | ⟨item, rest, -, rfl⟩⟩ := step_pop.mp hs
    · simp_all
    · cases hb : (breaks && s.m_shutdown) <;> simp_all only <;> simp
  | doShutdown =>
    obtain rfl := step_doShutdown.mp hs
    cases hpc : s.pc <;> simp_all [notify]

/-- `m_sleep` counts the waiting thread in every reachable state. -/
theorem sleepCounts_of_via {g : State α → Event α → Prop} {s : State α}
    (h : (system α breaks).Via g s) : SleepCounts s := by
  refine h.invariant (I := SleepCounts) ?_ (fun s e s' hI _ hs => step_sleepCounts s e s' hI hs)
  rintro t rfl
  rfl

/-- One step of a post is one step of the sleeping consumer, or changes nothing it sees. -/
theorem step_simulates (s : State α) (e : Event α) (s' : State α) (hI : SleepCounts s)
    (hg : Heard s e) (hs : step breaks s e = some s') :
    abs s' = abs s ∨
      ∃ d, Wakeup.Heard (abs s) d ∧ Wakeup.step (abs s) d = some (abs s') := by
  cases e with
  | push item =>
    obtain rfl := step_push.mp hs
    exact .inr ⟨.produce, Wakeup.heard_of_ne (by simp), by simp [abs, phase, Wakeup.step]⟩
  | doPost =>
    obtain ⟨hp, rfl⟩ := step_doPost.mp hs
    by_cases hl : s.m_shutdown = false ∧ PastLastPop s
    · -- the signal is missed: the condition says that it is not the last one that matters
      refine .inr ⟨.signal false, fun _ hlost => ?_, ?_⟩
      · exact hg rfl hl.1 hlost.2.1 (by simpa [abs] using hlost.1) hl.2
      · rcases hl.2 with hpc | hpc <;>
          simp [abs, phase, Wakeup.step, doPost, notify, hp, hl.1, hpc]
    · refine .inr ⟨.signal true, Wakeup.heard_of_ne (by simp), ?_⟩
      have hI' : s.m_sleep = if s.pc = .waiting ∨ s.pc = .notified then 1 else 0 := hI
      cases hd : s.m_shutdown <;> cases hpc : s.pc <;>
        simp_all [abs, phase, Wakeup.step, doPost, notify, PastLastPop]
  | loop =>
    obtain ⟨hpc, rfl⟩ := step_loop.mp hs
    left
    cases hd : s.m_shutdown <;> simp [abs, phase, hd, hpc]
  | sleep =>
    obtain ⟨hpc, ⟨hd, rfl⟩ | ⟨hd, rfl⟩⟩ := step_sleep.mp hs
    · left
      simp [abs, phase, hd]
    · exact .inr ⟨.sleep, Wakeup.heard_of_ne (by simp), by simp [abs, phase, hd, hpc, Wakeup.step]⟩
  | spurious =>
    obtain ⟨hpc, rfl⟩ := step_spurious.mp hs
    refine .inr ⟨.nudge, Wakeup.heard_of_ne (by simp), ?_⟩
    cases hd : s.m_shutdown <;> simp [abs, phase, hd, Wakeup.step]
  | wake =>
    obtain ⟨hpc, rfl⟩ := step_wake.mp hs
    left
    simp [abs, phase, hpc]
  | check =>
    obtain ⟨hpc, rfl⟩ := step_check.mp hs
    left
    cases hd : s.m_shutdown <;> simp [abs, phase, hd, hpc]
  | pop =>
    obtain ⟨hpc, ⟨hq, rfl⟩ | ⟨item, rest, hq, rfl⟩⟩ := step_pop.mp hs
    · cases hd : s.m_shutdown with
      | true =>
        left
        simp [abs, phase, hd]
      | false =>
        refine .inr ⟨.settle, Wakeup.heard_of_ne (by simp), ?_⟩
        simp [abs, phase, hd, hpc, hq, Wakeup.step]
    · refine .inr ⟨.look !rest.isEmpty, Wakeup.heard_of_ne (by simp), ?_⟩
      cases hd : s.m_shutdown <;> simp [abs, phase, hd, hpc, hq, Wakeup.step]
  | doShutdown =>
    obtain rfl := step_doShutdown.mp hs
    exact .inr ⟨.nudge, Wakeup.heard_of_ne (by simp), by
      cases hpc : s.pc <;> simp [abs, phase, notify, hpc, Wakeup.step]⟩

/-- A post in which every last `doPost` is heard simulates the sleeping consumer. -/
def postSim (α : Type) (breaks : Bool) :
    Sim (system α breaks) Wakeup.protocol Heard Wakeup.Heard SleepCounts where
  abs := abs
  init := by
    rintro s rfl
    exact ⟨rfl, rfl⟩
  step := step_simulates

/-- A lost state of a post is a lost state of the sleeping consumer. -/
theorem abs_lost {s : State α} (h : Lost s) : Wakeup.Lost (abs s) := by
  obtain ⟨hd, hpc, hp, hq⟩ := h
  exact ⟨by simpa [abs] using hq, hp, by simp [abs, phase, hd, hpc]⟩

/-- The steps the post thread takes on its own before it waits. -/
def ThreadStep (e : Event α) : Prop := e = .loop ∨ e = .sleep

/-- From a state before shutdown with a queued item, no `doPost` in progress and the thread past
its last pop, the thread alone reaches a lost state.
SOURCE: util/post.cc:28-33 -/
theorem pastLastPop_loses {s : State α} (hd : s.m_shutdown = false) (hp : s.posting = 0)
    (hq : s.queue ≠ []) (hpc : PastLastPop s) :
    ∃ es s', (∀ e ∈ es, ThreadStep e) ∧ (system α breaks).run s es = some s' ∧ Lost s' := by
  have hsleep : ∀ t : State α, t.pc = .enter → t.m_shutdown = false →
      step breaks t .sleep = some { t with pc := .waiting, m_sleep := t.m_sleep + 1 } :=
    fun t ht htd => step_sleep.mpr ⟨ht, .inr ⟨htd, rfl⟩⟩
  rcases hpc with hpc | hpc
  · have hloop : step breaks s .loop = some { s with pc := .enter } :=
      step_loop.mpr ⟨hpc, by simp [hd]⟩
    refine ⟨[.loop, .sleep], { s with pc := .waiting, m_sleep := s.m_sleep + 1 },
      by simp [ThreadStep], ?_, hd, rfl, hp, hq⟩
    rw [System.run_cons, system_step, hloop, Option.bind_some, System.run_singleton, system_step]
    exact hsleep _ rfl hd
  · refine ⟨[.sleep], { s with pc := .waiting, m_sleep := s.m_sleep + 1 },
      by simp [ThreadStep], ?_, hd, rfl, hp, hq⟩
    rw [System.run_singleton, system_step, hsleep s hpc hd]

/-- The first `doPost` that is not heard leaves a state from which the thread alone reaches a
lost one: the condition `Heard` excludes nothing that is harmless.
SOURCE: util/post.cc:28-33 -/
theorem unheard_loses {s s' : State α} (hg : ¬ Heard s .doPost)
    (hs : step breaks s .doPost = some s') :
    ∃ es s'', (∀ e ∈ es, ThreadStep e) ∧ (system α breaks).run s' es = some s'' ∧ Lost s'' := by
  simp only [Heard, not_forall, not_not] at hg
  obtain ⟨-, hd, hp, hq, hpc⟩ := hg
  obtain ⟨-, rfl⟩ := step_doPost.mp hs
  have hsame : doPost { s with posting := s.posting - 1 } =
      { s with posting := s.posting - 1 } := by
    rcases hpc with hpc | hpc <;> simp [doPost, notify, hpc]
  rw [hsame]
  exact pastLastPop_loses hd (by simp [hp]) hq hpc

/-! ## The post loop -/

/-- **The post loop and its wake-ups.**  In every run whose `doPost` steps are all heard, no
state before shutdown has a waiting thread without a notification, no `doPost` in progress and
an item in the queue; and every step that breaks the condition leads, by the thread's own
steps alone, to such a state.
SOURCE: util/post.cc:28-45 -/
theorem post_wakeup (α : Type) (breaks : Bool) (s : State α)
    (h : (system α breaks).Via Heard s) :
    ¬ Lost s ∧
      ∀ e s', (system α breaks).step s e = some s' → ¬ Heard s e →
        ∃ es s'', (∀ e ∈ es, ThreadStep e) ∧ (system α breaks).run s' es = some s'' ∧
          Lost s'' := by
  refine ⟨fun hl => ?_, fun e s' hs hg => ?_⟩
  · exact Wakeup.not_lost ((postSim α breaks).via (fun _ => sleepCounts_of_via) h) (abs_lost hl)
  · obtain rfl : e = .doPost := by
      by_contra hne
      exact hg fun heq => absurd heq hne
    exact unheard_loses hg hs

/-- A round in which the item is pushed while the thread waits: every step meets the condition,
and the thread is notified.
SOURCE: util/post.cc:28-33, 35-50 -/
theorem post_wakeup_waiting : ∃ s, (system ℕ true).run start
    [.loop, .sleep, .push 7, .doPost] = some s ∧ ¬ Lost s := by
  refine ⟨_, rfl, (post_wakeup ℕ true _ (System.via_iff_run.mpr
    ⟨start, [.loop, .sleep, .push 7, .doPost], rfl, rfl, ?_⟩)).1⟩
  simp [System.Meets, system, step, doPost, notify, Heard, PastLastPop, start]

/-- The producer pushes and posts before the thread has reached its first wait: the thread then
waits with the item in the queue. -/
theorem post_loses_wakeup : ¬ ∀ s, (system ℕ true).Reachable s → ¬ Lost s := by
  intro h
  have hrun : (system ℕ true).run start [.push 7, .doPost, .loop, .sleep] =
      some { start with pc := .waiting, m_sleep := 1, queue := [7] } := rfl
  exact h _ (System.reachable_of_run rfl hrun) ⟨rfl, rfl, rfl, by decide⟩

end MagicNet.Post
