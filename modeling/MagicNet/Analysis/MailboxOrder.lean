import MagicNet.Analysis.MailboxDrain
import MagicNet.Model.Queue

/-!
# One dispatch at a time, in the order of the pushes

The token of an actor is posted by the first push and handed on from the work queue to a task and
from the task to `dispatch`, which posts it again only after `doRun` has returned.  So there is
never a second one, and while a handler runs nobody else takes a message; what the dispatches
take is then what the pushes have queued, in that order.

The mailbox of the model is a list.  `Ring` replays the same run on the array of `util::queue`
that the source keeps the messages in, and `ring_run` shows that its pops return the same.
-/

set_option autoImplicit false

namespace MagicNet.Mailbox

open MagicNet.Foundation MagicNet.Util

variable {H M : Type} [DecidableEq H] {s s' : State H M} {h : H}

/-! ## What a run does to one mailbox -/

/-- The message an event queues for `h`. -/
def queued (h : H) : Event H M → Option M
  | .enqueue h' msg => if h' = h then some msg else none
  | _ => none

/-- The messages pushed to `h`, in the order in which they entered the queue. -/
def pushed (h : H) (es : List (Event H M)) : List M := es.filterMap (queued h)

/-- A frame in which `doRun` has been called and has not returned. -/
def Frame.inDoRun : Frame M → Bool
  | .looking => false
  | .handling _ | .suspended _ => true

/-- The calls of `doRun` in progress on the actor of `h`. -/
def doRuns (s : State H M) (h : H) : ℕ := (s.actors h).running.countP Frame.inDoRun

/-- A `dispatch` of `h` that finds a message finds `m_cpt` set. -/
def CptSet (h : H) (s : State H M) : Event H M → Prop
  | .pop h' _ => h' = h → (s.actors h).m_mqs = [] ∨ (s.actors h).m_cpt = true
  | _ => True

instance (h : H) (s : State H M) : ∀ e, Decidable (CptSet h s e)
  | .pop h' _ =>
    inferInstanceAs (Decidable (h' = h → (s.actors h).m_mqs = [] ∨ (s.actors h).m_cpt = true))
  | .enqueue .. | .post _ | .mark _ | .popWork | .createTask | .startTask _ | .repost ..
  | .suspend .. | .resume .. | .setComponent _ => isTrue trivial

/-- What is done to an actor, other than to its mailbox, leaves every mailbox alone. -/
theorem set_mailbox (s : State H M) {h' : H} {a : Actor M} (hq : a.m_mqs = (s.actors h').m_mqs)
    (hran : a.ran = (s.actors h').ran) :
    ((s.set h' a).actors h).m_mqs = (s.actors h).m_mqs ∧
      ((s.set h' a).actors h).ran = (s.actors h).ran := by
  by_cases hh : h = h'
  · subst hh
    simp [hq, hran]
  · rw [set_actors_of_ne _ _ hh]
    exact ⟨rfl, rfl⟩

/-- An event queues a message for `h`, or it is a pop of `h`, or it leaves the mailbox of `h` and
what has been handled alone.
SOURCE: module/actor.cc:71-81, 126-154 -/
theorem step_mailbox {e : Event H M} (h : H) (hs : step s e = some s') :
    (∃ msg, e = .enqueue h msg ∧ (s'.actors h).m_mqs = (s.actors h).m_mqs ++ [msg] ∧
      (s'.actors h).ran = (s.actors h).ran) ∨
    (∃ i, e = .pop h i ∧ s'.actors h = dispatchPop (s.actors h) i) ∨
    (∀ msg, e ≠ .enqueue h msg) ∧ (∀ i, e ≠ .pop h i) ∧
      (s'.actors h).m_mqs = (s.actors h).m_mqs ∧ (s'.actors h).ran = (s.actors h).ran := by
  cases e with
  | enqueue h' msg =>
    obtain ⟨-, rfl⟩ := step_enqueue.mp hs
    by_cases hh : h' = h
    · subst hh
      exact .inl ⟨msg, rfl, by simp⟩
    · rw [set_actors_of_ne _ _ (Ne.symm hh)]
      exact .inr (.inr ⟨by simp [hh], by simp, rfl, rfl⟩)
  | pop h' i =>
    obtain ⟨-, -, rfl⟩ := step_pop.mp hs
    by_cases hh : h' = h
    · subst hh
      exact .inr (.inl ⟨i, rfl, by simp⟩)
    · rw [set_actors_of_ne _ _ (Ne.symm hh)]
      exact .inr (.inr ⟨by simp, by simp [hh], rfl, rfl⟩)
  | post h' =>
    obtain ⟨-, ⟨-, rfl⟩ | ⟨-, rfl⟩⟩ := step_post.mp hs
    · exact .inr (.inr ⟨by simp, by simp, set_mailbox s rfl rfl⟩)
    · exact .inr (.inr ⟨by simp, by simp, set_mailbox (s.doRegiserWork h') rfl rfl⟩)
  | mark h' =>
    obtain ⟨-, rfl⟩ := step_mark.mp hs
    exact .inr (.inr ⟨by simp, by simp, set_mailbox s rfl rfl⟩)
  | popWork =>
    obtain ⟨-, h', rest, -, rfl⟩ := step_popWork.mp hs
    exact .inr (.inr ⟨by simp, by simp, rfl, rfl⟩)
  | createTask =>
    obtain ⟨h', -, rfl⟩ := step_createTask.mp hs
    exact .inr (.inr ⟨by simp, by simp, rfl, rfl⟩)
  | startTask h' =>
    obtain ⟨-, rfl⟩ := step_startTask.mp hs
    exact .inr (.inr ⟨by simp, by simp, set_mailbox { s with tasks := s.tasks.erase h' } rfl rfl⟩)
  | repost h' i =>
    obtain ⟨-, rfl⟩ := step_repost.mp hs
    exact .inr (.inr ⟨by simp, by simp, set_mailbox (s.doRegiserWork h') rfl rfl⟩)
  | suspend h' i =>
    obtain ⟨-, -, rfl⟩ := step_suspend.mp hs
    exact .inr (.inr ⟨by simp, by simp, set_mailbox s rfl rfl⟩)
  | resume h' i =>
    obtain ⟨-, -, rfl⟩ := step_resume.mp hs
    exact .inr (.inr ⟨by simp, by simp, set_mailbox s rfl rfl⟩)
  | setComponent h' =>
    obtain rfl := step_setComponent.mp hs
    exact .inr (.inr ⟨by simp, by simp, set_mailbox s rfl rfl⟩)

/-- Where `m_cpt` is set, a pop hands the first message to `doRun`.
SOURCE: module/actor.cc:126-154 -/
theorem dispatchPop_cpt {a : Actor M} (i : ℕ) (hcpt : a.m_mqs = [] ∨ a.m_cpt = true) :
    (dispatchPop a i).m_mqs = a.m_mqs.tail ∧
      (dispatchPop a i).ran = a.ran ++ a.m_mqs.head?.toList := by
  unfold dispatchPop
  cases hq : a.m_mqs with
  | nil => simp
  | cons msg rest => simp [hcpt.resolve_left (by simp [hq])]

/-! ## The mailbox as an array -/

/-- The array of the mailbox, and the messages its pops have returned. -/
structure Ring (M : Type) where
  m_mqs : Queue M
  given : List M

def Ring.fresh (raw : ℕ → M) : Ring M := { m_mqs := .new raw, given := [] }

/-- What an event does to the array of the mailbox of `h`. -/
def Ring.step (h : H) (r : Ring M) : Event H M → Ring M
  | .enqueue h' msg => if h' = h then { r with m_mqs := r.m_mqs.local_push msg } else r
  | .pop h' _ =>
    if h' = h then
      { m_mqs := r.m_mqs.local_pop.2, given := r.given ++ r.m_mqs.local_pop.1.toList }
    else r
  | _ => r

def Ring.replay (h : H) (r : Ring M) (es : List (Event H M)) : Ring M := es.foldl (Ring.step h) r

/-- The array holds the messages of the mailbox, and its pops have returned what was handled. -/
structure Ring.Agrees (r : Ring M) (s : State H M) (h : H) : Prop where
  contents : r.m_mqs.contents = (s.actors h).m_mqs
  given : r.given = (s.actors h).ran

/-- An event that is neither a push to `h` nor a pop of `h` leaves its array alone.
SOURCE: module/actor.cc:71-81, 126-154 -/
theorem Ring.step_of_ne {r : Ring M} {e : Event H M} (hpush : ∀ msg, e ≠ .enqueue h msg)
    (hpop : ∀ i, e ≠ .pop h i) : r.step h e = r := by
  cases e with
  | enqueue h' msg =>
    have hne : h' ≠ h := by
      rintro rfl
      exact hpush msg rfl
    simp [Ring.step, hne]
  | pop h' i =>
    have hne : h' ≠ h := by
      rintro rfl
      exact hpop i rfl
    simp [Ring.step, hne]
  | _ => rfl

/-- Only a push queues a message.
SOURCE: module/actor.cc:71-81 -/
theorem queued_of_ne {e : Event H M} (hpush : ∀ msg, e ≠ .enqueue h msg) : queued h e = none := by
  cases e with
  | enqueue h' msg =>
    have hne : h' ≠ h := by
      rintro rfl
      exact hpush msg rfl
    simp [queued, hne]
  | _ => rfl

/-- **One step**: what has been handled and what is in the mailbox grows by what the event queues,
and the array goes on agreeing with the mailbox. -/
theorem step_order {e : Event H M} {r : Ring M} (hs : step s e = some s') (hcpt : CptSet h s e)
    (hr : r.Agrees s h) :
    (s'.actors h).ran ++ (s'.actors h).m_mqs =
      (s.actors h).ran ++ (s.actors h).m_mqs ++ (queued h e).toList ∧ (r.step h e).Agrees s' h := by
  rcases step_mailbox h hs with ⟨msg, rfl, hq, hran⟩ | ⟨i, rfl, hact⟩ | ⟨hpush, hpop, hq, hran⟩
  · refine ⟨by simp [hq, hran, queued], ?_, ?_⟩
    · rw [hq, ← hr.contents]
      simp [Ring.step, Queue.contents_push]
    · rw [hran, ← hr.given]
      simp [Ring.step]
  · obtain ⟨hq, hran⟩ := dispatchPop_cpt i (hcpt rfl)
    rw [← hact] at hq hran
    refine ⟨?_, ?_, ?_⟩
    · rw [hq, hran]
      cases (s.actors h).m_mqs <;> simp [queued]
    · rw [hq, ← hr.contents, ← (r.m_mqs.contents_pop).2]
      simp [Ring.step]
    · rw [hran, ← hr.contents, ← hr.given, ← (r.m_mqs.contents_pop).1]
      simp [Ring.step]
  · rw [hq, hran, queued_of_ne hpush, Ring.step_of_ne hpush hpop]
    exact ⟨by simp, by rw [hq, hr.contents], by rw [hran, hr.given]⟩

/-- **A run**: what has been handled, followed by what is in the mailbox, is what was pushed, and
the array agrees with the mailbox. -/
theorem ring_run {es : List (Event H M)} {r : Ring M} (hrun : (system H M).run s es = some s')
    (hcpt : (system H M).Meets (CptSet h) s es) (hr : r.Agrees s h) :
    (s'.actors h).ran ++ (s'.actors h).m_mqs =
      (s.actors h).ran ++ (s.actors h).m_mqs ++ pushed h es ∧ (r.replay h es).Agrees s' h := by
  induction es generalizing s r with
  | nil =>
    obtain rfl : s = s' := by simpa using hrun
    exact ⟨by simp [pushed], hr⟩
  | cons e es ih =>
    obtain ⟨t, ht, hrest⟩ := Option.bind_eq_some_iff.mp hrun
    obtain ⟨horder, hagree⟩ := step_order ht hcpt.1 hr
    obtain ⟨horder', hagree'⟩ := ih hrest (hcpt.2 t ht) hagree
    refine ⟨?_, hagree'⟩
    rw [horder', horder, List.append_assoc]
    congr 1
    unfold pushed
    cases hqueued : queued h e <;> simp [hqueued]

/-! ## One token -/

/-- After any run an actor has at most one dispatch token. -/
theorem tokens_le_one {es : List (Event H M)} (hrun : (system H M).run (start H M) es = some s) :
    tokens s h ≤ 1 := by
  have htrace := System.run_trace (B := Activation.protocol) (step_view h) hrun
  rw [view_start] at htrace
  exact (Activation.run_inv Activation.inv_start htrace).single

/-- **Single activation and the order of the mailbox.**  After any run in which no `dispatch` of
the actor has found a message without a component: the actor has at most one dispatch token, at
most one `doRun` of it is in progress, and the messages given to `doRun`, which are those the pops
of the array of its mailbox have returned, are a prefix of those pushed to it.
SOURCE: module/actor.cc:71-81, 126-154, module/actorWorker.cc:20-45, util/queue.h:72-124 -/
theorem mailbox_order (H M : Type) [DecidableEq H] (raw : ℕ → M) (h : H) (es : List (Event H M))
    (s : State H M) (hrun : (system H M).run (start H M) es = some s)
    (hcpt : (system H M).Meets (CptSet h) (start H M) es) :
    tokens s h ≤ 1 ∧ doRuns s h ≤ 1 ∧ (s.actors h).ran <+: pushed h es ∧
      ((Ring.fresh raw).replay h es).given = (s.actors h).ran := by
  have htokens : tokens s h ≤ 1 := tokens_le_one hrun
  have hframes : (s.actors h).running.length ≤ tokens s h := by
    unfold tokens
    omega
  have hdoRuns : doRuns s h ≤ (s.actors h).running.length := List.countP_le_length
  have hfresh : (Ring.fresh raw).Agrees (start H M) h := ⟨rfl, rfl⟩
  obtain ⟨horder, hagree⟩ := ring_run hrun hcpt hfresh
  refine ⟨htokens, by omega, ⟨(s.actors h).m_mqs, ?_⟩, hagree.given⟩
  rw [horder]
  rfl

/-- Three pushes and a dispatch of the first: its `doRun` is in progress.
SOURCE: module/actor.cc:31-69, 71-81, 126-154, module/actorWorker.cc:20-45 -/
theorem mailbox_order_running : ∃ s, (system ℕ ℕ).run (start ℕ ℕ)
    [.setComponent 1, .enqueue 1 5, .enqueue 1 6, .post 1, .mark 1, .enqueue 1 7, .popWork,
      .createTask, .startTask 1, .pop 1 0] = some s ∧
      doRuns s 1 ≤ 1 ∧ (s.actors 1).ran = [5] ∧ [5] <+: [5, 6, 7] := by
  have hmain := mailbox_order ℕ ℕ (fun _ => 0) 1
    [.setComponent 1, .enqueue 1 5, .enqueue 1 6, .post 1, .mark 1, .enqueue 1 7, .popWork,
      .createTask, .startTask 1, .pop 1 0] _ rfl
    (by decide)
  exact ⟨_, rfl, hmain.2.1, rfl, hmain.2.2.1⟩

end MagicNet.Mailbox
