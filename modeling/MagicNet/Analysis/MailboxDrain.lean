import MagicNet.Foundation.Activation
import MagicNet.Model.Mailbox

/-!
# When a mailbox is left without a dispatch token

`m_inglobal` is set by the first `push` and never cleared.  The token of the actor lives as long
as every `dispatch` finds a message; the first `dispatch` that finds the mailbox empty returns
without a post, and no later `push` posts the handle again.

`view h` reads one actor of the system as the activated queue of `Foundation.Activation`, and
`label h` names the step of that protocol an event is; `step_view` connects the two.  The result
for the mailbox is then the protocol's `unattended_iff`.
-/

set_option autoImplicit false

namespace MagicNet.Mailbox

open MagicNet.Foundation

variable {H M : Type} [DecidableEq H] {s s' : State H M} {h : H}

/-! ## One actor as an activated queue -/

/-- The number of dispatch tokens of `h`. -/
def tokens (s : State H M) (h : H) : ℕ :=
  s.m_works.count h + s.dispatching.toList.count h + s.tasks.count h +
    (s.actors h).running.length

/-- The actor of `h` as an activated queue. -/
def view (h : H) (s : State H M) : Activation.State :=
  { flag := (s.actors h).m_inglobal
    locked := (s.actors h).locked
    pushing := (s.actors h).pushing
    items := (s.actors h).m_mqs.length
    tokens := tokens s h }

/-- The step of the protocol an event is for `h`, if it is one. -/
def label (h : H) (s : State H M) : Event H M → Option Activation.Event
  | .enqueue h' _ => if h' = h then some .enqueue else none
  | .post h' =>
    if h' = h then some (if (s.actors h).m_inglobal then .leave else .post) else none
  | .mark h' => if h' = h then some .mark else none
  | .pop h' _ =>
    if h' = h then some (if (s.actors h).m_mqs.isEmpty then .drop else .take) else none
  | _ => none

/-- An actor holds a token exactly when it has one. -/
theorem holdsToken_iff : HoldsToken s h ↔ 0 < tokens s h := by
  have hworks : h ∈ s.m_works ↔ 0 < s.m_works.count h := List.count_pos_iff.symm
  have htasks : h ∈ s.tasks ↔ 0 < s.tasks.count h := List.count_pos_iff.symm
  have hrun : (s.actors h).running ≠ [] ↔ 0 < (s.actors h).running.length :=
    List.length_pos_iff.symm
  have hdisp : s.dispatching = some h ↔ 0 < s.dispatching.toList.count h := by
    rw [List.count_pos_iff, Option.mem_toList]
  unfold HoldsToken tokens
  rw [hworks, htasks, hrun, hdisp]
  omega

/-- What is done to another actor leaves the view alone. -/
theorem view_set_of_ne {h' : H} (a : Actor M) (hne : h ≠ h') :
    view h (s.set h' a) = view h s := by
  simp only [view, tokens, set_actors_of_ne s a hne, set_m_works, set_dispatching, set_tasks]

/-- A post of another handle leaves the view alone.
SOURCE: module/actorWorker.h:16-19 -/
theorem view_doRegiserWork_of_ne {h' : H} (hne : h ≠ h') :
    view h (s.doRegiserWork h') = view h s := by
  simp [view, tokens, State.doRegiserWork, hne.symm]

/-- A frame found is one of the frames. -/
theorem running_pos {a : Actor M} {i : ℕ} {f : Frame M} (hf : a.running[i]? = some f) :
    i < a.running.length :=
  (List.getElem?_eq_some_iff.mp hf).1

/-- **Each step is the step of its label**, or leaves the view alone. -/
theorem step_view (h : H) (s : State H M) (e : Event H M) (s' : State H M)
    (hs : step s e = some s') :
    Activation.protocol.run (view h s) (label h s e).toList = some (view h s') := by
  cases e with
  | enqueue h' msg =>
    obtain ⟨hl, rfl⟩ := step_enqueue.mp hs
    by_cases hh : h' = h
    · subst hh
      simp [label, Activation.step, view, tokens, hl]
    · simp [label, hh, view_set_of_ne _ (Ne.symm hh)]
  | post h' =>
    obtain ⟨⟨hl, hp⟩, ⟨hg, rfl⟩ | ⟨hg, rfl⟩⟩ := step_post.mp hs
    · by_cases hh : h' = h
      · subst hh
        simp [label, Activation.step, view, tokens, hl, hp, hg]
      · simp [label, hh, view_set_of_ne _ (Ne.symm hh)]
    · by_cases hh : h' = h
      · subst hh
        simp [label, Activation.step, view, tokens, State.doRegiserWork, hl, hp, hg]
        omega
      · simp [label, hh, view_set_of_ne _ (Ne.symm hh), view_doRegiserWork_of_ne (Ne.symm hh)]
  | mark h' =>
    obtain ⟨hl, rfl⟩ := step_mark.mp hs
    by_cases hh : h' = h
    · subst hh
      simp [label, Activation.step, view, tokens, hl]
    · simp [label, hh, view_set_of_ne _ (Ne.symm hh)]
  | popWork =>
    obtain ⟨hd, h', rest, hw, rfl⟩ := step_popWork.mp hs
    by_cases hh : h' = h
    · simp [label, view, tokens, hd, hw, hh]
    · simp [label, view, tokens, hd, hw, hh]
  | createTask =>
    obtain ⟨h', hd, rfl⟩ := step_createTask.mp hs
    by_cases hh : h' = h
    · simp [label, view, tokens, hd, hh]
      omega
    · simp [label, view, tokens, hd, hh]
  | startTask h' =>
    obtain ⟨ht, rfl⟩ := step_startTask.mp hs
    by_cases hh : h' = h
    · subst hh
      have hpos : 0 < s.tasks.count h' := List.count_pos_iff.mpr ht
      simp [label, view, tokens]
      omega
    · rw [view_set_of_ne _ (Ne.symm hh)]
      simp [label, view, tokens, List.count_erase_of_ne (Ne.symm hh)]
  | pop h' i =>
    obtain ⟨hl, hf, rfl⟩ := step_pop.mp hs
    by_cases hh : h' = h
    · subst hh
      have hi := running_pos hf
      have hne : (s.actors h').running ≠ [] := List.ne_nil_of_length_pos (by omega)
      cases hq : (s.actors h').m_mqs with
      | nil =>
        simp [label, Activation.step, view, tokens, dispatchPop, hl, hq, List.length_eraseIdx, hi]
        omega
      | cons msg rest =>
        cases hc : (s.actors h').m_cpt <;>
          simp [label, Activation.step, view, tokens, dispatchPop, hl, hq, hc, hne]
    · simp [label, hh, view_set_of_ne _ (Ne.symm hh)]
  | repost h' i =>
    obtain ⟨⟨msg, hf⟩, rfl⟩ := step_repost.mp hs
    by_cases hh : h' = h
    · subst hh
      have hi := running_pos hf
      simp [label, view, tokens, State.doRegiserWork, List.length_eraseIdx, hi]
      omega
    · simp [label, view_set_of_ne _ (Ne.symm hh), view_doRegiserWork_of_ne (Ne.symm hh)]
  | suspend h' i =>
    obtain ⟨msg, hf, rfl⟩ := step_suspend.mp hs
    by_cases hh : h' = h
    · subst hh
      simp [label, view, tokens]
    · simp [label, view_set_of_ne _ (Ne.symm hh)]
  | resume h' i =>
    obtain ⟨msg, hf, rfl⟩ := step_resume.mp hs
    by_cases hh : h' = h
    · subst hh
      simp [label, view, tokens]
    · simp [label, view_set_of_ne _ (Ne.symm hh)]
  | setComponent h' =>
    obtain rfl := step_setComponent.mp hs
    by_cases hh : h' = h
    · subst hh
      simp [label, view, tokens]
    · simp [label, view_set_of_ne _ (Ne.symm hh)]

/-! ## The trace of a run -/

/-- A post to the abstract mailbox is a push to the actor's.
SOURCE: module/actor.cc:71-81 -/
theorem label_eq_enqueue {e : Event H M} :
    label h s e = some .enqueue ↔ ∃ msg, e = .enqueue h msg := by
  cases e <;> simp [label]
  case post => cases (s.actors h).m_inglobal <;> simp
  case pop => cases (s.actors h).m_mqs <;> simp

/-- A drop is a dispatch that finds it empty.
SOURCE: module/actor.cc:126-154 -/
theorem label_eq_drop {e : Event H M} : label h s e = some .drop ↔ EmptyPop h s e := by
  cases e <;> simp [label, EmptyPop]
  case post => cases (s.actors h).m_inglobal <;> simp

/-- The trace of a run queues an item exactly when the run queues a message for `h`.
SOURCE: module/actor.cc:71-81 -/
theorem enqueue_mem_trace {es : List (Event H M)} (hrun : (system H M).run s es = some s') :
    Activation.Event.enqueue ∈ (system H M).trace (label h) s es ↔
      ∃ msg, Event.enqueue h msg ∈ es := by
  induction es generalizing s with
  | nil => simp [System.trace]
  | cons e es ih =>
    obtain ⟨t, ht, hrest⟩ := Option.bind_eq_some_iff.mp hrun
    rw [System.trace_cons ht, List.mem_append, Option.mem_toList, ih hrest]
    simp only [label_eq_enqueue, List.mem_cons, eq_comm (a := e), exists_or]

/-- In the trace of a run an item comes after a drop exactly when, in the run, a message is
queued for `h` after a `dispatch` of `h` has found the mailbox empty. -/
theorem enqueuedAfterDrop_trace {es : List (Event H M)}
    (hrun : (system H M).run s es = some s') :
    Activation.EnqueuedAfterDrop ((system H M).trace (label h) s es) ↔
      PushedAfterEmptyPop h s es := by
  induction es generalizing s with
  | nil => simp [System.trace, Activation.EnqueuedAfterDrop, PushedAfterEmptyPop]
  | cons e es ih =>
    obtain ⟨t, ht, hrest⟩ := Option.bind_eq_some_iff.mp hrun
    have hnext : (∃ t', step s e = some t' ∧ PushedAfterEmptyPop h t' es) ↔
        PushedAfterEmptyPop h t es := by
      rw [system_step] at ht
      simp [ht]
    rw [System.trace_cons ht, Activation.enqueuedAfterDrop_append, label_eq_drop,
      enqueue_mem_trace hrest, ih hrest, PushedAfterEmptyPop, hnext]

/-- The view of the start is the start of the protocol. -/
theorem view_start (h : H) : view h (start H M) = Activation.start := by
  simp [view, tokens, start, Actor.fresh, Activation.start]

/-! ## The mailbox -/

/-- **When a mailbox is drained.**  After any run in which every push to the actor has returned,
a non-empty mailbox has a dispatch token exactly when no message was queued for the actor after
one of its `dispatch` calls had found the mailbox empty.
SOURCE: module/actor.cc:71-81, 126-154 -/
theorem mailbox_drain (H M : Type) [DecidableEq H] (h : H) (es : List (Event H M))
    (s : State H M) (hrun : (system H M).run (start H M) es = some s)
    (hret : (s.actors h).pushing = 0) :
    ((s.actors h).m_mqs ≠ [] → HoldsToken s h) ↔ ¬ PushedAfterEmptyPop h (start H M) es := by
  have htrace := System.run_trace (B := Activation.protocol) (step_view h) hrun
  rw [view_start] at htrace
  have hwait := Activation.unattended_iff htrace hret
  rw [enqueuedAfterDrop_trace hrun] at hwait
  rw [← hwait, holdsToken_iff, ← List.length_pos_iff]
  show (0 < (s.actors h).m_mqs.length → 0 < tokens s h) ↔
    ¬ (0 < (s.actors h).m_mqs.length ∧ tokens s h = 0)
  omega

/-- Two pushes before the first dispatch: the mailbox is not empty and the handle is posted.
SOURCE: module/actor.cc:71-81 -/
theorem mailbox_drain_posted : ∃ s, (system ℕ ℕ).run (start ℕ ℕ)
    [.enqueue 1 5, .enqueue 1 6, .post 1, .mark 1, .post 1] = some s ∧
      (s.actors 1).m_mqs = [5, 6] ∧ HoldsToken s 1 := by
  refine ⟨_, rfl, rfl, (mailbox_drain ℕ ℕ 1
    [.enqueue 1 5, .enqueue 1 6, .post 1, .mark 1, .post 1] _ rfl rfl).mpr ?_ (by decide)⟩
  simp [PushedAfterEmptyPop, EmptyPop]

/-- A message is pushed and handled, the next `dispatch` finds the mailbox empty, and the
message pushed after that stays in the mailbox: `push` finds `m_inglobal` set. -/
theorem mailbox_strands_message : ¬ ∀ (h : ℕ) (es : List (Event ℕ ℕ)) (s : State ℕ ℕ),
    (system ℕ ℕ).run (start ℕ ℕ) es = some s → (s.actors h).pushing = 0 →
      (s.actors h).m_mqs ≠ [] → HoldsToken s h := by
  intro hall
  have hhold := hall 1
    [.setComponent 1, .enqueue 1 5, .post 1, .mark 1, .popWork, .createTask, .startTask 1,
      .pop 1 0, .repost 1 0, .popWork, .createTask, .startTask 1, .pop 1 0, .enqueue 1 6,
      .post 1] _ rfl rfl (by decide)
  revert hhold
  decide

end MagicNet.Mailbox
