import MagicNet.Analysis.MailboxOrder

/-!
# A suspended handler and the token of its actor

`actor::dispatch` posts the handle again only after `doRun` has returned.  A handler that calls
`actorComponent::doWait` yields the task `dispatch` runs in, in the middle of `doRun`: the token of
the actor stays with the suspended task, and since there is never a second one, nobody takes the
message that has to wake the handler.

So the mailbox of an actor is served exactly as long as no message is in it while a handler is
suspended.  `KeepsClear` says which steps keep it so: the handler that suspends finds the mailbox
empty, and no push returns while it is suspended.

SOURCE: module/actor.cc:71-81, 126-154, module/actorComponent.cc:43-53, 86-95, api/socket.cc:125-135
-/

set_option autoImplicit false

namespace MagicNet.Mailbox

open MagicNet.Foundation

variable {H M : Type} [DecidableEq H] {s s' : State H M} {h : H}

/-! ## Suspended handlers -/

/-- A frame whose handler has yielded in `doWait`. -/
def Frame.isSuspended : Frame M → Bool
  | .suspended _ => true
  | .looking | .handling _ => false

/-- A handler of the actor is suspended. -/
def Actor.HasSuspended (a : Actor M) : Prop := ∃ f ∈ a.running, f.isSuspended = true

instance (a : Actor M) : Decidable a.HasSuspended :=
  inferInstanceAs (Decidable (∃ f ∈ a.running, f.isSuspended = true))

/-- A dispatch token of `h` other than the one the `i`-th running `dispatch` holds: the handle is
with the actor worker, or another task for it is pending or running. -/
def OtherToken (s : State H M) (h : H) (i : ℕ) : Prop :=
  h ∈ s.m_works ∨ s.dispatching = some h ∨ h ∈ s.tasks ∨
    ∃ j < (s.actors h).running.length, j ≠ i

/-- The suspended handlers of `h` do not block it: when every push has returned, a message in the
mailbox has a token that is not with a suspended handler. -/
def Unblocked (s : State H M) (h : H) : Prop :=
  ∀ i msg, (s.actors h).running[i]? = some (.suspended msg) →
    (s.actors h).m_mqs ≠ [] → (s.actors h).pushing = 0 → OtherToken s h i

/-- A message waits in the mailbox of an actor with a suspended handler, and no push is on its
way. -/
def Actor.Stuck (a : Actor M) : Prop := a.HasSuspended ∧ a.m_mqs ≠ [] ∧ a.pushing = 0

/-- The push about to return would leave no message behind with a handler suspended. -/
def Actor.LastPushClear (a : Actor M) : Prop :=
  a.m_mqs = [] ∨ 1 < a.pushing ∨ ¬ a.HasSuspended

instance (a : Actor M) : Decidable a.LastPushClear :=
  inferInstanceAs (Decidable (a.m_mqs = [] ∨ 1 < a.pushing ∨ ¬ a.HasSuspended))

/-- The condition on a step of the system: a handler of `h` suspends only while the mailbox is
empty or a push is on its way, and no push to `h` is the last to return while a message is in the
mailbox and a handler suspended. -/
def KeepsClear (h : H) (s : State H M) : Event H M → Prop
  | .suspend h' _ => h' = h → (s.actors h).m_mqs = [] ∨ 0 < (s.actors h).pushing
  | .post h' => h' = h → (s.actors h).m_inglobal = true → (s.actors h).LastPushClear
  | .mark h' => h' = h → (s.actors h).LastPushClear
  | _ => True

instance (h : H) (s : State H M) : ∀ e, Decidable (KeepsClear h s e)
  | .suspend h' _ =>
    inferInstanceAs (Decidable (h' = h → (s.actors h).m_mqs = [] ∨ 0 < (s.actors h).pushing))
  | .post h' =>
    inferInstanceAs
      (Decidable (h' = h → (s.actors h).m_inglobal = true → (s.actors h).LastPushClear))
  | .mark h' => inferInstanceAs (Decidable (h' = h → (s.actors h).LastPushClear))
  | .enqueue .. | .popWork | .createTask | .startTask _ | .pop .. | .repost .. | .resume ..
  | .setComponent _ => isTrue trivial

/-! ## The token of a suspended handler is the only one -/

/-- With another token beside the handler's there are two. -/
theorem otherToken_tokens {i : ℕ} (hi : i < (s.actors h).running.length)
    (hother : OtherToken s h i) : 2 ≤ tokens s h := by
  unfold tokens
  rcases hother with hw | hd | ht | ⟨j, hj, hne⟩
  · have : 0 < s.m_works.count h := List.count_pos_iff.mpr hw
    omega
  · have : 0 < s.dispatching.toList.count h := by simp [hd]
    omega
  · have : 0 < s.tasks.count h := List.count_pos_iff.mpr ht
    omega
  · omega

/-- With one token at most, an actor is blocked by its suspended handlers exactly when it is
stuck. -/
theorem unblocked_iff (htok : tokens s h ≤ 1) : Unblocked s h ↔ ¬ (s.actors h).Stuck := by
  constructor
  · rintro hun ⟨⟨f, hf, hsusp⟩, hq, hp⟩
    obtain ⟨i, hi⟩ := List.mem_iff_getElem?.mp hf
    cases f with
    | suspended msg =>
      have htwo := otherToken_tokens (running_pos hi) (hun i msg hi hq hp)
      omega
    | looking => simp [Frame.isSuspended] at hsusp
    | handling msg => simp [Frame.isSuspended] at hsusp
  · intro hstuck i msg hi hq hp
    exact absurd ⟨⟨_, List.mem_of_getElem? hi, rfl⟩, hq, hp⟩ hstuck

/-! ## One step -/

/-- A frame that is not suspended, put in the place of another, suspends no handler. -/
theorem hasSuspended_of_set {l : List (Frame M)} {i : ℕ} {f : Frame M}
    (hf : f.isSuspended = false) (hs : ∃ g ∈ l.set i f, g.isSuspended = true) :
    ∃ g ∈ l, g.isSuspended = true := by
  obtain ⟨g, hg, hsusp⟩ := hs
  rcases List.mem_or_eq_of_mem_set hg with hmem | rfl
  · exact ⟨g, hmem, hsusp⟩
  · simp [hf] at hsusp

/-- A suspended handler among the others is a suspended handler. -/
theorem hasSuspended_of_eraseIdx {l : List (Frame M)} {i : ℕ}
    (hs : ∃ g ∈ l.eraseIdx i, g.isSuspended = true) : ∃ g ∈ l, g.isSuspended = true := by
  obtain ⟨g, hg, hsusp⟩ := hs
  exact ⟨g, List.mem_of_mem_eraseIdx hg, hsusp⟩

/-- A pop takes a message and suspends nobody.
SOURCE: module/actor.cc:126-154 -/
theorem stuck_of_pop {a : Actor M} {i : ℕ} (hs : (dispatchPop a i).Stuck) : a.Stuck := by
  obtain ⟨hsusp, hq, hp⟩ := hs
  unfold dispatchPop at hsusp hq hp
  cases hmq : a.m_mqs with
  | nil => simp [hmq] at hq
  | cons msg rest =>
    cases hc : a.m_cpt <;> simp only [hmq, hc, if_true, if_false, Bool.false_eq_true] at hsusp hp
    · exact ⟨hsusp, by simp [hmq], hp⟩
    · exact ⟨hasSuspended_of_set rfl hsusp, by simp [hmq], hp⟩

/-- The return of a push. -/
theorem stuck_lastPush {a : Actor M} (b l : Bool) (hpos : 0 < a.pushing) :
    Actor.Stuck { a with m_inglobal := b, locked := l, pushing := a.pushing - 1 } ↔
      ¬ a.LastPushClear := by
  unfold Actor.Stuck Actor.LastPushClear Actor.HasSuspended
  simp only [not_or, not_not]
  constructor
  · rintro ⟨hsusp, hq, hp⟩
    exact ⟨hq, by omega, hsusp⟩
  · rintro ⟨hq, hp, hsusp⟩
    exact ⟨hsusp, hq, by omega⟩

/-- Where what is done to one actor does not leave it stuck, no actor is left so. -/
theorem stuck_of_set {t : State H M} {h' : H} {a : Actor M} (ht : t.actors = s.actors)
    (ha : a.Stuck → (s.actors h').Stuck) (hs : ((t.set h' a).actors h).Stuck) :
    (s.actors h).Stuck := by
  by_cases hh : h = h'
  · subst hh
    rw [set_actors_self] at hs
    exact ha hs
  · rw [set_actors_of_ne _ _ hh, ht] at hs
    exact hs

/-- What is done to another actor. -/
theorem stuck_of_set_ne {t : State H M} {h' : H} {a : Actor M} (ht : t.actors = s.actors)
    (hne : h' ≠ h) (hs : ((t.set h' a).actors h).Stuck) : (s.actors h).Stuck := by
  rw [set_actors_of_ne _ _ hne.symm, ht] at hs
  exact hs

/-- A step of an actor that is not stuck leaves it stuck exactly when it breaks the condition. -/
theorem stuck_step {e : Event H M} (hlock : (s.actors h).locked = true → 0 < (s.actors h).pushing)
    (hclear : ¬ (s.actors h).Stuck) (hs : step s e = some s') :
    (s'.actors h).Stuck ↔ ¬ KeepsClear h s e := by
  -- the steps that ask for nothing never leave an actor stuck that was not
  have hfree (himp : (s'.actors h).Stuck → (s.actors h).Stuck) (hk : KeepsClear h s e) :
      (s'.actors h).Stuck ↔ ¬ KeepsClear h s e := by
    constructor
    · intro hstuck
      exact absurd (himp hstuck) hclear
    · intro hbad
      exact absurd hk hbad
  cases e with
  | enqueue h' msg =>
    obtain ⟨-, rfl⟩ := step_enqueue.mp hs
    refine hfree (stuck_of_set rfl ?_) trivial
    rintro ⟨-, -, hp⟩
    simp at hp
  | post h' =>
    obtain ⟨⟨-, hpos⟩, ⟨hin, rfl⟩ | ⟨hin, rfl⟩⟩ := step_post.mp hs
    · by_cases hh : h' = h
      · subst hh
        have hlast := stuck_lastPush (a := s.actors h') (s.actors h').m_inglobal
          (s.actors h').locked hpos
        rw [set_actors_self, hlast]
        simp [KeepsClear, hin]
      · exact hfree (stuck_of_set_ne rfl hh) (fun heq => absurd heq hh)
    · refine hfree (stuck_of_set (t := s.doRegiserWork h') rfl ?_) ?_
      · rintro ⟨-, -, hp⟩
        change (s.actors h').pushing = 0 at hp
        omega
      · rintro rfl htrue
        simp [hin] at htrue
  | mark h' =>
    obtain ⟨hlk, rfl⟩ := step_mark.mp hs
    by_cases hh : h' = h
    · subst hh
      rw [set_actors_self, stuck_lastPush (a := s.actors h') true false (hlock hlk)]
      simp [KeepsClear]
    · exact hfree (stuck_of_set_ne rfl hh) (fun heq => absurd heq hh)
  | popWork =>
    obtain ⟨-, h', rest, -, rfl⟩ := step_popWork.mp hs
    exact hfree id trivial
  | createTask =>
    obtain ⟨h', -, rfl⟩ := step_createTask.mp hs
    exact hfree id trivial
  | startTask h' =>
    obtain ⟨-, rfl⟩ := step_startTask.mp hs
    refine hfree (stuck_of_set (t := { s with tasks := s.tasks.erase h' }) rfl ?_) trivial
    rintro ⟨⟨f, hf, hsusp⟩, hq, hp⟩
    rcases List.mem_append.mp hf with hmem | hlook
    · exact ⟨⟨f, hmem, hsusp⟩, hq, hp⟩
    · rw [List.mem_singleton.mp hlook] at hsusp
      simp [Frame.isSuspended] at hsusp
  | pop h' i =>
    obtain ⟨-, -, rfl⟩ := step_pop.mp hs
    exact hfree (stuck_of_set rfl stuck_of_pop) trivial
  | repost h' i =>
    obtain ⟨-, rfl⟩ := step_repost.mp hs
    refine hfree (stuck_of_set (t := s.doRegiserWork h') rfl ?_) trivial
    rintro ⟨hsusp, hq, hp⟩
    exact ⟨hasSuspended_of_eraseIdx hsusp, hq, hp⟩
  | suspend h' i =>
    obtain ⟨msg, hi, rfl⟩ := step_suspend.mp hs
    by_cases hh : h' = h
    · subst hh
      have hsusp : ∃ f ∈ (s.actors h').running.set i (.suspended msg), f.isSuspended = true :=
        ⟨_, List.mem_set (running_pos hi) _, rfl⟩
      rw [set_actors_self]
      simp only [Actor.Stuck, Actor.HasSuspended, KeepsClear, hsusp]
      simp only [true_and, true_implies, not_or, Nat.pos_iff_ne_zero, not_not, ne_eq]
    · exact hfree (stuck_of_set_ne rfl hh) (fun heq => absurd heq hh)
  | resume h' i =>
    obtain ⟨msg, -, rfl⟩ := step_resume.mp hs
    refine hfree (stuck_of_set rfl ?_) trivial
    rintro ⟨hsusp, hq, hp⟩
    exact ⟨hasSuspended_of_set (f := .handling msg) rfl hsusp, hq, hp⟩
  | setComponent h' =>
    obtain rfl := step_setComponent.mp hs
    exact hfree (stuck_of_set rfl id) trivial

/-! ## Runs -/

/-- What the runs keep of an actor: its view is one the protocol reaches, and it is not stuck. -/
def Clear (h : H) (s : State H M) : Prop :=
  Activation.Inv (view h s) ∧ ¬ (s.actors h).Stuck

/-- A step keeps the invariant of an actor's activation. -/
theorem inv_view_step {e : Event H M} (hinv : Activation.Inv (view h s))
    (hs : step s e = some s') : Activation.Inv (view h s') :=
  Activation.run_inv hinv (step_view h s e s' hs)

/-- **Suspended handlers.**  All along a run, the suspended handlers of an actor leave it unblocked
exactly when none of them suspends with a message in the mailbox, and no push is the last to return
while one is suspended and a message in the mailbox.
SOURCE: module/actor.cc:71-81, 126-154, module/actorComponent.cc:43-53, api/socket.cc:125-135 -/
theorem suspended_handler_unblocked (H M : Type) [DecidableEq H] (h : H) (es : List (Event H M))
    (s : State H M) (hrun : (system H M).run (start H M) es = some s) :
    (∀ fs t, fs <+: es → (system H M).run (start H M) fs = some t → Unblocked t h) ↔
      (system H M).Meets (KeepsClear h) (start H M) es := by
  apply System.throughout_iff_meets (I := Clear h) (P := fun t => Unblocked t h) _ _ _ _ hrun
  · rintro t ⟨hinv, hclear⟩
    exact (unblocked_iff hinv.single).mpr hclear
  · rintro t e t' ⟨hinv, hclear⟩ hk hs
    refine ⟨inv_view_step hinv hs, ?_⟩
    rw [stuck_step (fun hl => (hinv.locked hl).2.2) hclear hs]
    exact not_not.mpr hk
  · rintro t e t' ⟨hinv, hclear⟩ hk hs
    rw [unblocked_iff (inv_view_step hinv hs).single, not_not]
    exact (stuck_step (fun hl => (hinv.locked hl).2.2) hclear hs).mpr hk
  · refine ⟨?_, ?_⟩
    · rw [view_start]
      exact Activation.inv_start
    · rintro ⟨-, hq, -⟩
      exact hq rfl

/-- A handler suspends with nothing in the mailbox and goes on before the next push.
SOURCE: module/actor.cc:31-69, 71-81, 126-154, module/actorWorker.cc:20-45,
module/actorComponent.cc:86-95 -/
theorem suspended_handler_unblocked_resumed : ∃ s, (system ℕ ℕ).run (start ℕ ℕ)
    [.setComponent 1, .enqueue 1 5, .post 1, .mark 1, .popWork, .createTask, .startTask 1, .pop 1 0,
      .suspend 1 0, .resume 1 0, .enqueue 1 6, .post 1] = some s ∧ Unblocked s 1 := by
  refine ⟨_, rfl, (suspended_handler_unblocked ℕ ℕ 1
    [.setComponent 1, .enqueue 1 5, .post 1, .mark 1, .popWork, .createTask, .startTask 1, .pop 1 0,
      .suspend 1 0, .resume 1 0, .enqueue 1 6, .post 1] _ rfl).mpr ?_ _ _ (List.prefix_refl _) rfl⟩
  decide

/-- A handler suspends, and the message that is to wake it is pushed: the push finds `m_inglobal`
set, and the only token is with the suspended handler. -/
theorem suspended_handler_blocks : ¬ ∀ (h : ℕ) (es : List (Event ℕ ℕ)) (s : State ℕ ℕ),
    (system ℕ ℕ).run (start ℕ ℕ) es = some s → Unblocked s h := by
  intro hall
  have hother := hall 1
    [.setComponent 1, .enqueue 1 5, .post 1, .mark 1, .popWork, .createTask, .startTask 1, .pop 1 0,
      .suspend 1 0, .enqueue 1 6, .post 1] _ rfl 0 5 rfl (by decide) rfl
  rcases hother with hw | hd | ht | ⟨j, hj, hne⟩
  · revert hw
    decide
  · revert hd
    decide
  · revert ht
    decide
  · exact hne (Nat.lt_one_iff.mp hj)

end MagicNet.Mailbox
