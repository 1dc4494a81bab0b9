import MagicNet.Model.Sessions

/-!
# When the sessions are fresh

The call number `n` takes the session `(n - 1) mod (2^31 - 1) + 1`.  As long as all sessions are
fresh, an entry was made less than 2^31 - 1 calls ago, so there is one call only that finds it in its
way: the one that takes the same session next.
-/

set_option autoImplicit false

namespace MagicNet.Sessions

open MagicNet.Foundation MagicNet.Component

variable {s s' : State} {e : Event}

/-! ## The sessions in turn -/

/-- The session of the call `n`, and 0 before the first call. -/
def sessionOf (n : ℕ) : ℤ := if n = 0 then 0 else ((n - 1) % sessions + 1 : ℕ)

/-- A session is positive.
SOURCE: module/actorComponent.cc:69-79 -/
theorem sessionOf_pos {n : ℕ} (h : n ≠ 0) : 0 < sessionOf n := by
  rw [sessionOf, if_neg h]
  omega

/-- There are `2 ^ 31 - 1` of them. -/
theorem sessions_eq : sessions = 2147483647 := by norm_num [sessions]

/-- **`genSession`** goes from one session to the next, and from the last to the first.
SOURCE: module/actorComponent.cc:69-79 -/
theorem genSession_sessionOf (n : ℕ) : genSession (sessionOf n) = sessionOf (n + 1) := by
  have hsucc : sessionOf (n + 1) = (n % sessions + 1 : ℕ) := by
    rw [sessionOf, if_neg (Nat.succ_ne_zero n), Nat.add_sub_cancel]
  rw [hsucc, genSession]
  by_cases hn : n = 0
  · subst hn
    decide
  · rw [sessionOf, if_neg hn, sessions_eq, Int.bmod_def]
    split_ifs <;> omega

/-- Two calls that are less than a round apart take the same session only if they are the same. -/
theorem sessionOf_eq_iff {m n : ℕ} (hm : m ≠ 0) (hmn : m < n) (hround : n ≤ m + sessions) :
    sessionOf m = sessionOf n ↔ n = m + sessions := by
  rw [sessionOf, sessionOf, if_neg hm, if_neg (by omega)]
  rw [sessions_eq] at *
  omega

/-! ## The entries -/

/-- The sessions are taken in turn, and an entry is under the session of the call that has made it,
less than a round ago. -/
structure Inv (s : State) : Prop where
  session : s.cpt.m_session = sessionOf s.calls
  entries : ∀ session ∈ s.cpt.m_suspedSession, s.made session ≠ 0 ∧
    sessionOf (s.made session) = session ∧ s.made session ≤ s.calls ∧
      s.calls < s.made session + sessions

/-- The next session is that of the next call.
SOURCE: module/actorComponent.cc:69-79 -/
theorem Inv.next (h : Inv s) : s.next = sessionOf (s.calls + 1) := by
  rw [State.next, h.session, genSession_sessionOf]

/-- At the start no session has been made. -/
theorem inv_of_starts (h : Starts s) : Inv s := by
  obtain ⟨m_entryId, hcpt⟩ := h.cpt
  constructor
  · rw [hcpt, h.calls]
    rfl
  · rw [hcpt]
    intro session hmem
    exact absurd hmem (AList.notMem_empty session)

/-- **The session is in the table** exactly when an entry is left that was made a round ago. -/
theorem next_mem_iff (h : Inv s) : s.next ∈ s.cpt.m_suspedSession ↔
    ∃ session ∈ s.cpt.m_suspedSession, s.made session + sessions = s.calls + 1 := by
  constructor
  · intro hmem
    obtain ⟨hne, hof, hle, hlt⟩ := h.entries _ hmem
    rw [h.next] at hof hmem hne hle hlt
    refine ⟨_, hmem, ?_⟩
    have hround := (sessionOf_eq_iff hne (by omega) (by omega)).mp hof
    exact hround.symm
  · rintro ⟨session, hmem, hround⟩
    obtain ⟨hne, hof, hle, hlt⟩ := h.entries _ hmem
    have hsame := (sessionOf_eq_iff hne (by omega) hround.ge).mpr hround.symm
    rw [h.next, ← hsame, hof]
    exact hmem

/-- The condition, where a step takes a session: the next one is not waited for. -/
theorem cond_iff (h : Inv s) (he : Takes e) : Cond s e ↔ s.next ∉ s.cpt.m_suspedSession := by
  rw [next_mem_iff h]
  constructor
  · rintro hc ⟨session, hmem, hround⟩
    exact hc he session hmem hround
  · intro hnot _ session hmem hround
    exact hnot ⟨session, hmem, hround⟩

/-! ## The steps of a component -/

section Component

variable {c c' : Component.State}

/-- Removing a session adds none.
SOURCE: module/actorComponent.cc:130-144 -/
theorem mem_removeSusped {session k : ℤ} (h : k ∈ (c.removeSusped session).m_suspedSession) :
    k ∈ c.m_suspedSession := (AList.mem_erase.mp h).2

/-- Waking a coroutine leaves the sessions.
SOURCE: module/actorComponent.cc:55-65 -/
theorem wakeup_frame (entry : Option ℕ) : (c.wakeup entry).m_session = c.m_session ∧
    (c.wakeup entry).m_suspedSession = c.m_suspedSession := by
  unfold State.wakeup
  cases entry with
  | none => exact ⟨rfl, rfl⟩
  | some entry =>
    simp only
    split <;> exact ⟨rfl, rfl⟩

/-- A step that takes no session enters none either. -/
theorem step_frame (hs : Component.step c e = some c') (he : ¬ Takes e) :
    c'.m_session = c.m_session ∧ ∀ k ∈ c'.m_suspedSession, k ∈ c.m_suspedSession := by
  cases e with
  | doWait | doTimeout => exact absurd trivial he
  | genEntryId =>
    cases hs
    exact ⟨rfl, fun k hk => hk⟩
  | doWakeup co =>
    cases hs
    unfold State.doWakeup
    split
    · exact ⟨rfl, fun k hk => hk⟩
    · obtain ⟨hsession, htable⟩ := wakeup_frame (c := c) co._entry
      exact ⟨hsession, fun k hk => htable ▸ hk⟩
  | resoue session =>
    cases hs
    unfold State.resoueDispatch
    split
    · exact ⟨rfl, fun k hk => hk⟩
    · split
      · exact ⟨rfl, fun k hk => mem_removeSusped hk⟩
      · next entry _ =>
        split
        · exact ⟨rfl, fun k hk => mem_removeSusped hk⟩
        · obtain ⟨hsession, htable⟩ := wakeup_frame (c := c.removeSusped session) (some entry)
          exact ⟨hsession, fun k hk => mem_removeSusped (htable ▸ hk)⟩
  | timeout session =>
    cases hs
    unfold State.timeoutDispatch
    split
    · exact ⟨rfl, fun k hk => hk⟩
    · split
      · exact ⟨rfl, fun k hk => hk⟩
      · exact ⟨rfl, fun k hk => hk⟩
  | error session =>
    cases hs
    unfold State.errorDispatch
    split
    · exact ⟨rfl, fun k hk => hk⟩
    · next co _ =>
      obtain ⟨hsession, htable⟩ :=
        wakeup_frame (c := (c.removeSleepSusped co._id).removeSusped session) co._entry
      exact ⟨hsession, fun k hk => (AList.mem_erase.mp (htable ▸ hk)).2⟩
  | resume i =>
    obtain ⟨w, -, -, rfl⟩ := step_resume.mp hs
    exact ⟨rfl, fun k hk => hk⟩
  | doReturn i =>
    obtain ⟨w, -, -, rfl⟩ := step_doReturn.mp hs
    exact ⟨rfl, fun k hk => (AList.mem_erase.mp hk).2⟩
  | callbackReturn session =>
    obtain ⟨-, rfl⟩ := step_callbackReturn.mp hs
    exact ⟨rfl, fun k hk => (AList.mem_erase.mp hk).2⟩

/-- The counter and the table when the session is free.
SOURCE: module/actorComponent.cc:69-79, 97-111 -/
theorem step_takes (hs : Component.step c e = some c') (he : Takes e)
    (hfree : c.getSusped (genSession c.m_session) = none) :
    c'.m_session = genSession c.m_session ∧
      ∃ co, c'.m_suspedSession = c.m_suspedSession.insert (genSession c.m_session) co := by
  have hlookup : c.m_suspedSession.lookup (genSession c.m_session) = none := hfree
  cases e with
  | doWait =>
    cases hs
    simp only [State.doWait, State.insertSusped, State.insertSleepSusped, hlookup]
    exact ⟨trivial, _, rfl⟩
  | doTimeout func =>
    cases hs
    simp only [State.doTimeout, State.insertSusped, hlookup]
    exact ⟨trivial, _, rfl⟩
  | _ => exact absurd he id

/-- `doWait` stays, and its coroutine is not woken yet.
SOURCE: module/actorComponent.cc:43-53, 69-79, 97-111 -/
theorem doWait_waits (hfree : c.getSusped (genSession c.m_session) = none) :
    ∃ w, c.doWait.waiting = c.waiting ++ [w] ∧ w.session = genSession c.m_session ∧
      c.doWait.phase w.entry = .blocked := by
  have hlookup : c.m_suspedSession.lookup (genSession c.m_session) = none := hfree
  simp [State.doWait, State.insertSusped, State.insertSleepSusped, hlookup]

/-- A timer takes no entry out.
SOURCE: module/actorComponent.cc:29-41 -/
theorem mem_doTimeout {k : ℤ} {func : Bool} (h : k ∈ c.m_suspedSession) :
    k ∈ (c.doTimeout func).m_suspedSession := by
  simp only [State.doTimeout, State.insertSusped]
  cases c.m_suspedSession.lookup (genSession c.m_session) with
  | none => exact (AList.mem_insert _).mpr (.inr h)
  | some co => exact h

end Component

/-! ## Runs -/

/-- What a step does to the component, to the count of calls and to the marks.
SOURCE: module/actorComponent.cc:97-111 -/
theorem step_eq (hs : step s e = some s') : Component.step s.cpt e = some s'.cpt ∧
    (¬ Takes e → s'.calls = s.calls ∧ s'.made = s.made) ∧
    (Takes e → s'.calls = s.calls + 1 ∧ s'.made = if s.cpt.getSusped s.next = none then
      Function.update s.made s.next (s.calls + 1) else s.made) := by
  simp only [step, Option.bind_eq_bind, Option.bind_eq_some_iff] at hs
  obtain ⟨cpt, hcpt, hs⟩ := hs
  split at hs
  · next he =>
    cases hs
    exact ⟨hcpt, fun hnot => absurd he hnot, fun _ => ⟨rfl, rfl⟩⟩
  · next he =>
    cases hs
    exact ⟨hcpt, fun _ => ⟨rfl, rfl⟩, fun hyes => absurd hyes he⟩

/-- **A step that finds its session free** keeps the entries less than a round old. -/
theorem step_inv (h : Inv s) (hc : Cond s e) (hs : step s e = some s') : Inv s' := by
  obtain ⟨hcpt, hother, htakes⟩ := step_eq hs
  by_cases he : Takes e
  · obtain ⟨hcalls, hmade⟩ := htakes he
    have hfresh := (cond_iff h he).mp hc
    have hfree : s.cpt.getSusped s.next = none := AList.lookup_eq_none.mpr hfresh
    obtain ⟨hsession, co, htable⟩ := step_takes hcpt he hfree
    rw [if_pos hfree] at hmade
    constructor
    · rw [hsession, hcalls, h.session, genSession_sessionOf]
    · intro session hmem
      rw [htable] at hmem
      rw [hmade, hcalls]
      by_cases heq : session = s.next
      · subst heq
        rw [Function.update_self]
        have hpos : 0 < sessions := by decide
        exact ⟨Nat.succ_ne_zero _, h.next.symm, le_refl _, by omega⟩
      · rw [Function.update_of_ne heq]
        have hold := ((AList.mem_insert _).mp hmem).resolve_left heq
        obtain ⟨hne, hof, hle, hlt⟩ := h.entries session hold
        have hround := hc he session hold
        exact ⟨hne, hof, by omega, by omega⟩
  · obtain ⟨hcalls, hmade⟩ := hother he
    obtain ⟨hsession, hkeys⟩ := step_frame hcpt he
    constructor
    · rw [hsession, hcalls]
      exact h.session
    · intro session hmem
      rw [hmade, hcalls]
      exact h.entries session (hkeys session hmem)

/-- Within the condition a step gives out a session nobody waits for. -/
theorem step_fresh (h : Inv s) (hc : Cond s e) (hs : step s e = some s') : Fresh s e s' := by
  obtain ⟨hcpt, -, -⟩ := step_eq hs
  refine ⟨fun he => ?_, ?_, ?_⟩
  · have hnot := (cond_iff h he).mp hc
    refine ⟨?_, hnot, ?_⟩
    · rw [h.next]
      exact sessionOf_pos (Nat.succ_ne_zero _)
    · simp [Component.State.insertSusped, AList.lookup_eq_none.mpr hnot]
  · rintro rfl
    have hfree : s.cpt.getSusped s.next = none :=
      AList.lookup_eq_none.mpr ((cond_iff (e := .doWait) h trivial).mp hc)
    obtain ⟨w, hw, hsession, hphase⟩ := doWait_waits hfree
    have hcpt' : s'.cpt = s.cpt.doWait := (Option.some.inj hcpt).symm
    rw [hcpt']
    exact ⟨w, hw, hsession, hphase⟩
  · rintro i w rfl hw
    obtain ⟨w', hw', hphase, -⟩ := step_doReturn.mp hcpt
    obtain rfl : w = w' := Option.some.inj (hw.symm.trans hw')
    exact hphase

/-- Runs that give out only such sessions are the runs within the condition. -/
theorem always_fresh_iff {s₀ : State} {es : List Event} (h0 : Inv s₀)
    (hrun : system.run s₀ es = some s) :
    system.Always Fresh s₀ es ↔ system.Meets Cond s₀ es := by
  apply System.always_iff_meets (I := Inv) _ _ h0 hrun
  · intro s e s' h hc hs
    exact ⟨step_fresh h hc hs, step_inv h hc hs⟩
  · intro s e s' h hc _ hfresh
    by_cases he : Takes e
    · exact hc ((cond_iff h he).mpr (hfresh.session he).2.1)
    · exact hc fun htakes => absurd htakes he

/-- **Sessions are fresh** in a run of a component, of any length, exactly when no `doWait` or
`doTimeout` comes while the table still has the entry of the call made 2^31 - 1 such calls before.
SOURCE: module/actorComponent.cc:29-53, 69-128 -/
theorem sessions_fresh {s₀ : State} {es : List Event} (h0 : Starts s₀)
    (hrun : system.run s₀ es = some s) :
    system.Always Fresh s₀ es ↔ system.Meets Cond s₀ es :=
  always_fresh_iff (inv_of_starts h0) hrun

/-- A component just created. -/
def start : State := ⟨Component.start 0, 0, fun _ => 0⟩

/-- A component just made. -/
theorem start_starts : Starts start := ⟨⟨0, rfl⟩, rfl⟩

/-- A coroutine that waits while a timer is set and runs out, and is woken.
SOURCE: module/actorComponent.cc:29-41, 43-53 -/
theorem sessions_fresh_timer : system.Always Fresh start
    [.doWait, .doTimeout true, .timeout 2, .callbackReturn 2, .resoue 1, .resume 0, .doReturn 0] :=
  (sessions_fresh start_starts rfl).mpr (by decide)

/-- Any number of timers that come while a coroutine waits in session 1.
SOURCE: module/actorComponent.cc:29-41, 43-53 -/
theorem exists_timers (n : ℕ) : ∃ s, system.run start (.doWait :: .replicate n (.doTimeout true)) =
    some s ∧ s.calls = n + 1 ∧ 1 ∈ s.cpt.m_suspedSession ∧ s.made 1 = 1 := by
  induction n with
  | zero => exact ⟨_, rfl, rfl, by decide, rfl⟩
  | succ n ih =>
    obtain ⟨s, hrun, hcalls, hmem, hmade⟩ := ih
    obtain ⟨s', hs⟩ : ∃ s', system.step s (.doTimeout true) = some s' := ⟨_, rfl⟩
    obtain ⟨hcpt, -, htakes⟩ := step_eq hs
    obtain ⟨hcalls', hmade'⟩ := htakes trivial
    have hcpt' : s'.cpt = s.cpt.doTimeout true := (Option.some.inj hcpt).symm
    refine ⟨s', ?_, by omega, hcpt' ▸ mem_doTimeout hmem, ?_⟩
    · rw [List.replicate_succ', ← List.cons_append, System.run_append, hrun]
      exact (System.run_singleton s _).trans hs
    · rw [hmade']
      split
      · next hfree =>
        have hne : (1 : ℤ) ≠ s.next := by
          intro heq
          rw [← heq] at hfree
          exact AList.lookup_eq_none.mp hfree hmem
        rw [Function.update_of_ne hne]
        exact hmade
      · exact hmade

/-- The timer that takes session 1 again while the coroutine still waits in it. -/
theorem session_repeated : ¬ ∀ (s₀ s : State) (es : List Event), Starts s₀ →
    system.run s₀ es = some s → system.Always Fresh s₀ es := by
  intro hall
  obtain ⟨s, hrun, hcalls, hmem, hmade⟩ := exists_timers (sessions - 1)
  obtain ⟨s', hs⟩ : ∃ s', system.step s (.doTimeout true) = some s' := ⟨_, rfl⟩
  have hlonger : system.run start ((.doWait :: .replicate (sessions - 1) (.doTimeout true)) ++
      [.doTimeout true]) = some s' := by
    rw [System.run_append, hrun]
    exact (System.run_singleton s _).trans hs
  have hmeets := (always_fresh_iff (inv_of_starts start_starts) hlonger).mp
    (hall start s' _ start_starts hlonger)
  have hlast := (System.meets_append.mp hmeets).2 s hrun
  apply hlast.1 trivial 1 (AList.mem_keys.mp hmem)
  have hpos : 0 < sessions := by decide
  omega

end MagicNet.Sessions
