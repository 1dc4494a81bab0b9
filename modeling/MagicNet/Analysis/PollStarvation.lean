import MagicNet.Model.Poll

/-!
# When the poll loop starves a command

`doWait` clears `m_controlCtrl` the first time it finds the pipe empty, and nothing sets it
again: `doRest` is never called.  A command that is in the pipe when a later `onWait` returns is
never read.  A second way to wait with a command unread is a handler that reports a closed slot:
`doProccess` then leaves `m_error` as it was, and at the start nothing has set it yet.
-/

set_option autoImplicit false

namespace MagicNet.Poll

open MagicNet.Foundation MagicNet.Network

variable {s s' : State}

/-- The poll thread is about to call `m_iocp->onWait`. -/
def CallsOnWait (s : State) : Prop := s.pc = .wait ∧ s.idx = s.n

/-- `doPoll` does not take the value of `m_error` for "no command was read". -/
def KnownError (m_error : ℤ) : Prop := m_error = CH_EINTR ∨ m_error = CH_ERROR ∨ m_error = CH_EXIT

/-- The commands after which `m_error` keeps its value when the handler reports a closed slot. -/
def KeepsError (command : Command) : Prop :=
  command = .D ∨ command = .P ∨ command = .K ∨ command = .C

/-- The condition on a step: a batch comes with the flag set or the pipe empty, and a command
whose handler reports a closed slot finds a known `m_error`, or events left to handle, or no
older command behind it. -/
structure Cond (s : State) (e : Event) : Prop where
  rearmed : (∃ batch, e = .onWait batch) ∨ (∃ interrupted, e = .onWaitFails interrupted) →
    s.m_controlCtrl = true ∨ s.pipe = []
  reported : ∀ gone command rest, e = .doWait (.closed gone) → s.m_controlCtrl = true →
    s.pipe = command :: rest → KeepsError command →
      KnownError s.m_error ∨ s.idx ≠ s.n ∨ s.stale ≤ 1

/-! ## The invariant -/

/-- What holds between the steps of a run that meets the condition. -/
structure Inv (s : State) : Prop where
  cleared : s.m_controlCtrl = false → s.stale = 0
  called : CallsOnWait s → s.stale = 0
  stale : s.stale ≤ s.pipe.length

/-- The value `doProccess` leaves in `m_error`.
SOURCE: network/socketChannel.cc:126-188 -/
theorem doProccess_error {t : State} {ret : Ret} {command : Command}
    (h : doProccess s ret command = some t) : KnownError t.m_error ∨
      t.m_error = s.m_error ∧ KeepsError command ∧ ∃ gone, ret = .closed gone := by
  have hreported : ∀ {s t : State}, reported s ret = some t → t.m_error = CH_EINTR ∨
      t.m_error = s.m_error ∧ ∃ gone, ret = .closed gone := by
    intro s t h
    cases ret with
    | «open» =>
      simp only [reported, Option.some.injEq] at h
      exact .inl (by rw [← h])
    | closed gone =>
      simp only [reported, Option.map_eq_some_iff] at h
      obtain ⟨m_evts, -, rfl⟩ := h
      exact .inr ⟨rfl, gone, rfl⟩
  cases command <;> simp only [doProccess] at h
  case S => cases h
  case X =>
    rw [Option.some.injEq] at h
    exact .inl (.inr (.inr (by rw [← h])))
  case T =>
    rcases hreported h with herr | ⟨herr, -⟩
    · exact .inl (.inl herr)
    · exact .inl (.inl herr)
  case other =>
    simp only [reported, Option.some.injEq] at h
    exact .inl (.inl (by rw [← h]))
  all_goals
    rcases hreported h with herr | ⟨herr, hret⟩
    · exact .inl (.inl herr)
    · exact .inr ⟨herr, by simp [KeepsError], hret⟩

/-- After a known error the loop does not go on to the events. -/
theorem afterWait_of_known (h : KnownError s.m_error) : (afterWait s).pc ≠ .wait := by
  unfold afterWait
  rcases h with h | h | h <;> simp [h, CH_EINTR, CH_ERROR, CH_EXIT]

/-- `doWait` keeps the invariant.
SOURCE: network/socketChannel.cc:111-124 -/
theorem doWait_inv {ret : Ret} (h : Inv s) (hc : Cond s (.doWait ret)) :
    Inv (doWait s ret) := by
  unfold doWait
  split
  · next hflag => exact ⟨h.cleared, fun _ => h.cleared hflag, h.stale⟩
  · next hflag =>
    have hset : s.m_controlCtrl = true := by simpa using hflag
    split
    · next hpipe =>
      have hnone : s.stale = 0 := by
        have := h.stale
        simpa [hpipe] using this
      exact ⟨fun _ => hnone, fun _ => hnone, h.stale⟩
    · next command rest hpipe =>
      have hstale : s.stale - 1 ≤ rest.length := by
        have := h.stale
        rw [hpipe, List.length_cons] at this
        omega
      split
      · next t ht =>
        obtain ⟨htpipe, htflag, htstale, htidx, htn⟩ := doProccess_frame ht
        simp only at htpipe htflag htstale htidx htn
        refine ⟨fun hcleared => ?_, fun hcalls => ?_, ?_⟩
        · have : s.m_controlCtrl = false := htflag ▸ hcleared
          exact absurd this (by simp [hset])
        · -- the loop goes on only after a report that leaves an unknown error
          show t.stale = 0
          rcases doProccess_error ht with hknown | ⟨herr, hkeeps, gone, rfl⟩
          · exact absurd hcalls.1 (afterWait_of_known hknown)
          · rcases hc.reported gone command rest rfl hset hpipe hkeeps with hknown | hidx | hold
            · exact absurd hcalls.1 (afterWait_of_known (herr ▸ hknown))
            · have heq : t.idx = t.n := hcalls.2
              rw [htidx, htn] at heq
              exact absurd heq hidx
            · omega
        · show t.stale ≤ t.pipe.length
          rw [htstale, htpipe]
          exact hstale
      · exact ⟨fun hcleared => absurd hcleared (by simp [hset]), fun hcalls => absurd hcalls.1
          (by simp), hstale⟩

/-- **One step under the condition keeps the invariant.** -/
theorem step_inv {e : Event} (h : Inv s) (hc : Cond s e) (hs : step s e = some s') : Inv s' := by
  cases e with
  | arrive command =>
    obtain rfl := step_arrive.mp hs
    refine ⟨h.cleared, h.called, ?_⟩
    have := h.stale
    simp only [List.length_append]
    omega
  | doWait ret =>
    obtain ⟨-, rfl⟩ := step_doWait.mp hs
    exact doWait_inv h hc
  | skip =>
    obtain ⟨-, rfl⟩ := step_skip.mp hs
    exact ⟨h.cleared, fun hcalls => absurd hcalls.1 (by simp), h.stale⟩
  | onWait batch =>
    obtain ⟨-, hpc, hpipe, hflag, hstale⟩ := step_onWait hs
    refine ⟨fun hcleared => ?_, fun hcalls => absurd hcalls.1 (by simp [hpc]), ?_⟩
    · rcases hc.rearmed (.inl ⟨batch, rfl⟩) with hset | hempty
      · exact absurd hcleared (by simp [hflag, hset])
      · rw [hstale, hempty]
        rfl
    · rw [hstale, hpipe]
  | onWaitFails interrupted =>
    obtain ⟨-, rfl⟩ := step_onWaitFails.mp hs
    refine ⟨fun hcleared => ?_, fun hcalls => ?_, le_rfl⟩
    · rcases hc.rearmed (.inr ⟨interrupted, rfl⟩) with hset | hempty
      · exact absurd hcleared (by simp [hset])
      · simp [hempty]
    · have := hcalls.1
      cases interrupted <;> simp at this
  | getEvent state lost =>
    obtain ⟨-, rfl⟩ := step_getEvent.mp hs
    obtain ⟨hpc, hpipe, hflag, hstale⟩ := getEvent_frame s state lost
    refine ⟨fun hcleared => ?_, fun hcalls => absurd hcalls.1 hpc, ?_⟩
    · rw [hstale]
      exact h.cleared (hflag ▸ hcleared)
    · rw [hstale, hpipe]
      exact h.stale

/-- The invariant holds in every run whose steps meet the condition. -/
theorem inv_of_via (h : system.Via Cond s) : Inv s := by
  refine h.invariant (I := Inv) ?_ (fun s e s' hI hg hs => step_inv hI hg hs)
  intro t ht
  exact ⟨fun _ => ht.stale, fun _ => ht.stale, by rw [ht.stale]; exact Nat.zero_le _⟩

/-! ## The commands that are starved -/

/-- The flag is cleared and an old command is in the pipe. -/
def Starved (s : State) : Prop := s.m_controlCtrl = false ∧ 0 < s.stale ∧ s.stale ≤ s.pipe.length

/-- A starved command stays. -/
theorem step_starved {e : Event} (h : Starved s) (hs : step s e = some s') : Starved s' := by
  obtain ⟨hflag, hpos, hle⟩ := h
  cases e with
  | arrive command =>
    obtain rfl := step_arrive.mp hs
    refine ⟨hflag, hpos, ?_⟩
    simp only [List.length_append]
    omega
  | doWait ret =>
    obtain ⟨-, rfl⟩ := step_doWait.mp hs
    unfold doWait
    rw [if_pos hflag]
    exact ⟨hflag, hpos, hle⟩
  | skip =>
    obtain ⟨-, rfl⟩ := step_skip.mp hs
    exact ⟨hflag, hpos, hle⟩
  | onWait batch =>
    obtain ⟨-, -, hpipe, hflag', hstale⟩ := step_onWait hs
    exact ⟨hflag'.trans hflag, by omega, by rw [hstale, hpipe]⟩
  | onWaitFails interrupted =>
    obtain ⟨-, rfl⟩ := step_onWaitFails.mp hs
    exact ⟨hflag, hpos.trans_le hle, le_rfl⟩
  | getEvent state lost =>
    obtain ⟨-, rfl⟩ := step_getEvent.mp hs
    obtain ⟨-, hpipe, hflag', hstale⟩ := getEvent_frame s state lost
    exact ⟨hflag'.trans hflag, hstale ▸ hpos, by rw [hstale, hpipe]; exact hle⟩

/-- A loop that is starved is so for ever.
SOURCE: network/socketSystem.cc:822-917 -/
theorem run_starved {es : List Event} (h : Starved s) (hrun : system.run s es = some s') :
    Starved s' := by
  induction es generalizing s with
  | nil =>
    obtain rfl : s = s' := by simpa using hrun
    exact h
  | cons e es ih =>
    obtain ⟨t, ht, hrest⟩ := Option.bind_eq_some_iff.mp hrun
    exact ih (step_starved h ht) hrest

/-- A batch that comes with the flag cleared and a command in the pipe starves the command.
SOURCE: network/socketSystem.cc:822-917 -/
theorem unarmed_starves {e : Event} (hs : step s e = some s')
    (he : (∃ batch, e = .onWait batch) ∨ ∃ interrupted, e = .onWaitFails interrupted)
    (hflag : s.m_controlCtrl = false) (hpipe : s.pipe ≠ []) : Starved s' := by
  have hpos : 0 < s.pipe.length := List.length_pos_iff.mpr hpipe
  rcases he with ⟨batch, rfl⟩ | ⟨interrupted, rfl⟩
  · obtain ⟨-, -, hpipe', hflag', hstale⟩ := step_onWait hs
    exact ⟨hflag'.trans hflag, by omega, by rw [hstale, hpipe']⟩
  · obtain ⟨-, rfl⟩ := step_onWaitFails.mp hs
    exact ⟨hflag, hpos, le_rfl⟩

/-! ## The poll loop -/

/-- **Starvation in the poll loop.**  In every run whose steps meet the condition, no command
that was in the pipe when the last `onWait` returned is unread when `onWait` is called; and once
a batch has come with the flag cleared and a command in the pipe, every later call of `onWait`
is made with such a command unread.
SOURCE: network/socketSystem.cc:822-847, network/socketChannel.cc:111-124 -/
theorem no_starvation (s : State) (h : system.Via Cond s) :
    (CallsOnWait s → s.stale = 0) ∧
      ∀ e s', system.step s e = some s' →
        (∃ batch, e = .onWait batch) ∨ (∃ interrupted, e = .onWaitFails interrupted) →
          ¬ (s.m_controlCtrl = true ∨ s.pipe = []) →
            ∀ es s'', system.run s' es = some s'' → CallsOnWait s'' → s''.stale ≠ 0 := by
  constructor
  · exact (inv_of_via h).called
  · intro e s' hs he hunarmed es s'' hrun _
    rw [not_or] at hunarmed
    have hstarved := unarmed_starves hs he (by simpa using hunarmed.1) hunarmed.2
    have hpos := (run_starved hstarved hrun).2.1
    omega

/-- A poll thread at its start, with `n` at 0. -/
def start : State :=
  { pc := .top, pipe := [], m_controlCtrl := true, m_error := 0, idx := 0, n := 0
    m_evts := fun _ => ⟨none, false, false, false, false⟩, stale := 0 }

/-- A poll thread that has just started. -/
theorem start_starts : Starts start := ⟨rfl, rfl, rfl, rfl, rfl⟩

/-- A command that arrives before the first round is read in it; the loop then finds the pipe
empty and waits.
SOURCE: network/socketChannel.cc:60-73, 111-124 -/
theorem no_starvation_first : ∃ s, system.run start [.arrive .K, .doWait .open, .doWait .open] =
    some s ∧ CallsOnWait s ∧ s.stale = 0 := by
  refine ⟨_, rfl, ⟨rfl, rfl⟩, (no_starvation _ (System.via_iff_run.mpr
    ⟨start, [.arrive .K, .doWait .open, .doWait .open], start_starts, rfl, ?_⟩)).1 ⟨rfl, rfl⟩⟩
  refine ⟨⟨by simp, by simp⟩, fun t _ => ⟨⟨by simp, by simp⟩, fun t' _ =>
    ⟨⟨by simp, by simp⟩, fun _ _ => trivial⟩⟩⟩

/-- The first round finds the pipe empty and clears the flag; a command arrives and wakes
`onWait`, and the loop calls `onWait` again without reading it.
SOURCE: network/socketSystem.cc:822-917 -/
theorem poll_starves_command : ¬ ∀ s, system.Reachable s → CallsOnWait s → s.stale = 0 := by
  intro hall
  have hrun : (system.run start [.doWait .open, .arrive .K,
      .onWait [⟨none, true, false, false, false⟩], .getEvent .INVALID false,
      .doWait .open]).any (fun s => decide (s.pc = .wait ∧ s.idx = s.n ∧ s.stale = 1)) = true := by
    decide
  obtain ⟨s, hreach, hs⟩ := System.exists_reachable _ _ start_starts hrun
  have hs' := of_decide_eq_true hs
  have := hall s hreach ⟨hs'.1, hs'.2.1⟩
  omega

end MagicNet.Poll
