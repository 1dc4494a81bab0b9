import MagicNet.Model.Poll

/-!
# The cursor of the poll loop

`idx == n` is compared before `n` is assigned.  Where `n` happens to be 0 the loop waits for a batch
first, and from then on the cursor stays in the batch: `idx` is at most `n`, and less than `n` where
an event is looked at.  With any other `n` the first event is looked at before there is a batch.
-/

set_option autoImplicit false

namespace MagicNet.Poll

open MagicNet.Foundation MagicNet.Network

variable {s s' s₀ : State} {es : List Event}

/-! ## The cursor in a step -/

/-- Another event leaves the last batch. -/
theorem lastBatch_concat (es : List Event) {e : Event} (h : ∀ batch, e ≠ .onWait batch) :
    lastBatch (es ++ [e]) = lastBatch es := by
  unfold lastBatch
  rw [List.filterMap_append]
  cases e with
  | onWait batch => exact absurd rfl (h batch)
  | _ => simp

/-- A new batch is the last.
SOURCE: network/socketSystem.cc:822-917 -/
theorem lastBatch_onWait (es : List Event) (batch : List IocpEvent) :
    lastBatch (es ++ [.onWait batch]) = some batch.length := by
  unfold lastBatch
  rw [List.filterMap_append]
  exact List.getLast?_concat

/-- `doWait` leaves the cursor alone and goes on to no event.
SOURCE: network/socketChannel.cc:111-124 -/
theorem doWait_cursor (s : State) (ret : Ret) :
    (doWait s ret).pc ≠ .event ∧ (doWait s ret).idx = s.idx ∧ (doWait s ret).n = s.n := by
  have hafter : ∀ t : State, (afterWait t).pc ≠ .event := by
    intro t
    unfold afterWait
    dsimp only
    split
    · decide
    · split <;> decide
  unfold doWait
  split
  · exact ⟨hafter _, rfl, rfl⟩
  · split
    · exact ⟨hafter _, rfl, rfl⟩
    · split
      · next t ht =>
        obtain ⟨-, -, -, hidx, hn⟩ := doProccess_frame ht
        exact ⟨hafter t, hidx, hn⟩
      · exact ⟨nofun, rfl, rfl⟩

/-- An event moves the cursor by one, or leaves it for the second half of the event.
SOURCE: network/socketSystem.cc:822-917 -/
theorem getEvent_cursor (s : State) (state : SocketState) (lost : Bool) :
    (getEvent s state lost).pc ≠ .event ∧ (getEvent s state lost).n = s.n ∧
      ((getEvent s state lost).idx = s.idx ∨ (getEvent s state lost).idx = s.idx + 1) := by
  unfold getEvent
  split
  · dsimp only
    split
    · exact ⟨nofun, rfl, .inr rfl⟩
    · split
      · exact ⟨nofun, rfl, .inr rfl⟩
      · exact ⟨nofun, rfl, .inr rfl⟩
      · exact ⟨nofun, rfl, .inr rfl⟩
      · split
        · exact ⟨nofun, rfl, .inl (add_sub_cancel_right _ _)⟩
        · exact ⟨nofun, rfl, .inr rfl⟩
  · exact ⟨nofun, rfl, .inl rfl⟩

/-! ## The invariant -/

/-- The cursor after the events of a run: it is in the last batch, or at the end of it. -/
structure Cursor (es : List Event) (s : State) : Prop where
  nonneg : 0 ≤ s.idx
  le : s.idx ≤ s.n
  event : s.pc = .event → s.idx < s.n
  batch : s.n = 0 ∨ ∃ n : ℕ, lastBatch es = some n ∧ s.n = n

namespace Cursor

/-- At the start no batch has come. -/
theorem starts (h0 : Starts s₀) (hn : s₀.n = 0) : Cursor [] s₀ where
  nonneg := h0.idx.ge
  le := by rw [h0.idx, hn]
  event := fun hpc => by rw [h0.pc] at hpc; cases hpc
  batch := .inl hn

/-- What a step that returns no batch leaves of the invariant.
SOURCE: network/socketSystem.cc:822-917 -/
theorem concat {e : Event} (h : Cursor es s) (he : ∀ batch, e ≠ .onWait batch) (hn : s'.n = s.n)
    (hnonneg : 0 ≤ s'.idx) (hle : s'.idx ≤ s.n) (hevent : s'.pc = .event → s'.idx < s.n) :
    Cursor (es ++ [e]) s' where
  nonneg := hnonneg
  le := hn ▸ hle
  event := fun hpc => hn ▸ hevent hpc
  batch := by
    rw [lastBatch_concat es he, hn]
    exact h.batch

/-- **One step keeps the cursor in the batch.** -/
theorem step {e : Event} (h : Cursor es s) (hs : step s e = some s') : Cursor (es ++ [e]) s' := by
  cases e with
  | arrive command =>
    obtain rfl := step_arrive.mp hs
    exact h.concat (fun _ => Event.noConfusion) rfl h.nonneg h.le h.event
  | doWait ret =>
    obtain ⟨-, rfl⟩ := step_doWait.mp hs
    obtain ⟨hpc, hidx, hn⟩ := doWait_cursor s ret
    exact h.concat (fun _ => Event.noConfusion) hn (hidx ▸ h.nonneg) (hidx ▸ h.le)
      fun hevent => absurd hevent hpc
  | skip =>
    obtain ⟨⟨-, hne⟩, rfl⟩ := step_skip.mp hs
    exact h.concat (fun _ => Event.noConfusion) rfl h.nonneg h.le
      fun _ => lt_of_le_of_ne h.le hne
  | onWait batch =>
    simp only [Poll.step, Option.ite_none_right_eq_some, Option.some.injEq] at hs
    obtain ⟨⟨-, -, hbatch, -⟩, rfl⟩ := hs
    have hpos : (0 : ℤ) < batch.length := Int.natCast_pos.mpr (List.length_pos_iff.mpr hbatch)
    exact ⟨le_rfl, hpos.le, fun _ => hpos, .inr ⟨_, lastBatch_onWait es batch, rfl⟩⟩
  | onWaitFails interrupted =>
    obtain ⟨-, rfl⟩ := step_onWaitFails.mp hs
    refine ⟨le_rfl, le_rfl, fun hpc => ?_, .inl rfl⟩
    cases interrupted <;> cases hpc
  | getEvent state lost =>
    obtain ⟨hpc, rfl⟩ := step_getEvent.mp hs
    obtain ⟨hleft, hn, hidx⟩ := getEvent_cursor s state lost
    have hlt := h.event hpc
    have hnonneg := h.nonneg
    exact h.concat (fun _ => Event.noConfusion) hn (by omega) (by omega)
      fun hevent => absurd hevent hleft

/-- A run keeps the cursor in the batch. -/
theorem run (h0 : Starts s₀) (hn : s₀.n = 0) (hrun : system.run s₀ es = some s) :
    Cursor es s := by
  induction es using List.reverseRecOn generalizing s with
  | nil =>
    obtain rfl : s₀ = s := Option.some.inj hrun
    exact starts h0 hn
  | append_singleton es e ih =>
    rw [System.run_append] at hrun
    obtain ⟨t, ht, hlast⟩ := Option.bind_eq_some_iff.mp hrun
    rw [System.run_singleton] at hlast
    exact (ih ht).step hlast

/-- The calls of a step are for events from the cursor on. -/
theorem calls {e : Event} {i : ℤ} (h : Cursor es s) (hs : (Poll.step s e).isSome)
    (hi : i ∈ calls s e) : s.idx ≤ i ∧ i < s.n := by
  cases e with
  | getEvent state lost =>
    obtain ⟨s', hs'⟩ := Option.isSome_iff_exists.mp hs
    obtain rfl := List.mem_singleton.mp hi
    exact ⟨le_rfl, h.event (step_getEvent.mp hs').1⟩
  | doWait ret =>
    have hclear : ∀ gone, i ∈ clearCalls s.m_evts gone s.idx s.n → s.idx ≤ i ∧ i < s.n := by
      intro gone hmem
      have hevents : i ∈ (List.range (s.n - s.idx).toNat).map fun k : ℕ => s.idx + k := by
        rcases List.mem_append.mp hmem with htaken | hfound
        · exact (List.takeWhile_prefix _).subset htaken
        · exact List.mem_of_find?_eq_some (Option.mem_toList.mp hfound)
      obtain ⟨k, hk, rfl⟩ := List.mem_map.mp hevents
      have hlt := List.mem_range.mp hk
      omega
    cases ret with
    | «open» => cases hi
    | closed gone =>
      simp only [Poll.calls] at hi
      split at hi
      · split at hi
        · exact hclear gone hi
        · cases hi
      · cases hi
  | _ => cases hi

end Cursor

/-! ## The theorem -/

/-- The first rounds of the loop with an empty pipe and an `n` that is not 0.
SOURCE: network/socketChannel.cc:111-124, network/socketSystem.cc:822-917 -/
theorem run_skips (h0 : Starts s₀) (hn : s₀.n ≠ 0) :
    system.run s₀ [.doWait .open, .skip] = some { doWait s₀ .open with pc := .event } := by
  have hwait : (doWait s₀ .open).pc = .wait := by
    rw [doWait, if_neg (by rw [h0.flag]; decide), h0.pipe]
    rfl
  obtain ⟨-, hidx, hcount⟩ := doWait_cursor s₀ .open
  have hne : (doWait s₀ .open).idx ≠ (doWait s₀ .open).n := by
    rw [hidx, hcount, h0.idx]
    exact hn.symm
  rw [System.run_cons, system_step, step_doWait.mpr ⟨h0.pc, rfl⟩, Option.bind_some,
    System.run_singleton, system_step]
  exact step_skip.mpr ⟨⟨hwait, hne⟩, rfl⟩

/-- **Event cursor.**  In all runs every call of `getEvent` is for an event of the last batch
exactly when `n` happens to be 0 at the start.
SOURCE: network/socketSystem.cc:822-917 -/
theorem event_cursor (h0 : Starts s₀) : (∀ es, InBatch s₀ es) ↔ s₀.n = 0 := by
  constructor
  · intro hall
    by_contra hn
    obtain ⟨n, hlast, -⟩ := hall _ _ (.getEvent .INVALID false) (run_skips h0 hn) rfl _
      (List.mem_singleton.mpr rfl)
    cases hlast
  · intro hn es s e hrun hstep i hi
    have hcursor := Cursor.run h0 hn hrun
    obtain ⟨hle, hlt⟩ := hcursor.calls hstep hi
    have hnonneg := hcursor.nonneg
    rcases hcursor.batch with hzero | ⟨n, hlast, hcount⟩
    · omega
    · exact ⟨n, hlast, by omega, by omega⟩

/-- The poll thread where it starts with the given value in `n`. -/
def started (n : ℤ) : State where
  pc := .top
  pipe := []
  m_controlCtrl := true
  m_error := 0
  idx := 0
  n := n
  m_evts := fun _ => ⟨none, false, false, false, false⟩
  stale := 0

/-- A cursor that starts at 0 stays in its batches. -/
theorem event_cursor_zero : (started 0).n = 0 ∧ ∀ es, InBatch (started 0) es :=
  ⟨rfl, (event_cursor ⟨rfl, rfl, rfl, rfl, rfl⟩).mpr rfl⟩

/-- With 1 in `n` the first event is looked at before the first `onWait`.
SOURCE: network/socketChannel.cc:111-124, network/socketSystem.cc:822-917 -/
theorem event_cursor_unset :
    system.init (started 1) ∧ ¬ InBatch (started 1) [.doWait .open, .skip] := by
  refine ⟨⟨rfl, rfl, rfl, rfl, rfl⟩, fun hbatch => ?_⟩
  obtain ⟨n, hlast, -⟩ := hbatch _ (.getEvent .INVALID false) rfl rfl 0 (List.mem_singleton.mpr rfl)
  cases hlast

end MagicNet.Poll
