import MagicNet.Model.BusyMark

/-!
# What `isBusy` says of a stuck worker

While a task runs on after a mark the count is the one that was marked, and `isBusy` returns 0 at
once: it never sees the workers it is there for.  A worker that goes from task to task is called
busy as soon as the clock is far enough from the mark.
-/

set_option autoImplicit false

namespace MagicNet.BusyMark

open MagicNet.Foundation

variable {timeout : Timeout} {s s' : State} {e : Event}

/-- The count differs from its copy only after a switch, and a task that has run on since the mark
has not been switched to since. -/
structure Inv (s : State) : Prop where
  mark : s.switched = false → s.m_ntsMark = s.m_nts
  same : s.same = true → s.switched = false

/-- A worker that has not started is marked for nothing. -/
theorem inv_of_starts (h : Starts s) : Inv s := by
  constructor
  · intro _
    rw [h.m_ntsMark, h.m_nts]
  · intro hsame
    rw [h.same] at hsame
    cases hsame

/-- A tick moves the clock only.
SOURCE: operation/clock.cc:93-105 -/
theorem tick_inv {ct : BitVec 64} (h : Inv s) : Inv (s.tick ct) := by
  unfold State.tick
  split
  · exact ⟨h.mark, h.same⟩
  · split
    · exact ⟨h.mark, h.same⟩
    · exact h

/-- One step keeps the invariant.
SOURCE: operation/worker.cc:41-47, 49-52, 178-215 -/
theorem step_inv (h : Inv s) (hs : step timeout s e = some s') : Inv s' := by
  cases e with
  | begin =>
    simp only [step, Option.ite_none_right_eq_some, Option.some.injEq] at hs
    obtain ⟨-, rfl⟩ := hs
    exact ⟨h.mark, h.same⟩
  | pop tk =>
    simp only [step, Option.ite_none_right_eq_some, Option.some.injEq] at hs
    obtain ⟨-, rfl⟩ := hs
    exact ⟨h.mark, fun hsame => by cases hsame⟩
  | count =>
    simp only [step, Option.ite_none_right_eq_some, Option.some.injEq] at hs
    obtain ⟨-, rfl⟩ := hs
    constructor
    · exact fun hswitched => absurd hswitched (by simp)
    · exact fun hsame => absurd hsame (by simp)
  | switch =>
    simp only [step, Option.ite_none_right_eq_some, Option.some.injEq] at hs
    obtain ⟨-, rfl⟩ := hs
    exact ⟨h.mark, fun hsame => by cases hsame⟩
  | isBusy =>
    simp only [step, Option.ite_none_left_eq_some, Option.some.injEq] at hs
    obtain ⟨-, rfl⟩ := hs
    exact ⟨h.mark, h.same⟩
  | restBusy =>
    simp only [step, Option.ite_none_right_eq_some, Option.some.injEq] at hs
    obtain ⟨-, rfl⟩ := hs
    exact ⟨fun _ => rfl, fun _ => rfl⟩
  | tick ct =>
    simp only [step, Option.some.injEq] at hs
    subst hs
    exact tick_inv h

/-! ## What a call says -/

/-- `isBusy` returns true only of a worker whose count is another than the one that was marked.
SOURCE: operation/worker.cc:41-47 -/
theorem isBusy_eq_true : s.isBusy timeout = true ↔
    s.m_ntsMark ≠ s.m_nts ∧ s.m_ntsTick + timeout.setWidth 64 < s.m_current := by
  unfold State.isBusy
  split
  · next heq => simp [heq]
  · next hne => simp [hne]

/-- **A stuck worker is never found.**
SOURCE: operation/worker.cc:41-47 -/
theorem isBusy_of_same (h : Inv s) (hsame : s.same = true) : s.isBusy timeout = false := by
  have hmark := h.mark (h.same hsame)
  rw [State.isBusy, if_pos hmark]

/-- What a call says is right exactly when it is not asked about a stuck worker, or about one that
has gone on, too late. -/
theorem right_iff (h : Inv s) : Right timeout s e s' ↔ Cond timeout s e := by
  unfold Right Cond
  apply imp_congr_right
  rintro -
  constructor
  · rintro ⟨hstuck, hidle⟩
    constructor
    · intro hs
      have hbusy := hstuck hs
      rw [isBusy_of_same h hs.1] at hbusy
      cases hbusy
    · intro hne
      have hswitched : s.switched = true := by
        by_contra hnot
        exact hne (h.mark (Bool.eq_false_iff.mpr hnot))
      by_contra hlate
      have hbusy := isBusy_eq_true.mpr ⟨hne, BitVec.not_le.mp hlate⟩
      rw [hidle (.inl hswitched)] at hbusy
      cases hbusy
  · rintro ⟨hstuck, hlate⟩
    refine ⟨fun hs => absurd hs hstuck, fun _ => ?_⟩
    rw [Bool.eq_false_iff]
    intro hbusy
    obtain ⟨hne, hlt⟩ := isBusy_eq_true.mp hbusy
    exact BitVec.not_le.mpr hlt (hlate hne)

/-- In every step of a run the mark is right exactly where the steps meet the condition.
SOURCE: operation/worker.cc:41-47 -/
theorem always_right_iff {s₀ : State} {es : List Event} (h0 : Inv s₀)
    (hrun : (system timeout).run s₀ es = some s) :
    (system timeout).Always (Right timeout) s₀ es ↔
      (system timeout).Meets (Cond timeout) s₀ es := by
  apply System.always_iff_of_iff _ h0 hrun
  intro s e s' h hs
  exact ⟨right_iff h, step_inv h hs⟩

/-- **Stuck worker detection**, in any run of the worker, the dispatcher and the clock: `isBusy` is
right in all its calls exactly when none of them comes when the worker has been executing one task
since before the last mark for more than the limit, and none when `m_nts` is not `m_ntsMark` and the
clock is past `m_ntsTick + _single_timeout_us`, hundredths of a second and microseconds taken as
plain numbers.
SOURCE: operation/worker.cc:41-52, 178-205, operation/scheduler.cc:112-120, operation/clock.cc:93-105 -/
theorem stuck_detected {s₀ : State} {es : List Event} (h0 : Starts s₀)
    (hrun : (system timeout).run s₀ es = some s) :
    (system timeout).Always (Right timeout) s₀ es ↔
      (system timeout).Meets (Cond timeout) s₀ es :=
  always_right_iff (inv_of_starts h0) hrun

/-- A worker just constructed, with the clock at 0. -/
def start : State := ⟨.start, none, 0, 0, 0, 0, 0, false, false, false, 0⟩

/-- A worker that has just been made. -/
theorem start_starts : Starts start := by
  constructor <;> rfl

/-- A task that runs for a short while, and another round of the dispatcher before it returns.
SOURCE: operation/clock.cc:93-105, operation/worker.cc:41-47 -/
theorem stuck_detected_short : (system 100000).Always (Right 100000) start
    [.begin, .pop (some 1), .count, .tick 5, .isBusy, .switch, .pop none, .isBusy] :=
  (stuck_detected start_starts rfl).mpr (by decide)

/-- A task is marked after 1001 seconds, and found not busy one second later. -/
theorem stuck_not_detected : ¬ ∀ (s₀ s : State) (es : List Event), Starts s₀ →
    (system 100000).run s₀ es = some s →
      (system 100000).Always (Right 100000) s₀ es := by
  intro hall
  have halways := hall start _ [.begin, .pop (some 1), .count, .tick 100100, .isBusy, .restBusy,
    .tick 100200, .isBusy] start_starts rfl
  have hmeets := (always_right_iff (inv_of_starts start_starts) rfl).mp halways
  exact absurd hmeets (by decide)

end MagicNet.BusyMark
