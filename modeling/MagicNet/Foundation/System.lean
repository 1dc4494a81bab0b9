import Mathlib.Tactic
import Mathlib.Data.List.Basic
import Mathlib.Logic.Function.Basic

/-!
# Guarded transition systems and their runs

A `System` is a set of starting states and an executable step function: `step s e` is the
state the event `e` leads to from `s`, or `none` where `e` cannot happen in `s`.  One
definition serves the replay of a concrete run (`run`, evaluated by `decide`) and the proofs.

The runs of interest here are the runs *whose steps all meet a condition*.  `Meets g s es`
says so of the replay of `es` from `s`, and `Via g s` says that `s` is reached by such a run;
`Reachable` is `Via` under the condition that nothing is asked.  The rules are

* `Via.invariant`: what holds at the start and is kept by every step that meets the
  condition holds of every state such a run reaches;
* `via_iff_run`: `Via` is exactly "reached by the replay of a list of events, all meeting the
  condition";
* `throughout_iff_meets` and `always_iff_meets`: where breaking the condition breaks a property
  of the states, or of the steps, the property holds all along a run exactly when its steps all
  meet the condition (`always_iff_of_iff` from an equivalence for each step); `not_final_iff_meets`: where it leaves a fault that stays, the same of the
  state the run ends in;
* `table_step`: a step of a table of instances is a step of one of them;
* `Sim.via`: a functional simulation carries runs that meet a condition to runs of the
  abstract system that meet its condition.
-/

set_option autoImplicit false

namespace MagicNet.Foundation

/-- A transition system with an executable, partial step function. -/
structure System (σ ε : Type*) where
  /-- The states a run may start in. -/
  init : σ → Prop
  /-- The state an event leads to; `none` where the event is not enabled. -/
  step : σ → ε → Option σ

namespace System

variable {σ ε : Type*} (A : System σ ε)

/-- Replay a list of events; `none` if one of them is not enabled on the way. -/
def run : σ → List ε → Option σ
  | s, [] => some s
  | s, e :: es => (A.step s e).bind fun s' => run s' es

/-- Every step of the replay of `es` from `s` meets the condition `g`. -/
def Meets (g : σ → ε → Prop) : σ → List ε → Prop
  | _, [] => True
  | s, e :: es => g s e ∧ ∀ s', A.step s e = some s' → Meets g s' es

/-- The states reached by runs whose steps all meet the condition `g`. -/
inductive Via (g : σ → ε → Prop) : σ → Prop where
  | init {s : σ} : A.init s → Via g s
  | step {s s' : σ} {e : ε} : Via g s → g s e → A.step s e = some s' → Via g s'

/-- The reachable states: no condition is asked of the steps. -/
def Reachable (s : σ) : Prop := A.Via (fun _ _ => True) s

variable {A}

/-! ## Replays -/

@[simp] theorem run_nil (s : σ) : A.run s [] = some s := rfl

/-- A replay takes the first step and goes on from there. -/
theorem run_cons (s : σ) (e : ε) (es : List ε) :
    A.run s (e :: es) = (A.step s e).bind fun s' => A.run s' es := rfl

/-- The replay of one event is one step. -/
@[simp] theorem run_singleton (s : σ) (e : ε) : A.run s [e] = A.step s e := by
  rw [run_cons]
  cases A.step s e <;> rfl

/-- Replaying `es ++ fs` is replaying `es` and then `fs`. -/
theorem run_append (s : σ) (es fs : List ε) :
    A.run s (es ++ fs) = (A.run s es).bind fun s' => A.run s' fs := by
  induction es generalizing s with
  | nil => rfl
  | cons e es ih =>
    simp only [List.cons_append, run_cons]
    cases A.step s e with
    | none => rfl
    | some s' => exact ih s'

/-- The condition of a longer run is that of its first part and that of the rest. -/
theorem meets_append {g : σ → ε → Prop} {s : σ} {es fs : List ε} :
    A.Meets g s (es ++ fs) ↔
      A.Meets g s es ∧ ∀ s', A.run s es = some s' → A.Meets g s' fs := by
  induction es generalizing s with
  | nil => simp [Meets]
  | cons e es ih =>
    simp only [List.cons_append, Meets, run_cons]
    constructor
    · rintro ⟨hg, hrest⟩
      refine ⟨⟨hg, fun s' hs' => (ih.mp (hrest s' hs')).1⟩, fun s'' hs'' => ?_⟩
      obtain ⟨s', hs', hrun⟩ := Option.bind_eq_some_iff.mp hs''
      exact (ih.mp (hrest s' hs')).2 s'' hrun
    · rintro ⟨⟨hg, hes⟩, hfs⟩
      refine ⟨hg, fun s' hs' => ih.mpr ⟨hes s' hs', fun s'' hs'' => hfs s'' ?_⟩⟩
      rw [hs']
      exact hs''

/-- A run of events that meet the condition in every state. -/
theorem meets_of_forall {g : σ → ε → Prop} {es : List ε} (h : ∀ e ∈ es, ∀ s, g s e) (s : σ) :
    A.Meets g s es := by
  induction es generalizing s with
  | nil => trivial
  | cons e es ih =>
    have hrest : ∀ e' ∈ es, ∀ s, g s e' := fun e' he' => h e' (List.mem_cons_of_mem e he')
    exact ⟨h e List.mem_cons_self s, fun s' _ => ih hrest s'⟩

/-- A run meets the condition that asks nothing. -/
theorem meets_true (s : σ) (es : List ε) : A.Meets (fun _ _ => True) s es :=
  meets_of_forall (fun _ _ _ => trivial) s

/-- The condition on the first step of a replay, and on the rest of it. -/
theorem meets_cons {g : σ → ε → Prop} {s s' : σ} {e : ε} {es : List ε} (hg : g s e)
    (hs : A.step s e = some s') (hrest : A.Meets g s' es) : A.Meets g s (e :: es) := by
  refine ⟨hg, fun t ht => ?_⟩
  obtain rfl : s' = t := Option.some.inj (hs.symm.trans ht)
  exact hrest

/-- A condition that can be decided step by step can be decided along a run. -/
instance decidableMeets (g : σ → ε → Prop) [∀ s e, Decidable (g s e)] :
    ∀ (s : σ) (es : List ε), Decidable (A.Meets g s es)
  | _, [] => isTrue trivial
  | s, e :: es =>
    match h : A.step s e with
    | none => decidable_of_iff (g s e) (by simp [Meets, h])
    | some s' =>
      have := decidableMeets g s' es
      decidable_of_iff (g s e ∧ A.Meets g s' es) (by simp [Meets, h])

/-! ## States reached by runs that meet a condition -/

namespace Via

/-- **The invariant rule**: what holds at the start and is kept by every step that meets the
condition holds of every state such a run reaches. -/
theorem invariant {g : σ → ε → Prop} {I : σ → Prop} (hinit : ∀ s, A.init s → I s)
    (hstep : ∀ s e s', I s → g s e → A.step s e = some s' → I s') {s : σ} (h : A.Via g s) :
    I s := by
  induction h with
  | init h0 => exact hinit _ h0
  | step _ hg hs ih => exact hstep _ _ _ ih hg hs

/-- A weaker condition reaches more. -/
theorem mono {g g' : σ → ε → Prop} (hgg : ∀ s e, g s e → g' s e) {s : σ} (h : A.Via g s) :
    A.Via g' s := by
  induction h with
  | init h0 => exact .init h0
  | step _ hg hs ih => exact .step ih (hgg _ _ hg) hs

/-- A state reached under a condition is reachable. -/
theorem reachable {g : σ → ε → Prop} {s : σ} (h : A.Via g s) : A.Reachable s :=
  h.mono fun _ _ _ => trivial

/-- A replay that meets the condition, from a state so reached, ends in a state so reached. -/
theorem extend {g : σ → ε → Prop} {s s' : σ} {es : List ε} (h : A.Via g s)
    (hrun : A.run s es = some s') (hmeets : A.Meets g s es) : A.Via g s' := by
  induction es generalizing s with
  | nil =>
    rw [run_nil, Option.some.injEq] at hrun
    exact hrun ▸ h
  | cons e es ih =>
    obtain ⟨t, ht, hrest⟩ := Option.bind_eq_some_iff.mp hrun
    exact ih (.step h hmeets.1 ht) hrest (hmeets.2 t ht)

end Via

/-- `Via g s` is: the replay of some list of events, all meeting `g`, ends in `s`. -/
theorem via_iff_run {g : σ → ε → Prop} {s : σ} :
    A.Via g s ↔ ∃ s₀ es, A.init s₀ ∧ A.run s₀ es = some s ∧ A.Meets g s₀ es := by
  constructor
  · intro h
    induction h with
    | @init s h0 => exact ⟨s, [], h0, rfl, trivial⟩
    | @step s s' e _ hg hs ih =>
      obtain ⟨s₀, es, h0, hrun, hmeets⟩ := ih
      refine ⟨s₀, es ++ [e], h0, ?_, meets_append.mpr ⟨hmeets, fun t ht => ?_⟩⟩
      · rw [run_append, hrun]
        simpa using hs
      · obtain rfl : t = s := by simpa [hrun] using ht.symm
        exact ⟨hg, fun _ _ => trivial⟩
  · rintro ⟨s₀, es, h0, hrun, hmeets⟩
    exact (Via.init h0).extend hrun hmeets

/-- What every step that meets the condition keeps, a replay that meets it keeps. -/
theorem run_invariant {g : σ → ε → Prop} {I : σ → Prop}
    (hkeep : ∀ s e s', I s → g s e → A.step s e = some s' → I s') {s s' : σ} {es : List ε}
    (h : I s) (hrun : A.run s es = some s') (hmeets : A.Meets g s es) : I s' := by
  induction es generalizing s with
  | nil =>
    rw [run_nil, Option.some.injEq] at hrun
    exact hrun ▸ h
  | cons e es ih =>
    obtain ⟨t, ht, hrest⟩ := Option.bind_eq_some_iff.mp hrun
    exact ih (hkeep _ _ _ h hmeets.1 ht) hrest (hmeets.2 t ht)

/-- **A countdown.**  `P s n`: `n` steps of one kind are still to come before `Q` holds.  Where each of
them counts down and no other step counts up, `n` of them bring `Q` about, and `Q` stays. -/
theorem run_countdown {g : σ → ε → Prop} {I Q : σ → Prop} {P : σ → ℕ → Prop} (counts : ε → Bool)
    (hkeep : ∀ s e s', I s → g s e → A.step s e = some s' → I s')
    (hdown : ∀ s e s' n, I s → g s e → A.step s e = some s' → P s n →
      P s' (n - if counts e then 1 else 0) ∨ Q s')
    (hstay : ∀ s e s', I s → g s e → A.step s e = some s' → Q s → Q s')
    (hzero : ∀ s, ¬ P s 0) {s s' : σ} {es : List ε} {n : ℕ} (h : I s) (hP : P s n)
    (hrun : A.run s es = some s') (hmeets : A.Meets g s es) (hn : n ≤ es.countP counts) : Q s' := by
  induction es generalizing s n with
  | nil =>
    obtain rfl : n = 0 := by simpa using hn
    exact absurd hP (hzero s)
  | cons e es ih =>
    obtain ⟨t, ht, hrest⟩ := Option.bind_eq_some_iff.mp hrun
    have hI := hkeep _ _ _ h hmeets.1 ht
    rcases hdown _ _ _ _ h hmeets.1 ht hP with hnext | hQ
    · refine ih hI hnext hrest (hmeets.2 t ht) ?_
      rw [List.countP_cons] at hn
      omega
    · have hboth := run_invariant (I := fun s => I s ∧ Q s)
        (fun s e s' hb hg hs => ⟨hkeep s e s' hb.1 hg hs, hstay s e s' hb.1 hg hs hb.2⟩)
        ⟨hI, hQ⟩ hrest (hmeets.2 t ht)
      exact hboth.2

/-- **A property along a run and the condition on its steps.**  Where the steps that meet the
condition keep an invariant that gives the property, and a step that breaks the condition breaks
the property, the property holds all along a run exactly when all steps meet the condition. -/
theorem throughout_iff_meets {g : σ → ε → Prop} {I P : σ → Prop} (hP : ∀ s, I s → P s)
    (hkeep : ∀ s e s', I s → g s e → A.step s e = some s' → I s')
    (hbreak : ∀ s e s', I s → ¬ g s e → A.step s e = some s' → ¬ P s') {s₀ s : σ} {es : List ε}
    (h0 : I s₀) (hrun : A.run s₀ es = some s) :
    (∀ fs t, fs <+: es → A.run s₀ fs = some t → P t) ↔ A.Meets g s₀ es := by
  induction es generalizing s₀ with
  | nil =>
    constructor
    · intro _
      trivial
    · intro _ fs t hfs ht
      rw [List.prefix_nil.mp hfs, run_nil, Option.some.injEq] at ht
      exact ht ▸ hP _ h0
  | cons e es ih =>
    obtain ⟨t, ht, hrest⟩ := Option.bind_eq_some_iff.mp hrun
    constructor
    · intro hall
      have hg : g s₀ e := by
        by_contra hbad
        exact hbreak _ _ _ h0 hbad ht
          (hall [e] t (List.prefix_append [e] es) (by rw [run_singleton, ht]))
      refine ⟨hg, fun s' hs' => ?_⟩
      obtain rfl : t = s' := Option.some.inj (ht.symm.trans hs')
      apply (ih (hkeep _ _ _ h0 hg ht) hrest).mp
      intro fs u hfs hu
      refine hall (e :: fs) u (List.cons_prefix_cons.mpr ⟨rfl, hfs⟩) ?_
      rw [run_cons, ht]
      exact hu
    · rintro ⟨hg, hmeets⟩ fs u hfs hu
      cases fs with
      | nil =>
        rw [run_nil, Option.some.injEq] at hu
        exact hu ▸ hP _ h0
      | cons f fs =>
        obtain ⟨rfl, hfs'⟩ := List.cons_prefix_cons.mp hfs
        rw [run_cons, ht] at hu
        exact (ih (hkeep _ _ _ h0 hg ht) hrest).mpr (hmeets t ht) fs u hfs' hu

/-- **A fault that stays.**  Where a step leads to a faulty state exactly from a faulty one or by
breaking the condition, a run ends without the fault exactly when it starts without it and all its
steps meet the condition. -/
theorem not_final_iff_meets {g : σ → ε → Prop} {I L : σ → Prop}
    (hkeep : ∀ s e s', I s → A.step s e = some s' → I s')
    (hstep : ∀ s e s', I s → A.step s e = some s' → (L s' ↔ L s ∨ ¬ g s e)) {s₀ s : σ}
    {es : List ε} (h0 : I s₀) (hrun : A.run s₀ es = some s) :
    ¬ L s ↔ ¬ L s₀ ∧ A.Meets g s₀ es := by
  induction es generalizing s₀ with
  | nil =>
    obtain rfl : s₀ = s := by simpa using hrun
    simp [Meets]
  | cons e es ih =>
    obtain ⟨t, ht, hrest⟩ := Option.bind_eq_some_iff.mp hrun
    rw [ih (hkeep _ _ _ h0 ht) hrest, hstep _ _ _ h0 ht, not_or, not_not, and_assoc]
    constructor
    · rintro ⟨hL, hg, hmeets⟩
      refine ⟨hL, hg, fun s' hs' => ?_⟩
      obtain rfl : t = s' := Option.some.inj (ht.symm.trans hs')
      exact hmeets
    · rintro ⟨hL, hg, hmeets⟩
      exact ⟨hL, hg, hmeets t ht⟩

/-- The relation holds of every step of the replay of `es` from `s`. -/
def Always (A : System σ ε) (Q : σ → ε → σ → Prop) : σ → List ε → Prop
  | _, [] => True
  | s, e :: es => ∀ s', A.step s e = some s' → Q s e s' ∧ Always A Q s' es

/-- A property that every step has that meets the condition from a state in order, and that leaves
the state in order, holds of every step of a run whose steps meet the condition. -/
theorem always_of_meets {g : σ → ε → Prop} {I : σ → Prop} {Q : σ → ε → σ → Prop}
    (hkeep : ∀ s e s', I s → g s e → A.step s e = some s' → Q s e s' ∧ I s') {s₀ : σ}
    {es : List ε} (h0 : I s₀) (hmeets : A.Meets g s₀ es) : A.Always Q s₀ es := by
  induction es generalizing s₀ with
  | nil => trivial
  | cons e es ih =>
    intro s' hs'
    obtain ⟨hQ, hI⟩ := hkeep _ _ _ h0 hmeets.1 hs'
    exact ⟨hQ, ih hI (hmeets.2 s' hs')⟩

/-- **A property of the steps of a run and the condition on them.**  As `throughout_iff_meets`, for
a property that a step has with the states before and after it. -/
theorem always_iff_meets {g : σ → ε → Prop} {I : σ → Prop} {Q : σ → ε → σ → Prop}
    (hkeep : ∀ s e s', I s → g s e → A.step s e = some s' → Q s e s' ∧ I s')
    (hbreak : ∀ s e s', I s → ¬ g s e → A.step s e = some s' → ¬ Q s e s') {s₀ s : σ}
    {es : List ε} (h0 : I s₀) (hrun : A.run s₀ es = some s) :
    A.Always Q s₀ es ↔ A.Meets g s₀ es := by
  refine ⟨?_, always_of_meets hkeep h0⟩
  induction es generalizing s₀ with
  | nil => exact id
  | cons e es ih =>
    intro hall
    obtain ⟨t, ht, hrest⟩ := Option.bind_eq_some_iff.mp hrun
    obtain ⟨hQ, hQs⟩ := hall t ht
    have hg : g s₀ e := by
      by_contra hbad
      exact hbreak _ _ _ h0 hbad ht hQ
    refine ⟨hg, fun s' hs' => ?_⟩
    obtain rfl : t = s' := Option.some.inj (ht.symm.trans hs')
    exact ih (hkeep _ _ _ h0 hg ht).2 hrest hQs

/-- Where a step has the property exactly when it meets the condition, so does a run. -/
theorem always_iff_of_iff {g : σ → ε → Prop} {I : σ → Prop} {Q : σ → ε → σ → Prop}
    (hstep : ∀ s e s', I s → A.step s e = some s' → (Q s e s' ↔ g s e) ∧ I s') {s₀ s : σ}
    {es : List ε} (h0 : I s₀) (hrun : A.run s₀ es = some s) :
    A.Always Q s₀ es ↔ A.Meets g s₀ es := by
  apply always_iff_meets _ _ h0 hrun
  · intro s e s' hI hg hs
    obtain ⟨hiff, hI'⟩ := hstep s e s' hI hs
    exact ⟨hiff.mpr hg, hI'⟩
  · intro s e s' hI hg hs hQ
    exact hg ((hstep s e s' hI hs).1.mp hQ)

/-- A property that every step has from a state in order, and that leaves the state in order, holds
of every step of a run. -/
theorem always_of_invariant {I : σ → Prop} {Q : σ → ε → σ → Prop}
    (hstep : ∀ s e s', I s → A.step s e = some s' → Q s e s' ∧ I s') {s₀ : σ} (h0 : I s₀)
    (es : List ε) : A.Always Q s₀ es :=
  always_of_meets (fun s e s' hI _ hs => hstep s e s' hI hs) h0 (meets_true s₀ es)

/-- A replay from a starting state reaches a reachable state. -/
theorem reachable_of_run {s₀ s : σ} {es : List ε} (h0 : A.init s₀)
    (hrun : A.run s₀ es = some s) : A.Reachable s :=
  (Via.init h0).extend hrun (meets_true s₀ es)

/-- A replay that meets the condition and whose last state passes the test `p` shows a state so
reached that passes it. -/
theorem exists_via {g : σ → ε → Prop} {s₀ : σ} (es : List ε) (p : σ → Bool) (h0 : A.init s₀)
    (hmeets : A.Meets g s₀ es) (hrun : (A.run s₀ es).any p = true) :
    ∃ s, A.Via g s ∧ p s = true := by
  cases h : A.run s₀ es with
  | none => simp [h] at hrun
  | some s => exact ⟨s, (Via.init h0).extend h hmeets, by simpa [h] using hrun⟩

/-- A replay whose last state passes the test `p` shows a reachable state that passes it. -/
theorem exists_reachable {s₀ : σ} (es : List ε) (p : σ → Bool) (h0 : A.init s₀)
    (hrun : (A.run s₀ es).any p = true) : ∃ s, A.Reachable s ∧ p s = true :=
  exists_via es p h0 (meets_true s₀ es) hrun

/-! ## Tables -/

/-- A table of instances of a system: a step is a step of one of them. -/
def table (ι : Type*) [DecidableEq ι] (A : System σ ε) : System (ι → σ) (ι × ε) where
  init s := ∀ i, A.init (s i)
  step s e := (A.step (s e.1) e.2).map (Function.update s e.1)

section Table

variable {ι : Type*} [DecidableEq ι]

/-- A step of a table is a step of the entry it is about, and leaves the others alone. -/
theorem table_step {s s' : ι → σ} {i : ι} {e : ε} (h : (A.table ι).step s (i, e) = some s') :
    A.step (s i) e = some (s' i) ∧ ∀ j, j ≠ i → s' j = s j := by
  obtain ⟨t, ht, rfl⟩ := Option.map_eq_some_iff.mp h
  constructor
  · rw [Function.update_self]
    exact ht
  · intro j hj
    exact Function.update_of_ne hj _ _

end Table

end System

/-! ## Functional simulations -/

/-- A functional simulation of `A` by `B` under the conditions `g` and `g'`: a start of `A` is
a start of `B`, and a step of `A` that meets `g` is a step of `B` that meets `g'`, or leaves
the abstract state alone.  The simulation may use an invariant `I` of the concrete runs. -/
structure Sim {σ ε τ δ : Type*} (A : System σ ε) (B : System τ δ) (g : σ → ε → Prop)
    (g' : τ → δ → Prop) (I : σ → Prop) where
  /-- The abstract state of a concrete one. -/
  abs : σ → τ
  init : ∀ s, A.init s → B.init (abs s)
  step : ∀ s e s', I s → g s e → A.step s e = some s' →
    abs s' = abs s ∨ ∃ d, g' (abs s) d ∧ B.step (abs s) d = some (abs s')

/-- **The simulation lifts to runs**: a state the concrete system reaches under its condition
is one the abstract system reaches under its own. -/
theorem Sim.via {σ ε τ δ : Type*} {A : System σ ε} {B : System τ δ} {g : σ → ε → Prop}
    {g' : τ → δ → Prop} {I : σ → Prop} (S : Sim A B g g' I) (hI : ∀ s, A.Via g s → I s)
    {s : σ} (h : A.Via g s) : B.Via g' (S.abs s) := by
  induction h with
  | init h0 => exact .init (S.init _ h0)
  | @step s s' e hv hg hs ih =>
    rcases S.step s e s' (hI s hv) hg hs with heq | ⟨d, hd, hstep⟩
    · exact heq ▸ ih
    · exact .step ih hd hstep

/-! ## Traces -/

namespace System

variable {σ ε τ δ : Type*} {A : System σ ε} {B : System τ δ}

/-- What the replay of a list of events looks like through a labelling of the steps: the labels
of its steps, in order, up to the first event that is not enabled. -/
def trace (A : System σ ε) (label : σ → ε → Option δ) : σ → List ε → List δ
  | _, [] => []
  | s, e :: es =>
    (label s e).toList ++
      match A.step s e with
      | none => []
      | some s' => trace A label s' es

/-- The trace of a replay begins with what its first step shows. -/
theorem trace_cons {label : σ → ε → Option δ} {s s' : σ} {e : ε} (hs : A.step s e = some s')
    (es : List ε) :
    A.trace label s (e :: es) = (label s e).toList ++ A.trace label s' es := by
  simp [trace, hs]

/-- **A labelled simulation lifts to runs**: where each step is the abstract step of its label,
or changes nothing when it has none, the trace of a run is a run of the abstract system.  The
simulation may use an invariant of the concrete runs. -/
theorem run_trace_of {abs : σ → τ} {label : σ → ε → Option δ} {I : σ → Prop}
    (hI : ∀ s e s', I s → A.step s e = some s' → I s')
    (hstep : ∀ s e s', I s → A.step s e = some s' →
      B.run (abs s) (label s e).toList = some (abs s'))
    {s s' : σ} {es : List ε} (h0 : I s) (hrun : A.run s es = some s') :
    B.run (abs s) (A.trace label s es) = some (abs s') := by
  induction es generalizing s with
  | nil =>
    obtain rfl : s = s' := by simpa using hrun
    rfl
  | cons e es ih =>
    obtain ⟨t, ht, hrest⟩ := Option.bind_eq_some_iff.mp hrun
    rw [trace_cons ht, run_append, hstep s e t h0 ht]
    exact ih (hI s e t h0 ht) hrest

/-- A labelled simulation that needs no invariant. -/
theorem run_trace {abs : σ → τ} {label : σ → ε → Option δ}
    (hstep : ∀ s e s', A.step s e = some s' → B.run (abs s) (label s e).toList = some (abs s'))
    {s s' : σ} {es : List ε} (hrun : A.run s es = some s') :
    B.run (abs s) (A.trace label s es) = some (abs s') :=
  run_trace_of (I := fun _ => True) (fun _ _ _ _ _ => trivial) (fun s e s' _ => hstep s e s')
    trivial hrun

/-- What is read off a trace is the trace of what is read off its labels. -/
theorem trace_filterMap {γ : Type*} (label : σ → ε → Option δ) (f : δ → Option γ) (s : σ)
    (es : List ε) :
    (A.trace label s es).filterMap f = A.trace (fun s e => (label s e).bind f) s es := by
  induction es generalizing s with
  | nil => rfl
  | cons e es ih =>
    have hhead : (label s e).toList.filterMap f = ((label s e).bind f).toList := by
      cases label s e with
      | none => rfl
      | some d => cases h : f d <;> simp [h]
    simp only [trace, List.filterMap_append, hhead]
    cases A.step s e with
    | none => rfl
    | some s' => rw [ih]

end System

end MagicNet.Foundation
