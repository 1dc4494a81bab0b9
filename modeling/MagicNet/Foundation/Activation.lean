import MagicNet.Foundation.System

/-!
# A queue whose consumer is activated by the first push

The protocol of a queue that posts an *activation token* when the first item comes and sets a
flag so that later pushes do not post another.  The holder of the token takes an item and keeps
the token, or finds the queue empty and drops it.  Nothing in the protocol clears the flag.

`unattended_iff` says exactly when items are left with nobody to take them: an item was queued
after a token had been dropped.
-/

set_option autoImplicit false

namespace MagicNet.Foundation.Activation

/-- The queue is `locked` while a push that has posted the token has not set the flag yet;
`pushing` counts the pushes that have queued their item and have not returned. -/
structure State where
  flag : Bool
  locked : Bool
  pushing : ℕ
  items : ℕ
  tokens : ℕ
  deriving DecidableEq, Repr

/-- A push queues its item, and then finds the flag set and returns (`leave`), or finds it clear,
posts a token and sets the flag (`post`, `mark`).  The token's holder takes an item, or finds none
and drops the token. -/
inductive Event where
  | enqueue
  | leave
  | post
  | mark
  | take
  | drop
  deriving DecidableEq, Repr

def step (s : State) : Event → Option State
  | .enqueue =>
    if s.locked = false then some { s with items := s.items + 1, pushing := s.pushing + 1 }
    else none
  | .leave =>
    if s.locked = false ∧ 0 < s.pushing ∧ s.flag = true then
      some { s with pushing := s.pushing - 1 }
    else none
  | .post =>
    if s.locked = false ∧ 0 < s.pushing ∧ s.flag = false then
      some { s with locked := true, tokens := s.tokens + 1 }
    else none
  | .mark =>
    if s.locked = true then
      some { s with flag := true, locked := false, pushing := s.pushing - 1 }
    else none
  | .take =>
    if s.locked = false ∧ 0 < s.tokens ∧ 0 < s.items then some { s with items := s.items - 1 }
    else none
  | .drop =>
    if s.locked = false ∧ 0 < s.tokens ∧ s.items = 0 then
      some { s with tokens := s.tokens - 1 }
    else none

/-- Nothing is queued and no token exists. -/
def start : State := { flag := false, locked := false, pushing := 0, items := 0, tokens := 0 }

def protocol : System State Event where
  init s := s = start
  step := step

@[simp] theorem protocol_step : protocol.step = step := rfl

/-! ## The invariant -/

/-- The flag and the lock say how many tokens there are. -/
structure Inv (s : State) : Prop where
  locked : s.locked = true → s.flag = false ∧ s.tokens = 1 ∧ 0 < s.pushing
  idle : s.flag = false → s.locked = false → s.tokens = 0 ∧ (0 < s.items → 0 < s.pushing)
  single : s.tokens ≤ 1

/-- A mailbox that nobody has posted to is in order. -/
theorem inv_start : Inv start := ⟨nofun, fun _ _ => ⟨rfl, nofun⟩, Nat.zero_le 1⟩

/-- One step keeps the invariant. -/
theorem step_inv {s s' : State} {e : Event} (h : Inv s) (hs : step s e = some s') : Inv s' := by
  obtain ⟨hl, hi, h1⟩ := h
  cases e <;> simp only [step, Option.ite_none_right_eq_some, Option.some.injEq] at hs <;>
    obtain ⟨hguard, rfl⟩ := hs
  case enqueue => exact ⟨by simp [hguard], fun hf _ => ⟨(hi hf hguard).1, by simp⟩, h1⟩
  case leave => exact ⟨by simp [hguard.1], by simp [hguard.2.2], h1⟩
  case post =>
    obtain ⟨hnl, hp, hf⟩ := hguard
    have h0 := (hi hf hnl).1
    exact ⟨fun _ => ⟨hf, by simp [h0], hp⟩, nofun, by simp [h0]⟩
  case mark => exact ⟨nofun, nofun, h1⟩
  case take =>
    obtain ⟨hnl, ht, hq⟩ := hguard
    refine ⟨by simp [hnl], fun hf _ => ⟨(hi hf hnl).1, fun _ => (hi hf hnl).2 hq⟩, h1⟩
  case drop =>
    obtain ⟨hnl, ht, hq⟩ := hguard
    refine ⟨by simp [hnl], fun hf _ => ⟨?_, by simp [hq]⟩, ?_⟩
    · simp [(hi hf hnl).1]
    · simp only; omega

/-- There is never more than one token, and the invariant holds after every run. -/
theorem run_inv {s s' : State} {es : List Event} (h : Inv s)
    (hrun : protocol.run s es = some s') : Inv s' := by
  induction es generalizing s with
  | nil =>
    obtain rfl : s = s' := by simpa using hrun
    exact h
  | cons e es ih =>
    obtain ⟨t, ht, hrest⟩ := Option.bind_eq_some_iff.mp hrun
    exact ih (step_inv h ht) hrest

/-! ## Dropped tokens -/

/-- The flag is set and the token is gone. -/
def Drained (s : State) : Prop := s.flag = true ∧ s.locked = false ∧ s.tokens = 0

/-- Some item is queued after a token has been dropped. -/
def EnqueuedAfterDrop : List Event → Prop
  | [] => False
  | e :: es => (e = .drop ∧ .enqueue ∈ es) ∨ EnqueuedAfterDrop es

/-- Where an item is queued after a drop, one is queued. -/
theorem EnqueuedAfterDrop.mem {es : List Event} (h : EnqueuedAfterDrop es) : .enqueue ∈ es := by
  induction es with
  | nil => exact h.elim
  | cons e es ih =>
    rcases h with ⟨-, hmem⟩ | h
    · exact List.mem_cons_of_mem _ hmem
    · exact List.mem_cons_of_mem _ (ih h)

/-- A list that may begin with one more event. -/
theorem enqueuedAfterDrop_append {o : Option Event} {es : List Event} :
    EnqueuedAfterDrop (o.toList ++ es) ↔
      (o = some .drop ∧ .enqueue ∈ es) ∨ EnqueuedAfterDrop es := by
  cases o with
  | none => simp
  | some e => simp [EnqueuedAfterDrop]

/-- Once drained, always drained, and then items only come. -/
theorem step_drained {s s' : State} {e : Event} (h : Drained s) (hs : step s e = some s') :
    Drained s' ∧ (0 < s'.items ↔ 0 < s.items ∨ e = .enqueue) := by
  obtain ⟨hf, hl, ht⟩ := h
  cases e <;> simp only [step, Option.ite_none_right_eq_some, Option.some.injEq] at hs <;>
    obtain ⟨hguard, rfl⟩ := hs
  case enqueue => exact ⟨⟨hf, hl, ht⟩, by simp⟩
  case leave => exact ⟨⟨hf, hl, ht⟩, by simp⟩
  all_goals simp_all

/-- After a drop the items that come stay. -/
theorem run_drained {s s' : State} {es : List Event} (h : Drained s)
    (hrun : protocol.run s es = some s') :
    Drained s' ∧ (0 < s'.items ↔ 0 < s.items ∨ .enqueue ∈ es) := by
  induction es generalizing s with
  | nil =>
    obtain rfl : s = s' := by simpa using hrun
    exact ⟨h, by simp⟩
  | cons e es ih =>
    obtain ⟨t, ht, hrest⟩ := Option.bind_eq_some_iff.mp hrun
    obtain ⟨hd, hitems⟩ := step_drained h ht
    obtain ⟨hd', hitems'⟩ := ih hd hrest
    refine ⟨hd', ?_⟩
    rw [hitems', hitems, List.mem_cons, or_assoc, eq_comm (a := e)]

/-- Only a drop drains, and it drains an empty queue. -/
theorem step_drains {s s' : State} {e : Event} (hI : Inv s) (h : ¬ Drained s)
    (hs : step s e = some s') : Drained s' ↔ e = .drop := by
  obtain ⟨hl, hi, h1⟩ := hI
  cases e <;> simp only [step, Option.ite_none_right_eq_some, Option.some.injEq] at hs <;>
    obtain ⟨hguard, rfl⟩ := hs
  case drop =>
    obtain ⟨hnl, ht, hq⟩ := hguard
    have hf : s.flag = true := by
      by_contra hne
      have := (hi (by simpa using hne) hnl).1
      omega
    simp only [Drained, hf, hnl, true_and, iff_true]
    omega
  case mark =>
    have := (hl hguard).2.1
    simp [Drained, this]
  all_goals simp_all [Drained]

/-- **When items are left unattended.**  After a run in which every push has returned, items
are queued and no token exists exactly when some item was queued after a drop. -/
theorem unattended_iff {s : State} {es : List Event} (hrun : protocol.run start es = some s)
    (hret : s.pushing = 0) : (0 < s.items ∧ s.tokens = 0) ↔ EnqueuedAfterDrop es := by
  have hdrained : ∀ s₀ es, Inv s₀ → ¬ Drained s₀ → protocol.run s₀ es = some s →
      ((Drained s ∧ 0 < s.items) ↔ EnqueuedAfterDrop es) := by
    intro s₀ es hI hnd h
    induction es generalizing s₀ with
    | nil =>
      obtain rfl : s₀ = s := by simpa using h
      exact iff_of_false (fun hd => hnd hd.1) id
    | cons e es ih =>
      obtain ⟨t, ht, hrest⟩ := Option.bind_eq_some_iff.mp h
      by_cases he : e = .drop
      · have hd : Drained t := (step_drains hI hnd ht).mpr he
        obtain ⟨hd', hitems⟩ := run_drained hd hrest
        have hempty : t.items = 0 := by
          subst he
          simp only [protocol_step, step, Option.ite_none_right_eq_some,
            Option.some.injEq] at ht
          obtain ⟨⟨-, -, hq⟩, rfl⟩ := ht
          exact hq
        simp only [hd', hitems, hempty, EnqueuedAfterDrop, he, true_and]
        constructor
        · intro h
          exact .inl (by simpa using h)
        · rintro (h | h)
          · exact .inr h
          · exact .inr h.mem
      · have hnd' : ¬ Drained t := fun hd => he ((step_drains hI hnd ht).mp hd)
        rw [ih t (step_inv hI ht) hnd' hrest]
        simp [EnqueuedAfterDrop, he]
  rw [← hdrained start es inv_start (by simp [Drained, start]) hrun]
  have hI := run_inv inv_start hrun
  constructor
  · rintro ⟨hq, ht⟩
    -- without a token and without a push in progress the flag must be set
    have hnl : s.locked = false := by
      by_contra hne
      have := (hI.locked (by simpa using hne)).2.1
      omega
    have hf : s.flag = true := by
      by_contra hne
      have := (hI.idle (by simpa using hne) hnl).2 hq
      omega
    exact ⟨⟨hf, hnl, ht⟩, hq⟩
  · rintro ⟨⟨-, -, ht⟩, hq⟩
    exact ⟨hq, ht⟩

end MagicNet.Foundation.Activation
