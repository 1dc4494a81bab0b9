import MagicNet.Foundation.System

/-!
# A consumer that sleeps when it finds no work

The protocol behind every "queue, then signal" pair.  A producer queues work and then gives a
signal; between the two its *post* is in progress.  A consumer looks at the work; when it
finds none it *commits* to sleep and then sleeps.  A signal given while the consumer still
looks, or sleeps, makes it look again; one given in between may be *caught* (some flag is read
before the consumer sleeps) or *missed*.

The protocol loses a wake-up exactly when the last post in progress misses its signal while
there is work and the consumer no longer looks.  `not_lost` is the rule the concrete protocols
use: where no such signal is missed, no state has queued work, no post in progress and a
sleeping consumer.
-/

set_option autoImplicit false

namespace MagicNet.Foundation.Wakeup

/-- What the consumer is doing: it will look at the work before it sleeps, it has found none
and is about to sleep, or it sleeps. -/
inductive Phase where
  | looking
  | committed
  | asleep
  deriving DecidableEq, Repr

/-- Whether some work is queued; the number of the posts in progress, whose work is queued and
whose signal is not yet given; and the consumer's phase. -/
structure State where
  work : Bool
  posts : ℕ
  phase : Phase
  deriving DecidableEq, Repr

/-- A post begins when its work is queued (`produce`) and ends with its signal, which the consumer
catches or misses; `nudge` is a wake-up that belongs to no post.  The consumer takes some of the
work, `left` saying whether any remains, or finds none (`settle`), and then falls asleep. -/
inductive Event where
  | produce
  | signal (caught : Bool)
  | nudge
  | look (left : Bool)
  | settle
  | sleep
  deriving DecidableEq, Repr

def step (s : State) : Event → Option State
  | .produce => some { s with work := true, posts := s.posts + 1 }
  | .signal caught =>
    if 0 < s.posts then
      some { s with posts := s.posts - 1, phase := if caught then .looking else s.phase }
    else none
  | .nudge => some { s with phase := .looking }
  | .look left =>
    if s.phase = .looking then some { s with work := s.work && left } else none
  | .settle =>
    if s.phase = .looking ∧ s.work = false then some { s with phase := .committed } else none
  | .sleep => if s.phase = .committed then some { s with phase := .asleep } else none

/-- The protocol: nothing is queued and nobody posts at the start. -/
def protocol : System State Event where
  init s := s.work = false ∧ s.posts = 0
  step := step

/-- The signal of the last post in progress is not missed while there is work and the consumer
no longer looks. -/
def Heard (s : State) (e : Event) : Prop :=
  e = .signal false → ¬(s.work = true ∧ s.posts = 1 ∧ s.phase ≠ .looking)

/-- Only a signal can go unheard. -/
theorem heard_of_ne {s : State} {e : Event} (h : e ≠ .signal false) : Heard s e :=
  fun he => absurd he h

/-- A lost wake-up: work is queued, nobody is going to signal, and the consumer sleeps. -/
def Lost (s : State) : Prop := s.work = true ∧ s.posts = 0 ∧ s.phase = .asleep

/-- Queued work has somebody who will see to it. -/
def Covered (s : State) : Prop := s.work = true → 0 < s.posts ∨ s.phase = .looking

/-- A step that is not a missed last signal keeps queued work covered. -/
theorem step_covered (s : State) (e : Event) (s' : State) (h : Covered s) (hg : Heard s e)
    (hs : step s e = some s') : Covered s' := by
  unfold Covered at h ⊢
  cases e with
  | produce =>
    obtain rfl : _ = s' := by simpa [step] using hs
    exact fun _ => .inl (Nat.succ_pos _)
  | signal caught =>
    simp only [step] at hs
    split at hs
    · obtain rfl : _ = s' := by simpa using hs
      intro hw
      cases caught with
      | true => exact .inr rfl
      | false =>
        -- the guard leaves either another post or a consumer that still looks
        by_cases hp : s.posts = 1
        · by_cases hl : s.phase = .looking
          · exact .inr hl
          · exact absurd ⟨hw, hp, hl⟩ (hg rfl)
        · exact .inl (by simp only; omega)
    · cases hs
  | nudge =>
    obtain rfl : _ = s' := by simpa [step] using hs
    exact fun _ => .inr rfl
  | look left =>
    simp only [step] at hs
    split at hs
    · next hl =>
      obtain rfl : _ = s' := by simpa using hs
      exact fun _ => .inr hl
    · cases hs
  | settle =>
    simp only [step] at hs
    split at hs
    · next hl =>
      obtain rfl : _ = s' := by simpa using hs
      intro hw
      exact absurd hl.2 (by simpa using hw)
    · cases hs
  | sleep =>
    simp only [step] at hs
    split at hs
    · next hc =>
      obtain rfl : _ = s' := by simpa using hs
      intro hw
      rcases h hw with hp | hl
      · exact .inl hp
      · exact absurd (hc.symm.trans hl) (by decide)
    · cases hs

/-- Queued work stays covered in every run that misses no last signal. -/
theorem covered_of_via {s : State} (h : protocol.Via Heard s) : Covered s := by
  refine h.invariant (I := Covered) ?_ step_covered
  rintro t ⟨hnone, -⟩ hw
  rw [hnone] at hw
  cases hw

/-- **No lost wake-up**: a run that misses no last signal reaches no lost state. -/
theorem not_lost {s : State} (h : protocol.Via Heard s) : ¬ Lost s := by
  rintro ⟨hw, hp, ha⟩
  rcases covered_of_via h hw with hpos | hl
  · omega
  · exact absurd (ha.symm.trans hl) (by decide)

end MagicNet.Foundation.Wakeup
