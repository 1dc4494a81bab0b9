import Mathlib.Logic.Function.Basic
import Mathlib.Tactic.Common

/-!
# Critical sections and what their threads rely on

A table of threads, each at a place of its program, and the flag of a lock.  Some places are inside
the section that the lock guards: the lock is taken exactly while a thread is inside, and one thread
is inside at most (`Guarded`).  A step moves one thread: it enters, with the lock free; it leaves and
frees the lock; or it stays on its side.

What a thread may rely on at its place is a property of the place and of what is shared.  A step that
changes what is shared keeps it where the thread that takes the step can rely on it at its new place,
and the others still can at theirs (`forall_update`); where the thread is inside, the others are
outside (`Guarded.others`).
-/

set_option autoImplicit false

namespace MagicNet.Foundation

variable {ι π : Type*}

/-- The lock is taken exactly while a thread is inside, and one thread at most is. -/
structure Guarded (flag : Bool) (inside : π → Prop) (pc : ι → π) : Prop where
  alone : ∀ t u, inside (pc t) → inside (pc u) → t = u
  taken : flag = true ↔ ∃ t, inside (pc t)

namespace Guarded

variable {flag : Bool} {inside : π → Prop} {pc : ι → π} {t : ι}

/-- Nobody is inside: the lock is free. -/
theorem outside (h : Guarded flag inside pc) (hfree : flag = false) (u : ι) : ¬ inside (pc u) := by
  intro hu
  have htaken := h.taken.mpr ⟨u, hu⟩
  simp [hfree] at htaken

/-- The others are outside while one is inside. -/
theorem others (h : Guarded flag inside pc) (ht : inside (pc t)) (u : ι) (hu : u ≠ t) :
    ¬ inside (pc u) :=
  fun hin => hu (h.alone u t hin ht)

/-- All are outside at the start. -/
theorem init (h : ∀ u, ¬ inside (pc u)) : Guarded false inside pc where
  alone u _ hu := absurd hu (h u)
  taken := by simpa using h

end Guarded

variable [DecidableEq ι]

/-- What holds of the place a thread comes to, and of those of the others, holds of all places. -/
theorem forall_update {P : π → Prop} {pc : ι → π} {t : ι} {p : π} (hself : P p)
    (hothers : ∀ u, u ≠ t → P (pc u)) (u : ι) : P (Function.update pc t p u) := by
  by_cases hu : u = t
  · subst hu
    simpa using hself
  · simpa [hu] using hothers u hu

namespace Guarded

variable {flag : Bool} {inside : π → Prop} {pc : ι → π} {t : ι} {p : π}

/-- A thread enters and takes the lock. -/
theorem enter (h : Guarded flag inside pc) (hfree : flag = false) (hp : inside p) :
    Guarded true inside (Function.update pc t p) where
  alone u v hu hv := by
    have honly (w : ι) (hw : inside (Function.update pc t p w)) : w = t := by
      by_contra hne
      rw [Function.update_of_ne hne] at hw
      exact h.outside hfree w hw
    rw [honly u hu, honly v hv]
  taken := by simpa using ⟨t, by simpa using hp⟩

/-- The thread that is inside leaves and frees the lock. -/
theorem leave (h : Guarded flag inside pc) (ht : inside (pc t)) (hp : ¬ inside p) :
    Guarded false inside (Function.update pc t p) :=
  init (forall_update (P := fun p => ¬ inside p) hp (h.others ht))

/-- A thread stays on its side. -/
theorem stay (h : Guarded flag inside pc) (hp : inside p ↔ inside (pc t)) :
    Guarded flag inside (Function.update pc t p) := by
  have hside (u : ι) : inside (Function.update pc t p u) ↔ inside (pc u) := by
    by_cases hu : u = t
    · subst hu
      simpa using hp
    · simp [hu]
  constructor
  · intro u v hu hv
    exact h.alone u v ((hside u).mp hu) ((hside v).mp hv)
  · simpa only [hside] using h.taken

end Guarded

end MagicNet.Foundation
