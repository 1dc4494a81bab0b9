import Mathlib.Data.List.Count
import Mathlib.Logic.Function.Basic
import Mathlib.Tactic

/-!
# Reference counts

A `RefCount` is the counter of each object with the log of the objects that were deleted: an object
is made with one reference, and `decr` deletes it when its counter comes to zero.

The counters are right when they agree with the references that there really are, which `owed` counts
in whatever way the program keeps them.  `Settled` says that they agree and that exactly the objects
without a reference have been deleted, each once.  One rule for each operation says what the program
has to do with its references for the counters to stay so: `make` and `incr` go with a new reference
of the object, `decr` with one less; and an object that has no reference left is not touched.
-/

set_option autoImplicit false

namespace MagicNet.Foundation

variable {A : Type*} [DecidableEq A]

structure RefCount (A : Type*) where
  count : A → ℤ
  deleted : List A

namespace RefCount

/-- A new object, with the reference of its maker. -/
def make (r : RefCount A) (a : A) : RefCount A := { r with count := Function.update r.count a 1 }

def incr (r : RefCount A) (a : A) : RefCount A :=
  { r with count := Function.update r.count a (r.count a + 1) }

def decr (r : RefCount A) (a : A) : RefCount A where
  count := Function.update r.count a (r.count a - 1)
  deleted := if r.count a - 1 = 0 then a :: r.deleted else r.deleted

section Counters

variable (r : RefCount A) {a b : A}

@[simp] theorem make_count_self : (r.make a).count a = 1 := Function.update_self _ _ _

/-- The other counts stay. -/
theorem make_count_of_ne (hne : b ≠ a) : (r.make a).count b = r.count b :=
  Function.update_of_ne hne _ _

@[simp] theorem incr_count_self : (r.incr a).count a = r.count a + 1 := Function.update_self _ _ _

/-- The other counts stay. -/
theorem incr_count_of_ne (hne : b ≠ a) : (r.incr a).count b = r.count b :=
  Function.update_of_ne hne _ _

@[simp] theorem decr_count_self : (r.decr a).count a = r.count a - 1 := Function.update_self _ _ _

/-- The other counts stay. -/
theorem decr_count_of_ne (hne : b ≠ a) : (r.decr a).count b = r.count b :=
  Function.update_of_ne hne _ _

end Counters

/-- The counters of the objects made are their references, and the objects without references have
been deleted, each once. -/
structure Settled (r : RefCount A) (made : A → Prop) (owed : A → ℕ) : Prop where
  count : ∀ a, made a → r.count a = owed a
  known : ∀ a ∈ r.deleted, made a
  alive : ∀ a, made a → owed a ≠ 0 → a ∉ r.deleted
  gone : ∀ a, made a → owed a = 0 → r.deleted.count a = 1

variable {r : RefCount A} {made made' : A → Prop} {owed owed' : A → ℕ} {a : A}

namespace Settled

/-- References that are owed the same number of times each are owed the same. -/
theorem congr (h : r.Settled made owed) (howed : ∀ a, owed' a = owed a) : r.Settled made owed' := by
  obtain rfl : owed' = owed := funext howed
  exact h

/-- Nothing is deleted twice. -/
theorem nodup (h : r.Settled made owed) : r.deleted.Nodup := by
  apply List.nodup_iff_count_le_one.mpr
  intro a
  by_cases hmem : a ∈ r.deleted
  · by_cases howed : owed a = 0
    · rw [h.gone a (h.known a hmem) howed]
    · exact absurd hmem (h.alive a (h.known a hmem) howed)
  · rw [List.count_eq_zero_of_not_mem hmem]
    omega

/-- The objects deleted are those without a reference. -/
theorem mem_deleted (h : r.Settled made owed) (hmade : made a) :
    a ∈ r.deleted ↔ owed a = 0 := by
  constructor
  · intro hmem
    by_contra howed
    exact h.alive a hmade howed hmem
  · intro howed
    apply List.count_pos_iff.mp
    rw [h.gone a hmade howed]
    omega

/-- **An object is made** with one reference. -/
theorem make (h : r.Settled made owed) (hnew : ¬ made a) (hmade : ∀ b, made' b ↔ made b ∨ b = a)
    (hself : owed' a = 1) (hother : ∀ b, b ≠ a → owed' b = owed b) :
    (r.make a).Settled made' owed' := by
  have hold : ∀ {b}, made' b → b ≠ a → made b := fun hb hne => ((hmade _).mp hb).resolve_right hne
  refine ⟨?_, ?_, ?_, ?_⟩
  · intro b hb
    by_cases hne : b = a
    · subst hne
      rw [make_count_self, hself]
      rfl
    · rw [make_count_of_ne r hne, hother b hne]
      exact h.count b (hold hb hne)
  · intro b hb
    exact (hmade b).mpr (.inl (h.known b hb))
  · intro b hb howed hmem
    by_cases hne : b = a
    · exact hnew (hne ▸ h.known b hmem)
    · rw [hother b hne] at howed
      exact h.alive b (hold hb hne) howed hmem
  · intro b hb howed
    by_cases hne : b = a
    · subst hne
      omega
    · rw [hother b hne] at howed
      exact h.gone b (hold hb hne) howed

/-- **A reference is added** to an object that has one. -/
theorem incr (h : r.Settled made owed) (hmade : made a) (hpos : 0 < owed a)
    (hself : owed' a = owed a + 1) (hother : ∀ b, b ≠ a → owed' b = owed b) :
    (r.incr a).Settled made owed' := by
  refine ⟨?_, h.known, ?_, ?_⟩
  · intro b hb
    by_cases hne : b = a
    · subst hne
      rw [incr_count_self, h.count b hb, hself]
      push_cast
      rfl
    · rw [incr_count_of_ne r hne, hother b hne]
      exact h.count b hb
  · intro b hb howed
    by_cases hne : b = a
    · subst hne
      exact h.alive b hb (by omega)
    · rw [hother b hne] at howed
      exact h.alive b hb howed
  · intro b hb howed
    by_cases hne : b = a
    · subst hne
      omega
    · rw [hother b hne] at howed
      exact h.gone b hb howed

/-- **A reference is given up**; with the last one the object is deleted. -/
theorem decr (h : r.Settled made owed) (hmade : made a) (hself : owed a = owed' a + 1)
    (hother : ∀ b, b ≠ a → owed' b = owed b) : (r.decr a).Settled made owed' := by
  have hcount : r.count a - 1 = owed' a := by
    rw [h.count a hmade, hself]
    push_cast
    omega
  have hfresh : a ∉ r.deleted := h.alive a hmade (by omega)
  refine ⟨?_, ?_, ?_, ?_⟩
  · intro b hb
    by_cases hne : b = a
    · subst hne
      rw [decr_count_self, hcount]
    · rw [decr_count_of_ne r hne, hother b hne]
      exact h.count b hb
  · intro b hb
    simp only [RefCount.decr] at hb
    split at hb
    · rcases List.mem_cons.mp hb with rfl | hb
      · exact hmade
      · exact h.known b hb
    · exact h.known b hb
  · intro b hb howed
    simp only [RefCount.decr]
    by_cases hne : b = a
    · subst hne
      rw [if_neg (by omega)]
      exact hfresh
    · rw [hother b hne] at howed
      have hold := h.alive b hb howed
      split
      · exact fun hmem => hold ((List.mem_cons.mp hmem).resolve_left hne)
      · exact hold
  · intro b hb howed
    simp only [RefCount.decr]
    by_cases hne : b = a
    · subst hne
      rw [if_pos (by omega), List.count_cons_self, List.count_eq_zero_of_not_mem hfresh]
    · rw [hother b hne] at howed
      have hold := h.gone b hb howed
      split
      · rw [List.count_cons_of_ne (Ne.symm hne)]
        exact hold
      · exact hold

/-- A reference that is given up while there are others deletes nothing: it may be taken again. -/
theorem decr_incr (h : r.Settled made owed) (hmade : made a) (hmore : 1 < owed a) :
    ((r.decr a).incr a).Settled made owed := by
  have hless : (r.decr a).Settled made (Function.update owed a (owed a - 1)) := by
    apply h.decr hmade
    · rw [Function.update_self]
      omega
    · intro b hne
      rw [Function.update_of_ne hne]
  apply hless.incr hmade
  · rw [Function.update_self]
    omega
  · rw [Function.update_self]
    omega
  · intro b hne
    rw [Function.update_of_ne hne]

/-- It deletes nothing. -/
theorem decr_deleted (h : r.Settled made owed) (hmade : made a) (hmore : 1 < owed a) :
    (r.decr a).deleted = r.deleted := by
  have hcount := h.count a hmade
  simp only [RefCount.decr]
  rw [if_neg (by omega)]

end Settled

/-- Nothing is deleted but the object whose last reference is given up. -/
theorem decr_deleted (r : RefCount A) (a : A) : (r.decr a).deleted = r.deleted ∨
    r.count a = 1 ∧ (r.decr a).deleted = a :: r.deleted := by
  simp only [decr]
  split
  · exact .inr ⟨by omega, rfl⟩
  · exact .inl rfl

end RefCount

end MagicNet.Foundation
