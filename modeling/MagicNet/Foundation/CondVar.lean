import Mathlib.Data.List.Basic
import Mathlib.Data.List.Perm.Basic
import Mathlib.Tactic

/-!
# A condition variable

The threads in `wait` on a condition variable are `blocked` until one of its notifications picks them
or they wake for no reason; then they have yet to get the mutex and test their predicate again.
`notifyOne` picks one blocked thread, any of them, and does nothing where there is none;
`notifyAll` picks all.

A wake-up is lost where the predicate of a blocked thread holds and no thread that has been notified
has yet to test it: `NoLost` says that it is not.  A change of the predicate from false to true has
to be followed by a notification (`noLost_notifyOne`; after `notifyAll` nobody is blocked); while it
is false nothing can be lost (`noLost_of_not`), and nothing is by a spurious wake-up.
-/

set_option autoImplicit false

namespace MagicNet.Foundation

/-- The threads in `wait`: blocked with no notification; notified, and woken spuriously, and not yet
back from `wait`.  A thread that waits twice is there twice. -/
structure CondVar (T : Type*) where
  blocked : List T
  notified : List T
  woken : List T

/-- Why a thread has been unblocked. -/
inductive Wake where
  | notified
  | spurious
  deriving DecidableEq, Repr

namespace CondVar

variable {T : Type*}

/-- A condition variable on which nobody waits. -/
def empty : CondVar T := { blocked := [], notified := [], woken := [] }

/-- The thread gives the mutex back and blocks. -/
def wait (c : CondVar T) (t : T) : CondVar T := { c with blocked := t :: c.blocked }

def notifyAll (c : CondVar T) : CondVar T :=
  { c with blocked := [], notified := c.blocked ++ c.notified }

/-- The number of threads in `wait`. -/
def waiters (c : CondVar T) : ℕ := c.blocked.length + c.notified.length + c.woken.length

/-- No wake-up is lost for the predicate. -/
def NoLost (c : CondVar T) (pred : Prop) : Prop := c.blocked ≠ [] → pred → c.notified ≠ []

section

variable {c : CondVar T} {t : T} {pred : Prop}

/-- A thread that waits is one waiter more. -/
@[simp] theorem waiters_wait : (c.wait t).waiters = c.waiters + 1 := by
  simp only [wait, waiters, List.length_cons]
  omega

/-- Those that are notified are still waiters, until they have the lock. -/
@[simp] theorem waiters_notifyAll : c.notifyAll.waiters = c.waiters := by
  simp only [notifyAll, waiters, List.length_append, List.length_nil]
  omega

/-- While the predicate is false nothing is lost. -/
theorem noLost_of_not (h : ¬ pred) : c.NoLost pred := fun _ hp => absurd hp h

/-- Where nobody is blocked no notification is missing. -/
theorem noLost_of_blocked_nil (h : c.blocked = []) : c.NoLost pred := fun hb => absurd h hb

end

variable [DecidableEq T]

/-- `choice` is the thread that is picked; it is only asked for where some thread is blocked. -/
def notifyOne (c : CondVar T) (choice : Option T) : Option (CondVar T) :=
  if c.blocked = [] then some c
  else
    match choice with
    | none => none
    | some t =>
      if t ∈ c.blocked then
        some { c with blocked := c.blocked.erase t, notified := t :: c.notified }
      else none

/-- A blocked thread wakes without a notification. -/
def spurious (c : CondVar T) (t : T) : Option (CondVar T) :=
  if t ∈ c.blocked then some { c with blocked := c.blocked.erase t, woken := t :: c.woken }
  else none

/-- An unblocked thread gets the mutex and comes back from `wait`. -/
def leave (c : CondVar T) (t : T) : Wake → Option (CondVar T)
  | .notified =>
    if t ∈ c.notified then some { c with notified := c.notified.erase t } else none
  | .spurious => if t ∈ c.woken then some { c with woken := c.woken.erase t } else none

variable {c c' : CondVar T} {t : T} {pred : Prop}

/-! ## What one thread does -/

/-- A thread taken out of a list. -/
theorem length_erase_add_one {l : List T} (h : t ∈ l) : (l.erase t).length + 1 = l.length := by
  have := List.length_pos_of_mem h
  rw [List.length_erase_of_mem h]
  omega

/-- A `notifyOne` finds nobody blocked, or picks a thread. -/
theorem notifyOne_cases {choice : Option T} (h : c.notifyOne choice = some c') :
    c.blocked = [] ∧ c' = c ∨
      ∃ t ∈ c.blocked, c' = { c with blocked := c.blocked.erase t, notified := t :: c.notified } := by
  unfold notifyOne at h
  split at h
  · next hnone => exact .inl ⟨hnone, (Option.some.inj h).symm⟩
  · cases choice with
    | none => simp at h
    | some t =>
      simp only at h
      split at h
      · next hmem => exact .inr ⟨t, hmem, (Option.some.inj h).symm⟩
      · simp at h

/-- The one that is notified is still a waiter. -/
theorem waiters_notifyOne {choice : Option T} (h : c.notifyOne choice = some c') :
    c'.waiters = c.waiters := by
  rcases notifyOne_cases h with ⟨-, rfl⟩ | ⟨t, hmem, rfl⟩
  · rfl
  · have := length_erase_add_one hmem
    simp only [waiters, List.length_cons]
    omega

/-- A spurious wake-up takes a blocked thread to those that are woken. -/
theorem spurious_eq (h : c.spurious t = some c') : t ∈ c.blocked ∧
    c' = { c with blocked := c.blocked.erase t, woken := t :: c.woken } := by
  unfold spurious at h
  split at h
  · next hmem => exact ⟨hmem, (Option.some.inj h).symm⟩
  · simp at h

/-- It changes nothing about who waits. -/
theorem waiters_spurious (h : c.spurious t = some c') : c'.waiters = c.waiters := by
  obtain ⟨hmem, rfl⟩ := spurious_eq h
  have := length_erase_add_one hmem
  simp only [waiters, List.length_cons]
  omega

/-- A thread that comes back leaves the blocked ones alone. -/
theorem leave_eq {w : Wake} (h : c.leave t w = some c') :
    c'.blocked = c.blocked ∧ c'.waiters + 1 = c.waiters := by
  cases w with
  | notified =>
    simp only [leave] at h
    split at h
    · next hmem =>
      obtain rfl := Option.some.inj h
      have := length_erase_add_one hmem
      refine ⟨rfl, ?_⟩
      simp only [waiters]
      omega
    · simp at h
  | spurious =>
    simp only [leave] at h
    split at h
    · next hmem =>
      obtain rfl := Option.some.inj h
      have := length_erase_add_one hmem
      refine ⟨rfl, ?_⟩
      simp only [waiters]
      omega
    · simp at h

/-- After a notification none is missing. -/
theorem noLost_notifyOne {choice : Option T} (h : c.notifyOne choice = some c') :
    c'.NoLost pred := by
  rcases notifyOne_cases h with ⟨hnone, rfl⟩ | ⟨t, -, rfl⟩
  · exact noLost_of_blocked_nil hnone
  · exact fun _ _ => List.cons_ne_nil _ _

/-- A spurious wake-up makes none missing. -/
theorem noLost_spurious (hlost : c.NoLost pred) (h : c.spurious t = some c') :
    c'.NoLost pred := by
  obtain ⟨hmem, rfl⟩ := spurious_eq h
  exact fun _ hp => hlost (List.ne_nil_of_mem hmem) hp

end CondVar

end MagicNet.Foundation
