import Mathlib.Logic.Function.Basic
import Mathlib.Tactic.Common

/-!
# Contexts that are resumed once

A context that does not run is known by a handle, and `saved` has the code it goes on with.  A jump to
it lets that code go on, and the code that has jumped is saved under the handle that it gets.  A library
of such contexts is a parameter, `Lawful` what it promises: a jump to a handle goes on with the code
that is saved there, and the other contexts stay as they are.  What a jump to any other handle does is
left open, and whether a handle that was jumped to may be given out again.

`Contexts` is the library that gives out a new handle each time.
-/

set_option autoImplicit false

namespace MagicNet.Foundation

/-- A library of contexts: `κ` is its state, `η` are its handles and `γ` is code. -/
structure Coroutines (γ κ η : Type*) where
  /-- A new context for the code, and its handle. -/
  make : κ → γ → η × κ
  /-- The code jumps to a handle: the code that goes on there, and the handle of the code that has
  jumped. -/
  jump : κ → γ → η → γ × η × κ

namespace Coroutines

variable {γ κ η : Type*} {K : Coroutines γ κ η} {saved : κ → η → Option γ} {c c' : κ}
  {k code code' : γ} {target h h' : η}

/-- What a library promises of the contexts that do not run. -/
structure Lawful (K : Coroutines γ κ η) (saved : κ → η → Option γ) : Prop where
  made : ∀ c k, saved (K.make c k).2 (K.make c k).1 = some k
  make_keeps : ∀ c k h code, saved c h = some code → saved (K.make c k).2 h = some code
  make_only : ∀ c k h code, saved (K.make c k).2 h = some code → code = k ∨ saved c h = some code
  goes_on : ∀ c k target code, saved c target = some code → (K.jump c k target).1 = code
  jumped : ∀ c k target code, saved c target = some code →
    saved (K.jump c k target).2.2 (K.jump c k target).2.1 = some k
  jump_keeps : ∀ c k target code h code', saved c target = some code → h ≠ target →
    saved c h = some code' → saved (K.jump c k target).2.2 h = some code'
  jump_only : ∀ c k target code h code', saved c target = some code →
    saved (K.jump c k target).2.2 h = some code' → code' = k ∨ saved c h = some code'

/-- The code `k` jumps to a handle that is good, and `code` goes on with the handle `h`. -/
structure Jumps (K : Coroutines γ κ η) (saved : κ → η → Option γ) (c : κ) (k : γ) (target : η)
    (code : γ) (h : η) (c' : κ) : Prop where
  saved : saved c target = some code
  jump : K.jump c k target = (code, h, c')

/-- A jump to a handle that is good goes on with the code that is saved there. -/
theorem Lawful.jumps (hK : K.Lawful saved) (hsaved : saved c target = some code) (k : γ) :
    ∃ h c', K.Jumps saved c k target code h c' :=
  ⟨_, _, hsaved, Prod.ext (hK.goes_on c k target code hsaved) rfl⟩

namespace Jumps

variable (hjump : K.Jumps saved c k target code h c') (hK : K.Lawful saved)

include hjump hK

/-- The code that has jumped is saved. -/
theorem saved_self : saved c' h = some k := by
  have hjumped := hK.jumped c k target code hjump.saved
  rwa [hjump.jump] at hjumped

/-- A context of other code is not the one that was jumped to. -/
theorem saved_of_ne (hsaved : saved c h' = some code') (hne : code' ≠ code) :
    saved c' h' = some code' := by
  have hother : h' ≠ target := by
    rintro rfl
    exact hne (Option.some.inj (hsaved.symm.trans hjump.saved))
  have hkeeps := hK.jump_keeps c k target code h' code' hjump.saved hother hsaved
  rwa [hjump.jump] at hkeeps

/-- What is saved after the jump is the code that has jumped, or was saved before. -/
theorem of_saved (hsaved : saved c' h' = some code') : code' = k ∨ saved c h' = some code' := by
  refine hK.jump_only c k target code h' code' hjump.saved ?_
  rwa [hjump.jump]

end Jumps

end Coroutines

/-! ## A new handle each time -/

/-- The handles from `next` on have not been given out. -/
structure Contexts (γ : Type*) where
  saved : ℕ → Option γ
  next : ℕ
  fresh : ∀ h, next ≤ h → saved h = none

namespace Contexts

variable {γ : Type*} {c : Contexts γ} {k code : γ} {h : ℕ}

/-- The code is saved under the next handle. -/
def make (c : Contexts γ) (k : γ) : Contexts γ where
  saved := Function.update c.saved c.next (some k)
  next := c.next + 1
  fresh h hle := by
    have hnext : h ≠ c.next := by omega
    rw [Function.update_of_ne hnext]
    exact c.fresh h (by omega)

/-- The handle is used up. -/
def use (c : Contexts γ) (h : ℕ) : Contexts γ where
  saved := Function.update c.saved h none
  next := c.next
  fresh h' hle := by
    by_cases heq : h' = h
    · rw [heq, Function.update_self]
    · rw [Function.update_of_ne heq]
      exact c.fresh h' hle

/-- A jump to a handle that is not good goes on with the code that has jumped. -/
def coroutines (γ : Type*) : Coroutines γ (Contexts γ) ℕ where
  make c k := (c.next, c.make k)
  jump c k target := ((c.saved target).getD k, c.next, (c.use target).make k)

/-- A handle with code has been given out. -/
theorem lt_of_saved (hsaved : c.saved h = some code) : h < c.next := by
  by_contra hle
  rw [c.fresh h (by omega)] at hsaved
  cases hsaved

@[simp] theorem make_saved_next : (c.make k).saved c.next = some k := Function.update_self ..

/-- A new context leaves the others as they are. -/
theorem saved_make (hsaved : c.saved h = some code) : (c.make k).saved h = some code :=
  (Function.update_of_ne (Nat.ne_of_lt (lt_of_saved hsaved)) _ _).trans hsaved

/-- What is saved then is the new code, or was saved before. -/
theorem of_saved_make (hsaved : (c.make k).saved h = some code) :
    code = k ∨ c.saved h = some code := by
  by_cases heq : h = c.next
  · rw [heq, make_saved_next] at hsaved
    exact .inl (Option.some.inj hsaved).symm
  · exact .inr ((Function.update_of_ne heq _ _).symm.trans hsaved)

/-- The library that gives out a new handle each time keeps the promises. -/
theorem coroutines_lawful (γ : Type*) : (coroutines γ).Lawful Contexts.saved where
  made _ _ := make_saved_next
  make_keeps _ _ _ _ := saved_make
  make_only _ _ _ _ := of_saved_make
  goes_on c k target code hsaved := by simp [coroutines, hsaved]
  jumped _ _ _ _ _ := make_saved_next
  jump_keeps _ _ _ _ _ _ _ hne hsaved := saved_make ((Function.update_of_ne hne _ _).trans hsaved)
  jump_only c k target code h code' _ hsaved := by
    refine (of_saved_make hsaved).imp_right fun hold => ?_
    by_cases heq : h = target
    · subst heq
      simp [use] at hold
    · exact (Function.update_of_ne heq _ _).symm.trans hold

end Contexts

end MagicNet.Foundation
