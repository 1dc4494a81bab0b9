import Mathlib.Data.List.TakeWhile

/-!
# Bytes that end with a zero

A buffer is the list of its chars, and `store` fails outside of it.  `storeAll` stores one char after
another, and `cstring` is what a function is given that reads up to the first zero; it fails where the
buffer has none.

* `storeAll_between`: what is stored replaces as many chars, and nothing else;
* `cstring_append`: what stands before the zero, where it has none itself.
-/

set_option autoImplicit false

namespace MagicNet.Foundation

/-- A string in memory, without the zero that ends it. -/
structure CString where
  chars : List Char
  noNul : '\x00' ∉ chars

def store (buffer : List Char) (i : ℕ) (x : Char) : Option (List Char) :=
  if i < buffer.length then some (buffer.set i x) else none

def storeAll (buffer : List Char) (i : ℕ) : List Char → Option (List Char)
  | [] => some buffer
  | x :: xs => (store buffer i x).bind fun buffer => storeAll buffer (i + 1) xs

def cstring (buffer : List Char) : Option (List Char) :=
  if '\x00' ∈ buffer then some (buffer.takeWhile (· ≠ '\x00')) else none

/-- A char in the middle of an array is stored there, and the rest stays. -/
theorem store_between (before after : List Char) (x y : Char) :
    store (before ++ x :: after) before.length y = some (before ++ y :: after) := by
  rw [store, if_pos (by simp), List.set_append_right _ _ le_rfl, Nat.sub_self]
  rfl

/-- So are several, in the place of as many. -/
theorem storeAll_between {middle xs : List Char} (before after : List Char)
    (h : middle.length = xs.length) :
    storeAll (before ++ middle ++ after) before.length xs = some (before ++ xs ++ after) := by
  induction xs generalizing before middle with
  | nil =>
    obtain rfl := List.length_eq_zero_iff.mp h
    rfl
  | cons x xs ih =>
    cases middle with
    | nil => cases h
    | cons y middle =>
      have hrest := ih (before ++ [x]) (Nat.succ.inj h)
      rw [List.length_append, List.length_singleton] at hrest
      rw [storeAll, List.append_assoc, List.cons_append, store_between, Option.bind_some]
      simpa using hrest

/-- The string in an array ends before the first null, whatever follows it. -/
theorem cstring_append {s : List Char} (hs : '\x00' ∉ s) (after : List Char) :
    cstring (s ++ '\x00' :: after) = some s := by
  rw [cstring, if_pos (by simp), List.takeWhile_append_of_pos]
  · simp
  · intro x hx
    exact decide_eq_true fun heq => hs (heq ▸ hx)

end MagicNet.Foundation
