import Mathlib.Tactic
import Mathlib.Data.List.Basic
import Mathlib.Logic.Function.Basic

/-!
# The queue of a mailbox

`util::queue` keeps its values in an array that is written in a circle from `m_head` to
`m_tail`, and that is copied into one of twice the size when a push fills it.  The two indices
stay inside the array; the structure carries that.  What `malloc` leaves in the cells that are
not written yet is any value.  The `int`s are naturals here: `m_cap` is `64 * 2 ^ k`, and it takes a
queue with `2 ^ 30` messages in it to double it beyond an `int`, which is more than a run comes to.

SOURCE: util/queue.h:14-124
-/

set_option autoImplicit false

namespace MagicNet.Util

structure Queue (T : Type) where
  m_cap : ℕ
  m_head : ℕ
  m_tail : ℕ
  m_overload : ℕ
  m_overload_threshold : ℕ
  m_arrays : ℕ → T
  head_lt : m_head < m_cap
  tail_lt : m_tail < m_cap

namespace Queue

variable {T : Type}

def DEFAULT_SIZE : ℕ := 64
def EQ_OVERLOAD : ℕ := 1024

/-- A new queue, whose array holds `raw`. -/
def new (raw : ℕ → T) : Queue T where
  m_cap := DEFAULT_SIZE
  m_head := 0
  m_tail := 0
  m_overload := 0
  m_overload_threshold := EQ_OVERLOAD
  m_arrays := raw
  head_lt := by decide
  tail_lt := by decide

def length (q : Queue T) : ℕ :=
  if q.m_head ≤ q.m_tail then q.m_tail - q.m_head else q.m_tail + q.m_cap - q.m_head

/-- `if (++i >= m_cap) i = 0`. -/
def advance (cap i : ℕ) : ℕ := if cap ≤ i + 1 then 0 else i + 1

/-- An index that goes round stays inside the array.
SOURCE: util/queue.h:72-82 -/
theorem advance_lt {cap i : ℕ} (h : i < cap) : advance cap i < cap := by
  unfold advance
  split <;> omega

def local_expand (q : Queue T) : Queue T where
  m_cap := q.m_cap * 2
  m_head := 0
  m_tail := q.m_cap
  m_overload := q.m_overload
  m_overload_threshold := q.m_overload_threshold
  m_arrays := fun i =>
    if i < q.m_cap then q.m_arrays ((q.m_head + i) % q.m_cap) else q.m_arrays i
  head_lt := by have := q.head_lt; omega
  tail_lt := by have := q.head_lt; omega

/-- The write of `local_push`, before its test for a full array. -/
def write (q : Queue T) (val : T) : Queue T :=
  { q with
    m_arrays := Function.update q.m_arrays q.m_tail val
    m_tail := advance q.m_cap q.m_tail
    tail_lt := advance_lt q.tail_lt }

def local_push (q : Queue T) (val : T) : Queue T :=
  let q := q.write val
  if q.m_head = q.m_tail then q.local_expand else q

/-- The loop over `m_overload_threshold`: the last `m_overload` and the threshold. -/
def overloaded (length overload threshold : ℕ) : ℕ × ℕ :=
  if 0 < threshold ∧ threshold < length then overloaded length length (threshold * 2)
  else (overload, threshold)
termination_by length - threshold

/-- The value popped, if there is one. -/
def local_pop (q : Queue T) : Option T × Queue T :=
  if q.m_head ≠ q.m_tail then
    let popped := { q with
      m_head := advance q.m_cap q.m_head
      head_lt := advance_lt q.head_lt }
    let r := overloaded popped.length q.m_overload q.m_overload_threshold
    (some (q.m_arrays q.m_head), { popped with m_overload := r.1, m_overload_threshold := r.2 })
  else (none, { q with m_overload_threshold := EQ_OVERLOAD })

/-! ## The values in a queue -/

/-- `n` cells of a circular array from `head` on. -/
def cells (a : ℕ → T) (cap head n : ℕ) : List T :=
  (List.range n).map fun i => a ((head + i) % cap)

/-- The values in the queue, the next one to be popped first. -/
def contents (q : Queue T) : List T := cells q.m_arrays q.m_cap q.m_head q.length

/-- A longer part of the circle has the next cell at its end. -/
theorem cells_succ (a : ℕ → T) (cap head n : ℕ) :
    cells a cap head (n + 1) = cells a cap head n ++ [a ((head + n) % cap)] := by
  simp [cells, List.range_succ]

/-- Cells that agree one by one are the same list. -/
theorem cells_congr {a b : ℕ → T} {cap cap' head head' n : ℕ}
    (h : ∀ i < n, a ((head + i) % cap) = b ((head' + i) % cap')) :
    cells a cap head n = cells b cap' head' n := by
  apply List.map_congr_left
  intro i hi
  exact h i (List.mem_range.mp hi)

/-- Going round is going on modulo the capacity. -/
theorem advance_eq_mod {cap i : ℕ} (h : i < cap) : advance cap i = (i + 1) % cap := by
  unfold advance
  split
  · next hle =>
    obtain rfl : i + 1 = cap := by omega
    exact (Nat.mod_self _).symm
  · next hlt => exact (Nat.mod_eq_of_lt (by omega)).symm

/-- The first cell, and the cells from the next index on. -/
theorem cells_cons (a : ℕ → T) {cap head : ℕ} (n : ℕ) (h : head < cap) :
    cells a cap head (n + 1) = a head :: cells a cap (advance cap head) n := by
  unfold cells
  rw [List.range_succ_eq_map, List.map_cons, List.map_map, Nat.add_zero, Nat.mod_eq_of_lt h]
  congr 1
  apply List.map_congr_left
  intro i _
  rw [Function.comp_apply, advance_eq_mod h, Nat.mod_add_mod]
  congr 2
  omega

variable (q : Queue T)

/-- One cell at least stays empty.
SOURCE: util/queue.h:48-60 -/
theorem length_lt : q.length < q.m_cap := by
  have := q.head_lt
  have := q.tail_lt
  unfold length
  split <;> omega

/-- The tail is `length` cells after the head. -/
theorem tail_eq : q.m_tail = (q.m_head + q.length) % q.m_cap := by
  have hh := q.head_lt
  have ht := q.tail_lt
  unfold length
  split
  · next hle =>
    rw [show q.m_head + (q.m_tail - q.m_head) = q.m_tail by omega, Nat.mod_eq_of_lt ht]
  · next hlt =>
    rw [show q.m_head + (q.m_tail + q.m_cap - q.m_head) = q.m_tail + q.m_cap by omega,
      Nat.add_mod_right, Nat.mod_eq_of_lt ht]

/-- A new queue is empty.
SOURCE: util/queue.h:18-22 -/
@[simp] theorem contents_new (raw : ℕ → T) : (new raw).contents = [] := rfl

/-- What is written at the tail is not among the values already there. -/
theorem cells_write (val : T) :
    cells (q.write val).m_arrays q.m_cap q.m_head (q.length + 1) = q.contents ++ [val] := by
  rw [cells_succ, ← tail_eq]
  congr 1
  · apply cells_congr
    intro i hi
    refine Function.update_of_ne ?_ val q.m_arrays
    rw [tail_eq]
    -- two different distances, both below the size of the array
    intro heq
    have hmod : i % q.m_cap = q.length % q.m_cap := Nat.ModEq.add_left_cancel' q.m_head heq
    have hlen := q.length_lt
    rw [Nat.mod_eq_of_lt (by omega), Nat.mod_eq_of_lt hlen] at hmod
    omega
  · simp [write]

/-- A full array is copied in order. -/
theorem contents_expand :
    q.local_expand.contents = cells q.m_arrays q.m_cap q.m_head q.m_cap := by
  have hlen : q.local_expand.length = q.m_cap := by simp [local_expand, length]
  unfold contents
  rw [hlen]
  apply cells_congr
  intro i hi
  simp only [local_expand, Nat.zero_add]
  rw [Nat.mod_eq_of_lt (by omega), if_pos hi]

/-- **A push appends its value.** -/
theorem contents_push (val : T) : (q.local_push val).contents = q.contents ++ [val] := by
  have hh := q.head_lt
  have ht := q.tail_lt
  have hlt := q.length_lt
  rw [← cells_write]
  unfold local_push
  simp only
  split
  · next hfull =>
    have hcap : q.m_cap = q.length + 1 := by
      simp only [write, advance] at hfull
      unfold length at hlt ⊢
      split at hfull <;> split <;> omega
    rw [contents_expand, ← hcap]
    rfl
  · next hfull =>
    have hlen : (q.write val).length = q.length + 1 := by
      by_cases hwrap : q.m_cap ≤ q.m_tail + 1
      · simp only [write, advance, if_pos hwrap] at hfull
        simp only [length, write, advance, if_pos hwrap]
        split <;> split <;> omega
      · simp only [write, advance, if_neg hwrap] at hfull
        simp only [length, write, advance, if_neg hwrap]
        split <;> split <;> omega
    unfold contents
    rw [hlen]
    rfl

/-- **A pop takes the first value**, if there is one. -/
theorem contents_pop :
    q.local_pop.1 = q.contents.head? ∧ q.local_pop.2.contents = q.contents.tail := by
  have hh := q.head_lt
  have ht := q.tail_lt
  unfold local_pop
  split
  · next hne =>
    have hlen : q.length = { q with
        m_head := advance q.m_cap q.m_head
        head_lt := advance_lt q.head_lt : Queue T }.length + 1 := by
      unfold length
      simp only [advance]
      split <;> split <;> split <;> omega
    have hcons := cells_cons q.m_arrays
      { q with m_head := advance q.m_cap q.m_head, head_lt := advance_lt q.head_lt : Queue T }.length
      q.head_lt
    rw [← hlen] at hcons
    change q.contents = _ at hcons
    rw [hcons]
    exact ⟨rfl, rfl⟩
  · next heq =>
    have hlen : q.length = 0 := by
      unfold length
      split <;> omega
    have hnil : q.contents = [] := by
      unfold contents
      rw [hlen]
      rfl
    rw [hnil]
    refine ⟨rfl, ?_⟩
    change q.contents = []
    exact hnil

end Queue

end MagicNet.Util
