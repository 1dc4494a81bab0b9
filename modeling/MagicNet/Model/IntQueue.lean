import MagicNet.Foundation.System
import MagicNet.Model.Queue

/-!
# The queue in machine integers

`Model.Queue` has the indices of `util::queue` as natural numbers that stay inside the array.  Here
they are what the source has, values of `int`, and nothing is assumed of them: an operation gives
nothing where an `int` overflows or an index is outside the array.  Any sequence of operations runs
next to the list that the queue should behave as; a push comes with what `malloc` leaves in a new
array.  Fewer than 2^29 values are held at once.

SOURCE: util/queue.h:14-124
-/

set_option autoImplicit false

namespace MagicNet.Util

open MagicNet.Foundation

/-- The value of an `int` expression, if there is no overflow. -/
def int (x : ℤ) : Option ℤ := if -2 ^ 31 ≤ x ∧ x < 2 ^ 31 then some x else none

structure IntQueue (T : Type) where
  m_cap : ℤ
  m_head : ℤ
  m_tail : ℤ
  m_overload : ℤ
  m_overload_threshold : ℤ
  m_arrays : ℕ → T

namespace IntQueue

variable {T : Type}

def DEFAULT_SIZE : ℤ := 64
def EQ_OVERLOAD : ℤ := 1024

def new (raw : ℕ → T) : IntQueue T where
  m_cap := DEFAULT_SIZE
  m_head := 0
  m_tail := 0
  m_overload := 0
  m_overload_threshold := EQ_OVERLOAD
  m_arrays := raw

/-- The array has `m_cap` cells. -/
def index (q : IntQueue T) (i : ℤ) : Option ℕ :=
  if 0 ≤ i ∧ i < q.m_cap then some i.toNat else none

def length (q : IntQueue T) : Option ℤ :=
  if q.m_head ≤ q.m_tail then int (q.m_tail - q.m_head)
  else do
    let end' ← int (q.m_tail + q.m_cap)
    int (end' - q.m_head)

/-- The loop of `local_expand`, with `k` cells left to copy, from `i` on. -/
def copy (q : IntQueue T) : ℕ → ℕ → (ℕ → T) → Option (ℕ → T)
  | 0, _, newArrays => some newArrays
  | k + 1, i, newArrays => do
    let from' ← int (q.m_head + i)
    let j ← q.index (from'.tmod q.m_cap)
    copy q k (i + 1) (Function.update newArrays i (q.m_arrays j))

def local_expand (q : IntQueue T) (raw : ℕ → T) : Option (IntQueue T) := do
  let newArrays ← q.copy q.m_cap.toNat 0 raw
  let cap ← int (q.m_cap * 2)
  some { q with m_head := 0, m_tail := q.m_cap, m_cap := cap, m_arrays := newArrays }

def local_push (q : IntQueue T) (val : T) (raw : ℕ → T) : Option (IntQueue T) := do
  let i ← q.index q.m_tail
  let tail ← int (q.m_tail + 1)
  let tail := if q.m_cap ≤ tail then 0 else tail
  let q := { q with m_arrays := Function.update q.m_arrays i val, m_tail := tail }
  if q.m_head = q.m_tail then q.local_expand raw else some q

/-- The loop over `m_overload_threshold`: the last `m_overload` and the threshold.  It gives nothing
where it would not end. -/
def overloaded (length overload threshold : ℤ) : Option (ℤ × ℤ) :=
  if threshold < length then
    if 0 < threshold ∧ threshold * 2 < 2 ^ 31 then overloaded length length (threshold * 2)
    else none
  else some (overload, threshold)
termination_by (length - threshold).toNat

/-- `if (length < 0) length += m_cap`. -/
def wrap (q : IntQueue T) (length : ℤ) : Option ℤ :=
  if length < 0 then int (length + q.m_cap) else some length

/-- The value popped, if there is one. -/
def local_pop (q : IntQueue T) : Option (Option T × IntQueue T) :=
  if q.m_head ≠ q.m_tail then do
    let i ← q.index q.m_head
    let head ← int (q.m_head + 1)
    let head := if q.m_cap ≤ head then 0 else head
    let length ← int (q.m_tail - head)
    let length ← q.wrap length
    let r ← overloaded length q.m_overload q.m_overload_threshold
    some (some (q.m_arrays i),
      { q with m_head := head, m_overload := r.1, m_overload_threshold := r.2 })
  else some (none, { q with m_overload_threshold := EQ_OVERLOAD })

end IntQueue

/-! ## Sequences of operations -/

namespace QueueRun

variable {T : Type}

inductive Event (T : Type) where
  | push (val : T) (raw : ℕ → T)
  | pop
  | length

/-- What an operation returns; a `pop` that returns false gives no value. -/
inductive Returned (T : Type) where
  | nothing
  | value (val : Option T)
  | length (n : ℤ)
  deriving DecidableEq

/-- `contents` is the reference, `returned` is what the last operation has returned, and `defined`
says that no operation has overflowed or left the array. -/
structure State (T : Type) where
  q : IntQueue T
  contents : List T
  returned : Returned T
  defined : Bool

def Event.apply (l : List T) : Event T → List T
  | .push val _ => l ++ [val]
  | .pop => l.tail
  | .length => l

/-- What the list returns. -/
def Event.answer (l : List T) : Event T → Returned T
  | .push .. => .nothing
  | .pop => .value l.head?
  | .length => .length l.length

def Event.run (q : IntQueue T) : Event T → Option (IntQueue T × Returned T)
  | .push val raw => (q.local_push val raw).map (·, .nothing)
  | .pop => q.local_pop.map fun r => (r.2, .value r.1)
  | .length => q.length.map fun n => (q, .length n)

def step (s : State T) (e : Event T) : Option (State T) :=
  if s.defined ∧ (e.apply s.contents).length < 2 ^ 29 then
    match e.run s.q with
    | some (q, returned) => some ⟨q, e.apply s.contents, returned, true⟩
    | none => some { s with contents := e.apply s.contents, defined := false }
  else none

structure Starts (s : State T) : Prop where
  q : ∃ raw, s.q = .new raw
  contents : s.contents = []
  defined : s.defined = true

def system (T : Type) : System (State T) (Event T) where
  init := Starts
  step := step

/-- The operation is defined and returns what the list returns, and the indices are in the array. -/
structure Behaves (s : State T) (e : Event T) (s' : State T) : Prop where
  defined : s'.defined = true
  returned : s'.returned = e.answer s.contents
  head : 0 ≤ s'.q.m_head ∧ s'.q.m_head < s'.q.m_cap
  tail : 0 ≤ s'.q.m_tail ∧ s'.q.m_tail < s'.q.m_cap
  length : s'.q.length = some (s'.contents.length : ℤ)

/-! ## What a step does -/

/-- A step runs an operation with `int`s, and the same one on the sequence.
SOURCE: util/queue.h:35-121 -/
theorem step_eq {s s' : State T} {e : Event T} (h : step s e = some s') :
    s.defined = true ∧ (e.apply s.contents).length < 2 ^ 29 ∧ s'.contents = e.apply s.contents ∧
      (e.run s.q = none ∧ s'.defined = false ∨
        e.run s.q = some (s'.q, s'.returned) ∧ s'.defined = true) := by
  simp only [step, Option.ite_none_right_eq_some] at h
  obtain ⟨⟨hdefined, hheld⟩, h⟩ := h
  refine ⟨hdefined, hheld, ?_⟩
  split at h
  · next hrun =>
    rw [Option.some.injEq] at h
    subst h
    exact ⟨rfl, .inr ⟨hrun, rfl⟩⟩
  · next hrun =>
    rw [Option.some.injEq] at h
    subst h
    exact ⟨rfl, .inl ⟨hrun, rfl⟩⟩

end QueueRun

end MagicNet.Util
