import MagicNet.Foundation.Linked

/-!
# Two-way lists and deques

A `util::list` and a `util::deque` keep no nodes of their own: the items are nodes, with a link in
either direction, and the list knows its two ends and how many there are.  An operation rewrites
links in the memory of all nodes.  It gives nothing where the code would follow a null pointer or
where one of its assertions fails.  The reference counts of the items are left out.

SOURCE: util/list.h, util/deque.h
-/

set_option autoImplicit false

namespace MagicNet.Util

open MagicNet.Foundation

/-- The links of every node. -/
structure Memory (A : Type) where
  _prev : A → Option A
  _next : A → Option A

/-- What a `list` and a `deque` consist of. -/
structure Ends (A : Type) where
  m_head : Option A
  m_tail : Option A
  m_count : ℕ
deriving DecidableEq

variable {A : Type}

/-! ## Lists and queues in order

`Holds` says what items a list or a deque has, read from its tail, and `Exact` that its head is the
first of them. -/

namespace Memory

/-- The links of the item are the same in both memories. -/
def Same (mem mem' : Memory A) (a : A) : Prop :=
  mem'._prev a = mem._prev a ∧ mem'._next a = mem._next a

def Links (mem : Memory A) (l : List A) : Prop := Linked mem._prev mem._next none l none

instance [DecidableEq A] (mem mem' : Memory A) (a : A) : Decidable (mem.Same mem' a) :=
  inferInstanceAs (Decidable (_ ∧ _))

instance [DecidableEq A] (mem : Memory A) (l : List A) : Decidable (mem.Links l) :=
  inferInstanceAs (Decidable (Linked mem._prev mem._next none l none))

end Memory

namespace Ends

structure Holds (mem : Memory A) (q : Ends A) (l : List A) : Prop where
  empty : q.m_head = none ↔ l = []
  tail : q.m_tail = l.getLast?
  count : q.m_count = l.length
  links : mem.Links l

structure Exact (mem : Memory A) (q : Ends A) (l : List A) : Prop extends Holds mem q l where
  head : q.m_head = l.head?

/-- The ends of a list whose links are exact. -/
theorem exact_of {mem : Memory A} {q : Ends A} {l : List A} (hhead : q.m_head = l.head?)
    (htail : q.m_tail = l.getLast?) (hcount : q.m_count = l.length) (hlinks : mem.Links l) :
    q.Exact mem l := by
  refine ⟨⟨?_, htail, hcount, hlinks⟩, hhead⟩
  rw [hhead, List.head?_eq_none_iff]

instance [DecidableEq A] (mem : Memory A) (q : Ends A) (l : List A) : Decidable (q.Exact mem l) :=
  decidable_of_iff
    (q.m_head = l.head? ∧ q.m_tail = l.getLast? ∧ q.m_count = l.length ∧ mem.Links l)
    ⟨fun h => exact_of h.1 h.2.1 h.2.2.1 h.2.2.2, fun h => ⟨h.head, h.tail, h.count, h.links⟩⟩

end Ends

/-! ## The operations -/

variable [DecidableEq A]

namespace Memory

/-- `p->_prev = v`. -/
def setPrev (mem : Memory A) (p v : Option A) : Option (Memory A) :=
  p.map fun a => { mem with _prev := Function.update mem._prev a v }

/-- `p->_next = v`. -/
def setNext (mem : Memory A) (p v : Option A) : Option (Memory A) :=
  p.map fun a => { mem with _next := Function.update mem._next a v }

/-- `if (p) p->_prev = v`. -/
def setPrevIf (mem : Memory A) (p v : Option A) : Memory A :=
  { mem with _prev := setLink mem._prev p v }

/-- `if (p) p->_next = v`. -/
def setNextIf (mem : Memory A) (p v : Option A) : Memory A :=
  { mem with _next := setLink mem._next p v }

/-- `a->_prev = a->_next = nullptr`. -/
def unhook (mem : Memory A) (a : A) : Memory A where
  _prev := Function.update mem._prev a none
  _next := Function.update mem._next a none

/-- `pos = pos->_next`, `n` times. -/
def forward (mem : Memory A) : ℕ → Option A → Option (Option A)
  | 0, pos => some pos
  | n + 1, pos => pos.bind fun a => forward mem n (mem._next a)

end Memory

namespace Ends

/-! ## util/list.h -/

/-- `list()` and `zero()`. -/
def zero : Ends A := ⟨none, none, 0⟩

/-- `~list()`. -/
def destroy (l : Ends A) : Option Unit := if l.m_count = 0 then some () else none

/-- The memory, the list and the one that is appended to it. -/
def append (mem : Memory A) (this other : Ends A) : Option (Memory A × Ends A × Ends A) :=
  if other.m_head = none then some (mem, this, other)
  else if this.m_head = none then
    -- the `clear` of `operator=` has nothing to erase
    some (mem, other, zero)
  else do
    let mem ← mem.setNext this.m_tail other.m_head
    let mem ← mem.setPrev other.m_head this.m_tail
    some (mem, ⟨this.m_head, other.m_tail.or this.m_tail, this.m_count + other.m_count⟩, zero)

/-- The memory, the list and the part that is cut off its front. -/
def cut (mem : Memory A) (this : Ends A) (n : ℕ) : Option (Memory A × Ends A × Ends A) :=
  if this.m_head = none then some (mem, this, zero)
  else if this.m_count ≤ n then some (mem, zero, this)
  else if n = 0 then some (mem, this, zero)
  else do
    let pos ← mem.forward (n - 1) this.m_head
    let last ← pos
    let head ← mem._next last
    if mem._prev head = pos then
      let mem ← mem.setNext pos none
      let mem ← mem.setPrev (some head) none
      some (mem, ⟨some head, this.m_tail, this.m_count - n⟩, ⟨this.m_head, pos, n⟩)
    else none

/-! ## util/deque.h -/

def pushUnlock (mem : Memory A) (q : Ends A) (value : A) : Option (Memory A × Ends A) :=
  if q.m_head = none then
    some (mem.unhook value, ⟨some value, some value, q.m_count + 1⟩)
  else do
    let mem ← mem.setNext q.m_tail (some value)
    let mem ← mem.setPrev (some value) q.m_tail
    let mem ← mem.setNext (some value) none
    some (mem, { q with m_tail := some value, m_count := q.m_count + 1 })

/-- `pushUnlock(list)`: the memory, the queue and the list that is pushed. -/
def pushListUnlock (mem : Memory A) (q s : Ends A) : Option (Memory A × Ends A × Ends A) :=
  if s.m_head = none then some (mem, q, s)
  else if q.m_head = none then some (mem, s, zero)
  else do
    let mem ← mem.setNext q.m_tail s.m_head
    let mem ← mem.setPrev s.m_head q.m_tail
    some (mem, ⟨q.m_head, s.m_tail, q.m_count + s.m_count⟩, zero)

/-- The memory, the queue and the node that is popped. -/
def popUnlock (mem : Memory A) (q : Ends A) : Option (Memory A × Ends A × Option A) :=
  match q.m_head with
  | none => some (mem, q, none)
  | some tmp =>
    if q.m_head = q.m_tail then some (mem, ⟨none, none, q.m_count - 1⟩, some tmp)
    else do
      let head := mem._next tmp
      let mem ← mem.setPrev head none
      some (mem.unhook tmp, { q with m_head := head, m_count := q.m_count - 1 }, some tmp)

/-- `popBackUnlock()`: the memory, the queue and the node that is popped. -/
def popBackNodeUnlock (mem : Memory A) (q : Ends A) : Option (Memory A × Ends A × Option A) :=
  match q.m_tail with
  | none => some (mem, q, none)
  | some tmp => do
    let tail := mem._prev tmp
    -- `m_tail->_next` is written also when the node was the only one
    let mem ← mem.setNext tail none
    some (mem.unhook tmp, { q with m_tail := tail, m_count := q.m_count - 1 }, some tmp)

/-- The queue and the list taken out of it. -/
def popBackAllUnlock (q : Ends A) : Ends A × Ends A :=
  if q.m_head = none then (q, zero) else (zero, q)

/-- The loop of `popBackUnlock`, with `k` left of its `n - c`: `first` and `c`. -/
def backward (mem : Memory A) (head : Option A) : ℕ → Option A → ℕ → Option (Option A × ℕ)
  | 0, first, c => some (first, c)
  | k + 1, first, c =>
    if first = head then some (first, c)
    else first.bind fun a => backward mem head k (mem._prev a) (c + 1)

/-- What `popBackUnlock` does after its loop, which has found `c` nodes from `first` on. -/
def takeBack (mem : Memory A) (q : Ends A) (first : Option A) (c : ℕ) :
    Option (Memory A × Ends A × Ends A) :=
  if first = q.m_head then some (mem, zero, ⟨first, q.m_tail, c⟩)
  else do
    let a ← first
    let tail := mem._prev a
    let mem ← mem.setNext tail none
    let mem ← mem.setPrev first none
    some (mem, ⟨q.m_head, tail, q.m_count - c⟩, ⟨first, q.m_tail, c⟩)

/-- `popBackUnlock(n)`: the memory, the queue and the list taken off its back. -/
def popBackUnlock (mem : Memory A) (q : Ends A) (n : ℕ) : Option (Memory A × Ends A × Ends A) :=
  if q.m_head = q.m_tail then some (mem, q, zero)
  else do
    let (first, c) ← backward mem q.m_head (n - 1) q.m_tail 1
    takeBack mem q first c

def eraseUnLock (mem : Memory A) (q : Ends A) (hook : A) : Option (Memory A × Ends A) :=
  if q.m_head = none then none
  else
    let mem := mem.setNextIf (mem._prev hook) (mem._next hook)
    let tail :=
      if mem._next hook = none ∧ some hook = q.m_tail then mem._prev hook else q.m_tail
    let mem := mem.setPrevIf (mem._next hook) (mem._prev hook)
    -- `m_head` is not moved on when it is the hook
    let head := if tail = none then none else q.m_head
    if 0 < q.m_count then some (mem.unhook hook, ⟨head, tail, q.m_count - 1⟩) else none

/-- The loop of `assertLink`, which is given `n` steps to come to the head. -/
def assertBack (mem : Memory A) (head : Option A) : ℕ → Option A → Option Unit
  | 0, pos => if pos = head then some () else none
  | n + 1, pos =>
    if pos = head then some ()
    else pos.bind fun a =>
      if mem._prev a = none then none else assertBack mem head n (mem._prev a)

def assertLink (mem : Memory A) (q : Ends A) : Option Unit := do
  match q.m_head with
  | none => some ()
  | some head =>
    let tail ← q.m_tail
    if mem._prev head = none ∧ mem._next tail = none then
      assertBack mem q.m_head q.m_count q.m_tail
    else none

/-- The nodes of a list or a queue, read back from its tail. -/
def items (mem : Memory A) (q : Ends A) : List A := (walk mem._prev q.m_tail q.m_count).reverse

end Ends

end MagicNet.Util
