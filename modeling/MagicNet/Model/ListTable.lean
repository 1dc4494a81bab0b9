import MagicNet.Foundation.System
import MagicNet.Model.TwoWayList

/-!
# Lists and what is done with them

`erase` and `clear` are the operations of `util/list.h` that take items out one by one, and drop a
reference to each.  A `ListTable` is the lists there are at one time, with the memory of their nodes;
the events are the calls on one list or two different ones.

SOURCE: util/list.h:61-177
-/

set_option autoImplicit false

namespace MagicNet.Util

open MagicNet.Foundation

variable {A ι : Type} [DecidableEq A] [DecidableEq ι]

namespace Ends

/-- The neighbour before the item, or the head, is moved on to the one behind it. -/
def eraseForward (mem : Memory A) (this : Ends A) (ptr : A) : Option (Memory A × Option A) :=
  match mem._prev ptr with
  | some prev => (mem.setNext (some prev) (mem._next ptr)).map fun mem => (mem, this.m_head)
  | none => this.m_head.map fun head => (mem, mem._next head)

def eraseBack (mem : Memory A) (this : Ends A) (ptr : A) : Option (Memory A × Option A) :=
  match mem._next ptr with
  | some next => (mem.setPrev (some next) (mem._prev ptr)).map fun mem => (mem, this.m_tail)
  | none => this.m_tail.map fun tail => (mem, mem._prev tail)

def erase (mem : Memory A) (this : Ends A) (ptr : A) : Option (Memory A × Ends A) := do
  let (mem, head) ← eraseForward mem this ptr
  let (mem, tail) ← eraseBack mem this ptr
  some (mem.unhook ptr, ⟨head, tail, this.m_count - 1⟩)

/-- An iterator keeps the next item from before the one it stands on is erased. -/
def iterator (mem : Memory A) (ptr : Option A) : Option A × Option A :=
  (ptr, ptr.bind mem._next)

/-- The loop of `clear`, for so many rounds: the memory, and the items it has erased. -/
def clearLoop : ℕ → Memory A → Ends A → Option A × Option A → Option (Memory A × List A)
  | 0, _, _, _ => none
  | n + 1, mem, this, (ptr, next) =>
    match ptr with
    | none => some (mem, [])
    | some a => do
      let it := iterator mem next
      let (mem, this) ← erase mem this a
      let (mem, erased) ← clearLoop n mem this it
      some (mem, a :: erased)

def clear (n : ℕ) (mem : Memory A) (this : Ends A) : Option (Memory A × List A × Ends A) :=
  (clearLoop n mem this (iterator mem this.m_head)).map fun (mem, erased) => (mem, erased, zero)

end Ends

structure ListTable (A ι : Type) where
  mem : Memory A
  lists : ι → Ends A

/-- `assign` is `operator=(list<T> &&)`. -/
inductive ListOp (A ι : Type) where
  | cut (i : ι) (n : ℕ) (j : ι)
  | append (i j : ι)
  | erase (i : ι) (ptr : A)
  | clear (i : ι)
  | assign (i j : ι)

namespace ListTable

variable (s : ListTable A ι)

def set (mem : Memory A) (i : ι) (q : Ends A) : ListTable A ι :=
  ⟨mem, Function.update s.lists i q⟩

/-- What is cut off is a list of its own; `clear` makes as many rounds as there are items, and one to
find that there are no more. -/
def step : ListOp A ι → Option (ListTable A ι)
  | .cut i n j => do
    let (mem, q, o) ← (s.lists i).cut s.mem n
    some ((s.set mem i q).set mem j o)
  | .append i j => do
    let (mem, q, o) ← (s.lists i).append s.mem (s.lists j)
    some ((s.set mem i q).set mem j o)
  | .erase i ptr => do
    let (mem, q) ← (s.lists i).erase s.mem ptr
    some (s.set mem i q)
  | .clear i => do
    let (mem, _, q) ← (s.lists i).clear ((s.lists i).m_count + 1) s.mem
    some (s.set mem i q)
  | .assign i j => do
    let (mem, _, _) ← (s.lists i).clear ((s.lists i).m_count + 1) s.mem
    some ((s.set mem i (s.lists j)).set mem j Ends.zero)

end ListTable

/-! ## What is asked of them -/

/-- The calls there are: on two different lists, with a new list for what is cut off, and for an item
of the list. -/
def ListOp.Legal (ls : ι → List A) : ListOp A ι → Prop
  | .cut i _ j => i ≠ j ∧ ls j = []
  | .append i j => i ≠ j
  | .erase i ptr => ptr ∈ ls i
  | .clear _ => True
  | .assign i j => i ≠ j

/-- The sequences after a call. -/
def ListOp.apply (ls : ι → List A) : ListOp A ι → ι → List A
  | .cut i n j => Function.update (Function.update ls i ((ls i).drop n)) j ((ls i).take n)
  | .append i j => Function.update (Function.update ls i (ls i ++ ls j)) j []
  | .erase i ptr => Function.update ls i ((ls i).erase ptr)
  | .clear i => Function.update ls i []
  | .assign i j => Function.update (Function.update ls i (ls j)) j []

instance (ls : ι → List A) : ∀ op : ListOp A ι, Decidable (op.Legal ls)
  | .cut _ _ _ => inferInstanceAs (Decidable (_ ∧ _))
  | .append _ _ => inferInstanceAs (Decidable (_ ≠ _))
  | .erase _ _ => inferInstanceAs (Decidable (_ ∈ _))
  | .clear _ => isTrue trivial
  | .assign _ _ => inferInstanceAs (Decidable (_ ≠ _))

/-- The sequences, and the calls on them. -/
def sequences : System (ι → List A) (ListOp A ι) where
  init ls := ∀ i, ls i = []
  step ls op := if op.Legal ls then some (op.apply ls) else none

/-- The lists, of which none has an item at first. -/
def listTables : System (ListTable A ι) (ListOp A ι) where
  init s := ∀ i, s.lists i = Ends.zero
  step := ListTable.step

/-- The lists are well formed, each with its sequence, and no node is in two of them. -/
structure ListTable.Has (s : ListTable A ι) (ls : ι → List A) : Prop where
  exact : ∀ i, (s.lists i).Exact s.mem (ls i)
  nodup : ∀ i, (ls i).Nodup
  apart : ∀ i j, i ≠ j → (ls i).Disjoint (ls j)

end MagicNet.Util
