import MagicNet.Foundation.System
import MagicNet.Model.TwoWayList

/-!
# Sequences of operations on a deque

One `util::deque` and the memory of all nodes, under any sequence of its operations, next to the
sequence of nodes that the operations are meant to keep.  The nodes are distinct: what is pushed is
not in the deque, and what is erased is.  Between two operations the links of the nodes that are not
in the deque are in other hands.  An operation that follows a null pointer, or whose assertion
fails, ends the run.

SOURCE: util/deque.h:18-204
-/

set_option autoImplicit false

namespace MagicNet.Deque

open MagicNet.Foundation MagicNet.Util

variable {A : Type} [DecidableEq A]

/-- What an operation returns: nothing, a node or a null pointer, or a list. -/
inductive Returned (A : Type) where
  | nothing
  | node (value : Option A)
  | list (value : Ends A)
  deriving DecidableEq

/-- `contents` is the reference: the nodes that should be in the deque, first one first.  `returned`
is what the last operation has returned, and `alive` says that no operation has failed. -/
structure State (A : Type) where
  mem : Memory A
  q : Ends A
  contents : List A
  returned : Returned A
  alive : Bool

/-- `pushList s m` pushes the list `s`, whose nodes are those of `m`.  `elsewhere` is what happens to
nodes outside the deque. -/
inductive Event (A : Type) where
  | push (value : A)
  | pushList (s : Ends A) (m : List A)
  | pop
  | popBack
  | popBackN (n : ℕ)
  | popBackAll
  | erase (hook : A)
  | elsewhere (mem : Memory A)

/-! ## The reference -/

/-- The nodes after an operation. -/
def Event.apply (l : List A) : Event A → List A
  | .push value => l ++ [value]
  | .pushList _ m => l ++ m
  | .pop => l.tail
  | .popBack => l.dropLast
  | .popBackN n => l.take (l.length - min n l.length)
  | .popBackAll => []
  | .erase hook => l.erase hook
  | .elsewhere _ => l

/-- The operation is used on distinct nodes, and a list that is pushed is in order. -/
def Event.Allowed (s : State A) : Event A → Prop
  | .push value => value ∉ s.contents
  | .pushList l m => l.Exact s.mem m ∧ (s.contents ++ m).Nodup
  | .erase hook => hook ∈ s.contents
  | .elsewhere mem => ∀ a ∈ s.contents, s.mem.Same mem a
  | .pop | .popBack | .popBackN _ | .popBackAll => True

instance (s : State A) : ∀ e : Event A, Decidable (e.Allowed s)
  | .push value => inferInstanceAs (Decidable (value ∉ s.contents))
  | .pushList l m => inferInstanceAs (Decidable (l.Exact s.mem m ∧ (s.contents ++ m).Nodup))
  | .erase hook => inferInstanceAs (Decidable (hook ∈ s.contents))
  | .elsewhere mem => inferInstanceAs (Decidable (∀ a ∈ s.contents, s.mem.Same mem a))
  | .pop | .popBack | .popBackN _ | .popBackAll => isTrue trivial

/-! ## The operations -/

/-- The memory, the deque and what is returned. -/
def Event.run (mem : Memory A) (q : Ends A) : Event A → Option (Memory A × Ends A × Returned A)
  | .push value => (q.pushUnlock mem value).map fun r => (r.1, r.2, .nothing)
  | .pushList s _ => (q.pushListUnlock mem s).map fun r => (r.1, r.2.1, .nothing)
  | .pop => (q.popUnlock mem).map fun r => (r.1, r.2.1, .node r.2.2)
  | .popBack => (q.popBackNodeUnlock mem).map fun r => (r.1, r.2.1, .node r.2.2)
  | .popBackN n => (q.popBackUnlock mem n).map fun r => (r.1, r.2.1, .list r.2.2)
  | .popBackAll => some (mem, q.popBackAllUnlock.1, .list q.popBackAllUnlock.2)
  | .erase hook => (q.eraseUnLock mem hook).map fun r => (r.1, r.2, .nothing)
  | .elsewhere mem' => some (mem', q, .nothing)

def step (s : State A) (e : Event A) : Option (State A) :=
  if s.alive ∧ e.Allowed s then
    match e.run s.mem s.q with
    | some (mem, q, returned) => some ⟨mem, q, e.apply s.contents, returned, true⟩
    | none => some { s with contents := e.apply s.contents, alive := false }
  else none

/-- A deque just constructed, over any memory. -/
structure Starts (s : State A) : Prop where
  q : s.q = .zero
  contents : s.contents = []
  alive : s.alive = true

def system (A : Type) [DecidableEq A] : System (State A) (Event A) where
  init := Starts
  step := step

@[simp] theorem system_step (A : Type) [DecidableEq A] : (system A).step = step := rfl

/-! ## What the operations give out -/

/-- Both links of the node are null. -/
def Unlinked (mem : Memory A) (a : A) : Prop := mem._prev a = none ∧ mem._next a = none

/-- What the operation has returned is what the reference loses, and nothing leads from it back into
the deque: a node has no links, and a list ends where its nodes end. -/
def Event.Hands (l : List A) (mem : Memory A) (returned : Returned A) : Event A → Prop
  | .pop => returned = .node l.head? ∧ ∀ a, l.head? = some a → Unlinked mem a
  | .popBack => returned = .node l.getLast? ∧ ∀ a, l.getLast? = some a → Unlinked mem a
  | .popBackN n => ∃ o, returned = .list o ∧ o.Exact mem (l.drop (l.length - min n l.length))
  | .popBackAll => ∃ o, returned = .list o ∧ o.Exact mem l
  | .erase hook => Unlinked mem hook
  | .push _ | .pushList .. | .elsewhere _ => True

/-- The operation has not failed, the deque is in order and has the contents of the reference, and
what it has returned is right. -/
structure Refines (s : State A) (e : Event A) (s' : State A) : Prop where
  alive : s'.alive = true
  exact : s'.q.Exact s'.mem s'.contents
  hands : e.Hands s.contents s'.mem s'.returned

/-- `popBack()` does not find a single node; `popBack(n)` finds none, or one with `n` none, or more
with `n` not none; and `erase` is not used on the first of several. -/
def Cond (s : State A) : Event A → Prop
  | .popBack => s.contents.length ≠ 1
  | .popBackN n => (s.contents.length = 1 → n = 0) ∧ (2 ≤ s.contents.length → n ≠ 0)
  | .erase hook => s.contents.head? = some hook → s.contents.length = 1
  | .push _ | .pushList .. | .pop | .popBackAll | .elsewhere _ => True

instance (s : State A) : ∀ e : Event A, Decidable (Cond s e)
  | .popBack => inferInstanceAs (Decidable (_ ≠ _))
  | .popBackN _ => inferInstanceAs (Decidable (_ ∧ _))
  | .erase hook => inferInstanceAs (Decidable (s.contents.head? = some hook → _))
  | .push _ | .pushList .. | .pop | .popBackAll | .elsewhere _ => isTrue trivial

/-! ## What a step does -/

/-- A step runs an operation on the links, and the same one on the sequence.
SOURCE: util/deque.h:33-224 -/
theorem step_eq {s s' : State A} {e : Event A} (h : step s e = some s') :
    s.alive = true ∧ e.Allowed s ∧ s'.contents = e.apply s.contents ∧
      (e.run s.mem s.q = none ∧ s'.alive = false ∨
        e.run s.mem s.q = some (s'.mem, s'.q, s'.returned) ∧ s'.alive = true) := by
  simp only [step, Option.ite_none_right_eq_some] at h
  obtain ⟨⟨halive, hallowed⟩, h⟩ := h
  refine ⟨halive, hallowed, ?_⟩
  split at h
  · next hrun =>
    rw [Option.some.injEq] at h
    subst h
    exact ⟨rfl, .inr ⟨hrun, rfl⟩⟩
  · next hrun =>
    rw [Option.some.injEq] at h
    subst h
    exact ⟨rfl, .inl ⟨hrun, rfl⟩⟩

end MagicNet.Deque
