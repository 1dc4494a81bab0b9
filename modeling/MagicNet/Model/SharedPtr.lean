import MagicNet.Foundation.RefCount
import MagicNet.Foundation.System

/-!
# Strong and weak pointers

A `shared_ref` has its counters in a control block, an `object_ref_impl`: `_reference` for the strong
pointers and the reference of its maker, and `_weak` for the weak pointers and the object itself.  The
`RefCount` of an object logs its release, that of its block the deletion of the block.  To use an
object or a block after that is a fault, and gives `none`.

The pointers are variables of their own, none a part of an object.  A variable that is not there is
one that holds nothing: the destructors leave it so.

SOURCE: util/shared_ptr.h:23-284
-/

set_option autoImplicit false

namespace MagicNet.SharedPtr

open MagicNet.Foundation

/-- The objects, the `incursivePtr` variables and the `weakPtr` variables. -/
structure State (A P W : Type) where
  made : List A
  /-- The creation reference is still there. -/
  held : A → Bool
  _reference : RefCount A
  _weak : RefCount A
  ptr : P → Option A
  wptr : W → Option A

inductive Call (A P W : Type) where
  | make (a : A)
  | drop (a : A)
  | construct (i : P) (ptr : Option A)
  | copy (i j : P)
  | move (i j : P)
  | assign (i j : P)
  | moveAssign (i j : P)
  | reset (i : P)
  | destroy (i : P)
  | swap (i j : P)
  | weakConstruct (k : W) (ptr : Option A)
  | weakFrom (k : W) (i : P)
  | weakCopy (k l : W)
  | weakMove (k l : W)
  | weakAssign (k l : W)
  | weakMoveAssign (k l : W)
  | weakReset (k : W)
  | weakResetTo (k : W) (ptr : Option A)
  | weakDestroy (k : W)
  | weakSwap (k l : W)
  | lock (i : P) (k : W)

variable {A P W : Type} [DecidableEq A] [DecidableEq P] [DecidableEq W]

namespace State

variable (s : State A P W)

def setPtr (i : P) (v : Option A) : State A P W := { s with ptr := Function.update s.ptr i v }

def setWptr (k : W) (v : Option A) : State A P W := { s with wptr := Function.update s.wptr k v }

/-! ## The control block -/

def incrementRef (a : A) : Option (State A P W) :=
  if a ∈ s._reference.deleted then none
  else some { s with _reference := s._reference.incr a }

def incrementWeak (a : A) : Option (State A P W) :=
  if a ∈ s._weak.deleted then none else some { s with _weak := s._weak.incr a }

def decrementWeak (a : A) : Option (State A P W) :=
  if a ∈ s._weak.deleted then none else some { s with _weak := s._weak.decr a }

/-- `shared_ref::decrementRef`: with the last reference the object is released. -/
def decrementRef (a : A) : Option (State A P W) :=
  if a ∈ s._reference.deleted then none
  else
    let released := { s with _reference := s._reference.decr a }
    if s._reference.count a - 1 = 0 then released.decrementWeak a else some released

/-- `object_ref_impl::lock`. -/
def implLock (a : A) : Option (Bool × State A P W) :=
  if a ∈ s._weak.deleted then none
  else if s._reference.count a = 0 then some (false, s)
  else some (true, { s with _reference := s._reference.incr a })

/-- `if (_ptr) _ptr->incrementRef()`, and the like. -/
def retain : Option A → Option (State A P W)
  | none => some s
  | some a => s.incrementRef a

def release : Option A → Option (State A P W)
  | none => some s
  | some a => s.decrementRef a

def retainWeak : Option A → Option (State A P W)
  | none => some s
  | some a => s.incrementWeak a

def releaseWeak : Option A → Option (State A P W)
  | none => some s
  | some a => s.decrementWeak a

/-! ## `incursivePtr` -/

def construct (i : P) (ptr : Option A) : Option (State A P W) :=
  (s.setPtr i ptr).retain ptr

def move (i j : P) : State A P W :=
  (s.setPtr i (s.ptr j)).setPtr j none

def reset (i : P) : Option (State A P W) :=
  (s.release (s.ptr i)).map fun s => s.setPtr i none

def assign (i j : P) : Option (State A P W) :=
  if i = j then some s
  else do
    let s ← s.reset i
    (s.setPtr i (s.ptr j)).retain (s.ptr j)

def swap (i j : P) : State A P W :=
  (s.setPtr i (s.ptr j)).setPtr j (s.ptr i)

def moveAssign (i j : P) : Option (State A P W) :=
  if i = j then some s else (s.reset i).map fun s => s.swap i j

/-! ## `weakPtr` -/

def weakReset (k : W) : Option (State A P W) :=
  (s.releaseWeak (s.wptr k)).map fun s => s.setWptr k none

/-- `reset(T *ptr)`; a `shared_ref` is shared. -/
def weakResetTo (k : W) (ptr : Option A) : Option (State A P W) := do
  let s ← s.weakReset k
  (s.setWptr k ptr).retainWeak ptr

def weakCopy (k l : W) : Option (State A P W) :=
  (s.setWptr k (s.wptr l)).retainWeak (s.wptr l)

def weakSwap (k l : W) : State A P W :=
  (s.setWptr k (s.wptr l)).setWptr l (s.wptr k)

def weakAssign (k l : W) : Option (State A P W) :=
  if k = l then some s
  else do
    let s ← s.weakReset k
    s.weakCopy k l

/-- The pointer that is returned is the variable `i`. -/
def lock (i : P) (k : W) : Option (State A P W) :=
  match s.wptr k with
  | none => some (s.setPtr i none)
  | some a => do
    let (locked, s) ← s.implLock a
    if locked then
      let s ← s.construct i (some a)
      s.decrementRef a
    else some (s.setPtr i none)

/-! ## The calls -/

/-- The object a raw pointer points to is alive. -/
def Alive (a : A) : Prop := a ∈ s.made ∧ a ∉ s._reference.deleted

instance (a : A) : Decidable (s.Alive a) := inferInstanceAs (Decidable (_ ∧ _))

/-- A variable is constructed once, an object is made once, and its maker gives up one reference. -/
def Legal : Call A P W → Prop
  | .make a => a ∉ s.made
  | .drop a => s.held a = true
  | .construct i ptr => s.ptr i = none ∧ ∀ a ∈ ptr, s.Alive a
  | .copy i j | .move i j => s.ptr i = none ∧ i ≠ j
  | .weakConstruct k ptr => s.wptr k = none ∧ ∀ a ∈ ptr, s.Alive a
  | .weakFrom k _ => s.wptr k = none
  | .weakCopy k l | .weakMove k l => s.wptr k = none ∧ k ≠ l
  | .weakResetTo _ ptr => ∀ a ∈ ptr, s.Alive a
  | .lock i _ => s.ptr i = none
  | _ => True

instance : ∀ call, Decidable (s.Legal call)
  | .make _ => inferInstanceAs (Decidable (_ ∉ _))
  | .drop _ => inferInstanceAs (Decidable (_ = _))
  | .construct _ _ => inferInstanceAs (Decidable (_ ∧ _))
  | .copy _ _ => inferInstanceAs (Decidable (_ ∧ _))
  | .move _ _ => inferInstanceAs (Decidable (_ ∧ _))
  | .weakConstruct _ _ => inferInstanceAs (Decidable (_ ∧ _))
  | .weakFrom _ _ => inferInstanceAs (Decidable (_ = _))
  | .weakCopy _ _ => inferInstanceAs (Decidable (_ ∧ _))
  | .weakMove _ _ => inferInstanceAs (Decidable (_ ∧ _))
  | .weakResetTo _ _ => inferInstanceAs (Decidable (∀ _ ∈ _, _))
  | .lock _ _ => inferInstanceAs (Decidable (_ = _))
  | .assign _ _ | .moveAssign _ _ | .reset _ | .destroy _ | .swap _ _ | .weakAssign _ _
  | .weakMoveAssign _ _ | .weakReset _ | .weakDestroy _ | .weakSwap _ _ => isTrue trivial

/-- The constructor of a `shared_ref` and of its block. -/
def make (a : A) : State A P W :=
  { s with
    made := a :: s.made
    held := Function.update s.held a true
    _reference := s._reference.make a
    _weak := s._weak.make a }

def exec : Call A P W → Option (State A P W)
  | .make a => some (s.make a)
  | .drop a => { s with held := Function.update s.held a false }.decrementRef a
  | .construct i ptr => s.construct i ptr
  | .copy i j => s.construct i (s.ptr j)
  | .move i j => some (s.move i j)
  | .assign i j => s.assign i j
  | .moveAssign i j => s.moveAssign i j
  | .reset i | .destroy i => s.reset i
  | .swap i j => some (s.swap i j)
  | .weakConstruct k ptr => s.weakResetTo k ptr
  | .weakFrom k i => s.weakResetTo k (s.ptr i)
  | .weakCopy k l => s.weakCopy k l
  | .weakMove k l => some (s.weakSwap k l)
  | .weakAssign k l => s.weakAssign k l
  | .weakMoveAssign k l => some (s.weakSwap k l)
  | .weakReset k | .weakDestroy k => s.weakReset k
  | .weakResetTo k ptr => s.weakResetTo k ptr
  | .weakSwap k l => some (s.weakSwap k l)
  | .lock i k => s.lock i k

end State

def system : System (State A P W) (Call A P W) where
  init s := s.made = [] ∧ (∀ a, s.held a = false) ∧ s._reference.deleted = [] ∧
    s._weak.deleted = [] ∧ (∀ i, s.ptr i = none) ∧ ∀ k, s.wptr k = none
  step s call := if s.Legal call then s.exec call else none

/-! ## What is asked of the counters -/

/-- How many of the variables hold the object. -/
def holders {V : Type} [Fintype V] (vars : V → Option A) (a : A) : ℕ :=
  (Finset.univ.filter fun v => vars v = some a).card

variable [Fintype P] [Fintype W]

/-- The references to an object: that of its maker and its owners. -/
def owners (s : State A P W) (a : A) : ℕ := (s.held a).toNat + holders s.ptr a

/-- The references to a block: its weak pointers, and the object while it is alive. -/
def blockOwners (s : State A P W) (a : A) : ℕ :=
  holders s.wptr a + if owners s a = 0 then 0 else 1

/-- The counters of an object that was made; it was released once if it has no references, and not
otherwise; and so was its block deleted. -/
structure Right (s : State A P W) (a : A) : Prop where
  strong : s._reference.count a = owners s a
  weak : s._weak.count a = blockOwners s a
  released : s._reference.deleted.count a = if owners s a = 0 then 1 else 0
  deleted : s._weak.deleted.count a = if owners s a = 0 ∧ holders s.wptr a = 0 then 1 else 0

/-- `lock` gives the object, where it is alive, and nothing otherwise. -/
def Locks (s s' : State A P W) (i : P) (k : W) : Prop :=
  s'.ptr i = (s.wptr k).filter fun a => a ∉ s._reference.deleted

end MagicNet.SharedPtr
