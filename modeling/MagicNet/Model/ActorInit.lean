import MagicNet.Model.Registry

/-!
# The start of an actor

`actor::doInit` looks up the component's library, creates the component, registers the actor and
calls the component's own `doInit`.  Until that has returned, other actors may be registered and
unregistered, by other threads or by the component itself; where it fails the actor is unregistered.

SOURCE: module/actor.cc:31-69, module/actorComponent.cc:13-21, module/actorSystem.cc:35-77
-/

set_option autoImplicit false

namespace MagicNet.ActorInit

open MagicNet.Foundation MagicNet.Registry

variable {α : Type} [DecidableEq α]

/-- The registry, and the actors whose component's `doInit` has not returned. -/
structure State (α : Type) where
  registry : ActorSystem α
  launching : List α

/-- The calls.  `doInit` is in two parts: `ptrDLL` and `ptrCPT` say whether the library was found and
the component created; `fail` is what the component's `doInit` returns. -/
inductive Event (α : Type) where
  | doRegister (obj : α)
  | doUnRegister (handle : ℕ)
  | doInit (obj : α) (ptrDLL ptrCPT : Bool)
  | launched (obj : α) (fail : ℤ)
  deriving DecidableEq, Repr

/-- `m_handle = INST(actorSystem, doRegister, this)`, where it returns. -/
def register (r : ActorSystem α) (obj : α) : Option (ℕ × ActorSystem α) :=
  (r.doRegister obj maxRounds).map fun p =>
    (p.1, { p.2 with m_handle := Function.update p.2.m_handle obj p.1 })

/-- `actor::doInit` up to the call of the component's: what it returns, unless it gets there. -/
def doInit (r : ActorSystem α) (obj : α) (ptrDLL ptrCPT : Bool) :
    Option (Option ℕ × ActorSystem α) :=
  if !ptrDLL then some (some 0, r)
  else if !ptrCPT then some (some 0, r)
  else
    (register r obj).map fun p => if p.1 = 0 then (some 0, p.2) else (none, p.2)

/-- `actor::doInit` from the return of the component's on. -/
def launched (r : ActorSystem α) (obj : α) (fail : ℤ) : ℕ × ActorSystem α :=
  if fail = 0 then (r.m_handle obj, r) else (0, (r.doUnRegister (r.m_handle obj)).2)

/-- An actor that is not in the registry, nor on its way into it. -/
def State.Fresh (s : State α) (obj : α) : Prop := some obj ∉ s.registry.m_actors ∧ obj ∉ s.launching

instance (s : State α) (obj : α) : Decidable (s.Fresh obj) :=
  inferInstanceAs (Decidable (_ ∧ _))

/-- One call that returns, or one part of `doInit`.  An actor is registered once: it is registered
while the registry does not hold it. -/
def step (s : State α) : Event α → Option (State α)
  | .doRegister obj =>
    if s.Fresh obj then (register s.registry obj).map fun r => { s with registry := r.2 } else none
  | .doUnRegister handle => some { s with registry := (s.registry.doUnRegister handle).2 }
  | .doInit obj ptrDLL ptrCPT =>
    if s.Fresh obj then
      (doInit s.registry obj ptrDLL ptrCPT).map fun r =>
        { registry := r.2
          launching := if r.1.isSome then s.launching else obj :: s.launching }
    else none
  | .launched obj fail =>
    if obj ∈ s.launching then
      some { registry := (launched s.registry obj fail).2, launching := s.launching.erase obj }
    else none

def start (handles : α → ℕ) : State α := { registry := ActorSystem.new handles, launching := [] }

/-- The calls on a new registry. -/
def system (α : Type) [DecidableEq α] : System (State α) (Event α) where
  init s := ∃ handles, s = start handles
  step := step

@[simp] theorem system_step (α : Type) [DecidableEq α] : (system α).step = step := rfl

/-- The handle that `doRegister` returns in a step. -/
def State.handle (s : State α) : Event α → Option ℕ
  | .doRegister obj => (register s.registry obj).map Prod.fst
  | .doInit obj ptrDLL ptrCPT =>
    if ptrDLL && ptrCPT then (register s.registry obj).map Prod.fst else none
  | _ => none

/-- The actor whose `doInit` returns in a step, and what it returns. -/
def State.returned (s : State α) : Event α → Option (α × ℕ)
  | .doInit obj ptrDLL ptrCPT =>
    (doInit s.registry obj ptrDLL ptrCPT).bind fun r => r.1.map fun value => (obj, value)
  | .launched obj fail => some (obj, (launched s.registry obj fail).1)
  | _ => none

end MagicNet.ActorInit
