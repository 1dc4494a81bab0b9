import MagicNet.Foundation.System
import Mathlib.Logic.Function.Basic

/-!
# The actor registry

`actorSystem` keeps the registered actors in `m_actors`, an actor of handle `h` at slot
`h & (m_actorCap - 1)`.  `doRegister` takes the first handle from `m_actorSer` on whose slot is
free, doubles the table when there is none, and starts again; the doubling copies each actor to
its new slot in place and writes `m_actorCap` only when something is copied.  `doUnRegister` and
`getGrab` compare the handle of the actor they find.

The operations hold `m_rwmutex`, so a step is one whole call.  Between two calls the caller of
`doRegister` sets the actor's `m_handle` to the handle returned.

SOURCE: module/actorSystem.cc:8-10, 35-77, 87-112, module/actorSystem.h:15, 67-69
-/

set_option autoImplicit false

namespace MagicNet.Registry

open MagicNet.Foundation

def ACOTR_ID_MARK : ℕ := 0xffffff

/-- The registry of `actorSystem`, with the `m_handle` of each actor object. -/
structure ActorSystem (α : Type) where
  m_actorSer : ℕ
  m_actorCap : ℕ
  m_actors : List (Option α)
  m_handle : α → ℕ

variable {α : Type}

def ActorSystem.local_addr (r : ActorSystem α) (handle : ℕ) : ℕ := handle &&& (r.m_actorCap - 1)

/-- The handle `doRegister` tries in round `i` of its inner loop. -/
def ActorSystem.candidate (r : ActorSystem α) (i : ℕ) : ℕ := (i + r.m_actorSer) &&& ACOTR_ID_MARK

def ActorSystem.isFree (r : ActorSystem α) (i : ℕ) : Bool :=
  match r.m_actors[i]? with
  | some none => true
  | _ => false

/-- The inner loop of `doRegister`: the first handle whose slot is free. -/
def ActorSystem.findHandle (r : ActorSystem α) : Option ℕ :=
  ((List.range r.m_actorCap).map r.candidate).find? fun handle =>
    r.isFree (r.local_addr handle)

/-- `std::vector::resize(n, nullptr)`. -/
def resize (actors : List (Option α)) (n : ℕ) : List (Option α) :=
  actors.take n ++ List.replicate (n - actors.length) none

/-- One round of the loop that moves the actors after a resize. -/
def ActorSystem.moveSlot (nwcap : ℕ) (r : ActorSystem α) (i : ℕ) : ActorSystem α :=
  match r.m_actors[i]? with
  | some (some x) =>
    let nwpos := r.m_handle x &&& (nwcap - 1)
    if nwpos = i then r
    else { r with m_actors := r.m_actors.set nwpos (some x), m_actorCap := nwcap }
  | _ => r

/-- The resize of `doRegister`. -/
def ActorSystem.grow (r : ActorSystem α) : ActorSystem α :=
  let nwcap := r.m_actorCap * 2
  (List.range nwcap).foldl (ActorSystem.moveSlot nwcap)
    { r with m_actors := resize r.m_actors nwcap }

/-- `actorSystem::doRegister`, for at most `rounds` rounds of its outer loop: the handle and the
table, or `none` when the assertion fails or no round has returned. -/
def ActorSystem.doRegister (r : ActorSystem α) (obj : α) : ℕ → Option (ℕ × ActorSystem α)
  | 0 => none
  | rounds + 1 =>
    match r.findHandle with
    | some handle =>
      some (handle, { r with
        m_actors := r.m_actors.set (r.local_addr handle) (some obj)
        m_actorSer := handle + 1 })
    | none =>
      if r.m_actorCap * 2 - 1 ≤ ACOTR_ID_MARK then r.grow.doRegister obj rounds else none

def ActorSystem.doUnRegister (r : ActorSystem α) (handle : ℕ) : Bool × ActorSystem α :=
  match r.m_actors[r.local_addr handle]? with
  | some (some x) =>
    if r.m_handle x = handle then
      (true, { r with m_actors := r.m_actors.set (r.local_addr handle) none })
    else (false, r)
  | _ => (false, r)

def ActorSystem.getGrab (r : ActorSystem α) (handle : ℕ) : Option α :=
  match r.m_actors[r.local_addr handle]? with
  | some (some x) => if r.m_handle x = handle then some x else none
  | _ => none

/-- One round of the loop of `clear`, which takes the handle of the actor at the slot. -/
def ActorSystem.clearSlot (r : ActorSystem α) (i : ℕ) : ActorSystem α :=
  match r.m_actors[i]? with
  | some (some x) => if r.m_handle x = 0 then r else (r.doUnRegister (r.m_handle x)).2
  | _ => r

/-- `actorSystem::clear`, with nothing else going on. -/
def ActorSystem.clear (r : ActorSystem α) : ActorSystem α :=
  (List.range r.m_actorCap).foldl ActorSystem.clearSlot r

def ActorSystem.new (handles : α → ℕ) : ActorSystem α :=
  { m_actorSer := 1, m_actorCap := 4, m_actors := List.replicate 4 none, m_handle := handles }

/-- More rounds than `doRegister` can take: each round but the last doubles `m_actorCap`, which
starts at 4 and never passes `ACOTR_ID_MARK + 1`, or leaves everything as it was. -/
def maxRounds : ℕ := 24

/-! ## Runs of calls -/

/-- The registry and what it should hold: the actor last registered under each handle and not
unregistered since. -/
structure State (α : Type) where
  registry : ActorSystem α
  live : ℕ → Option α

inductive Event (α : Type) where
  | doRegister (obj : α)
  | doUnRegister (handle : ℕ)
  deriving DecidableEq, Repr

variable [DecidableEq α]

/-- One call that returns.  An object is registered while the table does not hold it, and has
its `m_handle` set before the next call. -/
def step (s : State α) : Event α → Option (State α)
  | .doRegister obj =>
    if some obj ∈ s.registry.m_actors then none
    else
      (s.registry.doRegister obj maxRounds).map fun (handle, r) =>
        { registry := { r with m_handle := Function.update r.m_handle obj handle }
          live := Function.update s.live handle (some obj) }
  | .doUnRegister handle =>
    some
      { registry := (s.registry.doUnRegister handle).2
        live := Function.update s.live handle none }

/-- The sequences of calls on a new registry; an object not yet registered has any `m_handle`. -/
def system (α : Type) [DecidableEq α] : System (State α) (Event α) where
  init s := ∃ handles, s = { registry := ActorSystem.new handles, live := fun _ => none }
  step := step

@[simp] theorem system_step (α : Type) [DecidableEq α] : (system α).step = step := rfl

/-! ## The condition on a resize -/

/-- Slot `i` holds the actor `x`. -/
def ActorSystem.Holds (r : ActorSystem α) (i : ℕ) (x : α) : Prop := r.m_actors[i]? = some (some x)

/-- The slot of an actor in the table of twice the size. -/
def ActorSystem.nwpos (r : ActorSystem α) (x : α) : ℕ := r.m_handle x &&& (r.m_actorCap * 2 - 1)

/-- Each actor in the table is the one `getGrab` finds under its handle; or it is a copy left by
an earlier resize, and the actor found there goes to the same new slot after it. -/
def ActorSystem.Settled (r : ActorSystem α) : Prop :=
  ∀ i < r.m_actorCap, ∀ x, r.Holds i x →
    r.Holds (r.local_addr (r.m_handle x)) x ∨
      i < r.local_addr (r.m_handle x) ∧
        r.nwpos x = r.local_addr (r.m_handle x) + r.m_actorCap ∧
          ∃ y, r.Holds (r.local_addr (r.m_handle x)) y ∧ r.nwpos y = r.nwpos x

/-- The resize moves some actor, and the handles suffice: for one doubling, and for two when all
actors move, as the table is then full again. -/
def ActorSystem.CanGrow (r : ActorSystem α) : Prop :=
  (∃ i < r.m_actorCap, ∃ x, r.Holds i x ∧ r.nwpos x ≠ i) ∧
    r.m_actorCap * 2 - 1 ≤ ACOTR_ID_MARK ∧
      ((∀ i < r.m_actorCap, ∃ x, r.Holds i x ∧ r.nwpos x = i + r.m_actorCap) →
        r.m_actorCap * 4 - 1 ≤ ACOTR_ID_MARK)

/-- A registration that finds the table full finds it settled and able to grow. -/
def Cond (s : State α) (e : Event α) : Prop :=
  (∃ obj, e = .doRegister obj) → s.registry.findHandle = none →
    s.registry.Settled ∧ s.registry.CanGrow

end MagicNet.Registry
