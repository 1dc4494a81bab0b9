import MagicNet.Foundation.Custody
import MagicNet.Model.SlotLife

/-!
# The descriptors of the socket system

`::socket` and `::accept` give a descriptor to the call that makes them; a listen, an accept or a
connect gives it to the slot it initialises, or closes it; and `doClose` closes the one its slot
has.  The slots are those of `Model.SlotLife`, any number of them.  Beside them stand the descriptors
that are open, as the kernel sees it, and a table of where each is: those the process was started
with, in a call in progress, or in a slot, which own it; or lost, where a slot has been overwritten or a
call has returned without closing its own, and then nobody owns it.

`closes` are the calls of `socketWrap::close`, each with whether the caller had the descriptor and it
was open.  Its body calls itself (network/socketWrap.cc:57-63); it is read as the call of the system.

SOURCE: network/socketSystem.cc:182-213, 332-381, 443-532, 662-720, 822-837,
network/socketHandle.cc:28-72
-/

set_option autoImplicit false

namespace MagicNet.Descriptors

open MagicNet.Foundation MagicNet.Network

inductive Place where
  | base
  | held
  | slot (i : ℕ)
  | lost
  deriving DecidableEq

/-- `lost` descriptors have no owner. -/
def Place.isOwner : Place → Bool
  | .lost => false
  | .base | .held | .slot _ => true

structure State where
  slots : ℕ → SlotLife.State
  places : Place → List ℤ
  isOpen : Finset ℤ
  closes : List (ℤ × Bool)

namespace State

variable (s : State)

def HasOwner (sock : ℤ) : Prop := ∃ p, p.isOwner = true ∧ sock ∈ s.places p

/-- `socketWrap::close` by the one at `p`. -/
def close (p : Place) (sock : ℤ) : State :=
  { s with
    places := Function.update s.places p ((s.places p).erase sock)
    isOpen := s.isOpen.erase sock
    closes := s.closes ++ [(sock, decide (sock ∈ s.places p ∧ sock ∈ s.isOpen))] }

/-- What the slot has is overwritten. -/
def overwrite (i : ℕ) : State :=
  { s with places := moveTable s.places (.slot i) .lost (s.places (.slot i)) [] }

/-- A slot is initialised with a descriptor of the call. -/
def give (i : ℕ) (sock : ℤ) : State :=
  let t := s.overwrite i
  { t with places := moveTable t.places .held (.slot i) [sock] ((t.places .held).erase sock) }

def setSlot (i : ℕ) (t : SlotLife.State) : State :=
  { s with slots := Function.update s.slots i t }

end State

/-- `doClose` in a handler: the slot was in use, and is not any more.  `doRest` and a connect request
that fails do not close the descriptor. -/
def closesSlot (e : SlotLife.Event) (c t : Slot) : Bool :=
  match e with
  | .doRest _ | .connect .. => false
  | _ => c.s.m_state ≠ .INVALID ∧ c.s.m_state ≠ .BIND ∧ t.s.m_state = .INVALID

/-- `socket` and `closeHeld` are calls of `::socket` or `::accept` and of `close` by a call that has
not given the descriptor to a slot.  `listenFailed` is the label `_FAILED` of `doSocketListen`, where
`handle` is closed and not `sock`. -/
inductive Event where
  | socket (sock : ℤ)
  | closeHeld (sock : ℤ)
  | listenFailed (sock handle : ℤ)
  | slot (i : ℕ) (e : SlotLife.Event)
  deriving Repr

/-- What a step of a slot does with descriptors. -/
def act (s : State) (i : ℕ) (t : SlotLife.State) : SlotLife.Event → Option State
  | .listen _ _ sock | .accept _ _ _ sock =>
    if sock ∈ s.places .held then
      some (if t.alive then (s.give i sock).setSlot i t else s.setSlot i t)
    else none
  | .connect _ info registers =>
    match AddrInfo.descriptor info with
    | none => some ((s.overwrite i).setSlot i t)
    | some (sock, _) =>
      if sock ∈ s.places .held ∨ sock = INVALID_SOCKET then
        some (if registers then ((s.close .held sock).overwrite i).setSlot i t
          else (s.give i sock).setSlot i t)
      else none
  | .doRest _ => some ((s.overwrite i).setSlot i t)
  | e =>
    some (if closesSlot e (s.slots i).c t.c then
        (s.close (.slot i) (s.slots i).c.s.m_sock).setSlot i t
      else s.setSlot i t)

def step (startFunc : Bool) (s : State) : Event → Option State
  | .socket sock =>
    if sock ∈ s.isOpen ∨ sock < 0 then none
    else some { s with
      places := Function.update s.places .held (s.places .held ++ [sock])
      isOpen := insert sock s.isOpen }
  | .closeHeld sock => if sock ∈ s.places .held then some (s.close .held sock) else none
  | .listenFailed sock handle =>
    if sock ∈ s.places .held then
      let t := s.close .held handle
      some (if handle = sock then t
        else { t with
          places := moveTable t.places .held .lost [sock] ((t.places .held).erase sock) })
    else none
  | .slot i e => (SlotLife.step startFunc (s.slots i) e).bind fun t => act s i t e

/-- The process has been started with its descriptors, `INVALID_SOCKET` among them, and no slot has
been touched. -/
structure Starts (s : State) : Prop where
  slots : ∀ i, SlotLife.Starts (s.slots i)
  base : ∀ sock, sock ∈ s.places .base ↔ sock ∈ s.isOpen
  nodup : (s.places .base).Nodup
  nonneg : ∀ sock ∈ s.isOpen, 0 ≤ sock
  others : ∀ p, p ≠ .base → s.places p = []
  stdin : INVALID_SOCKET ∈ s.isOpen
  closes : s.closes = []

def system (startFunc : Bool) : System State Event where
  init := Starts
  step := step startFunc

@[simp] theorem system_step (startFunc : Bool) : (system startFunc).step = step startFunc := rfl

end MagicNet.Descriptors
