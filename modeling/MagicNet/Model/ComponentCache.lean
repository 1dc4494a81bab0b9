import MagicNet.Foundation.CriticalSection
import MagicNet.Foundation.System

/-!
# The components that have been loaded

`componentGroup::getComponent` looks for a name among the first `m_count` of `m_compts`, without the
lock; where it is not there, it takes the lock, looks again, and loads the library into the entry at
`m_count`, which is published by `m_count++` when all of it is written.  Any number of threads call it
at the same time, each of them at a place `Pc` of its call; a step is one load or store of what they
share, and the threads' steps come in any order.

What `tryOpen` returns (`Model.ComponentPath`) and `dlsym` finds are parts of the events; a path that
ends the process is the end of the run.  `copy` is set in a name that `strdup` has made, and not in
the pointer of a caller.

SOURCE: module/componentGroup.cc:8-11, 40-90, 141-148, module/componentGroup.h:15, 22-30,
util/spinlock.h:10-28
-/

set_option autoImplicit false

namespace MagicNet.ComponentCache

open MagicNet.Foundation

variable {H : Type}

def MAX_COMPONENT_TYPE : ℕ := 64

/-- A string, and whose it is. -/
structure CStr where
  chars : List Char
  copy : Bool
  deriving DecidableEq, Repr

structure Component (H : Type) where
  _name : Option CStr
  _dll : Option H
  _create : Option H
  _release : Option H
  _signal : Option H
  deriving DecidableEq, Repr

structure Group (H : Type) where
  m_count : ℕ
  m_compts : ℕ → Component H

namespace Group

variable (g : Group H)

def setEntry (index : ℕ) (c : Component H) : Group H :=
  { g with m_compts := Function.update g.m_compts index c }

/-- `strcmp` of the name of an entry. -/
def named (i : ℕ) (name : List Char) : Prop := ∃ n ∈ (g.m_compts i)._name, n.chars = name

instance (i : ℕ) (name : List Char) : Decidable (g.named i name) :=
  inferInstanceAs (Decidable (∃ n ∈ (g.m_compts i)._name, n.chars = name))

end Group

/-- Where a thread is in `getComponent`: out of it; in `get`, at `i < m_count` or at the name of entry
`i`, with the lock or before it is taken; at `m_mutex.lock()`; in `tryOpen`; at the stores of `name`
and `dl`; in `openSym`; at `strdup`; at `m_count++`; at `m_mutex.unlock()` with the result. -/
inductive Pc (H : Type) where
  | out
  | test (locked : Bool) (name : List Char) (i : ℕ)
  | compare (locked : Bool) (name : List Char) (i : ℕ)
  | lock (name : List Char)
  | tryOpen (name : List Char) (index : ℕ)
  | store (name : List Char) (index : ℕ) (dl : H)
  | openSym (name : List Char) (index : ℕ)
  | strdup (name : List Char) (index : ℕ)
  | count (name : List Char) (index : ℕ)
  | unlock (name : List Char) (result : Option ℕ)
  deriving DecidableEq, Repr

/-- `flag` is that of `m_mutex`; `returned` has the names that were asked for and what came back. -/
structure State (H : Type) where
  flag : Bool
  group : Group H
  pc : ℕ → Pc H
  returned : List (List Char × Option ℕ)

namespace State

variable (s : State H)

def goto (t : ℕ) (p : Pc H) : State H := { s with pc := Function.update s.pc t p }

def setEntry (index : ℕ) (c : Component H) : State H := { s with group := s.group.setEntry index c }

/-- `getComponent` returns. -/
def ret (t : ℕ) (name : List Char) (result : Option ℕ) : State H :=
  { s.goto t .out with returned := s.returned ++ [(name, result)] }

end State

/-- A thread calls `getComponent`; takes a step of its own; or one with what `tryOpen` returns, or
`dlsym` for the three functions. -/
inductive Event (H : Type) where
  | getComponent (t : ℕ) (name : List Char)
  | tick (t : ℕ)
  | tryOpen (t : ℕ) (dl : Option H)
  | openSym (t : ℕ) (create release signal : Option H)
  deriving Repr

def tick (s : State H) (t : ℕ) : Option (State H) :=
  match s.pc t with
  | .test locked name i =>
    some (s.goto t
      (if i < s.group.m_count then .compare locked name i
      else if locked = false then .lock name
      else if s.group.m_count < MAX_COMPONENT_TYPE then .tryOpen name s.group.m_count
      else .unlock name none))
  | .compare locked name i =>
    some (if s.group.named i name then
        if locked then s.goto t (.unlock name (some i)) else s.ret t name (some i)
      else s.goto t (.test locked name (i + 1)))
  | .lock name => if s.flag then none else some ({ s with flag := true }.goto t (.test true name 0))
  | .store name index dl =>
    some ((s.setEntry index
      { s.group.m_compts index with _name := some ⟨name, false⟩, _dll := some dl }).goto t
        (.openSym name index))
  | .strdup name index =>
    some ((s.setEntry index
      { s.group.m_compts index with _name := some ⟨name, true⟩ }).goto t (.count name index))
  | .count name index =>
    some ({ s with group := { s.group with m_count := s.group.m_count + 1 } }.goto t
      (.unlock name (some index)))
  | .unlock name result => some ({ s with flag := false }.ret t name result)
  | .out | .tryOpen _ _ | .openSym _ _ => none

def step (s : State H) : Event H → Option (State H)
  | .getComponent t name =>
    match s.pc t with
    | .out => some (s.goto t (.test false name 0))
    | _ => none
  | .tick t => tick s t
  | .tryOpen t dl =>
    match s.pc t with
    | .tryOpen name index =>
      match dl with
      | none => some (s.goto t (.unlock name none))
      | some dl => some (s.goto t (.store name index dl))
    | _ => none
  | .openSym t create release signal =>
    match s.pc t with
    | .openSym name index =>
      some ((s.setEntry index
        { s.group.m_compts index with
          _create := create, _release := release, _signal := signal }).goto t
            (if create.isSome ∧ release.isSome then .strdup name index else .unlock name none))
    | _ => none

/-- The group as its constructor leaves it, before the first call. -/
structure Starts (s : State H) : Prop where
  flag : s.flag = false
  m_count : s.group.m_count = 0
  m_compts : ∀ i, s.group.m_compts i = ⟨none, none, none, none, none⟩
  pc : ∀ t, s.pc t = .out
  returned : s.returned = []

def system : System (State H) (Event H) where
  init := Starts
  step := step

@[simp] theorem system_step : (system (H := H)).step = step := rfl

/-- No component has been asked for. -/
def start : State ℕ where
  flag := false
  group := ⟨0, fun _ => ⟨none, none, none, none, none⟩⟩
  pc _ := .out
  returned := []

/-- Two threads ask for one name and both miss it; one loads the library, which has no `_signal`, and
the other finds it when it gets the lock. -/
def race : List (Event ℕ) :=
  [.getComponent 0 ['c'], .getComponent 1 ['c'], .tick 0, .tick 1, .tick 0, .tick 0,
    .tryOpen 0 (some 5), .tick 0, .openSym 0 (some 6) (some 7) none, .tick 0, .tick 0, .tick 0,
    .tick 1, .tick 1, .tick 1, .tick 1]

end MagicNet.ComponentCache
