import MagicNet.Foundation.System
import MagicNet.Model.SocketHandle
import Mathlib.Logic.Function.Basic

/-!
# A call of `getReserve` that is alone

`getReserve` with no other thread in it.  The compare-and-swap then succeeds, since `getState` has
just said `INVALID`, and `--i` is never executed.  Between the calls, other code writes to the
slots.

SOURCE: network/socketSystem.cc:383-403, network/socketWrap.h:28-34
-/

set_option autoImplicit false

namespace MagicNet.ReserveCall

open MagicNet.Foundation MagicNet.Network

structure Table where
  m_sockGroup : ℕ → SocketHandle
  m_sockSequence : ℤ

/-- What a call leaves: the table, what it returns, and how often it has incremented
`m_sockSequence`. -/
structure Reserved where
  table : Table
  ret : ℤ
  steps : ℕ

/-- `++m_sockSequence`, and the mask of a negative value: the handle, which is also the value that
`m_sockSequence` is left with. -/
def nextHandle (m_sockSequence : ℤ) : ℤ :=
  let handle := toInt32 (m_sockSequence + 1)
  if handle < 0 then handle % 2 ^ 31 else handle

namespace Table

def slot (s : Table) (handle : ℤ) : SocketHandle := s.m_sockGroup (SOCKET_GET handle)

/-- `setCompareState`, `doRest` and `setHandle` on the slot of the handle. -/
def reserve (s : Table) (handle : ℤ) : Table :=
  { s with
    m_sockGroup := Function.update s.m_sockGroup (SOCKET_GET handle)
      (((s.slot handle).setState .RESERVE).doRest.setHandle handle) }

/-- The last `n` rounds of the loop. -/
def reserveLoop : ℕ → Table → Reserved
  | 0, s => { table := s, ret := -1, steps := 0 }
  | n + 1, s =>
    let handle := nextHandle s.m_sockSequence
    let s := { s with m_sockSequence := handle }
    if (s.slot handle).m_state = .INVALID then
      { table := s.reserve handle, ret := handle, steps := 1 }
    else
      let r := reserveLoop n s
      { r with steps := r.steps + 1 }

def getReserve (s : Table) : Reserved := reserveLoop MAX_SOCKET s

end Table

/-! ## Calls one after the other -/

/-- The table, the increments of `m_sockSequence` so far, and the handles returned, each with the
increment that gave it, the last one first. -/
structure State where
  table : Table
  steps : ℕ
  returned : List (ℕ × ℤ)

inductive Event where
  | getReserve
  | write (k : ℕ) (c : SocketHandle)
  deriving DecidableEq, Repr

def step (s : State) : Event → Option State
  | .getReserve =>
    let r := s.table.getReserve
    let steps := s.steps + r.steps
    some
      { table := r.table
        steps := steps
        returned := if r.ret = -1 then s.returned else (steps, r.ret) :: s.returned }
  | .write k c =>
    some { s with
      table := { s.table with m_sockGroup := Function.update s.table.m_sockGroup k c } }

/-- `m_sockSequence` holds any `int32_t`, and the slots are any. -/
structure Starts (s : State) : Prop where
  low : -2 ^ 31 ≤ s.table.m_sockSequence
  high : s.table.m_sockSequence < 2 ^ 31
  steps : s.steps = 0
  returned : s.returned = []

def system : System State Event where
  init := Starts
  step := step

@[simp] theorem system_step : system.step = step := rfl

end MagicNet.ReserveCall
