import MagicNet.Foundation.System
import MagicNet.Model.SlotHandlers

/-!
# How the receive buffer follows the reads

`doRecvProc` reads into a buffer of `m_recvBufferSize` bytes and sets the size of the next one after
it: twice as large when the buffer was full, and half as large when the test for that says so.  The
runs are the successful reads of one slot, none of 2^30 bytes or more.

SOURCE: network/socketSystem.cc:720-772, network/socketHandle.cc:26-36
-/

set_option autoImplicit false

namespace MagicNet.RecvAdapt

open MagicNet.Foundation MagicNet.Network

/-- `SOCKET_HANDLE_MINRECVBUFFER_MAX` -/
def minimum : ℕ := 128

/-- A read of `n` bytes. -/
def step (c : Slot) (n : ℕ) : Option Slot :=
  if 0 < n ∧ n ≤ c.s.m_recvBufferSize ∧ n < 2 ^ 30 ∧ c.s.m_state ≠ .HALFCLOSE then
    (c.doRecvProc (.bytes n)).map (·.1)
  else none

/-- A slot that `doInit` has initialised. -/
def system : System Slot ℕ where
  init c := c.s.m_recvBufferSize = minimum
  step := step

/-! ## The sizes, and how a read changes them -/

/-- The size is 128 times a power of two, and an `int32_t`. -/
def Legal (size : ℕ) : Prop := (∃ k, size = minimum * 2 ^ k) ∧ size < 2 ^ 31

/-- A read of `n` bytes takes the size to `size'`: it doubles when the read has filled the buffer, and
only then; it goes down, unless it is the least, when less than half was used; and it stays when more
than half was used, and not all. -/
structure Adapts (size n size' : ℕ) : Prop where
  legal : Legal size'
  doubles : size' = 2 * size ↔ n = size
  shrinks : 2 * n < size → if size = minimum then size' = size else size' < size
  keeps : size < 2 * n → n < size → size' = size

def Right (c : Slot) (n : ℕ) (c' : Slot) : Prop :=
  Adapts c.s.m_recvBufferSize n c'.s.m_recvBufferSize

/-- The read uses less than half of the buffer. -/
def Small (c : Slot) (n : ℕ) : Prop := 2 * n < c.s.m_recvBufferSize

/-- The reads `ns` adapt the size, each of them; and where some of them in a row each use less than
half of the buffer, the size never goes up, and it is halved as often as there are such reads, or down
to the least size. -/
structure AdaptsAlong (c : Slot) (ns : List ℕ) : Prop where
  each : system.Always Right c ns
  down : ∀ before small after t u k, ns = before ++ small ++ after →
    system.run c before = some t → system.run t small = some u → system.Meets Small t small →
      t.s.m_recvBufferSize ≤ minimum * 2 ^ k →
        u.s.m_recvBufferSize ≤ minimum * 2 ^ (k - small.length)

/-- The read fills the buffer, or half of it, or the buffer is the smallest. -/
def Cond (c : Slot) (n : ℕ) : Prop :=
  n = c.s.m_recvBufferSize ∨ 2 * n = c.s.m_recvBufferSize ∨ c.s.m_recvBufferSize = minimum

instance (c : Slot) (n : ℕ) : Decidable (Cond c n) := inferInstanceAs (Decidable (_ ∨ _ ∨ _))

end MagicNet.RecvAdapt
