import MagicNet.Model.Inbound
import MagicNet.Model.SendPath

/-!
# The two ends of a connection

One end sends as in `Model.SendPath`, with one sender thread and its poll thread; the other end reads as
in `Model.Inbound`, where the connection's socket is one of any number of the actor's.  `wire` is what
the sending kernel has taken and `recv` has not returned yet: a stream, which TCP keeps in order.

The other direction of the connection is such a connection of its own.

SOURCE: network/socketSystem.cc:250-303, 534-568, 720-820, api/socket.cc:152-203, 446-528, 608-682
-/

set_option autoImplicit false

namespace MagicNet.Connection

open MagicNet.Foundation MagicNet.Network

structure State where
  sender : SendPath.State
  wire : List UInt8
  reader : Inbound.State

/-- The poll thread of the reading end does not read for the slot any more, or throws away what it
reads. -/
def Closing (state : SocketState) : Prop := state = .HALFCLOSE ∨ state = .INVALID

instance : DecidablePred Closing := fun _ => inferInstanceAs (Decidable (_ ∨ _))

/-- `recv n` is a read of `n` bytes of the connection; `reader` is anything else in the process of the
reading end. -/
inductive Event where
  | send (e : SendPath.Event)
  | recv (n : ℕ)
  | reader (e : Inbound.Event)

/-- `handle` is the slot's at the sending end, `id` the socket's at the reading end. -/
def step (handle id : ℤ) (s : State) : Event → Option State
  | .send e =>
    (SendPath.step handle s.sender e).map fun t =>
      { s with sender := t, wire := s.wire ++ t.c.kernel.drop s.sender.c.kernel.length }
  | .recv n =>
    -- `doPoll` does nothing for a slot that is closed
    if (s.reader.conns id).slot.s.m_state ≠ .INVALID ∧ n ≤ s.wire.length then
      (Inbound.step s.reader (.recv id (s.wire.take n))).map fun t =>
        { s with wire := s.wire.drop n, reader := t }
    else none
  | .reader e =>
    match e with
    | .recv id' data =>
      if id' = id then none
      else (Inbound.step s.reader (.recv id' data)).map fun t => { s with reader := t }
    | e => (Inbound.step s.reader e).map fun t => { s with reader := t }

/-- Both ends are connected, and nothing has been sent. -/
structure Starts (handle : ℤ) (s : State) : Prop where
  sender : SendPath.Starts handle s.sender
  wire : s.wire = []
  reader : Inbound.Starts s.reader

def system (handle id : ℤ) : System State Event where
  init := Starts handle
  step := step handle id

@[simp] theorem system_step (handle id : ℤ) : (system handle id).step = step handle id := rfl

end MagicNet.Connection
