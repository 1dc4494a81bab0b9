import MagicNet.Model.SlotHandlers

/-!
# The calls that wait for a message of the poll thread

`socketApi::doConnection` and `socketApi::doStart` send a request for a socket and suspend their
coroutine in `makeSocket` until `START`, `ERROR` or `CLOSE` arrives for its id.  What `getReserve`
returns is an argument.

SOURCE: network/socketSystem.cc:215-249, api/socket.cc:125-134, 395-413, 593-602
-/

set_option autoImplicit false

namespace MagicNet.SocketApi

open MagicNet.Network

/-- A request written to the pipe, as far as it says which socket it is for. -/
inductive Request where
  | connect (request : RequestConnect)
  | start (request : RequestStart)
  deriving DecidableEq, Repr

def Request._handle : Request → ℤ
  | .connect request => request._handle
  | .start request => request._handle

/-- What a call has sent when its coroutine suspends, and the id it waits for. -/
structure Suspended where
  sent : Option Request
  id : ℤ
  deriving DecidableEq, Repr

/-- `doSocketConnect` with an address of `len` bytes: the request, and what is returned.
`sizeof(request.u.connect)` is 24. -/
def doSocketConnect (opaqueId len : ℕ) (reserve : ℤ) : Option Request × ℤ :=
  if len + 24 ≥ 256 then (none, -1)
  else if reserve < 0 then (none, -1)
  else (some (.connect { _handle := reserve, _opaque := opaqueId }), reserve)

def doSocketStart (opaqueId : ℕ) (handle : ℤ) : Request :=
  .start { _handle := handle, _opaque := opaqueId }

/-- `makeSocket` suspends the caller, whatever the id is. -/
def makeSocket (sent : Option Request) (id : ℤ) : Suspended := { sent := sent, id := id }

def doConnection (opaqueId len : ℕ) (reserve : ℤ) : Suspended :=
  let r := doSocketConnect opaqueId len reserve
  makeSocket r.1 r.2

def doStart (opaqueId : ℕ) (id : ℤ) : Suspended :=
  makeSocket (some (doSocketStart opaqueId id)) id

/-- The request the caller waits for has been sent. -/
def Suspended.Awaited (s : Suspended) : Prop := ∃ r, s.sent = some r ∧ r._handle = s.id

/-- A connection is waited for with reason exactly when the address is short enough and a slot was
free. -/
theorem doConnection_awaited (opaqueId len : ℕ) (reserve : ℤ) :
    (doConnection opaqueId len reserve).Awaited ↔ len + 24 < 256 ∧ 0 ≤ reserve := by
  unfold Suspended.Awaited doConnection makeSocket doSocketConnect
  by_cases hlen : len + 24 ≥ 256
  · simp only [hlen, if_true]
    constructor
    · rintro ⟨r, hnone, -⟩
      cases hnone
    · rintro ⟨hlt, -⟩
      omega
  · by_cases hreserve : reserve < 0
    · simp only [hlen, if_false, hreserve, if_true]
      constructor
      · rintro ⟨r, hnone, -⟩
        cases hnone
      · rintro ⟨-, hle⟩
        omega
    · simp only [hlen, if_false, hreserve]
      constructor
      · intro _
        exact ⟨by omega, by omega⟩
      · intro _
        exact ⟨_, rfl, rfl⟩

/-- A coroutine waits for the answer to `doStart`.
SOURCE: api/socket.cc:395-413 -/
theorem doStart_awaited (opaqueId : ℕ) (id : ℤ) : (doStart opaqueId id).Awaited :=
  ⟨_, rfl, rfl⟩

end MagicNet.SocketApi
