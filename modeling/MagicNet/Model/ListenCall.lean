import MagicNet.Model.ReserveCall

/-!
# A call of `doSocketListen`

`doSocketListen` and `doSocketBind` with the system calls they make, each of which may fail, and the
descriptors that `socketWrap::close` is called with.  `socketWrap::close` and the calls of
`doSocketBind` are read as those of the system.  `socketWrap::listen` names itself where it means
`::listen`, so the call it makes is one that may also not return.

The local `handle` is not initialised, and has a value all the same when the first failure is
reached.

SOURCE: network/socketSystem.cc:182-213, 332-403, network/socketWrap.cc:53-63, 91-102, 321-325
-/

set_option autoImplicit false

namespace MagicNet.Listen

open MagicNet.Network MagicNet.ReserveCall

/-- What the calls return, each if it is made: 0 or an error, but for `socket`, which returns a
descriptor or -1.  `listen` is the call inside `socketWrap::listen`, `none` if it does not return. -/
structure Os where
  getAddrInfo : ℤ
  socket : ℤ
  reuseaddr : ℤ
  bind : ℤ
  listen : Option ℤ
  socket_ge : -1 ≤ socket
  setsockopt : reuseaddr = 0 ∨ reuseaddr = -1
  noSocket : socket = -1 → reuseaddr = -1

/-- SOURCE: network/socketWrap.cc:100-102 -/
def Os.socketWrapListen (os : Os) : Option ℤ :=
  os.listen.map fun r => if r = 0 then 1 else 0

/-- `doSocketBind`, with the descriptors it closes.
SOURCE: network/socketSystem.cc:332-381 -/
def Os.doSocketBind (os : Os) : ℤ × List ℤ :=
  if os.getAddrInfo ≠ 0 then (INVALID_SOCKET, [])
  else if os.socket = INVALID_SOCKET then (INVALID_SOCKET, [])
  else if os.reuseaddr = -1 then (INVALID_SOCKET, [os.socket])
  else if os.bind ≠ 0 then (INVALID_SOCKET, [os.socket])
  else (os.socket, [])

/-- The values a call begins with: those of its argument `opaque` and of its local `handle`, the slot
table, and what other threads make of the slot it reserves before it looks at it. -/
structure Call where
  opaqueId : ℕ
  handle : ℤ
  table : Table
  meanwhile : SocketHandle → SocketHandle

/-- What a call leaves: the table, the value returned, and the descriptors that `socketWrap::close`
has been called with. -/
structure Left where
  table : Table
  ret : ℤ
  closes : List ℤ

/-- The slot reserved, as the call finds it. -/
def Call.slotAfter (k : Call) : SocketHandle :=
  k.meanwhile (k.table.getReserve.table.slot k.table.getReserve.ret)

/-- The end of `doSocketListen`, with a slot reserved, or `none` if the assertion fails.
SOURCE: network/socketSystem.cc:200-209 -/
def Call.initSlot (k : Call) (sock : ℤ) : Option Left :=
  let handle := k.table.getReserve.ret
  let s := k.slotAfter
  if s.m_state = .RESERVE then
    some
      { table := { k.table.getReserve.table with
          m_sockGroup := Function.update k.table.getReserve.table.m_sockGroup (SOCKET_GET handle)
            ((s.doInit k.opaqueId handle sock .TCP).setState .PLISTEN) }
        ret := handle
        closes := [] }
  else none

/-- `doSocketListen`, or `none` if it does not return.
SOURCE: network/socketSystem.cc:182-213 -/
def Call.doSocketListen (k : Call) (os : Os) : Option Left := do
  let (sock, closes) := os.doSocketBind
  if sock = INVALID_SOCKET then
    return { table := k.table, ret := SOCKET_HANDLE_INVALID, closes := closes }
  let r ← os.socketWrapListen
  if r ≠ 0 then
    return { table := k.table, ret := SOCKET_HANDLE_INVALID, closes := [k.handle] }
  let reserved := k.table.getReserve
  if reserved.ret = SOCKET_HANDLE_INVALID then
    return { table := reserved.table, ret := SOCKET_HANDLE_INVALID, closes := [reserved.ret] }
  k.initSlot sock

/-! ## A call that succeeds, and what a failure gives back -/

/-- The descriptor the call opens. -/
def Os.opened (os : Os) : Option ℤ :=
  if os.getAddrInfo = 0 ∧ 0 ≤ os.socket then some os.socket else none

/-- Every step succeeds. -/
structure Succeeds (k : Call) (os : Os) : Prop where
  getAddrInfo : os.getAddrInfo = 0
  socket : 0 ≤ os.socket
  reuseaddr : os.reuseaddr = 0
  bind : os.bind = 0
  listen : os.listen = some 0
  reserved : k.table.getReserve.ret ≠ SOCKET_HANDLE_INVALID

/-- A handle is returned, and its slot listens. -/
structure Listens (os : Os) (l : Left) : Prop where
  ret : l.ret ≠ SOCKET_HANDLE_INVALID
  state : (l.table.slot l.ret).m_state = .PLISTEN
  sock : os.opened = some (l.table.slot l.ret).m_sock
  closes : l.closes = []

/-- None is returned: the descriptor that was opened is closed once, and no other (closing a negative
one closes nothing), and no slot is left reserved. -/
structure Releases (k : Call) (os : Os) (l : Left) : Prop where
  ret : l.ret = SOCKET_HANDLE_INVALID
  closes : l.closes.filter (0 ≤ ·) = os.opened.toList
  reserved : ∀ i, (l.table.m_sockGroup i).m_state = .RESERVE →
    (k.table.m_sockGroup i).m_state = .RESERVE

/-- The call returns, with a slot that listens if all its steps have succeeded, and with nothing left
of it if one has not. -/
def AllOrNothing (k : Call) (os : Os) : Prop :=
  ∃ l, k.doSocketListen os = some l ∧
    (Succeeds k os → Listens os l) ∧ (¬ Succeeds k os → Releases k os l)

/-- No slot of the table is free. -/
def Full (t : Table) : Prop := ∀ i < MAX_SOCKET, (t.m_sockGroup i).m_state ≠ .INVALID

/-- `getAddrInfo` or `socket` fails; or `socket` gives a descriptor other than 0, and `reuseaddr` or
`bind` fails, or `::listen` succeeds with no slot free, and what the local `handle` happens to be is
the descriptor. -/
def Cond (k : Call) (os : Os) : Prop :=
  os.getAddrInfo ≠ 0 ∨ os.socket = -1 ∨
    0 < os.socket ∧ (os.reuseaddr ≠ 0 ∨ os.bind ≠ 0 ∨
      os.listen = some 0 ∧ Full k.table ∧ k.handle = os.socket)

end MagicNet.Listen
