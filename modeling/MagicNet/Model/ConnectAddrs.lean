import MagicNet.Model.SlotHandlers

/-!
# The addresses of a connect request

`doRequestConnect` with the system calls it makes: the descriptors it closes and those it gives to
`doRegister`.  An address is what `socket` and `connect` answer for it.  `Model.SlotHandlers` has the
same handler without the descriptors of the attempts that fail.

`socketWrap::close`, which a refused attempt and a registration taken for a failure call, names itself
where it means `::close`, and so would never return: it is read as the call of the system that it
stands for.

SOURCE: network/socketSystem.cc:443-532, network/socketWrap.h:24-26, network/socketWrap.cc:57-63
-/

set_option autoImplicit false

namespace MagicNet.Network

/-- The result of `connect`: 0, `EINPROGRESS`, or another error. -/
inductive ConnectStatus where
  | done
  | inProgress
  | fails
  deriving DecidableEq, Repr

/-- An address of the list: `socket` gives -1, or a descriptor with which `connect` is called. -/
inductive Addr where
  | noSocket
  | socket (sock : ℕ) (status : ConnectStatus)
  deriving DecidableEq, Repr

/-- What `getAddrInfo` gives: an error, or one address or more. -/
inductive AddrList where
  | fails
  | addresses (first : Addr) (rest : List Addr)
  deriving DecidableEq, Repr

/-- The end of the loop over the addresses: the last `sock`, whether the last `status` is 0, and the
descriptors closed. -/
structure Tried where
  sock : ℤ
  zero : Bool
  closed : List ℤ
  deriving DecidableEq, Repr

/-- The slot that is left, the descriptors given to `doRegister` and those closed, all in order. -/
structure Connected where
  c : Slot
  registered : List ℤ
  closed : List ℤ
  deriving DecidableEq, Repr

/-- The loop over the addresses.  A refused attempt closes its descriptor, by the `close` of the
system.
SOURCE: network/socketSystem.cc:472-491 -/
def tryAddrs : List Addr → ℤ → Bool → Tried
  | [], sock, zero => { sock := sock, zero := zero, closed := [] }
  | .noSocket :: rest, _, zero => tryAddrs rest (-1) zero
  | .socket sock .fails :: rest, _, _ =>
    let r := tryAddrs rest INVALID_SOCKET false
    { r with closed := sock :: r.closed }
  | .socket sock .inProgress :: _, _, _ => { sock := sock, zero := false, closed := [] }
  | .socket sock .done :: _, _, _ => { sock := sock, zero := true, closed := [] }

/-- The end of `doRequestConnect`, with a `sock` that is not negative. -/
def Slot.connectWith (c : Slot) (request : RequestConnect) (r : Tried) (registers : Bool) :
    Connected :=
  -- `m_iocp->doRegister(sock, s) != 0`
  if registers then
    { c := c.failConnect request, registered := [r.sock], closed := r.closed ++ [r.sock] }
  else
    let c := c.initWith request._opaque request._handle r.sock
    { c :=
        if r.zero then
          (c.setState .CONNECTED).forward .M_SOCKET_START request._opaque request._handle 0
        else (c.setState .CONNECTING).doToWrite true
      registered := [r.sock]
      closed := r.closed }

/-- `doRequestConnect`, with the calls of `close` that return.
SOURCE: network/socketSystem.cc:443-532 -/
def Slot.connectAddrs (c : Slot) (request : RequestConnect) (info : AddrList) (registers : Bool) :
    Connected :=
  match info with
  | .fails => { c := c.failConnect request, registered := [], closed := [] }
  | .addresses first rest =>
    let r := tryAddrs (first :: rest) INVALID_SOCKET true
    if r.sock < 0 then { c := c.failConnect request, registered := [], closed := r.closed }
    else c.connectWith request r registers

/-! ## The handler without the descriptors -/

/-- What is left of an address in `Model.SlotHandlers`. -/
def Addr.attempt : Addr → Attempt
  | .noSocket => .noSocket
  | .socket _ .fails => .refused
  | .socket sock .inProgress => .inProgress sock
  | .socket sock .done => .connected sock

def AddrList.info : AddrList → AddrInfo
  | .fails => .fails
  | .addresses first rest => .addresses first.attempt (rest.map Addr.attempt)

/-- The loop over the addresses, without the descriptors that it gives back, is that of
`connectLoop`.
SOURCE: network/socketSystem.cc:443-532 -/
theorem tryAddrs_eq (addrs : List Addr) (sock : ℤ) (zero : Bool) :
    connectLoop (addrs.map Addr.attempt) sock zero =
      ((tryAddrs addrs sock zero).sock, (tryAddrs addrs sock zero).zero) := by
  induction addrs generalizing sock zero with
  | nil => rfl
  | cons addr rest ih =>
    cases addr with
    | noSocket => exact ih (-1) zero
    | socket n status =>
      cases status with
      | done => rfl
      | inProgress => rfl
      | fails => exact ih INVALID_SOCKET false

/-- **The two models** of `doRequestConnect` leave the same slot. -/
theorem connectAddrs_slot (c : Slot) (request : RequestConnect) (info : AddrList)
    (registers : Bool) : (c.connectAddrs request info registers).c =
      c.doRequestConnect request info.info registers := by
  cases info with
  | fails => rfl
  | addresses first rest =>
    have hloop := tryAddrs_eq (first :: rest) INVALID_SOCKET true
    rw [List.map_cons] at hloop
    unfold Slot.connectAddrs Slot.doRequestConnect AddrList.info AddrInfo.descriptor
    simp only [hloop]
    by_cases hneg : (tryAddrs (first :: rest) INVALID_SOCKET true).sock < 0
    · rw [if_pos hneg, if_pos hneg]
    · rw [if_neg hneg, if_neg hneg]
      cases registers <;> rfl

end MagicNet.Network
