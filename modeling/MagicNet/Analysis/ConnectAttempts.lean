import MagicNet.Model.ConnectAddrs
import MagicNet.Model.SlotLife

/-!
# The attempts of a connect request

The loop over the addresses picks the first that connects and closes the descriptors of those
before it.  Two slips spoil what follows.  A refused attempt leaves `sock` at `INVALID_SOCKET`,
which is 0, so that `sock < 0` does not see that the last attempt was refused, and descriptor 0 is
registered.  And a registration that succeeds is taken for one that failed, which closes the
descriptor that was picked.
-/

set_option autoImplicit false

namespace MagicNet.Network

/-! ## What the addresses lead to -/

def AddrList.addrs : AddrList → List Addr
  | .fails => []
  | .addresses first rest => first :: rest

/-- The descriptor of an address that connects, and whether it is connected at once. -/
def Addr.connects : Addr → Option (ℕ × Bool)
  | .noSocket | .socket _ .fails => none
  | .socket sock .inProgress => some (sock, false)
  | .socket sock .done => some (sock, true)

/-- The descriptor of an address, if there is one. -/
def Addr.descriptor : Addr → Option ℤ
  | .noSocket => none
  | .socket sock _ => some sock

/-- The first address that connects. -/
def picked (addrs : List Addr) : Option (ℕ × Bool) := addrs.findSome? Addr.connects

/-- The descriptors of the attempts before it, all of which have failed. -/
def failedBefore (addrs : List Addr) : List ℤ :=
  (addrs.takeWhile (·.connects.isNone)).filterMap Addr.descriptor

/-- What the request is to do: with an address that connects, to use its descriptor; without one, to
register nothing and to fail; and to close the descriptors of the failed attempts, and no other. -/
structure ConnectRight (c : Slot) (request : RequestConnect) (info : AddrList) (t : Connected) :
    Prop where
  closed : t.closed = failedBefore info.addrs
  uses : ∀ sock zero, picked info.addrs = some (sock, zero) →
    t.registered = [(sock : ℤ)] ∧ t.c.s.m_sock = sock ∧ t.c.s.m_handle = request._handle ∧
      t.c.s.m_state = if zero then .CONNECTED else .CONNECTING
  fails : picked info.addrs = none →
    t.registered = [] ∧ t.c.s.m_state = .INVALID ∧
      t.c.messages = c.messages ++ [⟨.M_SOCKET_ERROR, request._opaque, request._handle, 0⟩]

/-! ## The loop -/

variable {addrs : List Addr}

/-- **The loop picks the first address that connects**, after it has closed the descriptors before.
SOURCE: network/socketSystem.cc:472-491 -/
theorem tryAddrs_picked {x : ℕ × Bool} (h : picked addrs = some x) (sock : ℤ) (zero : Bool) :
    tryAddrs addrs sock zero = { sock := x.1, zero := x.2, closed := failedBefore addrs } := by
  induction addrs generalizing sock zero with
  | nil => cases h
  | cons addr rest ih =>
    cases addr with
    | noSocket => exact ih h (-1) zero
    | socket n status =>
      cases status with
      | done =>
        cases h
        rfl
      | inProgress =>
        cases h
        rfl
      | fails =>
        have hrest := ih h INVALID_SOCKET false
        unfold tryAddrs
        rw [hrest]
        rfl

/-- The `sock` that is left when the attempt fails. -/
def Addr.left : Addr → ℤ
  | .noSocket => -1
  | .socket _ _ => INVALID_SOCKET

/-- Without such an address it closes every descriptor, and the last attempt leaves its `sock`.
SOURCE: network/socketSystem.cc:472-491 -/
theorem tryAddrs_none (h : picked addrs = none) (sock : ℤ) (zero : Bool) :
    (tryAddrs addrs sock zero).closed = failedBefore addrs ∧
      (tryAddrs addrs sock zero).sock = (addrs.getLast?.map Addr.left).getD sock := by
  induction addrs generalizing sock zero with
  | nil => exact ⟨rfl, rfl⟩
  | cons addr rest ih =>
    cases addr with
    | noSocket =>
      obtain ⟨hclosed, hsock⟩ := ih h (-1) zero
      refine ⟨hclosed, hsock.trans ?_⟩
      cases rest with
      | nil => rfl
      | cons next rest =>
        rw [List.getLast?_cons_cons, List.getLast?_eq_some_getLast (List.cons_ne_nil next rest)]
        rfl
    | socket n status =>
      cases status with
      | done => cases h
      | inProgress => cases h
      | fails =>
        obtain ⟨hclosed, hsock⟩ := ih h INVALID_SOCKET false
        refine ⟨congrArg ((n : ℤ) :: ·) hclosed, hsock.trans ?_⟩
        cases rest with
        | nil => rfl
        | cons next rest =>
          rw [List.getLast?_cons_cons, List.getLast?_eq_some_getLast (List.cons_ne_nil next rest)]
          rfl

/-- An address of a list without one that connects has no socket, or was refused. -/
theorem refused_of_none (h : picked addrs = none) {n : ℕ} {status : ConnectStatus}
    (hmem : Addr.socket n status ∈ addrs) : status = .fails := by
  have hnone := List.findSome?_eq_none_iff.mp h _ hmem
  cases status with
  | done => cases hnone
  | inProgress => cases hnone
  | fails => rfl

/-! ## The request -/

variable {c : Slot} {request : RequestConnect} {first : Addr} {rest : List Addr}

/-- A request that gets no descriptor fails as it should. -/
theorem failConnect_right {info : AddrList} {t : Connected} (hnone : picked info.addrs = none)
    (hclosed : t.closed = failedBefore info.addrs) (hregistered : t.registered = [])
    (hslot : t.c = c.failConnect request) : ConnectRight c request info t := by
  refine ⟨hclosed, fun sock zero hsome => ?_, fun _ => ⟨hregistered, ?_, ?_⟩⟩
  · rw [hnone] at hsome
    cases hsome
  · rw [hslot]
    rfl
  · rw [hslot]
    rfl

/-- With an address that connects, its descriptor is used when its registration fails, and closed
when it succeeds.
SOURCE: network/socketSystem.cc:443-532 -/
theorem connect_picked {x : ℕ × Bool} (h : picked (first :: rest) = some x) (registers : Bool) :
    ConnectRight c request (.addresses first rest)
        (c.connectAddrs request (.addresses first rest) registers) ↔ registers = false := by
  have htried := tryAddrs_picked h INVALID_SOCKET true
  have hgoes : c.connectAddrs request (.addresses first rest) registers =
      c.connectWith request
        { sock := x.1, zero := x.2, closed := failedBefore (first :: rest) } registers := by
    unfold Slot.connectAddrs
    simp only [htried]
    exact if_neg (by omega)
  rw [hgoes]
  cases registers with
  | true =>
    constructor
    · intro hright
      have hclosed : failedBefore (first :: rest) ++ [(x.1 : ℤ)] = failedBefore (first :: rest) :=
        hright.closed
      simp at hclosed
    · intro hfalse
      cases hfalse
  | false =>
    constructor
    · intro _
      rfl
    · intro _
      refine ⟨rfl, fun sock zero hsome => ?_, fun hnone => ?_⟩
      · obtain rfl := Option.some.inj (h.symm.trans hsome)
        cases zero with
        | true => exact ⟨rfl, rfl, rfl, rfl⟩
        | false => exact ⟨rfl, rfl, rfl, rfl⟩
      · rw [AddrList.addrs, h] at hnone
        cases hnone

/-- Without one, descriptor 0 is registered when the last address was refused.
SOURCE: network/socketSystem.cc:443-532 -/
theorem connect_none (h : picked (first :: rest) = none) (registers : Bool) :
    ConnectRight c request (.addresses first rest)
        (c.connectAddrs request (.addresses first rest) registers) ↔
      ∀ sock, (first :: rest).getLast? ≠ some (.socket sock .fails) := by
  obtain ⟨hclosed, hsock⟩ := tryAddrs_none h INVALID_SOCKET true
  have hlast := List.getLast?_eq_some_getLast (List.cons_ne_nil first rest)
  have hmem := List.getLast_mem (List.cons_ne_nil first rest)
  generalize (first :: rest).getLast (List.cons_ne_nil first rest) = last at hlast hmem
  rw [hlast] at hsock ⊢
  cases last with
  | noSocket =>
    have hgoes : c.connectAddrs request (.addresses first rest) registers =
        { c := c.failConnect request, registered := [], closed := failedBefore (first :: rest) } := by
      rw [← hclosed]
      refine if_pos ?_
      rw [hsock]
      decide
    constructor
    · intro _ sock hrefused
      cases hrefused
    · intro _
      rw [hgoes]
      exact failConnect_right h rfl rfl rfl
  | socket n status =>
    obtain rfl := refused_of_none h hmem
    have hgoes : c.connectAddrs request (.addresses first rest) registers =
        c.connectWith request (tryAddrs (first :: rest) INVALID_SOCKET true) registers := by
      refine if_neg ?_
      rw [hsock]
      show ¬ INVALID_SOCKET < 0
      decide
    constructor
    · intro hright
      obtain ⟨hregistered, -, -⟩ := hright.fails h
      rw [hgoes] at hregistered
      cases registers <;> cases hregistered
    · intro hnot
      exact absurd rfl (hnot n)

/-- **A connect request** is right exactly when its registration fails, if an address
connects, and otherwise when the last address was not refused.
SOURCE: network/socketSystem.cc:443-532, network/socketWrap.h:24-26 -/
theorem connect_right (c : Slot) (request : RequestConnect) (info : AddrList) (registers : Bool) :
    ConnectRight c request info (c.connectAddrs request info registers) ↔
      if (picked info.addrs).isSome then registers = false
      else ∀ sock, info.addrs.getLast? ≠ some (.socket sock .fails) := by
  cases info with
  | fails =>
    constructor
    · intro _ sock hsome
      cases hsome
    · intro _
      exact failConnect_right rfl rfl rfl rfl
  | addresses first rest =>
    cases hpicked : picked (first :: rest) with
    | none =>
      have hnone : (picked (AddrList.addresses first rest).addrs).isSome = false := by
        rw [AddrList.addrs, hpicked]
        rfl
      rw [if_neg (by rw [hnone]; decide)]
      exact connect_none hpicked registers
    | some x =>
      have hsome : (picked (AddrList.addresses first rest).addrs).isSome = true := by
        rw [AddrList.addrs, hpicked]
        rfl
      rw [if_pos hsome]
      exact connect_picked hpicked registers

/-- The only address refuses the connection: the slot is left `CONNECTING`, with descriptor 0.
SOURCE: network/socketSystem.cc:443-532 -/
theorem connect_refused : ¬ ∀ (c : Slot) (request : RequestConnect) (info : AddrList)
    (registers : Bool), ConnectRight c request info (c.connectAddrs request info registers) := by
  intro hall
  have hright := hall SlotLife.start.c ⟨1, 5⟩ (.addresses (.socket 7 .fails) []) false
  exact absurd (hright.fails rfl).1 (by decide)

end MagicNet.Network
