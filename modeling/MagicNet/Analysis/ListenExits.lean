import MagicNet.Analysis.HandleArithmetic
import MagicNet.Model.ListenCall

/-!
# The exits of `doSocketListen`

`socketWrap::listen` returns 1 when `::listen` has succeeded, which `doSocketListen` takes for a
failure, and its failure exit closes the local `handle` where the descriptor is `sock`.  When
`::listen` has failed the call goes on, and then either no slot is free, or the one that `getReserve`
gives is in the state `INVALID`, in which `doRest` has left it.

So what is opened is only given back where `doSocketBind` does it.

SOURCE: network/socketSystem.cc:182-213, 332-403, network/socketWrap.cc:100-102
-/

set_option autoImplicit false

namespace MagicNet.Listen

open MagicNet.Network MagicNet.ReserveCall

variable {k : Call} {os : Os}

/-! ## `doSocketBind` -/

/-- It gives a descriptor when all its calls have succeeded, and the descriptor is not 0. -/
structure Bound (os : Os) : Prop where
  getAddrInfo : os.getAddrInfo = 0
  socket : 0 < os.socket
  reuseaddr : os.reuseaddr = 0
  bind : os.bind = 0

/-- A bind in which each call succeeds gives its descriptor and closes none.
SOURCE: network/socketSystem.cc:332-381 -/
theorem doSocketBind_bound (h : Bound os) : os.doSocketBind = (os.socket, []) := by
  have hne : os.socket ≠ INVALID_SOCKET := h.socket.ne'
  simp [Os.doSocketBind, h.getAddrInfo, hne, h.reuseaddr, h.bind]

/-- Otherwise it gives none, and has closed what `socket` gave, unless that was 0.
SOURCE: network/socketSystem.cc:332-381 -/
theorem doSocketBind_fails (h : ¬ Bound os) : os.doSocketBind.1 = INVALID_SOCKET ∧
    (os.doSocketBind.2.filter (0 ≤ ·) = os.opened.toList ↔
      os.getAddrInfo ≠ 0 ∨ os.socket ≠ 0) := by
  unfold Os.doSocketBind Os.opened
  by_cases hinfo : os.getAddrInfo = 0
  swap
  · simp [hinfo]
  by_cases hzero : os.socket = INVALID_SOCKET
  · have hsocket : os.socket = 0 := hzero
    simp [hinfo, hsocket, INVALID_SOCKET]
  have hne : os.socket ≠ 0 := hzero
  have hclosed : [os.socket].filter (0 ≤ ·) =
      (if os.getAddrInfo = 0 ∧ 0 ≤ os.socket then some os.socket else none).toList := by
    by_cases hpos : 0 ≤ os.socket <;> simp [hinfo, hpos]
  by_cases hreuse : os.reuseaddr = -1
  · simp only [hinfo, hzero, hreuse, if_true, if_false, ne_eq, not_true_eq_false] at hclosed ⊢
    exact ⟨trivial, iff_of_true hclosed (.inr hne)⟩
  have hzero' : os.reuseaddr = 0 := os.setsockopt.resolve_right hreuse
  have hsock : 0 < os.socket := by
    have hge := os.socket_ge
    have hsome : os.socket ≠ -1 := fun hnone => hreuse (os.noSocket hnone)
    omega
  have hbind : os.bind ≠ 0 := fun hbind => h ⟨hinfo, hsock, hzero', hbind⟩
  simp only [hinfo, hzero, hreuse, hbind, if_true, if_false, ne_eq, not_true_eq_false,
    not_false_eq_true] at hclosed ⊢
  exact ⟨trivial, iff_of_true hclosed (.inr hne)⟩

/-! ## `doSocketListen` -/

/-- Without a descriptor it returns at once.
SOURCE: network/socketSystem.cc:182-213, 332-381 -/
theorem doSocketListen_unbound (h : ¬ Bound os) : k.doSocketListen os =
    some { table := k.table, ret := SOCKET_HANDLE_INVALID, closes := os.doSocketBind.2 } := by
  simp [Call.doSocketListen, (doSocketBind_fails h).1]

/-- After a `::listen` that has succeeded it closes what its local `handle` is.
SOURCE: network/socketSystem.cc:182-213 -/
theorem doSocketListen_listening (h : Bound os) (hlisten : os.listen = some 0) :
    k.doSocketListen os =
      some { table := k.table, ret := SOCKET_HANDLE_INVALID, closes := [k.handle] } := by
  have hne : os.socket ≠ INVALID_SOCKET := h.socket.ne'
  simp [Call.doSocketListen, doSocketBind_bound h, hne, Os.socketWrapListen, hlisten]

/-- After one that has failed it closes -1, or returns a handle all the same.
SOURCE: network/socketSystem.cc:182-213 -/
theorem doSocketListen_failed (h : Bound os) (hlisten : os.listen ≠ some 0) {l : Left}
    (hl : k.doSocketListen os = some l) :
    l.ret ≠ SOCKET_HANDLE_INVALID ∨ l.closes = [SOCKET_HANDLE_INVALID] := by
  have hne : os.socket ≠ INVALID_SOCKET := h.socket.ne'
  cases hr : os.listen with
  | none => simp [Call.doSocketListen, doSocketBind_bound h, hne, Os.socketWrapListen, hr] at hl
  | some r =>
    have hr0 : r ≠ 0 := fun hzero => hlisten (by rw [hr, hzero])
    simp only [Call.doSocketListen, doSocketBind_bound h, hne, Os.socketWrapListen, hr, hr0,
      if_false, Option.map_some, Option.bind_some, ne_eq, not_true_eq_false, bind, pure] at hl
    by_cases hfull : k.table.getReserve.ret = SOCKET_HANDLE_INVALID
    · rw [if_pos hfull] at hl
      obtain rfl := Option.some.inj hl
      exact .inr (congrArg (fun x => [x]) hfull)
    · rw [if_neg hfull] at hl
      simp only [Call.initSlot] at hl
      split at hl
      · obtain rfl := Option.some.inj hl
        exact .inl hfull
      · cases hl

/-! ## All or nothing -/

/-- The descriptor it gives was opened.
SOURCE: network/socketSystem.cc:332-381 -/
theorem opened_of_bound (h : Bound os) : os.opened = some os.socket := by
  simp [Os.opened, h.getAddrInfo, h.socket.le]

/-- Where `doSocketBind` fails, what it leaves open is descriptor 0.
SOURCE: network/socketSystem.cc:332-381 -/
theorem allOrNothing_unbound (h : ¬ Bound os) :
    AllOrNothing k os ↔ os.getAddrInfo ≠ 0 ∨ os.socket ≠ 0 := by
  have hcall := doSocketListen_unbound (k := k) h
  constructor
  · rintro ⟨l, hl, hall, hnone⟩
    obtain rfl := Option.some.inj (hcall.symm.trans hl)
    by_cases hs : Succeeds k os
    · exact absurd rfl (hall hs).ret
    · exact (doSocketBind_fails h).2.mp (hnone hs).closes
  · intro hok
    refine ⟨_, hcall, fun hs => ?_, fun _ => ⟨rfl, (doSocketBind_fails h).2.mpr hok, fun _ => id⟩⟩
    by_cases hzero : os.socket = 0
    · exact absurd hs.getAddrInfo (hok.resolve_right (not_not_intro hzero))
    · have hpos : 0 < os.socket := lt_of_le_of_ne hs.socket (Ne.symm hzero)
      exact absurd ⟨hs.getAddrInfo, hpos, hs.reuseaddr, hs.bind⟩ h

/-- Where `doSocketBind` succeeds, a descriptor is only given back by chance.
SOURCE: network/socketSystem.cc:332-381 -/
theorem allOrNothing_bound (h : Bound os) (hint : k.table.Int32) :
    AllOrNothing k os ↔ os.listen = some 0 ∧ Full k.table ∧ k.handle = os.socket := by
  have hopen := opened_of_bound h
  have hfull : k.table.getReserve.ret = SOCKET_HANDLE_INVALID ↔ Full k.table :=
    (callRight_of_int32 hint).full
  by_cases hlisten : os.listen = some 0
  · have hcall := doSocketListen_listening (k := k) h hlisten
    have hs : Succeeds k os ↔ ¬ Full k.table := by
      rw [← hfull]
      exact ⟨fun hs => hs.reserved, fun hsome =>
        ⟨h.getAddrInfo, h.socket.le, h.reuseaddr, h.bind, hlisten, hsome⟩⟩
    constructor
    · rintro ⟨l, hl, hall, hnone⟩
      obtain rfl := Option.some.inj (hcall.symm.trans hl)
      have hfails : ¬ Succeeds k os := fun hsome => absurd rfl (hall hsome).ret
      refine ⟨hlisten, not_not.mp fun hsome => hfails (hs.mpr hsome), ?_⟩
      have hcloses : [k.handle].filter (0 ≤ ·) = os.opened.toList := (hnone hfails).closes
      have hmem : os.socket ∈ [k.handle].filter (0 ≤ ·) := by
        rw [hcloses, hopen]
        exact List.mem_singleton_self _
      exact (List.mem_singleton.mp (List.mem_of_mem_filter hmem)).symm
    · rintro ⟨-, hnofree, hhandle⟩
      refine ⟨_, hcall, fun hsome => absurd hnofree (hs.mp hsome), fun _ => ⟨rfl, ?_, fun _ => id⟩⟩
      rw [hopen, hhandle]
      simp [h.socket.le]
  · constructor
    · rintro ⟨l, hl, -, hnone⟩
      -- `::listen` has failed, or it never returns
      have hreleases := hnone fun hs => hlisten hs.listen
      rcases doSocketListen_failed h hlisten hl with hret | hcloses
      · exact absurd hreleases.ret hret
      · have hclosed := hreleases.closes
        rw [hcloses, hopen] at hclosed
        exact absurd hclosed (by simp [SOCKET_HANDLE_INVALID])
    · rintro ⟨hsome, -⟩
      exact absurd hsome hlisten

/-- What a listen asks for when its bind has succeeded.
SOURCE: network/socketSystem.cc:182-213 -/
theorem cond_bound (h : Bound os) :
    Cond k os ↔ os.listen = some 0 ∧ Full k.table ∧ k.handle = os.socket := by
  have hsocket : os.socket ≠ -1 := by
    have hpos := h.socket
    omega
  simp [Cond, h.getAddrInfo, hsocket, h.socket, h.reuseaddr, h.bind]

/-- And when it has not.
SOURCE: network/socketSystem.cc:182-213 -/
theorem cond_unbound (h : ¬ Bound os) : Cond k os ↔ os.getAddrInfo ≠ 0 ∨ os.socket ≠ 0 := by
  have hge := os.socket_ge
  constructor
  · rintro (hinfo | hnone | ⟨hpos, -⟩)
    · exact .inl hinfo
    · exact .inr (by omega)
    · exact .inr hpos.ne'
  · rintro (hinfo | hne)
    · exact .inl hinfo
    · by_contra hc
      simp only [Cond, not_or, not_and, not_not] at hc
      obtain ⟨hinfo, hsome, hrest⟩ := hc
      have hpos : 0 < os.socket := by omega
      obtain ⟨hreuse, hbind, -⟩ := hrest hpos
      exact h ⟨hinfo, hpos, hreuse, hbind⟩

/-- **Listen is all or nothing** exactly when it fails before `socketWrap::listen` with a descriptor
other than 0, or none; or when `::listen` succeeds, no slot is free, and the uninitialised `handle`
happens to be the descriptor.
SOURCE: network/socketSystem.cc:182-213, 332-403, network/socketWrap.cc:100-102 -/
theorem listen_all_or_nothing (hint : k.table.Int32) : AllOrNothing k os ↔ Cond k os := by
  by_cases h : Bound os
  · rw [allOrNothing_bound h hint, cond_bound h]
  · rw [allOrNothing_unbound h, cond_unbound h]

/-- A table no slot of which has been used. -/
def freshTable : Table where
  m_sockGroup := fun _ =>
    { m_handle := SOCKET_HANDLE_INVALID, m_opaque := 0, m_sock := INVALID_SOCKET,
      m_curSender := none, m_sendIn := 0, m_sendQs := [], m_sendBytes := 0, m_sendWarn := 0,
      m_recvBufferSize := 0, m_proto := .UNKNOWN, m_state := .INVALID }
  m_sockSequence := 0

/-- The first call of a process, with 0 in its local `handle`. -/
def firstCall : Call := ⟨1, 0, freshTable, id⟩

/-- The calls of the system, with descriptor 7. -/
def answers (bind : ℤ) : Os := ⟨0, 7, 0, bind, some 0, by decide, .inl rfl, nofun⟩

/-- The sequence of a fresh table is an `int32_t`. -/
theorem freshTable_int32 : freshTable.Int32 := ⟨by decide, by decide⟩

/-- The address is in use. -/
theorem listen_all_or_nothing_in_use : AllOrNothing firstCall (answers 98) :=
  (listen_all_or_nothing freshTable_int32).mpr (.inr (.inr ⟨by decide, .inr (.inl (by decide))⟩))

/-- Everything succeeds, and descriptor 7 is left open. -/
theorem listen_leaks : ¬ ∀ (k : Call) (os : Os), k.table.Int32 → AllOrNothing k os := by
  intro hall
  have hbound : Bound (answers 0) := ⟨rfl, by decide, rfl, rfl⟩
  obtain ⟨-, -, hhandle⟩ := (allOrNothing_bound hbound freshTable_int32).mp
    (hall firstCall (answers 0) freshTable_int32)
  exact absurd hhandle (by decide)

end MagicNet.Listen
