import MagicNet.Analysis.HandlerSteps
import MagicNet.Model.Descriptors

/-!
# Who closes a descriptor

Every open descriptor has one owner, which is the process from its start, a call in progress or a slot;
or it has been lost, and has none.  A slot that is in use has exactly the descriptor in its `m_sock`, and
one that is `INVALID` has none; `doClose` runs only for a slot in use, and leaves it `INVALID`, so what it
closes is its own, open, and closed once.  A slot that is overwritten while it has a descriptor loses it,
and it is then open for good; but no other slot comes to have it.

What a call closes is its own as well, but for two slips: the label `_FAILED` of `doSocketListen`,
which closes what the variable `handle` holds and loses the descriptor, and a connect request all of
whose addresses refuse, which goes on with `INVALID_SOCKET` for a descriptor.

SOURCE: network/socketSystem.cc:182-213, 409-532, 662-837, network/socketHandle.cc:28-72
-/

set_option autoImplicit false

namespace MagicNet.Network.Slot

/-- A slot that an owner uses: it is neither free nor being reserved. -/
def InUse (c : Slot) : Prop := c.s.m_state ≠ .INVALID ∧ c.s.m_state ≠ .RESERVE

/-- What a handler does with the descriptor of a slot: it stays, nothing comes into use that was not,
and what is freed was in use. -/
structure KeepsSock (c t : Slot) : Prop where
  sock : t.s.m_sock = c.s.m_sock
  inUse : t.InUse → c.InUse
  invalid : t.s.m_state = .INVALID → c.s.m_state ≠ .RESERVE
  bind : t.s.m_state = .BIND → c.s.m_state = .BIND

variable {c t u : Slot} {answers : List Answer}

/-- A step that keeps the descriptor and the state. -/
theorem KeepsSock.of_state (hsock : t.s.m_sock = c.s.m_sock) (hstate : t.s.m_state = c.s.m_state) :
    KeepsSock c t := by
  refine ⟨hsock, ?_, ?_, hstate ▸ id⟩
  · unfold InUse
    rw [hstate]
    exact id
  · rw [hstate]
    intro hinvalid
    rw [hinvalid]
    nofun

/-- A step that keeps the handle's data. -/
theorem KeepsSock.of_s (h : t.s = c.s) : KeepsSock c t := .of_state (by rw [h]) (by rw [h])

/-- Two such steps. -/
theorem KeepsSock.trans (h : KeepsSock c t) (hstate : t.s.m_state = c.s.m_state)
    (h' : KeepsSock t u) : KeepsSock c u where
  sock := h'.sock.trans h.sock
  inUse := fun hu => h.inUse (h'.inUse hu)
  invalid := fun hu => hstate ▸ h'.invalid hu
  bind := fun hu => h.bind (h'.bind hu)

/-- A message more. -/
theorem KeepsSock.forward (h : KeepsSock c u) (type : SocketMessageType) (opaqueId : ℕ)
    (handle : ℤ) (ud : ℕ) : KeepsSock c (u.forward type opaqueId handle ud) :=
  ⟨h.sock, h.inUse, h.invalid, h.bind⟩

/-- A slot that a handler has closed. -/
theorem KeepsSock.of_closed {type : SocketMessageType} {opaqueId : ℕ} {handle : ℤ}
    (hsock : (u.forward type opaqueId handle 0).s.m_sock = c.s.m_sock) (h : Closed c u) :
    KeepsSock c (u.forward type opaqueId handle 0) :=
  ⟨hsock, fun hu => absurd h.state hu.1, fun _ => h.reserve, fun hu => nomatch h.state.symm.trans hu⟩

/-- `forceClose` leaves the descriptor in the slot it makes `INVALID`.
SOURCE: network/socketSystem.cc:807-820 -/
theorem forceClose_keepsSock (h : c.forceClose = some t) : KeepsSock c t := by
  have hclosed := forceClose_some h
  refine ⟨?_, fun hu => absurd hclosed.state hu.1, fun _ => hclosed.reserve,
    fun hu => nomatch hclosed.state.symm.trans hu⟩
  unfold forceClose at h
  split at h <;> cases h <;> rfl

/-- So it is when the close is told to the owner.
SOURCE: network/socketSystem.cc:807-820 -/
theorem forceClose_map_keepsSock {type : SocketMessageType} {opaqueId : ℕ} {handle : ℤ}
    (h : c.forceClose.map (·.forward type opaqueId handle 0) = some t) : KeepsSock c t := by
  obtain ⟨u, hu, rfl⟩ := Option.map_eq_some_iff.mp h
  exact (forceClose_keepsSock hu).forward ..

/-- `doSend` keeps it.
SOURCE: network/socketHandle.cc:72-113 -/
theorem doSend_keepsSock (c : Slot) (answers : List Answer) :
    KeepsSock c (c.doSend answers).1 := by
  refine .of_state ?_ (doSend_kept c answers).state
  obtain ⟨m_sendQs, m_sendBytes, h⟩ := SocketHandle.sendLoop_frame answers c.s.pushCurSender
  show (SocketHandle.sendLoop answers c.s.pushCurSender).handle.m_sock = c.s.m_sock
  rw [h]
  unfold SocketHandle.pushCurSender
  split <;> rfl

/-- Asking for write events does.
SOURCE: network/iocpEpoll.cc:30-35 -/
theorem doToWrite_keepsSock (c : Slot) (enable : Bool) : KeepsSock c (c.doToWrite enable) :=
  .of_s (SendPath.doToWrite_s c enable)

/-- A direct write does.
SOURCE: network/socketSystem.cc:250-303 -/
theorem directWrite_keepsSock (c : Slot) (data : List UInt8) (answer : Answer) :
    KeepsSock c (SendPath.directWrite c data answer) := by
  refine .of_state ?_ (directWrite_kept c data answer).state
  unfold SendPath.directWrite
  simp only
  split
  · rfl
  · rw [SendPath.doToWrite_s]
    rfl

/-- A send request does.
SOURCE: network/socketSystem.cc:534-568 -/
theorem doRequestSend_keepsSock (c : Slot) (r : RequestSend) : KeepsSock c (c.doRequestSend r) := by
  have happend : KeepsSock c (c.appendRequest r) := by
    have hs := (SendPath.appendRequest_frame c r).1
    exact .of_state (by rw [hs]; rfl) (by rw [hs]; rfl)
  have hwarn : KeepsSock (c.appendRequest r) ((c.appendRequest r).warnOwner r._handle) := by
    obtain ⟨⟨m_sendWarn, hs⟩, -⟩ := SendPath.warnOwner_frame (c.appendRequest r) r._handle
    exact .of_state (by rw [hs]) (by rw [hs])
  unfold doRequestSend
  split
  case h_6 =>
    split
    · exact .of_s rfl
    · exact happend.trans (appendRequest_kept c r).state hwarn
  all_goals exact .of_s rfl

/-- A close request leaves the descriptor.
SOURCE: network/socketSystem.cc:581-612 -/
theorem doRequestClose_sock {r : RequestClose} (h : c.doRequestClose r answers = some t) :
    t.s.m_sock = c.s.m_sock := by
  unfold doRequestClose at h
  split at h
  · cases h
    rfl
  · -- the flush, if there is one
    generalize hflush : (if c.s.isSending then c.doSend answers else (c, false)) = r' at h
    have hsame : r'.1.s.m_sock = c.s.m_sock := by
      rw [← hflush]
      split
      · exact (doSend_keepsSock c answers).sock
      · rfl
    simp only at h
    split at h
    · exact (forceClose_map_keepsSock h).sock.trans hsame
    · split at h
      · exact (forceClose_map_keepsSock h).sock.trans hsame
      · cases h
        exact hsame

/-- And a slot in use, or closed.
SOURCE: network/socketSystem.cc:581-612 -/
theorem doRequestClose_keepsSock {r : RequestClose} (h : c.doRequestClose r answers = some t) :
    KeepsSock c t := by
  rcases doRequestClose_some h with ⟨-, rfl⟩ | ⟨-, u, hclosed, rfl⟩
  · exact .of_s rfl
  · exact .of_closed (doRequestClose_sock h) hclosed

/-- So does a start request.
SOURCE: network/socketSystem.cc:409-441 -/
theorem doRequestStart_keepsSock {r : RequestStart} {registers : Bool}
    (h : c.doRequestStart r registers = some t) : KeepsSock c t := by
  have hopened (hstate : c.s.m_state = .PACCEPT ∨ c.s.m_state = .PLISTEN)
      (h' : c.registerStart r registers = some t) : KeepsSock c t := by
    have huse : c.InUse := by
      unfold InUse
      rcases hstate with hstate | hstate <;> rw [hstate] <;> exact ⟨nofun, nofun⟩
    unfold registerStart at h'
    split at h'
    · exact forceClose_map_keepsSock h'
    · cases h'
      refine ⟨rfl, fun _ => huse, fun _ => huse.2, fun hu => ?_⟩
      simp only [forward_s, setState_state] at hu
      split at hu <;> cases hu
  unfold doRequestStart at h
  split at h
  · cases h
    exact .of_s rfl
  · split at h
    · next hstate => exact hopened (.inl hstate) h
    · next hstate => exact hopened (.inr hstate) h
    · cases h
      exact .of_s rfl
    · cases h
      exact .of_s rfl

/-- So does the end of a connect.
SOURCE: network/socketSystem.cc:628-671 -/
theorem doConnectProc_keepsSock {error : Bool} (hstate : c.s.m_state = .CONNECTING)
    (h : c.doConnectProc error = some t) : KeepsSock c t := by
  have huse : c.InUse := by
    unfold InUse
    rw [hstate]
    exact ⟨nofun, nofun⟩
  unfold doConnectProc at h
  simp only at h
  split at h
  · exact forceClose_map_keepsSock h
  · have hconnected : c.established = t := Option.some.inj h
    have hbind : t.s.m_state ≠ .BIND := by
      rw [← hconnected, established_state]
      nofun
    refine ⟨?_, fun _ => huse, fun _ => huse.2, fun hu => absurd hu hbind⟩
    rw [← hconnected]
    unfold established
    split
    · rfl
    · rw [forward_s, SendPath.doToWrite_s]
      rfl

/-- So does a read.
SOURCE: network/socketSystem.cc:720-772 -/
theorem doRecvProc_keepsSock {r : Received} {lost : Bool}
    (h : c.doRecvProc r = some (t, lost)) : KeepsSock c t := by
  cases r with
  | retry =>
    cases h
    exact .of_s rfl
  | fails =>
    obtain ⟨u, hu, heq⟩ := Option.map_eq_some_iff.mp h
    cases heq
    exact (forceClose_keepsSock hu).forward ..
  | endOfStream =>
    obtain ⟨u, hu, heq⟩ := Option.map_eq_some_iff.mp h
    cases heq
    exact (forceClose_keepsSock hu).forward ..
  | bytes n =>
    simp only [doRecvProc] at h
    split at h
    · cases h
      exact .of_s rfl
    · cases h
      exact .of_state rfl rfl

/-- So does a write event.
SOURCE: network/socketSystem.cc:774-805 -/
theorem doSendProc_keepsSock (h : c.doSendProc answers = some t) : KeepsSock c t := by
  have hsend := doSend_keepsSock c answers
  have hflush : KeepsSock c (c.flush answers) := by
    unfold flush
    split
    · exact hsend.trans (doSend_kept c answers).state (doToWrite_keepsSock _ false)
    · exact hsend
  rw [doSendProc_eq] at h
  split at h
  · exact hsend.trans (doSend_kept c answers).state (forceClose_map_keepsSock h)
  · split at h
    · exact hflush.trans (flush_kept c answers).state (forceClose_map_keepsSock h)
    · cases h
      exact hflush

/-- So does every event of the batch.
SOURCE: network/socketSystem.cc:822-917 -/
theorem pollEvent_keepsSock {e : Poll.IocpEvent} {os : Answers} {again : Option Poll.IocpEvent}
    (h : c.pollEvent e os = some (t, again)) : KeepsSock c t := by
  obtain ⟨hstate, ht⟩ | ⟨-, rfl⟩ | ⟨-, rfl⟩ | ⟨-, ⟨lost, hr⟩ | hsend | ⟨type, -, hend⟩⟩ :=
    pollEvent_cases h
  · exact doConnectProc_keepsSock hstate ht
  · exact .of_s (by cases os.accepted <;> rfl)
  · exact .of_s rfl
  · exact doRecvProc_keepsSock hr
  · exact doSendProc_keepsSock hsend
  · exact forceClose_map_keepsSock hend

end MagicNet.Network.Slot

namespace MagicNet.Descriptors

open MagicNet.Foundation MagicNet.Network

/-! ## What a step of a slot does with its descriptor -/

/-- The events that give the slot another descriptor, or take it away without closing it. -/
def Replaces : SlotLife.Event → Prop
  | .doRest _ | .listen .. | .accept .. | .connect .. => True
  | _ => False

variable {startFunc : Bool}

/-- All other events keep it. -/
theorem does_keepsSock {c t : Slot} {e : SlotLife.Event} (h : SlotLife.Does startFunc c e t)
    (he : ¬ Replaces e) (hwin : ∀ handle, e ≠ .win handle) : Slot.KeepsSock c t := by
  cases h with
  | nothing _ => exact .of_s rfl
  | win handle _ => exact absurd rfl (hwin handle)
  | doRest handle => exact absurd trivial he
  | setHandle handle => exact .of_state rfl rfl
  | listen opaqueId handle sock _ => exact absurd trivial he
  | accept opaqueId listener handle sock _ => exact absurd trivial he
  | direct data answer _ => exact Slot.directWrite_keepsSock c data answer
  | incSendIn hr =>
    obtain ⟨m_sendIn, rfl⟩ := SendPath.incSendIn_frame hr
    exact .of_state rfl rfl
  | start _ hstart => exact Slot.doRequestStart_keepsSock hstart
  | connect r info registers => exact absurd trivial he
  | send r => exact Slot.doRequestSend_keepsSock c r
  | close hclose => exact Slot.doRequestClose_keepsSock hclose
  | getEvent hpoll => exact Slot.pollEvent_keepsSock hpoll

/-! ## The invariant -/

/-- What a step asks for: a listen that fails has a negative value in `handle`, and a connect request
that goes on has a descriptor of its own. -/
def Cond (_ : State) : Event → Prop
  | .listenFailed _ handle => handle < 0
  | .slot _ (.connect _ info _) => ∀ d ∈ AddrInfo.descriptor info, d.1 ≠ INVALID_SOCKET
  | _ => True

instance (s : State) : DecidablePred (Cond s)
  | .listenFailed _ handle => inferInstanceAs (Decidable (handle < 0))
  | .slot _ e =>
    match e with
    | .connect _ info _ =>
      inferInstanceAs (Decidable (∀ d ∈ AddrInfo.descriptor info, d.1 ≠ INVALID_SOCKET))
    | .win _ | .doRest _ | .setHandle _ | .listen .. | .accept .. | .direct .. | .incSendIn
    | .start .. | .send _ | .close .. | .clearClosed _ | .onWait _ | .getEvent _ => isTrue trivial
  | .socket _ | .closeHeld _ => isTrue trivial

/-- Every open descriptor has one place, and no close has been for another's. -/
structure Owned (s : State) : Prop where
  exclusive : Exclusive s.places
  opened : ∀ sock, sock ∈ s.isOpen ↔ Stored s.places sock
  nonneg : ∀ sock ∈ s.isOpen, 0 ≤ sock
  stdin : INVALID_SOCKET ∈ s.places .base
  closes : ∀ p ∈ s.closes, 0 ≤ p.1 → p.2 = true

/-- What a slot has. -/
structure Has (c : Slot) (own : List ℤ) : Prop where
  inUse : c.InUse → own = [c.s.m_sock]
  invalid : c.s.m_state = .INVALID → own = []
  bind : c.s.m_state ≠ .BIND

/-- What every run keeps. -/
structure Inv (s : State) : Prop extends Owned s where
  has : ∀ i, Has (s.slots i).c (s.places (.slot i))

variable {s s' : State}

/-- A close by the owner takes the descriptor away from it. -/
theorem Owned.close (h : Owned s) {p : Place} {sock : ℤ} (hp : p ≠ .base) (hsock : sock ∈ s.places p) :
    Owned (s.close p sock) := by
  have hperm := List.perm_cons_erase hsock
  have hopen : sock ∈ s.isOpen := (h.opened sock).mpr ⟨p, hsock⟩
  refine ⟨h.exclusive.take hperm, fun k => ?_, fun k hk => ?_, ?_, fun q hq => ?_⟩
  · show k ∈ s.isOpen.erase sock ↔ _
    rw [Finset.mem_erase, h.opened, and_comm]
    exact (h.exclusive.stored_take hperm).symm
  · exact h.nonneg k (Finset.mem_of_mem_erase hk)
  · show INVALID_SOCKET ∈ Function.update s.places p _ .base
    rw [Function.update_of_ne hp.symm]
    exact h.stdin
  · rcases List.mem_append.mp hq with hq | hq
    · exact h.closes q hq
    · rw [List.mem_singleton.mp hq]
      intro _
      simp [hsock, hopen]

/-- What is closed with a negative number is nothing. -/
theorem Owned.close_neg (h : Owned s) {sock : ℤ} (hneg : sock < 0) : Owned (s.close .held sock) := by
  have hclosed : sock ∉ s.isOpen := fun hopen => by
    have := h.nonneg sock hopen
    omega
  have hheld : sock ∉ s.places .held := fun hmem => hclosed ((h.opened sock).mpr ⟨_, hmem⟩)
  have hsame : (s.close .held sock).places = s.places := by
    show Function.update s.places .held _ = s.places
    rw [List.erase_of_not_mem hheld, Function.update_eq_self]
  refine ⟨hsame ▸ h.exclusive, fun k => ?_, fun k hk => ?_, hsame ▸ h.stdin, fun q hq => ?_⟩
  · rw [hsame, ← h.opened]
    show k ∈ s.isOpen.erase sock ↔ k ∈ s.isOpen
    rw [Finset.erase_eq_of_notMem hclosed]
  · exact h.nonneg k (Finset.mem_of_mem_erase hk)
  · rcases List.mem_append.mp hq with hq | hq
    · exact h.closes q hq
    · rw [List.mem_singleton.mp hq]
      intro hle
      have hle : 0 ≤ sock := hle
      omega

/-- A descriptor that goes from one place to another. -/
theorem Owned.move (h : Owned s) {p p' : Place} {moved rest : List ℤ} (hne : p ≠ p') (hp : p ≠ .base)
    (hp' : p' ≠ .base) (hperm : (s.places p).Perm (moved ++ rest)) :
    Owned { s with places := moveTable s.places p p' moved rest } := by
  refine ⟨h.exclusive.move hne hperm, fun k => ?_, h.nonneg, ?_, h.closes⟩
  · rw [h.opened]
    exact (h.exclusive.stored_move hne hperm).symm
  · show INVALID_SOCKET ∈ moveTable s.places p p' moved rest .base
    rw [moveTable_of_ne hp.symm hp'.symm]
    exact h.stdin

/-- A slot that is written over loses its descriptor.
SOURCE: network/socketHandle.cc:38-50 -/
theorem Owned.overwrite (h : Owned s) (i : ℕ) : Owned (s.overwrite i) :=
  h.move (by nofun) (by nofun) (by nofun) (by rw [List.append_nil])

/-- What calls hold stays when a slot is written over. -/
theorem overwrite_held (s : State) (i : ℕ) : (s.overwrite i).places .held = s.places .held := by
  have hslot : Place.held ≠ .slot i := nofun
  have hlost : Place.held ≠ .lost := nofun
  show moveTable s.places (.slot i) .lost (s.places (.slot i)) [] .held = s.places .held
  rw [moveTable_of_ne hslot hlost]

/-- A slot that is given a descriptor loses the one it had.
SOURCE: network/socketHandle.cc:26-36 -/
theorem Owned.give (h : Owned s) (i : ℕ) {sock : ℤ} (hsock : sock ∈ s.places .held) :
    Owned (s.give i sock) := by
  have hheld : sock ∈ (s.overwrite i).places .held := by rwa [overwrite_held]
  have hperm : ((s.overwrite i).places .held).Perm
      ([sock] ++ ((s.overwrite i).places .held).erase sock) := List.perm_cons_erase hheld
  exact (h.overwrite i).move nofun nofun nofun hperm

/-- A new descriptor is held by the call that has opened it. -/
theorem Owned.socket (h : Owned s) {sock : ℤ} (hnew : sock ∉ s.isOpen) (hnonneg : 0 ≤ sock) :
    Owned { s with
      places := Function.update s.places .held (s.places .held ++ [sock])
      isOpen := insert sock s.isOpen } := by
  refine ⟨h.exclusive.put fun hstored => hnew ((h.opened sock).mpr hstored), fun k => ?_,
    fun k hk => ?_, ?_, h.closes⟩
  · show k ∈ insert sock s.isOpen ↔ _
    rw [Finset.mem_insert, h.opened, or_comm]
    exact Exclusive.stored_put.symm
  · rcases Finset.mem_insert.mp hk with rfl | hk
    · exact hnonneg
    · exact h.nonneg k hk
  · show INVALID_SOCKET ∈ Function.update s.places .held (s.places .held ++ [sock]) .base
    have hne : Place.base ≠ .held := nofun
    rw [Function.update_of_ne hne]
    exact h.stdin

/-! ## What the slots have -/

@[simp] theorem close_places_of_ne {p q : Place} (h : q ≠ p) (sock : ℤ) :
    (s.close p sock).places q = s.places q := Function.update_of_ne h _ _

/-- A slot that is written over has no descriptor.
SOURCE: network/socketHandle.cc:38-50 -/
theorem overwrite_places_slot (s : State) (i j : ℕ) :
    (s.overwrite i).places (.slot j) = if j = i then [] else s.places (.slot j) := by
  have hlost : Place.slot j ≠ .lost := nofun
  show moveTable s.places (.slot i) .lost (s.places (.slot i)) [] (.slot j) = _
  by_cases hj : j = i
  · subst hj
    rw [if_pos rfl, moveTable_source hlost]
  · rw [if_neg hj, moveTable_of_ne (fun h => hj (Place.slot.inj h)) hlost]

/-- A slot has the descriptor that it was given.
SOURCE: network/socketHandle.cc:26-36 -/
theorem give_places_slot (s : State) (i j : ℕ) (sock : ℤ) :
    (s.give i sock).places (.slot j) = if j = i then [sock] else s.places (.slot j) := by
  have hheld : Place.slot j ≠ .held := nofun
  have hover := overwrite_places_slot s i j
  show moveTable (s.overwrite i).places .held (.slot i) [sock] _ (.slot j) = _
  by_cases hj : j = i
  · subst hj
    rw [if_pos rfl] at hover ⊢
    rw [moveTable_target, hover, List.nil_append]
  · rw [if_neg hj] at hover ⊢
    rw [moveTable_of_ne hheld (fun h => hj (Place.slot.inj h)), hover]

/-- A step that leaves every other slot and what it has alone. -/
theorem inv_setSlot {u : State} {i : ℕ} {t : SlotLife.State} (h : Inv s) (howned : Owned u)
    (hslots : u.slots = s.slots) (hsame : ∀ j, j ≠ i → u.places (.slot j) = s.places (.slot j))
    (hhas : Has t.c (u.places (.slot i))) : Inv (u.setSlot i t) := by
  refine ⟨⟨howned.exclusive, howned.opened, howned.nonneg, howned.stdin, howned.closes⟩, fun j => ?_⟩
  show Has (Function.update u.slots i t j).c (u.places (.slot j))
  by_cases hj : j = i
  · subst hj
    rw [Function.update_self]
    exact hhas
  · rw [Function.update_of_ne hj, hsame j hj, hslots]
    exact h.has j

/-- A step that leaves the slot as it was. -/
theorem inv_same {i : ℕ} {t : SlotLife.State} (h : Inv s) (ht : t.c = (s.slots i).c) :
    Inv (s.setSlot i t) :=
  inv_setSlot h h.toOwned rfl (fun _ _ => rfl) (ht ▸ h.has i)

/-- Writing over a slot that is made `INVALID` keeps the invariant.
SOURCE: network/socketHandle.cc:38-50 -/
theorem inv_overwrite {i : ℕ} {t : SlotLife.State} (h : Inv s)
    (ht : t.c.s.m_state = .INVALID) : Inv ((s.overwrite i).setSlot i t) := by
  refine inv_setSlot h (h.overwrite i) rfl (fun j hj => ?_) ⟨fun hu => absurd ht hu.1, fun _ => ?_, ?_⟩
  · rw [overwrite_places_slot, if_neg hj]
  · rw [overwrite_places_slot, if_pos rfl]
  · rw [ht]
    nofun

/-- A slot that is initialised with a descriptor of the call. -/
theorem inv_give {i : ℕ} {t : SlotLife.State} {sock : ℤ} (h : Inv s) (hsock : sock ∈ s.places .held)
    (ht : t.c.s.m_sock = sock) (hstate : t.c.s.m_state ≠ .INVALID) (hbind : t.c.s.m_state ≠ .BIND) :
    Inv ((s.give i sock).setSlot i t) := by
  refine inv_setSlot h (h.give i hsock) rfl (fun j hj => ?_) ⟨fun _ => ?_, fun hu => absurd hu hstate,
    hbind⟩
  · rw [give_places_slot, if_neg hj]
  · rw [give_places_slot, if_pos rfl, ht]

/-- **A handler** that does not give the slot another descriptor: it closes what the slot has, or
leaves it. -/
theorem inv_keepsSock {i : ℕ} {t : SlotLife.State} {e : SlotLife.Event} (h : Inv s)
    (he : ¬ Replaces e) (hkeeps : Slot.KeepsSock (s.slots i).c t.c) :
    Inv (if closesSlot e (s.slots i).c t.c then
        (s.close (.slot i) (s.slots i).c.s.m_sock).setSlot i t
      else s.setSlot i t) := by
  have hhas := h.has i
  have hcloses : closesSlot e (s.slots i).c t.c = true ↔
      (s.slots i).c.s.m_state ≠ .INVALID ∧ t.c.s.m_state = .INVALID := by
    have hbind := hhas.bind
    cases e with
    | doRest handle => exact absurd trivial he
    | connect r info registers => exact absurd trivial he
    | _ => simp [closesSlot, hbind]
  by_cases hstates : (s.slots i).c.s.m_state ≠ .INVALID ∧ t.c.s.m_state = .INVALID
  · rw [if_pos (hcloses.mpr hstates)]
    have hown := hhas.inUse ⟨hstates.1, hkeeps.invalid hstates.2⟩
    have hmem : (s.slots i).c.s.m_sock ∈ s.places (.slot i) := by
      rw [hown]
      exact List.mem_singleton_self _
    have hslot : Place.slot i ≠ .base := nofun
    refine inv_setSlot h (h.close hslot hmem) rfl (fun j hj => ?_)
      ⟨fun hu => absurd hstates.2 hu.1, fun _ => ?_, ?_⟩
    · exact close_places_of_ne (fun heq => hj (Place.slot.inj heq)) _
    · show Function.update s.places (.slot i) _ (.slot i) = []
      rw [Function.update_self, hown, List.erase_cons_head]
    · rw [hstates.2]
      nofun
  · rw [if_neg fun hc => hstates (hcloses.mp hc)]
    refine inv_setSlot h h.toOwned rfl (fun _ _ => rfl) ⟨fun hu => ?_, fun hu => ?_, fun hu => ?_⟩
    · rw [hkeeps.sock]
      exact hhas.inUse (hkeeps.inUse hu)
    · apply hhas.invalid
      by_contra hinvalid
      exact hstates ⟨hinvalid, hu⟩
    · exact hhas.bind (hkeeps.bind hu)

/-! ## Every step -/

/-- What a listen makes of the slot it has reserved. -/
theorem step_listen {t t' : SlotLife.State} {opaqueId : ℕ} {handle sock : ℤ}
    (hs : SlotLife.step startFunc t (.listen opaqueId handle sock) = some t') :
    t'.alive = true ∧ t'.c = (t.c.initWith opaqueId handle sock).setState .PLISTEN ∨
      t'.alive = false ∧ t'.c = t.c := by
  rcases (SlotLife.step_steps hs).slot with ⟨halive, -⟩ | ⟨hdead, hsame, -⟩
  · left
    refine ⟨halive, ?_⟩
    simp only [SlotLife.step, SlotLife.act, Option.ite_none_right_eq_some] at hs
    obtain ⟨-, -, hs⟩ := hs
    split at hs
    · next c hc =>
      unfold Slot.listen at hc
      split at hc
      · cases hs
        cases hc
        rfl
      · cases hc
    · cases hs
      cases halive
  · exact .inr ⟨hdead, hsame⟩

/-- What an accept makes of the slot it has reserved. -/
theorem step_accept {t t' : SlotLife.State} {opaqueId : ℕ} {listener handle sock : ℤ}
    (hs : SlotLife.step startFunc t (.accept opaqueId listener handle sock) = some t') :
    t'.alive = true ∧ t'.c.s.m_sock = sock ∧ t'.c.s.m_state = .RESERVE ∨
      t'.alive = false ∧ t'.c = t.c := by
  rcases (SlotLife.step_steps hs).slot with ⟨halive, -⟩ | ⟨hdead, hsame, -⟩
  · left
    refine ⟨halive, ?_⟩
    simp only [SlotLife.step, SlotLife.act, Option.ite_none_right_eq_some] at hs
    obtain ⟨-, -, hs⟩ := hs
    split at hs
    · next c hc =>
      unfold Slot.acceptClient at hc
      split at hc
      · next hstate =>
        cases hs
        cases hc
        exact ⟨rfl, hstate⟩
      · cases hc
    · cases hs
      cases halive
  · exact .inr ⟨hdead, hsame⟩

/-- So does the close of a descriptor that a call holds. -/
theorem inv_closeHeld {sock : ℤ} (h : Inv s) (hsock : sock ∈ s.places .held) :
    Inv (s.close .held sock) := by
  have hne : Place.held ≠ .base := nofun
  refine ⟨h.close hne hsock, fun j => ?_⟩
  have hslot : Place.slot j ≠ .held := nofun
  rw [close_places_of_ne hslot]
  exact h.has j

/-- A connect request.
SOURCE: network/socketSystem.cc:443-532 -/
theorem connect_inv {i : ℕ} {t : SlotLife.State} {r : RequestConnect} {info : AddrInfo}
    {registers : Bool} (h : Inv s) (hc : ∀ d ∈ AddrInfo.descriptor info, d.1 ≠ INVALID_SOCKET)
    (ht : t.c = (s.slots i).c.doRequestConnect r info registers)
    (hs : act s i t (.connect r info registers) = some s') : Inv s' := by
  rcases Slot.doRequestConnect_some (s.slots i).c r info registers with
    ⟨hfails, hslot⟩ | ⟨sock, zero, hinfo, rfl, hslot⟩
  · have hinvalid : t.c.s.m_state = .INVALID := by
      rw [ht, hslot]
      rfl
    simp only [act] at hs
    split at hs
    · obtain rfl := Option.some.inj hs
      exact inv_overwrite h hinvalid
    · next sock zero hinfo =>
      obtain rfl := hfails.resolve_left (by rw [hinfo]; nofun)
      simp only [Option.ite_none_right_eq_some, if_true, Option.some.injEq] at hs
      obtain ⟨hsock, rfl⟩ := hs
      exact inv_overwrite (inv_closeHeld h (hsock.resolve_right (hc (sock, zero) hinfo))) hinvalid
  · simp only [act, hinfo, Option.ite_none_right_eq_some, Bool.false_eq_true, if_false,
      Option.some.injEq] at hs
    obtain ⟨hsock, rfl⟩ := hs
    refine inv_give h (hsock.resolve_right (hc (sock, zero) hinfo)) ?_ ?_ ?_
    · rw [ht, hslot]
      cases zero <;> rfl
    · rw [ht, hslot]
      cases zero <;> nofun
    · rw [ht, hslot]
      cases zero <;> nofun

/-- **A step of a slot.** -/
theorem act_inv {i : ℕ} {t : SlotLife.State} {e : SlotLife.Event} (h : Inv s)
    (hc : Cond s (.slot i e)) (ht : SlotLife.step startFunc (s.slots i) e = some t)
    (hs : act s i t e = some s') : Inv s' := by
  have hdoes := SlotLife.step_does ht
  by_cases hreplaces : Replaces e
  · cases e with
    | doRest handle =>
      obtain rfl := Option.some.inj hs
      refine inv_overwrite h ?_
      generalize t.c = c' at hdoes
      cases hdoes with
      | nothing hleaves => exact hleaves.elim
      | doRest => rfl
    | listen opaqueId handle sock =>
      simp only [act, Option.ite_none_right_eq_some, Option.some.injEq] at hs
      obtain ⟨hsock, rfl⟩ := hs
      rcases step_listen ht with ⟨halive, hslot⟩ | ⟨hdead, hsame⟩
      · rw [if_pos halive]
        exact inv_give h hsock (by rw [hslot]; rfl) (by rw [hslot]; nofun) (by rw [hslot]; nofun)
      · rw [if_neg (by rw [hdead]; nofun)]
        exact inv_same h hsame
    | accept opaqueId listener handle sock =>
      simp only [act, Option.ite_none_right_eq_some, Option.some.injEq] at hs
      obtain ⟨hsock, rfl⟩ := hs
      rcases step_accept ht with ⟨halive, hslot, hstate⟩ | ⟨hdead, hsame⟩
      · rw [if_pos halive]
        exact inv_give h hsock hslot (by rw [hstate]; nofun) (by rw [hstate]; nofun)
      · rw [if_neg (by rw [hdead]; nofun)]
        exact inv_same h hsame
    | connect r info registers => exact connect_inv h hc (SlotLife.step_connect ht) hs
    | _ => exact hreplaces.elim
  · have hkept : s' = if closesSlot e (s.slots i).c t.c then
        (s.close (.slot i) (s.slots i).c.s.m_sock).setSlot i t else s.setSlot i t := by
      cases e with
      | doRest | listen | accept | connect => exact absurd trivial hreplaces
      | _ => exact (Option.some.inj hs).symm
    by_cases hwin : ∃ handle, e = .win handle
    · obtain ⟨handle, rfl⟩ := hwin
      have hstates : (s.slots i).c.s.m_state = .INVALID ∧ t.c.s.m_state = .RESERVE := by
        generalize t.c = c' at hdoes
        cases hdoes with
        | nothing hleaves => exact hleaves.elim
        | win _ hinvalid => exact ⟨hinvalid, rfl⟩
      rw [hkept, if_neg (by simp [closesSlot, hstates.1])]
      refine inv_setSlot h h.toOwned rfl (fun _ _ => rfl) ⟨fun hu => absurd hstates.2 hu.2, ?_, ?_⟩
      · rw [hstates.2]
        nofun
      · rw [hstates.2]
        nofun
    · rw [hkept]
      refine inv_keepsSock h hreplaces (does_keepsSock hdoes hreplaces fun handle heq => ?_)
      exact hwin ⟨handle, heq⟩

/-- **One step.** -/
theorem step_inv {e : Event} (h : Inv s) (hc : Cond s e) (hs : step startFunc s e = some s') :
    Inv s' := by
  have hframe {u : State} (howned : Owned u) (hslots : u.slots = s.slots)
      (hsame : ∀ j, u.places (.slot j) = s.places (.slot j)) : Inv u := by
    refine ⟨howned, fun j => ?_⟩
    rw [hslots, hsame]
    exact h.has j
  cases e with
  | socket sock =>
    simp only [step, Option.ite_none_left_eq_some, Option.some.injEq, not_or, not_lt] at hs
    obtain ⟨⟨hnew, hnonneg⟩, rfl⟩ := hs
    refine hframe (h.socket hnew hnonneg) rfl fun j => ?_
    have hslot : Place.slot j ≠ .held := nofun
    show Function.update s.places .held (s.places .held ++ [sock]) (.slot j) = s.places (.slot j)
    rw [Function.update_of_ne hslot]
  | closeHeld sock =>
    simp only [step, Option.ite_none_right_eq_some, Option.some.injEq] at hs
    obtain ⟨hsock, rfl⟩ := hs
    exact inv_closeHeld h hsock
  | listenFailed sock handle =>
    have hneg : handle < 0 := hc
    have howned := h.close_neg hneg
    simp only [step, Option.ite_none_right_eq_some, Option.some.injEq] at hs
    obtain ⟨hsock, rfl⟩ := hs
    have hclosed : sock ∈ (s.close .held handle).places .held := by
      have hopen : 0 ≤ sock := h.nonneg sock ((h.opened sock).mpr ⟨_, hsock⟩)
      show sock ∈ Function.update s.places .held ((s.places .held).erase handle) .held
      rw [Function.update_self, List.mem_erase_of_ne (by omega)]
      exact hsock
    have hslot (j : ℕ) : Place.slot j ≠ .held := nofun
    have hlost (j : ℕ) : Place.slot j ≠ .lost := nofun
    have hopen : 0 ≤ sock := h.nonneg sock ((h.opened sock).mpr ⟨_, hsock⟩)
    rw [if_neg (by omega)]
    refine hframe (howned.move nofun nofun nofun (List.perm_cons_erase hclosed)) rfl fun j => ?_
    have hmoved : moveTable (s.close .held handle).places .held .lost [sock]
        (((s.close .held handle).places .held).erase sock) (.slot j) =
          (s.close .held handle).places (.slot j) := moveTable_of_ne (hslot j) (hlost j)
    rw [close_places_of_ne (hslot j)] at hmoved
    exact hmoved
  | slot i e =>
    obtain ⟨t, ht, hs⟩ := Option.bind_eq_some_iff.mp hs
    exact act_inv h hc ht hs

/-- It holds at the start. -/
theorem inv_of_starts (h : Starts s) : Inv s := by
  have hslot (i : ℕ) : (s.slots i).c.s.m_state = .INVALID := (h.slots i).state
  refine ⟨⟨⟨fun p => ?_, fun {a p p'} hp hp' => ?_⟩, fun sock => ?_, h.nonneg, ?_, ?_⟩, fun i => ?_⟩
  · by_cases hp : p = .base
    · rw [hp]
      exact h.nodup
    · rw [h.others p hp]
      exact List.nodup_nil
  · have honly {q : Place} (hq : a ∈ s.places q) : q = .base := by
      by_contra hne
      rw [h.others q hne] at hq
      cases hq
    rw [honly hp, honly hp']
  · constructor
    · intro hopen
      exact ⟨.base, (h.base sock).mpr hopen⟩
    · rintro ⟨p, hp⟩
      by_cases hbase : p = .base
      · rw [hbase] at hp
        exact (h.base sock).mp hp
      · rw [h.others p hbase] at hp
        cases hp
  · exact (h.base _).mpr h.stdin
  · rw [h.closes]
    nofun
  · refine ⟨fun hu => absurd (hslot i) hu.1, fun _ => h.others _ nofun, ?_⟩
    rw [hslot]
    nofun

/-! ## What is lost -/

/-- The steps that lose a descriptor: a listen that fails and closes something else, and those that give
a slot another one, or take it away, while it has one. -/
def Loses (s : State) (lost : ℤ) : Event → Prop
  | .listenFailed sock handle => lost = sock ∧ handle ≠ sock
  | .slot i e => Replaces e ∧ lost ∈ s.places (.slot i)
  | .socket _ | .closeHeld _ => False

/-- Writing over a slot loses its descriptor.
SOURCE: network/socketHandle.cc:38-50 -/
theorem overwrite_lost (s : State) (i : ℕ) :
    (s.overwrite i).places .lost = s.places .lost ++ s.places (.slot i) := by
  show moveTable s.places (.slot i) .lost (s.places (.slot i)) [] .lost = _
  rw [moveTable_target]

/-- So does giving it another one.
SOURCE: network/socketHandle.cc:26-36 -/
theorem give_lost (s : State) (i : ℕ) (sock : ℤ) :
    (s.give i sock).places .lost = s.places .lost ++ s.places (.slot i) := by
  have hheld : Place.lost ≠ .held := nofun
  have hslot : Place.lost ≠ .slot i := nofun
  show moveTable (s.overwrite i).places .held (.slot i) [sock]
    (((s.overwrite i).places .held).erase sock) .lost = _
  rw [moveTable_of_ne hheld hslot, overwrite_lost]

/-- **What a step of a slot loses** is what the slot had. -/
theorem act_lost {i : ℕ} {t : SlotLife.State} {e : SlotLife.Event} {lost : ℤ}
    (hs : act s i t e = some s') (hlost : lost ∈ s'.places .lost) :
    lost ∈ s.places .lost ∨ Replaces e ∧ lost ∈ s.places (.slot i) := by
  have hslot : Place.lost ≠ .slot i := nofun
  have hheld : Place.lost ≠ .held := nofun
  have hsplit (he : Replaces e) (hmem : lost ∈ s.places .lost ++ s.places (.slot i)) :
      lost ∈ s.places .lost ∨ Replaces e ∧ lost ∈ s.places (.slot i) :=
    (List.mem_append.mp hmem).imp_right fun hin => ⟨he, hin⟩
  cases e with
  | listen opaqueId handle sock | accept opaqueId listener handle sock =>
    simp only [act, Option.ite_none_right_eq_some, Option.some.injEq] at hs
    obtain ⟨-, rfl⟩ := hs
    split at hlost
    · exact hsplit trivial (give_lost s i sock ▸ hlost)
    · exact .inl hlost
  | connect r info registers =>
    simp only [act] at hs
    split at hs
    · obtain rfl := Option.some.inj hs
      exact hsplit trivial (overwrite_lost s i ▸ hlost)
    · next sock zero _ =>
      simp only [Option.ite_none_right_eq_some, Option.some.injEq] at hs
      obtain ⟨-, rfl⟩ := hs
      split at hlost
      · have hclosed := overwrite_lost (s.close .held sock) i
        have hslot' : Place.slot i ≠ .held := nofun
        rw [close_places_of_ne hheld, close_places_of_ne hslot'] at hclosed
        exact hsplit trivial (hclosed ▸ hlost)
      · exact hsplit trivial (give_lost s i sock ▸ hlost)
  | doRest handle =>
    obtain rfl := Option.some.inj hs
    exact hsplit trivial (overwrite_lost s i ▸ hlost)
  | _ =>
    obtain rfl := Option.some.inj hs
    split at hlost
    · have hkept : (s.close (.slot i) (s.slots i).c.s.m_sock).places .lost = s.places .lost :=
        close_places_of_ne hslot _
      exact .inl (hkept ▸ hlost)
    · exact .inl hlost

/-- **What a step loses.** -/
theorem step_lost {e : Event} {lost : ℤ} (hs : step startFunc s e = some s')
    (hlost : lost ∈ s'.places .lost) : lost ∈ s.places .lost ∨ Loses s lost e := by
  have hheld : Place.lost ≠ .held := nofun
  cases e with
  | socket sock =>
    simp only [step, Option.ite_none_left_eq_some, Option.some.injEq] at hs
    obtain ⟨-, rfl⟩ := hs
    have hkept : Function.update s.places .held (s.places .held ++ [sock]) .lost = s.places .lost :=
      Function.update_of_ne hheld _ _
    exact .inl (hkept ▸ hlost)
  | closeHeld sock =>
    simp only [step, Option.ite_none_right_eq_some, Option.some.injEq] at hs
    obtain ⟨-, rfl⟩ := hs
    exact .inl (close_places_of_ne hheld sock ▸ hlost)
  | listenFailed sock handle =>
    simp only [step, Option.ite_none_right_eq_some, Option.some.injEq] at hs
    obtain ⟨-, rfl⟩ := hs
    split at hlost
    · exact .inl (close_places_of_ne hheld handle ▸ hlost)
    · next hne =>
      change lost ∈ moveTable (s.close .held handle).places .held .lost [sock]
        (((s.close .held handle).places .held).erase sock) .lost at hlost
      rw [moveTable_target, close_places_of_ne hheld, List.mem_append, List.mem_singleton] at hlost
      exact hlost.imp_right fun heq => ⟨heq, hne⟩
  | slot i e =>
    obtain ⟨t, -, hs⟩ := Option.bind_eq_some_iff.mp hs
    exact act_lost hs hlost

/-- **Descriptors are closed once and by their owners.**  In every run of any number of slots and of
the calls that open descriptors, in which a listen that fails has a negative value in its `handle` and
no connect request goes on without a descriptor: every call of `close` that names a descriptor is
made by the one who has it, while it is open; a slot in use has the descriptor in its `m_sock`, which
is open; no descriptor has two owners; and one that is open has an owner unless it has been lost, by a
listen that failed or by a step that gave its slot another one or took it away.
SOURCE: network/socketSystem.cc:182-213, 409-532, 662-837, network/socketHandle.cc:28-72,
network/socketWrap.cc:57-63 -/
theorem descriptors_owned (startFunc : Bool) (s : State) (h : (system startFunc).Via Cond s) :
    (∀ p ∈ s.closes, 0 ≤ p.1 → p.2 = true) ∧
      (∀ i, (s.slots i).c.InUse →
        s.places (.slot i) = [(s.slots i).c.s.m_sock] ∧ (s.slots i).c.s.m_sock ∈ s.isOpen) ∧
      Exclusive s.places ∧
      (∀ sock, sock ∈ s.isOpen ↔ s.HasOwner sock ∨ sock ∈ s.places .lost) ∧
      ∀ e s', step startFunc s e = some s' →
        ∀ sock ∈ s'.places .lost, sock ∈ s.places .lost ∨ Loses s sock e := by
  have hinv : Inv s := h.invariant (fun t => inv_of_starts) fun t e t' ht hc hs => step_inv ht hc hs
  refine ⟨hinv.closes, fun i hi => ?_, hinv.exclusive, fun sock => ?_, fun e s' hs sock => step_lost hs⟩
  · have hown := (hinv.has i).inUse hi
    refine ⟨hown, (hinv.opened _).mpr ⟨.slot i, ?_⟩⟩
    rw [hown]
    exact List.mem_singleton_self _
  · rw [hinv.opened]
    constructor
    · rintro ⟨p, hp⟩
      cases p with
      | lost => exact .inr hp
      | base | held | slot => exact .inl ⟨_, rfl, hp⟩
    · rintro (⟨p, -, hp⟩ | hlost)
      · exact ⟨p, hp⟩
      · exact ⟨.lost, hlost⟩

/-- A process that has only its standard input open. -/
def started : State where
  slots _ := SlotLife.start
  places p := if p = .base then [0] else []
  isOpen := {0}
  closes := []

/-- A process that has just started. -/
theorem started_starts : Starts started where
  slots _ := SlotLife.start_starts
  base sock := by simp [started]
  nodup := by decide
  nonneg := by decide
  others p hp := if_neg hp
  stdin := by decide
  closes := rfl

/-- A connection whose descriptor is closed, and given out again by the kernel for another slot. -/
def twice : List Event :=
  .socket 7 :: (SlotLife.reserved 65539).map (.slot 3) ++
    [.slot 3 (.connect ⟨65539, 5⟩ (.addresses .refused [.connected 7]) false),
      .slot 3 (.close ⟨65539, 1, 5⟩ []), .socket 7] ++ (SlotLife.reserved 65540).map (.slot 4) ++
    [.slot 4 (.connect ⟨65540, 5⟩ (.addresses (.inProgress 7) []) false)]

/-- A descriptor is accepted, closed by its slot, and accepted again under the same number. -/
theorem descriptors_owned_twice : ∃ s, (system true).Via Cond s ∧ s.closes = [(7, true)] ∧
    s.places (.slot 4) = [7] ∧ ∀ p ∈ s.closes, 0 ≤ p.1 → p.2 = true := by
  have hmeets : (system true).Meets Cond started twice := by
    decide +kernel
  have hrun : ((system true).run started twice).any (fun s =>
      s.closes = [(7, true)] ∧ s.places (.slot 4) = [7]) = true := by decide +kernel
  obtain ⟨s, hvia, hs⟩ := System.exists_via twice _ started_starts hmeets hrun
  obtain ⟨hcloses, hslot⟩ := of_decide_eq_true hs
  exact ⟨s, hvia, hcloses, hslot, (descriptors_owned true s hvia).1⟩

end MagicNet.Descriptors
