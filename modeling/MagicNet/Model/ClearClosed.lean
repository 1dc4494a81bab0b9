import MagicNet.Model.SlotLife

/-!
# The clean-up of a batch, access by access

When the handler of a request returns `M_SOCKET_CLOSE` or `M_SOCKET_ERROR`, `doProccess` calls
`doRequestClearClosedEvent`, which goes through the events of the batch that are still to come and
takes the slot from the first one whose slot is `INVALID` with the request's handle.  It reads the
state and then the handle, and between these reads, and since the handler set `INVALID`, other
threads may have reserved the slot.

The slot and its users are those of `Model.SlotLife`; here the handlers of the start, connect and
close requests end with their return, and each read of the clean-up is a step.

SOURCE: network/socketSystem.cc:409-532, 578-626, 822-917, network/socketChannel.cc:126-188
-/

set_option autoImplicit false

namespace MagicNet.ClearClosed

open MagicNet.Foundation MagicNet.Network
open MagicNet.Poll (IocpEvent)

/-- Where the poll thread is with the clean-up for `handle`: not in it; at `getState()` for the
slot's event `i`; at its `getHandle()`, the state read being `INVALID`. -/
inductive Pc where
  | loop
  | getState (handle : ℤ) (i : ℕ)
  | getHandle (handle : ℤ) (i : ℕ)
  deriving DecidableEq, Repr

/-- `closed` says that the poll thread has closed the slot since the last `onWait` returned: the
events of the batch that are still to come are then those of the socket closed. -/
structure State where
  life : SlotLife.State
  pc : Pc
  closed : Bool
  deriving DecidableEq, Repr

/-- `life` is a step of a user of the slot, the handlers without the clean-up after them; `scan` is
a read of the clean-up, with the test and what follows from it. -/
inductive Event where
  | life (e : SlotLife.Event)
  | scan
  deriving DecidableEq, Repr

/-- The steps of the poll thread. -/
def ofPoll : SlotLife.Event → Bool
  | .accept .. | .start .. | .connect .. | .send .. | .close .. | .clearClosed .. | .onWait ..
  | .getEvent .. => true
  | .win .. | .doRest .. | .setHandle .. | .listen .. | .direct .. | .incSendIn => false

/-- Whether `doRequestStart` returns `M_SOCKET_ERROR`. -/
def startFails (c : Slot) (request : RequestStart) (registers : Bool) : Bool :=
  decide (c.s.m_state = .INVALID ∨ c.s.m_handle ≠ request._handle ∨
    (c.s.m_state = .PACCEPT ∨ c.s.m_state = .PLISTEN) ∧ registers = false)

/-- Whether `doRequestConnect` returns `M_SOCKET_ERROR`. -/
def connectFails (info : AddrInfo) (registers : Bool) : Bool :=
  match AddrInfo.descriptor info with
  | none => true
  | some _ => registers

/-- Whether `doRequestClose` returns `M_SOCKET_CLOSE`: it has not found the slot of the handle, or
has closed it. -/
def closeReturns (c : Slot) (request : RequestClose) (answers : List Answer) : Bool :=
  decide (c.s.m_state = .INVALID ∨ c.s.m_handle ≠ request._handle) ||
    (c.doRequestClose request answers).any fun t => decide (t.s.m_state = .INVALID)

/-- A step of a user, and the handle with which `doProccess` goes on to the clean-up.
`clearClosed` stands for a request that was for another slot. -/
def act (startFunc : Bool) (s : SlotLife.State) :
    SlotLife.Event → Option (SlotLife.State × Option ℤ)
  | .start request registers =>
    if startFunc then
      some (s.handled (s.c.doRequestStart request registers),
        if startFails s.c request registers then some request._handle else none)
    else some ({ s with alive := false }, none)
  | .connect request info registers =>
    some ({ s.overwrite (s.c.doRequestConnect request info registers) with
        owners := s.owners.erase request._handle },
      if connectFails info registers then some request._handle else none)
  | .close request answers =>
    some (s.handled (s.c.doRequestClose request answers),
      if closeReturns s.c request answers then some request._handle else none)
  | .clearClosed handle => some (s, some handle)
  | e => (SlotLife.act startFunc s e).map fun t => (t, none)

/-- One read of `doRequestClearClosedEvent`. -/
def scan (s : State) : Option State :=
  match s.pc with
  | .loop => none
  | .getState handle i =>
    if s.life.evts.length ≤ i then some { s with pc := .loop }
    else if s.life.c.s.m_state = .INVALID then some { s with pc := .getHandle handle i }
    else some { s with pc := .getState handle (i + 1) }
  | .getHandle handle i =>
    if s.life.c.s.m_handle = handle then
      -- `e->s = nullptr; break`
      some { s with life := { s.life with evts := s.life.evts.eraseIdx i }, pc := .loop }
    else some { s with pc := .getState handle (i + 1) }

/-- The poll thread sets a slot `INVALID` that was not. -/
def closes (e : SlotLife.Event) (c t : Slot) : Bool :=
  ofPoll e && decide (c.s.m_state ≠ .INVALID ∧ t.s.m_state = .INVALID)

/-- What a batch that arrives and a socket that is closed make of `closed`. -/
def closedAfter (closed : Bool) (c t : Slot) : SlotLife.Event → Bool
  | .onWait _ => false
  | e => closed || closes e c t

def step (startFunc : Bool) (s : State) : Event → Option State
  | .life e =>
    if s.life.alive ∧ (ofPoll e = true → s.pc = .loop) then
      (act startFunc s.life e).map fun r =>
        { life := r.1
          pc := match r.2 with
            | some handle => .getState handle 0
            | none => s.pc
          closed := closedAfter s.closed s.life.c r.1.c e }
    else none
  | .scan => if s.life.alive then scan s else none

structure Starts (s : State) : Prop where
  life : SlotLife.Starts s.life
  pc : s.pc = .loop
  closed : s.closed = false

def system (startFunc : Bool) : System State Event where
  init := Starts
  step := step startFunc

@[simp] theorem system_step (startFunc : Bool) : (system startFunc).step = step startFunc := rfl

/-- A slot that no thread has touched. -/
def start : State where
  life := SlotLife.start
  pc := .loop
  closed := false

/-- The slot of a process that has just started. -/
theorem start_starts : Starts start := ⟨SlotLife.start_starts, rfl, rfl⟩

/-! ## What the steps do -/

section Steps

variable {startFunc : Bool} {s s' : State} {l t : SlotLife.State} {e : SlotLife.Event}

/-- A step of the slot, after which the loop over its closed events may begin.
SOURCE: network/socketSystem.cc:822-917 -/
theorem step_life : step startFunc s (.life e) = some s' ↔
    (s.life.alive = true ∧ (ofPoll e = true → s.pc = .loop)) ∧
      ∃ t r, act startFunc s.life e = some (t, r) ∧
        s' = { life := t, pc := match r with | some handle => .getState handle 0 | none => s.pc,
               closed := closedAfter s.closed s.life.c t.c e } := by
  simp only [step, Option.ite_none_right_eq_some, Option.map_eq_some_iff, Prod.exists,
    eq_comm (a := s')]

/-- No batch has come with the step, and the socket was closed before or is closed by it.
SOURCE: network/socketSystem.cc:822-917 -/
theorem closedAfter_eq_true {closed : Bool} {c u : Slot} (h : closedAfter closed c u e = true) :
    (∀ batch, e ≠ .onWait batch) ∧ (closed = true ∨ closes e c u = true) := by
  cases e with
  | onWait batch => cases h
  | _ => exact ⟨by simp, by simpa [closedAfter] using h⟩

/-- **A step of a user without its clean-up** is a step of the slot's life, up to the events that the
clean-up takes. -/
theorem act_life {r : Option ℤ} (halive : l.alive = true)
    (h : act startFunc l e = some (t, r)) :
    ∃ t', SlotLife.step startFunc l e = some t' ∧ t.c = t'.c ∧ t.stray = t'.stray ∧
      (t.evts = t'.evts ∨ t.evts = l.evts) := by
  have hstep : SlotLife.step startFunc l e = SlotLife.act startFunc l e := by
    simp [SlotLife.step, halive]
  rw [hstep]
  cases e with
  | start request registers =>
    simp only [act] at h
    split at h
    · next hfunc =>
      cases h
      refine ⟨_, by rw [SlotLife.act, if_pos hfunc], ?_, ?_, .inr ?_⟩
      · rw [SlotLife.clearClosed_c]
      · rw [SlotLife.clearClosed_stray]
      · rw [SlotLife.handled_evts]
    · next hfunc =>
      cases h
      exact ⟨_, by rw [SlotLife.act, if_neg hfunc], rfl, rfl, .inl rfl⟩
  | connect request info registers =>
    cases h
    refine ⟨_, rfl, ?_, ?_, .inr rfl⟩
    · rw [SlotLife.clearClosed_c]
    · rw [SlotLife.clearClosed_stray]
  | close request answers =>
    cases h
    refine ⟨_, rfl, ?_, ?_, .inr ?_⟩
    · rw [SlotLife.clearClosed_c]
    · rw [SlotLife.clearClosed_stray]
    · rw [SlotLife.handled_evts]
  | clearClosed handle =>
    cases h
    refine ⟨_, rfl, ?_, ?_, .inr rfl⟩
    · rw [SlotLife.clearClosed_c]
    · rw [SlotLife.clearClosed_stray]
  | _ =>
    simp only [act, Option.map_eq_some_iff, Prod.mk.injEq] at h
    obtain ⟨t', ht', rfl, -⟩ := h
    exact ⟨t', ht', rfl, rfl, .inl rfl⟩

/-- Only a wait finds new events. -/
theorem act_evts {r : Option ℤ} (he : ∀ batch, e ≠ .onWait batch)
    (h : act startFunc l e = some (t, r)) (hevts : t.evts ≠ []) : l.evts ≠ [] := by
  cases e with
  | start request registers =>
    simp only [act] at h
    split at h
    · cases h
      rwa [SlotLife.handled_evts] at hevts
    · cases h
      exact hevts
  | connect request info registers =>
    cases h
    exact hevts
  | close request answers =>
    cases h
    rwa [SlotLife.handled_evts] at hevts
  | clearClosed handle =>
    cases h
    exact hevts
  | onWait batch => exact absurd rfl (he batch)
  | getEvent os =>
    intro hnone
    simp [act, SlotLife.act, hnone] at h
  | listen opaqueId handle sock =>
    simp only [act, SlotLife.act, Option.map_eq_some_iff, Option.ite_none_right_eq_some] at h
    obtain ⟨t', ⟨-, ht'⟩, heq⟩ := h
    cases heq
    split at ht'
    · cases ht'
      exact hevts
    · cases ht'
      exact hevts
  | accept opaqueId listener handle sock =>
    simp only [act, SlotLife.act, Option.map_eq_some_iff, Option.ite_none_right_eq_some] at h
    obtain ⟨t', ⟨-, ht'⟩, heq⟩ := h
    cases heq
    split at ht'
    · cases ht'
      exact hevts
    · cases ht'
      exact hevts
  | incSendIn =>
    simp only [act, SlotLife.act, Option.map_map, Option.map_eq_some_iff] at h
    obtain ⟨sent, -, heq⟩ := h
    cases heq
    exact hevts
  | send request =>
    cases h
    exact hevts
  | _ =>
    simp only [act, SlotLife.act, Option.map_eq_some_iff, Option.ite_none_right_eq_some,
      Option.some.injEq] at h
    obtain ⟨t', ⟨-, rfl⟩, heq⟩ := h
    cases heq
    exact hevts

/-- A read of the clean-up leaves the slot alone, and adds no event. -/
theorem scan_frame (h : scan s = some s') : s'.life.c = s.life.c ∧ s'.closed = s.closed ∧
    s'.life.stray = s.life.stray ∧ s'.life.evts.Sublist s.life.evts := by
  unfold scan at h
  cases hpc : s.pc with
  | loop =>
    rw [hpc] at h
    cases h
  | getState handle i =>
    rw [hpc] at h
    simp only at h
    split at h
    · cases h
      exact ⟨rfl, rfl, rfl, List.Sublist.refl _⟩
    · split at h
      · cases h
        exact ⟨rfl, rfl, rfl, List.Sublist.refl _⟩
      · cases h
        exact ⟨rfl, rfl, rfl, List.Sublist.refl _⟩
  | getHandle handle i =>
    rw [hpc] at h
    simp only at h
    split at h
    · cases h
      exact ⟨rfl, rfl, rfl, List.eraseIdx_sublist _ _⟩
    · cases h
      exact ⟨rfl, rfl, rfl, List.Sublist.refl _⟩

end Steps

/-! ## A clean-up on its own -/

section Alone

variable {startFunc : Bool} {s : State} {handle : ℤ}

/-- Where the slot is not that of the handle, the rest of a clean-up changes nothing. -/
theorem run_scan_other (startFunc : Bool) (halive : s.life.alive = true)
    (hother : ¬ (s.life.c.s.m_state = .INVALID ∧ s.life.c.s.m_handle = handle)) (i : ℕ) :
    ∃ n, (system startFunc).run { s with pc := .getState handle i } (List.replicate n .scan) =
      some { s with pc := .loop } := by
  -- the events still to come
  induction hleft : s.life.evts.length - i generalizing i with
  | zero =>
    have hend : s.life.evts.length ≤ i := by omega
    refine ⟨1, ?_⟩
    simp [step, scan, halive, hend]
  | succ k ih =>
    have hmore : ¬ s.life.evts.length ≤ i := by omega
    obtain ⟨n, hn⟩ := ih (i + 1) (by omega)
    by_cases hstate : s.life.c.s.m_state = .INVALID
    · have hhandle : s.life.c.s.m_handle ≠ handle := fun heq => hother ⟨hstate, heq⟩
      refine ⟨n + 1 + 1, ?_⟩
      rw [List.replicate_succ, System.run_cons, List.replicate_succ]
      simp only [system_step, step, halive, if_true, scan, hmore, if_false, hstate,
        Option.bind_some, System.run_cons, hhandle]
      exact hn
    · refine ⟨n + 1, ?_⟩
      rw [List.replicate_succ, System.run_cons]
      simp only [system_step, step, halive, if_true, scan, hmore, if_false, hstate,
        Option.bind_some]
      exact hn

/-- **A clean-up that nothing comes between** is the one of `Model.SlotLife`: a slot that is `INVALID`
with the request's handle loses its first event. -/
theorem run_scan_alone (halive : s.life.alive = true) :
    ∃ n, (system startFunc).run { s with pc := .getState handle 0 } (List.replicate n .scan) =
      some { s with life := s.life.clearClosed handle, pc := .loop } := by
  by_cases hslot : s.life.c.s.m_state = .INVALID ∧ s.life.c.s.m_handle = handle
  · obtain ⟨hstate, hhandle⟩ := hslot
    cases hevts : s.life.evts with
    | nil =>
      have hcleared : s.life.clearClosed handle = s.life := by
        rw [SlotLife.State.clearClosed, if_pos ⟨hstate, hhandle⟩, hevts, List.tail_nil, ← hevts]
      refine ⟨1, ?_⟩
      simp [step, scan, halive, hevts, hcleared]
    | cons e rest =>
      refine ⟨2, ?_⟩
      simp [List.replicate_succ, System.run_cons, step, scan, halive, SlotLife.State.clearClosed,
        hstate, hhandle, hevts]
  · obtain ⟨n, hn⟩ := run_scan_other startFunc halive hslot 0
    refine ⟨n, ?_⟩
    rw [hn, SlotLife.State.clearClosed, if_neg hslot]

end Alone

end MagicNet.ClearClosed
