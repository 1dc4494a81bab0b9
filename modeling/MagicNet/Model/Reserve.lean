import MagicNet.Foundation.System
import MagicNet.Model.SocketHandle
import Mathlib.Logic.Function.Basic

/-!
# The reservation of a slot

`socketSystem::getReserve` takes the next handle from `m_sockSequence`, and the slot of that
handle when a compare-and-swap takes it from `INVALID` to `RESERVE`; it then resets the slot and
gives it its handle.  Any number of threads call it: the threads of the actors in
`doSocketListen` and `doSocketConnect`, the poll thread in `doAcceptProc`.

A step is one access of a thread to `m_sockSequence` or to the slot that other threads can see,
one section of a caller after the return, or a handler of the poll thread that initialises,
advances or closes a slot.  An assertion that fails ends the process.

SOURCE: network/socketSystem.cc:182-248, 383-403, 691-701, network/socketHandle.cc:26-50
-/

set_option autoImplicit false

namespace MagicNet.Reserve

open MagicNet.Foundation MagicNet.Network

/-- Where a thread is: in no call; at the test of the loop; at the mask of a negative handle; at
`getState`; at `setCompareState`; at `doRest` and at `setHandle`, having won the slot; or with the
value returned, before its caller goes on. -/
inductive Pc where
  | idle
  | next (i : ℕ)
  | mask (i : ℕ)
  | test (i : ℕ) (handle : ℤ)
  | cas (i : ℕ) (handle : ℤ)
  | doRest (handle : ℤ)
  | setHandle (handle : ℤ)
  | returned (ret : ℤ)
  deriving DecidableEq, Repr

/-- The threads are numbered.  Of the handles returned, `taken` are those whose slot has not been
closed since, and `owned` those whose owner has neither initialised nor closed the slot. -/
structure State where
  m_sockGroup : ℕ → SocketHandle
  m_sockSequence : ℤ
  pc : ℕ → Pc
  taken : List ℤ
  owned : List ℤ
  aborted : Bool

/-- The first seven are the steps of `getReserve`.  `listen` and `accept` are the assertions and the
initialisation of `doSocketListen` and `doAcceptProc`; `giveUp` is a caller that was given no slot,
and `connect` one that sends its handle to the poll thread.  The poll thread's handlers initialise
a slot for such a handle (`connected`), take a slot to another state (`advance`), and close one. -/
inductive Event where
  | call (t : ℕ)
  | increment (t : ℕ)
  | mask (t : ℕ)
  | test (t : ℕ)
  | cas (t : ℕ)
  | doRest (t : ℕ)
  | setHandle (t : ℕ)
  | listen (t : ℕ) (opaqueId : ℕ) (sock : ℤ)
  | accept (t : ℕ) (opaqueId : ℕ) (sock : ℤ)
  | giveUp (t : ℕ)
  | connect (t : ℕ)
  | connected (handle : ℤ) (opaqueId : ℕ) (sock : ℤ) (done : Bool)
  | advance (k : ℕ) (state : SocketState)
  | close (k : ℕ)
  deriving DecidableEq, Repr

namespace State

def slot (s : State) (handle : ℤ) : SocketHandle := s.m_sockGroup (SOCKET_GET handle)

def setPc (s : State) (t : ℕ) (pc : Pc) : State := { s with pc := Function.update s.pc t pc }

def setSlot (s : State) (k : ℕ) (c : SocketHandle) : State :=
  { s with m_sockGroup := Function.update s.m_sockGroup k c }

/-- `assert(state == RESERVE)` and the initialisation after it; `c` is the slot initialised. -/
def initialise (s : State) (t : ℕ) (handle : ℤ) (c : SocketHandle) : State :=
  if (s.slot handle).m_state = .RESERVE then
    { (s.setSlot (SOCKET_GET handle) c).setPc t .idle with owned := s.owned.erase handle }
  else { s with aborted := true }

end State

/-- The steps of a process no assertion of which has failed. -/
def act (s : State) : Event → Option State
  | .call t => if s.pc t = .idle then some (s.setPc t (.next 0)) else none
  | .increment t =>
    match s.pc t with
    | .next i =>
      if i < MAX_SOCKET then
        let handle := toInt32 (s.m_sockSequence + 1)
        some ({ s with m_sockSequence := handle }.setPc t
          (if handle < 0 then .mask i else .test i handle))
      else some (s.setPc t (.returned (-1)))
    | _ => none
  | .mask t =>
    match s.pc t with
    | .mask i =>
      -- `m_sockSequence &= 0x7FFFFFFF`
      let handle := s.m_sockSequence % 2 ^ 31
      some ({ s with m_sockSequence := handle }.setPc t (.test i handle))
    | _ => none
  | .test t =>
    match s.pc t with
    | .test i handle =>
      some (s.setPc t (if (s.slot handle).m_state = .INVALID then .cas i handle else .next (i + 1)))
    | _ => none
  | .cas t =>
    match s.pc t with
    | .cas i handle =>
      if (s.slot handle).m_state = .INVALID then
        some ((s.setSlot (SOCKET_GET handle) ((s.slot handle).setState .RESERVE)).setPc t
          (.doRest handle))
      -- `--i`, and then the loop's `i++`
      else some (s.setPc t (.next i))
    | _ => none
  | .doRest t =>
    match s.pc t with
    | .doRest handle =>
      some ((s.setSlot (SOCKET_GET handle) (s.slot handle).doRest).setPc t (.setHandle handle))
    | _ => none
  | .setHandle t =>
    match s.pc t with
    | .setHandle handle =>
      some { (s.setSlot (SOCKET_GET handle) ((s.slot handle).setHandle handle)).setPc t
          (.returned handle) with
        taken := handle :: s.taken
        owned := handle :: s.owned }
    | _ => none
  | .listen t opaqueId sock =>
    match s.pc t with
    | .returned handle =>
      if 0 ≤ handle then
        some (s.initialise t handle
          (((s.slot handle).doInit opaqueId handle sock .TCP).setState .PLISTEN))
      else none
    | _ => none
  | .accept t opaqueId sock =>
    match s.pc t with
    | .returned handle =>
      if 0 ≤ handle then
        some (s.initialise t handle ((s.slot handle).doInit opaqueId handle sock .TCP))
      else none
    | _ => none
  | .giveUp t => if s.pc t = .returned (-1) then some (s.setPc t .idle) else none
  | .connect t =>
    match s.pc t with
    | .returned handle => if 0 ≤ handle then some (s.setPc t .idle) else none
    | _ => none
  | .connected handle opaqueId sock done =>
    some { s.setSlot (SOCKET_GET handle)
        (((s.slot handle).doInit opaqueId handle sock .TCP).setState
          (if done then .CONNECTED else .CONNECTING)) with
      owned := s.owned.erase handle }
  | .advance k state =>
    if state ≠ .INVALID ∧ state ≠ .RESERVE then
      some (s.setSlot k ((s.m_sockGroup k).setState state))
    else none
  | .close k =>
    some { s.setSlot k ((s.m_sockGroup k).setState .INVALID) with
      taken := s.taken.filter (SOCKET_GET · ≠ k)
      owned := s.owned.filter (SOCKET_GET · ≠ k) }

def step (s : State) (e : Event) : Option State := if s.aborted then none else act s e

@[simp] theorem setPc_self (s : State) (t : ℕ) (pc : Pc) : (s.setPc t pc).pc t = pc :=
  Function.update_self _ _ _

@[simp] theorem setPc_group (s : State) (t : ℕ) (pc : Pc) :
    (s.setPc t pc).m_sockGroup = s.m_sockGroup := rfl

@[simp] theorem setSlot_pc (s : State) (k : ℕ) (c : SocketHandle) : (s.setSlot k c).pc = s.pc := rfl

@[simp] theorem setSlot_self (s : State) (k : ℕ) (c : SocketHandle) :
    (s.setSlot k c).m_sockGroup k = c := Function.update_self _ _ _

/-- The other slots stay. -/
theorem setSlot_of_ne (s : State) {k k' : ℕ} (c : SocketHandle) (hne : k' ≠ k) :
    (s.setSlot k c).m_sockGroup k' = s.m_sockGroup k' := Function.update_of_ne hne _ _

/-- The other threads stay. -/
theorem setPc_of_ne (s : State) {t t' : ℕ} (pc : Pc) (hne : t' ≠ t) :
    (s.setPc t pc).pc t' = s.pc t' := Function.update_of_ne hne _ _

/-- The table as its constructors leave it, and no thread in a call. -/
structure Starts (s : State) : Prop where
  state : ∀ k, (s.m_sockGroup k).m_state = .INVALID
  pc : ∀ t, s.pc t = .idle
  taken : s.taken = []
  owned : s.owned = []
  aborted : s.aborted = false

def system : System State Event where
  init := Starts
  step := step

@[simp] theorem system_step : system.step = step := rfl

/-! ## What the steps do -/

section Steps

variable {s s' : State} {t : ℕ}

/-- A thread that tries the compare-and-swap wins the slot or goes round its loop. -/
theorem step_cas (hs : step s (.cas t) = some s') : ∃ i handle, s.pc t = .cas i handle ∧
    ((s.slot handle).m_state = .INVALID ∧
        s' = (s.setSlot (SOCKET_GET handle) ((s.slot handle).setState .RESERVE)).setPc t
          (.doRest handle) ∨
      (s.slot handle).m_state ≠ .INVALID ∧ s' = s.setPc t (.next i)) := by
  simp only [step, act, Option.ite_none_left_eq_some] at hs
  obtain ⟨-, hs⟩ := hs
  split at hs
  · next i handle hpc =>
    refine ⟨i, handle, hpc, ?_⟩
    split at hs
    · next hstate => exact .inl ⟨hstate, (Option.some.inj hs).symm⟩
    · next hstate => exact .inr ⟨hstate, (Option.some.inj hs).symm⟩
  · cases hs

/-- The winner resets the slot. -/
theorem step_doRest (hs : step s (.doRest t) = some s') : ∃ handle, s.pc t = .doRest handle ∧
    s' = (s.setSlot (SOCKET_GET handle) (s.slot handle).doRest).setPc t (.setHandle handle) := by
  simp only [step, act, Option.ite_none_left_eq_some] at hs
  obtain ⟨-, hs⟩ := hs
  split at hs
  · next handle hpc => exact ⟨handle, hpc, (Option.some.inj hs).symm⟩
  · cases hs

/-- The winner sets the handle and returns it. -/
theorem step_setHandle (hs : step s (.setHandle t) = some s') :
    ∃ handle, s.pc t = .setHandle handle ∧
      s' = { (s.setSlot (SOCKET_GET handle) ((s.slot handle).setHandle handle)).setPc t
          (.returned handle) with
        taken := handle :: s.taken
        owned := handle :: s.owned } := by
  simp only [step, act, Option.ite_none_left_eq_some] at hs
  obtain ⟨-, hs⟩ := hs
  split at hs
  · next handle hpc => exact ⟨handle, hpc, (Option.some.inj hs).symm⟩
  · cases hs

/-- The events that are neither the compare-and-swap nor the two steps of its winner. -/
def Event.Other : Event → Prop
  | .cas _ | .doRest _ | .setHandle _ => False
  | _ => True

/-- A thread that has won a slot and has not returned its handle. -/
def Pc.winner : Pc → Bool
  | .doRest _ | .setHandle _ => true
  | _ => false

/-- A thread that goes on without having won a slot leaves the winners where they are. -/
theorem winner_setPc {pc : Pc} (hold : (s.pc t).winner = false) (hnew : pc.winner = false)
    (t' : ℕ) (p : Pc) (hp : p.winner = true) : (s.setPc t pc).pc t' = p ↔ s.pc t' = p := by
  by_cases ht : t' = t
  · subst ht
    rw [setPc_self]
    constructor
    · rintro rfl
      rw [hnew] at hp
      cases hp
    · rintro rfl
      rw [hold] at hp
      cases hp
  · rw [setPc_of_ne s pc ht]

/-- A write of another state than `RESERVE` reserves no slot. -/
theorem reserve_setSlot {k : ℕ} {c : SocketHandle}
    (hc : c.m_state = .RESERVE → (s.m_sockGroup k).m_state = .RESERVE) (k' : ℕ)
    (h : ((s.setSlot k c).m_sockGroup k').m_state = .RESERVE) :
    (s.m_sockGroup k').m_state = .RESERVE := by
  by_cases hk : k' = k
  · subst hk
    rw [setSlot_self] at h
    exact hc h
  · rwa [setSlot_of_ne s c hk] at h

/-- A caller that initialises its slot reserves none and has not just won one. -/
theorem initialise_other {handle : ℤ} {c : SocketHandle} (hpc : (s.pc t).winner = false)
    (hc : c.m_state = .RESERVE → (s.slot handle).m_state = .RESERVE) :
    (∀ k, ((s.initialise t handle c).m_sockGroup k).m_state = .RESERVE →
        (s.m_sockGroup k).m_state = .RESERVE) ∧
      ∀ t' p, p.winner = true → ((s.initialise t handle c).pc t' = p ↔ s.pc t' = p) := by
  unfold State.initialise
  split
  · exact ⟨fun k hk => reserve_setSlot hc k hk, winner_setPc hpc rfl⟩
  · exact ⟨fun _ hk => hk, fun _ _ _ => Iff.rfl⟩

/-- What the other steps do: a thread goes on without having won a slot, and is given no handle; a
caller uses the handle it was given; or the poll thread writes to a slot, and reserves none. -/
inductive OtherStep (s : State) : State → Prop where
  | goes {t : ℕ} {pc : Pc} {m_sockSequence : ℤ} : (s.pc t).winner = false → pc.winner = false →
      (∀ handle, pc = .returned handle → handle = -1) →
      OtherStep s ({ s with m_sockSequence := m_sockSequence }.setPc t pc)
  | uses {s' : State} {t : ℕ} {handle : ℤ} : s.pc t = .returned handle → 0 ≤ handle →
      (∀ k, (s'.m_sockGroup k).m_state = .RESERVE → (s.m_sockGroup k).m_state = .RESERVE) →
      (∀ t' p, p.winner = true → (s'.pc t' = p ↔ s.pc t' = p)) → OtherStep s s'
  | writes {k : ℕ} {c : SocketHandle} {taken owned : List ℤ} :
      (c.m_state = .RESERVE → (s.m_sockGroup k).m_state = .RESERVE) → taken ⊆ s.taken →
      owned ⊆ s.owned → OtherStep s { s.setSlot k c with taken := taken, owned := owned }

/-- `doInit` keeps to its own slot.
SOURCE: network/socketHandle.cc:26-36 -/
theorem other_initialise {handle : ℤ} {c : SocketHandle} (hpc : s.pc t = .returned handle)
    (hhandle : 0 ≤ handle) (hc : c.m_state = .RESERVE → (s.slot handle).m_state = .RESERVE) :
    OtherStep s (s.initialise t handle c) := by
  obtain ⟨hslots, hpcs⟩ := initialise_other (s := s) (t := t) (by rw [hpc]; rfl) hc
  exact .uses hpc hhandle hslots hpcs

/-- A step outside `getReserve` keeps to its own slot.
SOURCE: network/socketHandle.cc:26-36, 52-70 -/
theorem other_step {e : Event} (he : e.Other) (hs : step s e = some s') : OtherStep s s' := by
  simp only [step, Option.ite_none_left_eq_some] at hs
  obtain ⟨-, hs⟩ := hs
  cases e with
  | cas t => exact he.elim
  | doRest t => exact he.elim
  | setHandle t => exact he.elim
  | call t =>
    simp only [act, Option.ite_none_right_eq_some, Option.some.injEq] at hs
    obtain ⟨hpc, rfl⟩ := hs
    exact .goes (by rw [hpc]; rfl) rfl (by simp)
  | increment t =>
    simp only [act] at hs
    split at hs
    · next i hpc =>
      have hnone : (s.pc t).winner = false := by rw [hpc]; rfl
      split at hs
      · cases hs
        apply OtherStep.goes hnone
        · split <;> rfl
        · intro handle
          split <;> simp
      · cases hs
        exact .goes hnone rfl (by simp)
    · cases hs
  | mask t =>
    simp only [act] at hs
    split at hs
    · next i hpc =>
      cases hs
      exact .goes (by rw [hpc]; rfl) rfl (by simp)
    · cases hs
  | test t =>
    simp only [act] at hs
    split at hs
    · next i handle hpc =>
      cases hs
      refine OtherStep.goes (by rw [hpc]; rfl) ?_ ?_
      · split <;> rfl
      · intro handle
        split <;> simp
    · cases hs
  | listen t opaqueId sock =>
    simp only [act] at hs
    split at hs
    · next handle hpc =>
      simp only [Option.ite_none_right_eq_some, Option.some.injEq] at hs
      obtain ⟨hhandle, rfl⟩ := hs
      exact other_initialise hpc hhandle (by simp [SocketHandle.setState])
    · cases hs
  | accept t opaqueId sock =>
    simp only [act] at hs
    split at hs
    · next handle hpc =>
      simp only [Option.ite_none_right_eq_some, Option.some.injEq] at hs
      obtain ⟨hhandle, rfl⟩ := hs
      exact other_initialise hpc hhandle (by simp [SocketHandle.doInit])
    · cases hs
  | giveUp t =>
    simp only [act, Option.ite_none_right_eq_some, Option.some.injEq] at hs
    obtain ⟨hpc, rfl⟩ := hs
    exact .goes (by rw [hpc]; rfl) rfl (by simp)
  | connect t =>
    simp only [act] at hs
    split at hs
    · next handle hpc =>
      simp only [Option.ite_none_right_eq_some, Option.some.injEq] at hs
      obtain ⟨hhandle, rfl⟩ := hs
      exact .uses hpc hhandle (fun _ hk => hk) (winner_setPc (by rw [hpc]; rfl) rfl)
    · cases hs
  | connected handle opaqueId sock done =>
    simp only [act, Option.some.injEq] at hs
    subst hs
    refine .writes ?_ (List.Subset.refl _) List.erase_subset
    cases done <;> simp [SocketHandle.setState]
  | advance k state =>
    simp only [act, Option.ite_none_right_eq_some, Option.some.injEq] at hs
    obtain ⟨⟨-, hstate⟩, rfl⟩ := hs
    exact .writes (fun h => absurd h hstate) (List.Subset.refl _) (List.Subset.refl _)
  | close k =>
    simp only [act, Option.some.injEq] at hs
    subst hs
    exact .writes (by simp [SocketHandle.setState]) (List.filter_subset_self _)
      (List.filter_subset_self _)

/-- **The other steps** reserve no slot and leave the winners where they are. -/
theorem step_other {e : Event} (he : e.Other) (hs : step s e = some s') :
    (∀ k, (s'.m_sockGroup k).m_state = .RESERVE → (s.m_sockGroup k).m_state = .RESERVE) ∧
      ∀ t p, p.winner = true → (s'.pc t = p ↔ s.pc t = p) := by
  cases other_step he hs with
  | goes hold hnew _ => exact ⟨fun _ hk => hk, winner_setPc hold hnew⟩
  | uses _ _ hslots hpcs => exact ⟨hslots, hpcs⟩
  | writes hc _ _ => exact ⟨fun k hk => reserve_setSlot hc k hk, fun _ _ _ => Iff.rfl⟩

end Steps

end MagicNet.Reserve
