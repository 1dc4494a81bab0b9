import Mathlib.Logic.Function.Basic
import MagicNet.Foundation.System

/-!
# The timer wheel

`clock` keeps the timers that are near in `m_slots` and the others in four levels of 64 buckets,
`m_ts`.  `update` runs the slot of the current time, advances `m_time`, empties the bucket whose
time has come into places nearer by, and runs the slot of the new time.  The spin lock `m_cLock`
is held throughout, but for the calls of the timers' functions; so between the steps of an
update only `timeCancel`, which takes no lock, can come, and during a call everything else.

A timer is known by the order of its allocation; its record stays after it has been dispatched,
since nothing reads it any more.  The functions a timer calls, and the other threads, appear as
the events that come while the lock is free.
-/

set_option autoImplicit false

namespace MagicNet.Clock

open MagicNet.Foundation

/-- `clockHandle`, and what tells whether a timer is on time: the delay asked for, the number
of the update it is due in, the number of updates begun when it was first cancelled, and the
updates its function has been called in. -/
structure ClockHandle where
  _expire : BitVec 32
  _cancel : Bool
  delay : ℕ
  due : ℕ
  cancelledAfter : Option ℕ
  calls : List ℕ

inductive Place where
  | slots (idx : ℕ)
  | ts (level idx : ℕ)
deriving DecidableEq

/-- The two calls of `local_execute` in `update`. -/
inductive Pass where
  | first
  | second
deriving DecidableEq

/-- Where the thread that calls `update` is: not in a call; at the `while` of `local_process` of the
slot `idx`; with the lock free, about to read `_cancel` in `local_dispatch`, or in the timer's
function; at `local_shift`; at the `while` of `local_move`. -/
inductive Pc where
  | idle
  | processing (pass : Pass) (idx : ℕ)
  | dispatching (pass : Pass) (idx id : ℕ)
  | calling (pass : Pass) (idx : ℕ)
  | shift
  | moving (level idx : ℕ)
deriving DecidableEq

/-- `shifts` counts the increments of `m_time`, `updates` the updates begun. -/
structure State where
  m_slots : ℕ → List ℕ
  m_ts : ℕ → ℕ → List ℕ
  m_time : BitVec 32
  pc : Pc
  handles : ℕ → ClockHandle
  allocated : ℕ
  shifts : ℕ
  updates : ℕ

def CLOCK_SLOT : BitVec 32 := 256#32
def CLOCK_SLOT_MASK : BitVec 32 := 255#32
def CLOCK_LEVEL_MASK : BitVec 32 := 63#32

/-! ## Placing a timer -/

/-- `mask` in the round `i` of the loop of `local_append`. -/
def levelMask (i : ℕ) : BitVec 32 := CLOCK_SLOT <<< (6 * (i + 1))

/-- The level of a timer that is not near: the first of the three rounds in which the times
agree above the mask. -/
def levelOf (time current_time : BitVec 32) : ℕ :=
  ((List.range 3).find? fun i =>
    (time ||| (levelMask i - 1)) = (current_time ||| (levelMask i - 1))).getD 3

/-- Where `local_append` puts a timer.
SOURCE: operation/clock.h:132-150 -/
def place (time current_time : BitVec 32) : Place :=
  if (time ||| CLOCK_SLOT) = (current_time ||| CLOCK_SLOT_MASK) then
    .slots (time &&& CLOCK_LEVEL_MASK).toNat
  else
    let i := levelOf time current_time
    .ts i ((time >>> (8 + i * 6)) &&& CLOCK_LEVEL_MASK).toNat

def State.push (s : State) (p : Place) (id : ℕ) : State :=
  match p with
  | .slots idx => { s with m_slots := Function.update s.m_slots idx (s.m_slots idx ++ [id]) }
  | .ts level idx =>
    { s with
      m_ts := Function.update s.m_ts level
        (Function.update (s.m_ts level) idx (s.m_ts level idx ++ [id])) }

def State.local_append (s : State) (id : ℕ) : State :=
  s.push (place (s.handles id)._expire s.m_time) id

/-! ## Selecting a bucket -/

/-- The `while` of `local_shift`, for `n` rounds: `none` when they do not suffice, and otherwise
the bucket to move, if any. -/
def selectLoop (ct : BitVec 32) : ℕ → BitVec 32 → BitVec 32 → ℕ → Option (Option (ℕ × ℕ))
  | 0, _, _, _ => none
  | n + 1, mask, time, i =>
    if ct &&& (mask - 1) = 0 then
      let idx := time &&& CLOCK_LEVEL_MASK
      if idx ≠ 0 then some (some (i, idx.toNat))
      else selectLoop ct n (mask <<< 6) (time >>> 6) (i + 1)
    else some none

/-- The bucket that `local_shift` moves at the time `ct`.
SOURCE: operation/clock.h:90-110 -/
def select (ct : BitVec 32) : Option (Option (ℕ × ℕ)) :=
  if ct = 0 then some (some (3, 0)) else selectLoop ct 5 CLOCK_SLOT (ct >>> 8) 0

/-! ## Steps -/

/-- `timeOut` is the section under the lock of a call whose `time` is not 0, and `timeCancel` the
write of `_cancel`.  The steps of `update` are: the lock is taken; a round of `local_process`, the
test of its `while` and the removal of the front; `local_dispatch` reads `_cancel` and calls the
function; the function returns and the lock is taken again; `local_shift` up to the choice of the
bucket; a round of `local_move`. -/
inductive Event where
  | timeOut (time : BitVec 32)
  | timeCancel (id : ℕ)
  | update
  | process
  | dispatch
  | returned
  | shift
  | move
deriving DecidableEq

/-- Whether `m_cLock` is free. -/
def Unlocked : Pc → Bool
  | .idle | .dispatching .. | .calling .. => true
  | _ => false

/-- `local_execute` up to the `while`: the slot of the time. -/
def State.execute (s : State) (pass : Pass) : State :=
  { s with pc := .processing pass (s.m_time &&& CLOCK_SLOT_MASK).toNat }

/-- SOURCE: operation/clock.h:52-60, 90-130, operation/clock.cc:34-39, 58-91 -/
def step (s : State) : Event → Option State
  | .timeOut time =>
    if Unlocked s.pc ∧ time ≠ 0 then
      some (State.local_append
        { s with
          handles := Function.update s.handles s.allocated
            ⟨time + s.m_time, false, time.toNat, s.shifts + time.toNat, none, []⟩
          allocated := s.allocated + 1 } s.allocated)
    else none
  | .timeCancel id =>
    if id < s.allocated then
      some { s with
        handles := Function.update s.handles id
          { s.handles id with
            _cancel := true
            cancelledAfter := some ((s.handles id).cancelledAfter.getD s.updates) } }
    else none
  | .update =>
    if s.pc = .idle then some (State.execute { s with updates := s.updates + 1 } .first) else none
  | .process =>
    match s.pc with
    | .processing pass idx =>
      match s.m_slots idx with
      | [] =>
        match pass with
        | .first => some { s with pc := .shift }
        | .second => some { s with pc := .idle }
      | id :: rest =>
        some { s with
          m_slots := Function.update s.m_slots idx rest, pc := .dispatching pass idx id }
    | _ => none
  | .dispatch =>
    match s.pc with
    | .dispatching pass idx id =>
      if (s.handles id)._cancel then some { s with pc := .processing pass idx }
      else
        some { s with
          pc := .calling pass idx
          handles := Function.update s.handles id
            { s.handles id with calls := (s.handles id).calls ++ [s.updates] } }
    | _ => none
  | .returned =>
    match s.pc with
    | .calling pass idx => some { s with pc := .processing pass idx }
    | _ => none
  | .shift =>
    if s.pc = .shift then
      (select (s.m_time + 1)).map fun target =>
        let s := { s with m_time := s.m_time + 1, shifts := s.shifts + 1 }
        match target with
        | some (level, idx) => { s with pc := .moving level idx }
        | none => s.execute .second
    else none
  | .move =>
    match s.pc with
    | .moving level idx =>
      match s.m_ts level idx with
      | [] => some (s.execute .second)
      | id :: rest =>
        some (State.local_append
          { s with
            m_ts := Function.update s.m_ts level (Function.update (s.m_ts level) idx rest) } id)
    | _ => none

/-! ## What the steps do -/

section Steps

variable {s s' : State}

/-- `timeOut` places a new timer.
SOURCE: operation/clock.cc:58-83 -/
theorem step_timeOut {time : BitVec 32} (hs : step s (.timeOut time) = some s') :
    Unlocked s.pc ∧ time ≠ 0 ∧ s' = State.local_append
      { s with
        handles := Function.update s.handles s.allocated
          ⟨time + s.m_time, false, time.toNat, s.shifts + time.toNat, none, []⟩
        allocated := s.allocated + 1 } s.allocated := by
  simp only [step, Option.ite_none_right_eq_some, Option.some.injEq] at hs
  exact ⟨hs.1.1, hs.1.2, hs.2.symm⟩

/-- `timeCancel` marks a timer.
SOURCE: operation/clock.cc:85-91 -/
theorem step_timeCancel {id : ℕ} (hs : step s (.timeCancel id) = some s') :
    id < s.allocated ∧ s' = { s with
      handles := Function.update s.handles id
        { s.handles id with
          _cancel := true
          cancelledAfter := some ((s.handles id).cancelledAfter.getD s.updates) } } := by
  simp only [step, Option.ite_none_right_eq_some, Option.some.injEq] at hs
  exact ⟨hs.1, hs.2.symm⟩

/-- `update` begins with the slot of its time.
SOURCE: operation/clock.h:111-114, 116-122 -/
theorem step_update (hs : step s .update = some s') :
    s.pc = .idle ∧ s' = State.execute { s with updates := s.updates + 1 } .first := by
  simp only [step, Option.ite_none_right_eq_some, Option.some.injEq] at hs
  exact ⟨hs.1, hs.2.symm⟩

/-- A round of `local_process` takes the front timer, or ends the pass.
SOURCE: operation/clock.h:52-60 -/
theorem step_process (hs : step s .process = some s') : ∃ pass idx, s.pc = .processing pass idx ∧
    (s.m_slots idx = [] ∧ pass = .first ∧ s' = { s with pc := .shift } ∨
      s.m_slots idx = [] ∧ pass = .second ∧ s' = { s with pc := .idle } ∨
      ∃ id rest, s.m_slots idx = id :: rest ∧ s' =
        { s with
          m_slots := Function.update s.m_slots idx rest, pc := .dispatching pass idx id }) := by
  simp only [step] at hs
  split at hs
  · rename_i pass idx hpc
    refine ⟨pass, idx, hpc, ?_⟩
    split at hs
    · rename_i hempty
      cases pass with
      | first => exact .inl ⟨hempty, rfl, (Option.some.inj hs).symm⟩
      | second => exact .inr (.inl ⟨hempty, rfl, (Option.some.inj hs).symm⟩)
    · rename_i id rest hcons
      exact .inr (.inr ⟨id, rest, hcons, (Option.some.inj hs).symm⟩)
  · cases hs

/-- `local_dispatch` calls the function of a timer that is not cancelled.
SOURCE: operation/clock.cc:23-29 -/
theorem step_dispatch (hs : step s .dispatch = some s') :
    ∃ pass idx id, s.pc = .dispatching pass idx id ∧
      ((s.handles id)._cancel = true ∧ s' = { s with pc := .processing pass idx } ∨
        (s.handles id)._cancel = false ∧ s' =
          { s with
            pc := .calling pass idx
            handles := Function.update s.handles id
              { s.handles id with calls := (s.handles id).calls ++ [s.updates] } }) := by
  simp only [step] at hs
  split at hs
  · rename_i pass idx id hpc
    refine ⟨pass, idx, id, hpc, ?_⟩
    split at hs
    · rename_i hcancel
      exact .inl ⟨hcancel, (Option.some.inj hs).symm⟩
    · rename_i hcancel
      exact .inr ⟨Bool.eq_false_iff.mpr hcancel, (Option.some.inj hs).symm⟩
  · cases hs

/-- The function returns to the loop.
SOURCE: operation/clock.cc:23-29, operation/clock.h:52-60 -/
theorem step_returned (hs : step s .returned = some s') :
    ∃ pass idx, s.pc = .calling pass idx ∧ s' = { s with pc := .processing pass idx } := by
  simp only [step] at hs
  split at hs
  · rename_i pass idx hpc
    exact ⟨pass, idx, hpc, (Option.some.inj hs).symm⟩
  · cases hs

/-- `local_shift` moves the time on and goes to a bucket, or to the second pass.
SOURCE: operation/clock.h:90-109 -/
theorem step_shift (hs : step s .shift = some s') : s.pc = .shift ∧
    ((∃ level idx, s' =
        { s with m_time := s.m_time + 1, shifts := s.shifts + 1, pc := .moving level idx }) ∨
      s' = State.execute { s with m_time := s.m_time + 1, shifts := s.shifts + 1 } .second) := by
  simp only [step, Option.ite_none_right_eq_some, Option.map_eq_some_iff] at hs
  obtain ⟨hpc, target, -, htarget⟩ := hs
  cases target with
  | none => exact ⟨hpc, .inr htarget.symm⟩
  | some bucket => exact ⟨hpc, .inl ⟨bucket.1, bucket.2, htarget.symm⟩⟩

/-- A round of `local_move` places the front timer anew, or ends.
SOURCE: operation/clock.h:124-130 -/
theorem step_move (hs : step s .move = some s') : ∃ level idx, s.pc = .moving level idx ∧
    (s.m_ts level idx = [] ∧ s' = s.execute .second ∨
      ∃ id rest, s.m_ts level idx = id :: rest ∧ s' = State.local_append
        { s with
          m_ts := Function.update s.m_ts level (Function.update (s.m_ts level) idx rest) } id) := by
  simp only [step] at hs
  split at hs
  · rename_i level idx hpc
    refine ⟨level, idx, hpc, ?_⟩
    split at hs
    · rename_i hempty
      exact .inl ⟨hempty, (Option.some.inj hs).symm⟩
    · rename_i id rest hcons
      exact .inr ⟨id, rest, hcons, (Option.some.inj hs).symm⟩
  · cases hs

end Steps

/-! ## Runs -/

/-- The clock when it is made: `m_time` is 0. -/
structure Starts (s : State) : Prop where
  slots : ∀ idx, s.m_slots idx = []
  ts : ∀ level idx, s.m_ts level idx = []
  time : s.m_time = 0
  pc : s.pc = .idle
  allocated : s.allocated = 0
  shifts : s.shifts = 0
  updates : s.updates = 0

def system : System State Event where
  init := Starts
  step := step

/-! ## Exactness -/

/-- The number of updates that have returned. -/
def State.completed (s : State) : ℕ := if s.pc = .idle then s.updates else s.updates - 1

namespace ClockHandle

/-- The delays that the wheel is asked to get right. -/
def InRange (t : ClockHandle) : Prop := 1 ≤ t.delay ∧ t.delay < 2 ^ 31

/-- The timer was cancelled before the update it was due in. -/
def CancelledInTime (t : ClockHandle) : Prop := ∃ n, t.cancelledAfter = some n ∧ n < t.due

/-- The timer is never called if it was cancelled in time; otherwise it is called once, in the
update it is due in. -/
structure Exact (t : ClockHandle) (completed : ℕ) : Prop where
  cancelled : t.CancelledInTime → t.calls = []
  called : ¬ t.CancelledInTime → t.calls = [] ∨ t.calls = [t.due]
  returned : ¬ t.CancelledInTime → t.due ≤ completed → t.calls = [t.due]

end ClockHandle

/-- Every timer that was set is exact. -/
def AllExact (s : State) : Prop :=
  ∀ id < s.allocated, (s.handles id).InRange → (s.handles id).Exact s.completed

/-- The clock is in an update that never returns: no events bring it out of the `while` of
`local_move`. -/
def State.Hangs (s : State) : Prop :=
  ∃ level idx, ∀ es t, system.run s es = some t → t.pc = .moving level idx

/-- An update that never returns is the last one: every timer has been called in the update it was due
in, or was cancelled before it. -/
def EndsExact (s : State) : Prop :=
  s.Hangs → ∀ id < s.allocated, (s.handles id).InRange →
    (s.handles id).CancelledInTime ∨ (s.handles id).calls = [(s.handles id).due]

/-- `local_append` puts a timer back into the bucket that `local_move` is emptying. -/
def State.PutsBack (s : State) : Prop :=
  ∃ level idx, s.pc = .moving level idx ∧
    ∃ id ∈ s.m_ts level idx, place (s.handles id)._expire s.m_time = .ts level idx

/-- Where a timer is put back, all timers had been cancelled before the updates they are due in. -/
def EndCond (s : State) : Prop :=
  s.PutsBack → ∀ id < s.allocated, (s.handles id).InRange → (s.handles id).CancelledInTime

/-- When an update returns, the timers due in it had been cancelled before it began; and a timer
that comes to its dispatch has been cancelled. -/
structure Cond (s : State) (e : Event) : Prop where
  returns : ∀ idx, e = .process → s.pc = .processing .second idx → s.m_slots idx = [] →
    ∀ id < s.allocated, (s.handles id).InRange → (s.handles id).due = s.updates →
      (s.handles id).CancelledInTime
  dispatches : ∀ pass idx id, e = .dispatch → s.pc = .dispatching pass idx id →
    (s.handles id).InRange → (s.handles id)._cancel = true

/-! ## Cascades -/

/-- The events that can come while `local_move` runs. -/
def Event.Meanwhile : Event → Prop
  | .move | .timeCancel _ => True
  | _ => False

/-- The call of `local_move` that begins in `s` ends, whatever timers are cancelled meanwhile; then
the bucket is empty, and each of its timers is in a lower level or in the slot of its time. -/
def State.Cascades (s : State) (level idx : ℕ) : Prop :=
  ∃ n, ∀ es t, system.run s es = some t → (∀ e ∈ es, e.Meanwhile) →
    es.count .move ≤ n ∧ (t.pc ≠ .moving level idx → t.m_ts level idx = [] ∧
      ∀ id ∈ s.m_ts level idx, (∃ l < level, ∃ j, id ∈ t.m_ts l j) ∨
        id ∈ t.m_slots ((t.handles id)._expire.toNat % 256))

/-- The call of `local_move` that `local_shift` makes, if any, does so. -/
def Cascaded (_ : State) (e : Event) (s' : State) : Prop :=
  e = .shift → ∀ level idx, s'.pc = .moving level idx → s'.Cascades level idx

/-- The timer belongs to the part of the level's round that begins at the time `ct`; the lowest
level has no such timers. -/
def ClockHandle.Arrives (t : ClockHandle) (level : ℕ) (ct : BitVec 32) : Prop :=
  0 < level ∧ t._expire >>> (8 + level * 6) = ct >>> (8 + level * 6)

/-- The timers of the bucket that `local_shift` is about to move belong to the time it moves to:
a bucket of the lowest level is empty. -/
def AllArrive (s : State) (e : Event) : Prop :=
  e = .shift → ∀ target ∈ (select (s.m_time + 1)).bind id,
    ∀ id ∈ s.m_ts target.1 target.2, (s.handles id).Arrives target.1 (s.m_time + 1)

/-! ## The loop of `local_shift` -/

/-- What a run of the loop has done: the last value of `mask`, and the calls of `local_move`. -/
structure Shifted where
  mask : ℤ
  moves : List (ℕ × ℕ)
deriving DecidableEq

/-- The `while` of `local_shift` in at most `n` rounds, with its `mask` as it is, an `int`: nothing
comes of it where the rounds do not suffice or the shift of `mask` overflows. -/
def shiftLoop (ct : BitVec 32) : ℕ → ℤ → BitVec 32 → ℕ → Option Shifted
  | 0, _, _, _ => none
  | n + 1, mask, time, i =>
    if ct &&& BitVec.ofInt 32 (mask - 1) = 0 then
      let idx := time &&& CLOCK_LEVEL_MASK
      if idx ≠ 0 then some ⟨mask, [(i, idx.toNat)]⟩
      else if mask * 2 ^ 6 < 2 ^ 31 then shiftLoop ct n (mask * 2 ^ 6) (time >>> 6) (i + 1)
      else none
    else some ⟨mask, []⟩

/-- The calls that `local_shift` makes at the time `ct`.
SOURCE: operation/clock.h:90-110 -/
def local_shift (ct : BitVec 32) (n : ℕ) : Option Shifted :=
  if ct = 0 then some ⟨256, [(3, 0)]⟩ else shiftLoop ct n 256 (ct >>> 8) 0

/-- The digit of a level in `ct >> 8`. -/
def digit (ct : BitVec 32) (level : ℕ) : ℕ := ct.toNat / 2 ^ (8 + level * 6) % 64

/-- The bucket is the one of the lowest level that has a digit; and of the timers of the level's
round those stand in it that are due in the part that begins. -/
structure Selected (ct : BitVec 32) (bucket : ℕ × ℕ) : Prop where
  level : bucket.1 ≤ 3
  idx : bucket.2 ≤ 63
  zero : ct = 0 → bucket = (3, 0)
  lowest : ct ≠ 0 → bucket.2 = digit ct bucket.1 ∧ bucket.2 ≠ 0 ∧ ∀ j < bucket.1, digit ct j = 0
  block : ∀ time : BitVec 32,
    time >>> (8 + (bucket.1 + 1) * 6) = ct >>> (8 + (bucket.1 + 1) * 6) →
      (((time >>> (8 + bucket.1 * 6)) &&& CLOCK_LEVEL_MASK).toNat = bucket.2 ↔
        ct.toNat ≤ time.toNat ∧ time.toNat < ct.toNat + 2 ^ (8 + bucket.1 * 6))

end MagicNet.Clock
