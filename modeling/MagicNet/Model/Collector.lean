import Mathlib.Data.List.Count
import MagicNet.Foundation.System
import MagicNet.Model.Queue

/-!
# The collector of actors

An actor that is to leave is told `doExit`: it sets `m_indeath`, once, and enters its handle into
the queue of `actorGcc`.  The thread `doLoop` makes a pass over the queue after every sleep.  It
takes handles from the front, looks their actors up, and counts the time these have been leaving;
an actor that nothing is suspended in is sent `M_ID_QUIT` when that time is long enough, and
otherwise its handle goes back to the end.  The `for` asks the queue for its length in every round;
`num`, the length at the start, is not read.

The registry is a map from handles to actors; an actor that has been registered keeps its record.
Between the rounds of a pass everything else can come.
-/

set_option autoImplicit false

namespace MagicNet.ActorGcc

open MagicNet.Foundation MagicNet.Util

structure Options where
  _actor_gcc_sleep_us : BitVec 32
  _actor_gcc_timeout_us : BitVec 32

/-- `suspedSize` is the number of the component's suspended coroutines, and `quits` counts the
`M_ID_QUIT` messages that the collector has sent to the actor. -/
structure Actor where
  m_handle : BitVec 32
  m_indeath : Bool
  m_death_us : BitVec 32
  suspedSize : ℕ
  quits : ℕ

def Actor.isSuspedEmpty (a : Actor) : Bool := a.suspedSize == 0

/-- Where `doLoop` is: at the test of `m_shutdown`, in its sleep, at the test of the `for`, over. -/
inductive Pc where
  | top
  | sleeping
  | pass (i : ℕ)
  | ended
deriving DecidableEq

/-- A handle that was examined, the actor whose `m_death_us` grew, and whether the handle was that
of an actor still to be waited for. -/
structure Exam where
  handle : BitVec 32
  ptr : Option ℕ
  waits : Bool
deriving DecidableEq

/-- An actor is known by the order of its registration.  `present` is the queue at the start of the
last pass, `examined` what the pass has examined, `deaths` has the `m_death_us` of the actors at its
start, and `quiet` says that nothing has been entered since. -/
structure State where
  m_shutdown : Bool
  m_qGcc : Queue (BitVec 32)
  m_actors : BitVec 32 → Option ℕ
  actors : ℕ → Actor
  allocated : ℕ
  pc : Pc
  present : List (BitVec 32)
  examined : List Exam
  deaths : ℕ → BitVec 32
  quiet : Bool

/-- The record of an actor changes. -/
def State.set (s : State) (id : ℕ) (a : Actor) : State :=
  { s with actors := Function.update s.actors id a }

/-! ## Entering -/

/-- SOURCE: module/actor.cc:116-124, module/actorGcc.cc:25 -/
def State.doExit (s : State) (id : ℕ) : State :=
  let a := s.actors id
  if a.m_indeath then s
  else
    { s.set id { a with m_indeath := true } with
      m_qGcc := s.m_qGcc.local_push a.m_handle, quiet := false }

/-! ## A round of a pass -/

/-- The handle is that of an actor that leaves but cannot be told to quit yet. -/
def State.waits (o : Options) (s : State) (handle : BitVec 32) : Bool :=
  match s.m_actors handle with
  | none => false
  | some id =>
    let a := s.actors id
    a.m_indeath &&
      !(a.isSuspedEmpty && o._actor_gcc_timeout_us < a.m_death_us + o._actor_gcc_sleep_us)

/-- The actor whose time the handle makes grow. -/
def State.leaving (s : State) (handle : BitVec 32) : Option ℕ :=
  (s.m_actors handle).filter fun id => (s.actors id).m_indeath

/-- The body of the `for` for the handle popped.
SOURCE: module/actorGcc.cc:38-55 -/
def State.examine (o : Options) (s : State) (handle : BitVec 32) : State :=
  match s.m_actors handle with
  | none => s
  | some id =>
    if !(s.actors id).m_indeath then s
    else
      let a := { s.actors id with
        m_death_us := (s.actors id).m_death_us + o._actor_gcc_sleep_us }
      if a.isSuspedEmpty && o._actor_gcc_timeout_us < a.m_death_us then
        s.set id { a with quits := a.quits + 1 }
      else { s.set id a with m_qGcc := s.m_qGcc.local_push handle }

/-! ## Steps -/

/-- `susped` is a change of the number of suspended coroutines.  `begin` is the test of
`m_shutdown`, `awake` the end of the sleep, and `round` the test of the `for` with the body, if it
is run. -/
inductive Event where
  | doRegister (handle : BitVec 32)
  | doUnRegister (handle : BitVec 32)
  | doExit (id : ℕ)
  | susped (id n : ℕ)
  | doShutdown
  | begin
  | awake
  | round
deriving DecidableEq

/-- SOURCE: module/actor.cc:18, 116-124, module/actorGcc.cc:18-58 -/
def step (o : Options) (s : State) : Event → Option State
  | .doRegister handle =>
    if s.m_actors handle = none then
      some
        { s.set s.allocated ⟨handle, false, 0, 0, 0⟩ with
          m_actors := Function.update s.m_actors handle (some s.allocated)
          allocated := s.allocated + 1
          deaths := Function.update s.deaths s.allocated 0 }
    else none
  | .doUnRegister handle => some { s with m_actors := Function.update s.m_actors handle none }
  | .doExit id => if id < s.allocated then some (s.doExit id) else none
  | .susped id n =>
    if id < s.allocated then some (s.set id { s.actors id with suspedSize := n }) else none
  | .doShutdown => some { s with m_shutdown := true }
  | .begin =>
    if s.pc = .top then
      some { s with pc := if s.m_shutdown ∧ s.m_qGcc.length = 0 then .ended else .sleeping }
    else none
  | .awake =>
    if s.pc = .sleeping then
      some
        { s with
          pc := .pass 0
          present := s.m_qGcc.contents
          examined := []
          deaths := fun id => (s.actors id).m_death_us
          quiet := true }
    else none
  | .round =>
    match s.pc with
    | .pass i =>
      if i < s.m_qGcc.length then
        match s.m_qGcc.local_pop with
        | (some handle, q) =>
          some
            { State.examine o { s with m_qGcc := q } handle with
              pc := .pass (i + 1)
              examined := s.examined ++ [⟨handle, s.leaving handle, s.waits o handle⟩] }
        | (none, _) => none
      else some { s with pc := .top }
    | _ => none

/-- The collector when it is made. -/
structure Starts (s : State) : Prop where
  queue : s.m_qGcc.contents = []
  actors : ∀ handle, s.m_actors handle = none
  allocated : s.allocated = 0
  pc : s.pc = .top

def system (o : Options) : System State Event where
  init := Starts
  step := step o

/-! ## What a pass should do -/

/-- A pass has examined each of the handles that were present, and has put back those of the actors
still to be waited for; the time of each of these has grown once. -/
structure Complete (o : Options) (s : State) : Prop where
  once : s.examined.map Exam.handle = s.present
  requeued : s.m_qGcc.contents = (s.examined.filter Exam.waits).map Exam.handle
  grown : s.present.Nodup → ∀ x ∈ s.examined, x.waits → ∃ id, x.ptr = some id ∧
    (s.actors id).m_death_us = s.deaths id + o._actor_gcc_sleep_us

/-- The test of the `for` fails. -/
def State.over (s : State) : Bool :=
  match s.pc with
  | .pass i => s.m_qGcc.length ≤ i
  | _ => false

/-- The event ends a pass in which nothing was entered. -/
def EndsQuiet (s : State) (e : Event) : Prop := e = .round ∧ s.quiet ∧ s.over

def Exact (o : Options) (s : State) (e : Event) (s' : State) : Prop :=
  EndsQuiet s e → Complete o s'

/-- Only the last of the handles present was not that of an actor to be waited for, when it was
examined. -/
def OnlyLast (s : State) (e : Event) : Prop :=
  EndsQuiet s e → ∀ x ∈ s.examined.take (s.present.length - 1), x.waits

/-- An actor that is told to leave finds its handle neither in the queue nor given to another. -/
def Unused (s : State) : Event → Prop
  | .doExit id => (s.actors id).m_indeath = false →
    (s.actors id).m_handle ∉ s.m_qGcc.contents ∧
      ∀ id' ∈ s.m_actors (s.actors id).m_handle, id' = id
  | _ => True

end MagicNet.ActorGcc
