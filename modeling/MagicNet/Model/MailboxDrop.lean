import MagicNet.Model.Component
import MagicNet.Model.Payload
import MagicNet.Model.Queue

/-!
# The messages an actor dies with

The mailbox of an actor is `actor::messageQueue`, which overrides the `local_dropevent` of
`util::queue`; the loop that calls it for every value left stands in the destructor of
`util::queue`.  While that destructor runs, the object is a `util::queue` again: the destructor of
`messageQueue` is over, and the call of the virtual function goes to the one of the base class.

SOURCE: module/actor.cc:8-15, module/actor.h:20-23, util/queue.h:24-33, 96,
module/actorSystem.cc:114-143, module/message.h:30-47
-/

set_option autoImplicit false

namespace MagicNet.Drop

open MagicNet.Util MagicNet.Payload

/-- The part of a `message` a mailbox passes on; the id is read from `_ext`, and `_data` names a
block. -/
structure Message where
  _src : ℕ
  _dst : ℕ
  _session : ℤ
  msgId : MessageId
  _data : Option ℕ
  deriving DecidableEq, Repr

/-- The blocks freed and the messages given to `doSendMessage`, oldest first. -/
structure World where
  freed : List ℕ
  sent : List Message
  deriving DecidableEq, Repr

/-- `util::memory::free`; nothing is freed for `nullptr`. -/
def World.free (w : World) (data : Option ℕ) : World :=
  { w with freed := w.freed ++ data.toList }

/-- `doSendMessage` with its default arguments: no session and no data. -/
def World.doSendMessage (w : World) (src dst : ℕ) (msgId : MessageId) : World :=
  let msg : Message := { _src := src, _dst := dst, _session := 0, msgId := msgId, _data := none }
  { w with sent := w.sent ++ [msg] }

/-- The class whose virtual functions an object has. -/
inductive Class where
  | queue
  | messageQueue
  deriving DecidableEq, Repr

/-- What a call of `local_dropevent` does on an object of the class. -/
def Class.local_dropevent : Class → Message → World → World
  | .queue, _, w => w
  | .messageQueue, val, w =>
    (w.free val._data).doSendMessage val._dst val._dst .M_ID_ERROR

/-- `~queue()`, on an object that has the virtual functions of the class `c`. -/
def destroyQueue (c : Class) (q : Queue Message) (w : World) : World :=
  match _hval : q.local_pop.1 with
  | none => w
  | some val => destroyQueue c q.local_pop.2 (c.local_dropevent val w)
termination_by q.contents.length
decreasing_by
  obtain ⟨hhead, htail⟩ := q.contents_pop
  rw [_hval] at hhead
  rw [htail]
  cases hc : q.contents with
  | nil => simp [hc] at hhead
  | cons v rest => simp

/-- `~messageQueue()`: its own body is empty, and the destructor of the base class follows. -/
def destroyMessageQueue (q : Queue Message) (w : World) : World := destroyQueue .queue q w

/-- The destructor makes its call once for each message, in the order of the queue. -/
theorem destroyQueue_eq (c : Class) (q : Queue Message) (w : World) :
    destroyQueue c q w = q.contents.foldl (fun w val => c.local_dropevent val w) w := by
  induction q, w using destroyQueue.induct (c := c) with
  | case1 q w hnone =>
    rw [destroyQueue]
    have hhead := q.contents_pop.1
    rw [hnone] at hhead
    rw [List.head?_eq_none_iff.mp hhead.symm]
    split
    · rfl
    · next val hsome => simp [hnone] at hsome
  | case2 q w val hsome ih =>
    obtain ⟨hhead, htail⟩ := q.contents_pop
    rw [hsome] at hhead
    rw [destroyQueue]
    split
    · next hnone => simp [hsome] at hnone
    · next val' hval =>
      obtain rfl : val = val' := Option.some.inj (hsome.symm.trans hval)
      rw [ih, htail]
      cases hc : q.contents with
      | nil => simp [hc] at hhead
      | cons v rest =>
        obtain rfl : val = v := by simpa [hc] using hhead
        rfl

/-! ## The errors a component gets -/

/-- The component takes, one after the other, the messages that are errors for the actor. -/
def receiveErrors (handle : ℕ) (s : Component.State) (sent : List Message) : Component.State :=
  (sent.filter fun m => m._dst = handle ∧ m.msgId = .M_ID_ERROR).foldl
    (fun s m => s.errorDispatch m._session) s

end MagicNet.Drop
