import MagicNet.Model.MailboxDrop

/-!
# The requests an actor dies with

A request that is still in the mailbox when its actor is destroyed should have its payload freed and
be answered by an `M_ID_ERROR` with its session, which wakes the coroutine that waits for the answer.
The call of `local_dropevent` in `~queue` never gets to the override that would do it, so nothing is
freed and nobody hears of it; only a mailbox of messages without payload and sender, as the timers
send them, has nothing to be reported.

The override itself would not do either: it sends the error to the `_dst` of the message, which is the
actor that dies, and without the session.
-/

set_option autoImplicit false

namespace MagicNet.Drop

open MagicNet.Util MagicNet.Payload MagicNet.Component

/-! ## Requests that are reported -/

/-- The error that answers a request. -/
structure Answers (m error : Message) : Prop where
  _dst : error._dst = m._src
  msgId : error.msgId = .M_ID_ERROR
  _session : error._session = m._session

/-- The messages in the mailbox are reported between the worlds: each payload is freed once, each
message with a sender is answered by one error, nothing else is sent, and a coroutine of the sender
that waits with the session is woken by the errors it gets. -/
structure Reported (pending : List Message) (w w' : World) : Prop where
  freed : ∃ frees, w'.freed = w.freed ++ frees ∧ frees.Perm (pending.filterMap Message._data)
  sent : ∃ errors, w'.sent = w.sent ++ errors ∧
    ∃ requests, requests.Perm (pending.filter fun m => m._src ≠ 0) ∧
      List.Forall₂ Answers requests errors
  woken : ∀ m ∈ pending, m._src ≠ 0 → ∀ errors, w'.sent = w.sent ++ errors →
    ∀ (s : State) co entry, s.getSusped m._session = some co → co._entry = some entry →
      (receiveErrors m._src s errors).phase entry ≠ .blocked

/-! ## An error wakes the coroutine that waits for it -/

variable {s : State} {entry : ℕ}

/-- The coroutine suspended as `entry` waits with the session, or it has been woken. -/
def WaitsOrWoken (s : State) (session : ℤ) (entry : ℕ) : Prop :=
  (∃ co, s.getSusped session = some co ∧ co._entry = some entry) ∨ s.phase entry ≠ .blocked

/-- A coroutine that is woken is not blocked.
SOURCE: operation/worker.cc:131-141 -/
theorem wakeup_phase (s : State) (entry : ℕ) : (s.wakeup (some entry)).phase entry ≠ .blocked := by
  unfold State.wakeup
  simp only
  split
  · simp
  · next hphase => exact hphase

/-- One that is not blocked stays so when another is woken. -/
theorem wakeup_keeps {e : Option ℕ} (h : s.phase entry ≠ .blocked) :
    (s.wakeup e).phase entry ≠ .blocked := by
  unfold State.wakeup
  cases e with
  | none => exact h
  | some e =>
    simp only
    split
    · by_cases heq : entry = e
      · subst heq
        simp
      · simp only [ne_eq, Function.update_of_ne heq]
        exact h
    · exact h

/-- Waking keeps the table of sessions. -/
theorem wakeup_getSusped (s : State) (e : Option ℕ) (session : ℤ) :
    (s.wakeup e).getSusped session = s.getSusped session := by
  unfold State.wakeup
  cases e with
  | none => rfl
  | some e =>
    simp only
    split <;> rfl

/-- An error with the session wakes the coroutine.
SOURCE: module/actorComponent.cc:342-364 -/
theorem errorDispatch_wakes {session : ℤ} (h : WaitsOrWoken s session entry) :
    (s.errorDispatch session).phase entry ≠ .blocked := by
  unfold State.errorDispatch
  rcases h with ⟨co, hco, hentry⟩ | hphase
  · rw [hco]
    simp only [hentry]
    exact wakeup_phase _ entry
  · cases s.getSusped session with
    | none => exact hphase
    | some co => exact wakeup_keeps hphase

/-- An error with another session leaves it waiting.
SOURCE: module/actorComponent.cc:342-364 -/
theorem errorDispatch_keeps {session session' : ℤ} (h : WaitsOrWoken s session entry) :
    WaitsOrWoken (s.errorDispatch session') session entry := by
  by_cases heq : session = session'
  · subst heq
    exact .inr (errorDispatch_wakes h)
  · unfold State.errorDispatch
    cases s.getSusped session' with
    | none => exact h
    | some co' =>
      rcases h with ⟨co, hco, hentry⟩ | hphase
      · refine .inl ⟨co, ?_, hentry⟩
        rw [wakeup_getSusped]
        change (s.m_suspedSession.erase session').lookup session = some co
        rw [AList.lookup_erase_ne heq]
        exact hco
      · exact .inr (wakeup_keeps hphase)

/-- **Among the errors a component gets, the one with its session wakes the coroutine.** -/
theorem receiveErrors_wakes {handle : ℕ} {session : ℤ} {errors : List Message}
    (herror : ∃ e ∈ errors, e._dst = handle ∧ e.msgId = .M_ID_ERROR ∧ e._session = session)
    (h : WaitsOrWoken s session entry) :
    (receiveErrors handle s errors).phase entry ≠ .blocked := by
  -- once woken, it stays so
  have hwoken : ∀ (l : List Message) (t : State), t.phase entry ≠ .blocked →
      (l.foldl (fun s m => s.errorDispatch m._session) t).phase entry ≠ .blocked := by
    intro l
    induction l with
    | nil => exact fun t ht => ht
    | cons m l ih => exact fun t ht => ih _ (errorDispatch_wakes (.inr ht))
  have hfold : ∀ (l : List Message) (t : State), (∃ e ∈ l, e._session = session) →
      WaitsOrWoken t session entry →
      (l.foldl (fun s m => s.errorDispatch m._session) t).phase entry ≠ .blocked := by
    intro l
    induction l with
    | nil => simp
    | cons m l ih =>
      rintro t ⟨e, he, hsession⟩ ht
      rcases List.mem_cons.mp he with rfl | he
      · exact hwoken l _ (errorDispatch_wakes (hsession ▸ ht))
      · exact ih _ ⟨e, he, hsession⟩ (errorDispatch_keeps ht)
  obtain ⟨e, he, hdst, hid, hsession⟩ := herror
  refine hfold _ s ⟨e, ?_, hsession⟩ h
  rw [List.mem_filter]
  exact ⟨he, by simp [hdst, hid]⟩

/-- Reporting the messages is freeing the payloads and sending the answers: these wake the
coroutines. -/
theorem reported_of {pending : List Message} {w w' : World}
    (hfreed : ∃ frees, w'.freed = w.freed ++ frees ∧
      frees.Perm (pending.filterMap Message._data))
    (hsent : ∃ errors, w'.sent = w.sent ++ errors ∧
      ∃ requests, requests.Perm (pending.filter fun m => m._src ≠ 0) ∧
        List.Forall₂ Answers requests errors) : Reported pending w w' := by
  refine ⟨hfreed, hsent, ?_⟩
  intro m hm hsrc errors herrors s co entry hco hentry
  obtain ⟨errors', herrors', requests, hperm, hanswers⟩ := hsent
  obtain rfl : errors = errors' := List.append_cancel_left (herrors.symm.trans herrors')
  have hreq : m ∈ requests := by
    rw [hperm.mem_iff, List.mem_filter]
    exact ⟨hm, by simpa using hsrc⟩
  obtain ⟨i, hi, rfl⟩ := List.getElem_of_mem hreq
  have hlen := hanswers.length_eq
  have hans : Answers requests[i] errors[i] := hanswers.get hi (by omega)
  exact receiveErrors_wakes
    ⟨errors[i], List.getElem_mem _, hans._dst, hans.msgId, hans._session⟩
    (.inl ⟨co, hco, hentry⟩)

/-! ## What the destructors do -/

/-- The destructor of the mailbox does nothing with the messages left.
SOURCE: module/actor.cc:21-29 -/
theorem destroyMessageQueue_eq (q : Queue Message) (w : World) : destroyMessageQueue q w = w := by
  rw [destroyMessageQueue, destroyQueue_eq]
  induction q.contents with
  | nil => rfl
  | cons m rest ih => exact ih

/-- With the override in its place the payloads would be freed, and each message would send an error
without a session to the actor that dies.
SOURCE: util/queue.h:24-33 -/
theorem destroyQueue_override (q : Queue Message) (w : World) :
    destroyQueue .messageQueue q w =
      { freed := w.freed ++ q.contents.flatMap fun m => m._data.toList
        sent := w.sent ++ q.contents.map fun m =>
          { _src := m._dst, _dst := m._dst, _session := 0, msgId := .M_ID_ERROR, _data := none } } := by
  rw [destroyQueue_eq]
  induction q.contents generalizing w with
  | nil => simp
  | cons m rest ih =>
    rw [List.foldl_cons, ih]
    simp [Class.local_dropevent, World.free, World.doSendMessage]

/-- **Dropped requests.**  The messages an actor is destroyed with are reported exactly when none of
them has a payload or a sender.
SOURCE: module/actor.cc:8-15, module/actor.h:20-23, util/queue.h:24-33, 96 -/
theorem dropped_reported (q : Queue Message) (w : World) :
    Reported q.contents w (destroyMessageQueue q w) ↔
      ∀ m ∈ q.contents, m._data = none ∧ m._src = 0 := by
  rw [destroyMessageQueue_eq]
  constructor
  · rintro ⟨⟨frees, hfreed, hpayloads⟩, ⟨errors, hsent, requests, hrequests, hanswers⟩, -⟩
    -- what has been freed and sent is nothing
    obtain rfl : frees = [] := by simpa using hfreed.symm
    obtain rfl : errors = [] := by simpa using hsent.symm
    obtain rfl : requests = [] := by simpa using hanswers.length_eq
    have hno := hpayloads.symm.eq_nil
    have hnone := hrequests.symm.eq_nil
    intro m hm
    refine ⟨List.filterMap_eq_nil_iff.mp hno m hm, ?_⟩
    have hsrc := List.filter_eq_nil_iff.mp hnone m hm
    simpa using hsrc
  · intro hquiet
    refine reported_of ⟨[], by simp, ?_⟩ ⟨[], by simp, [], ?_, .nil⟩
    · rw [List.filterMap_eq_nil_iff.mpr fun m hm => (hquiet m hm).1]
    · rw [List.filter_eq_nil_iff.mpr fun m hm => by simpa using (hquiet m hm).2]

/-- A request with a payload is in the mailbox: it is neither freed nor answered.
SOURCE: module/actor.cc:21-29 -/
theorem dropped_unreported : ¬ ∀ (q : Queue Message) (w : World),
    Reported q.contents w (destroyMessageQueue q w) := by
  intro hall
  let request : Message :=
    { _src := 2, _dst := 1, _session := 5, msgId := .M_ID_TEXT, _data := some 0 }
  have hrep := hall ((Queue.new fun _ => request).local_push request) { freed := [], sent := [] }
  rw [destroyMessageQueue_eq, Queue.contents_push, Queue.contents_new] at hrep
  obtain ⟨frees, hfreed, hpayloads⟩ := hrep.freed
  obtain rfl : frees = [] := by simpa using hfreed.symm
  have hno := hpayloads.symm.eq_nil
  revert hno
  decide

end MagicNet.Drop
