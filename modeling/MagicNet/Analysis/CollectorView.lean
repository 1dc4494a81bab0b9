import MagicNet.Model.Component

/-!
# Whether the collector sees the coroutines that wait

`actorGcc` takes an actor down once its two tables are empty.  A coroutine in `doWait` is kept in
sight by its entry in `m_suspedSleep`, which the handler of a response leaves alone and the coroutine
takes out itself when it runs again; the callback of a timer by its entry in `m_suspedSession`.

`errorDispatch` takes both entries out before the coroutine it wakes has run, and a response or an
error that carries the session of a timer takes the timer out.  `Kept` is the condition under which
no step does so, and no session or id in use is given out again.

SOURCE: module/actorComponent.cc:29-181, 210-262, 342-364, module/actorGcc.cc:28-58
-/

set_option autoImplicit false

namespace MagicNet.Component

open MagicNet.Foundation

variable {s s' : State}

/-! ## What the collector is to see -/

/-- The tables of a component and the calls in progress: they are empty only with no coroutine in
`doWait` and no callback of a timer outstanding, and mention no other coroutine. -/
structure Seen (s : State) : Prop where
  empty : s.isSuspedEmpty → s.waiting = [] ∧ s.timers = [] ∧ s.calling = []
  sessions : ∀ session co, s.getSusped session = some co →
    (∃ w ∈ s.waiting, w.session = session ∧ w._id = co._id) ∨ co._entry = none
  sleeps : ∀ id ∈ s.m_suspedSleep, ∃ w ∈ s.waiting, w._id = id

/-- Neither table mentions the session or the id. -/
def Forgotten (s : State) (session : ℤ) (id : ℕ) : Prop :=
  session ∉ s.m_suspedSession ∧ id ∉ s.m_suspedSleep

/-- The collector sees the state that a step leads to right, and a coroutine whose
`doWait` returns in it, after a suspension or at once, is forgotten. -/
structure StepSeen (s : State) (e : Event) (s' : State) : Prop where
  seen : Seen s'
  returned : ∀ i w, e = .doReturn i → s.waiting[i]? = some w → Forgotten s' w.session w._id
  atOnce : e = .doWait → s'.waiting = s.waiting → Forgotten s' s'.m_session s'.m_entryId

/-- The condition on a step.  A `doWait` gets a session that is not in the table and an id that no
coroutine in `doWait` has, and the tables have room; a timer does not get the session of a coroutine
in `doWait`; no response or error carries the session of a timer, no error one whose `coEntry` is in
`m_suspedSleep`, and no `M_ID_TIMEOUT` one whose callback is in progress. -/
def Kept (s : State) : Event → Prop
  | .doWait =>
    s.getSusped (genSession s.m_session) = none ∧
      (∀ w ∈ s.waiting, w._id ≠ doGenEntryId s.m_entryId) ∧ s.suspedSize + 2 < 2 ^ 32
  | .doTimeout func =>
    s.getSusped (genSession s.m_session) = none →
      s.suspedSize + 1 < 2 ^ 32 ∧
        (func = true → ∀ w ∈ s.waiting, w.session ≠ genSession s.m_session)
  | .resoue session => ∀ co ∈ s.getSusped session, co._func = false
  | .error session =>
    ∀ co ∈ s.getSusped session, co._func = false ∧ co._id ∉ s.m_suspedSleep
  | .timeout session => session ∉ s.calling
  | _ => True

instance (s : State) : ∀ e, Decidable (Kept s e)
  | .doWait => inferInstanceAs (Decidable (_ ∧ (∀ w ∈ s.waiting, _) ∧ _))
  | .doTimeout _ => inferInstanceAs (Decidable (_ → _ ∧ (_ → ∀ w ∈ s.waiting, _)))
  | .resoue session => inferInstanceAs (Decidable (∀ co ∈ s.getSusped session, co._func = false))
  | .error session =>
    inferInstanceAs
      (Decidable (∀ co ∈ s.getSusped session, co._func = false ∧ co._id ∉ s.m_suspedSleep))
  | .timeout _ => inferInstanceAs (Decidable (¬ _))
  | .genEntryId | .doWakeup _ | .resume _ | .doReturn _ | .callbackReturn _ => isTrue trivial

/-! ## What the tables keep -/

/-- The callback of a timer with this session has not returned. -/
def State.Outstanding (s : State) (session : ℤ) : Prop :=
  session ∈ s.timers ∨ session ∈ s.calling

/-- Each coroutine in `doWait` has its entry in `m_suspedSleep`, each callback its own in
`m_suspedSession`, and there are no others; what removes the one by its session does not hit the
other. -/
structure Inv (s : State) : Prop where
  size : s.suspedSize < 2 ^ 32
  ids : (s.waiting.map Waiter._id).Nodup
  sleeps : ∀ id, id ∈ s.m_suspedSleep ↔ ∃ w ∈ s.waiting, w._id = id
  sessions : ∀ session co, s.getSusped session = some co →
    co._func = false ∧ (∃ w ∈ s.waiting, w.session = session ∧ w._id = co._id) ∨
      co._entry = none ∧ (co._func = true → s.Outstanding session)
  callbacks : ∀ session, s.Outstanding session →
    ∃ co, s.getSusped session = some co ∧ co._func = true
  once : (s.timers ++ s.calling).Nodup
  apart : ∀ w ∈ s.waiting, ¬ s.Outstanding w.session

/-- The collector finds nothing suspended where both tables are empty.
SOURCE: module/actor.cc:83-95, module/actorComponent.h:78-81 -/
theorem isSuspedEmpty_iff (hsize : s.suspedSize < 2 ^ 32) :
    s.isSuspedEmpty ↔ s.m_suspedSession.entries = [] ∧ s.m_suspedSleep.entries = [] := by
  have hzero : s.isSuspedEmpty ↔ s.suspedSize = 0 := by
    unfold State.isSuspedEmpty State.getSuspedSize
    rw [← Int.dvd_iff_bmod_eq_zero, Int.natCast_dvd_natCast]
    constructor
    · intro hdvd
      exact Nat.eq_zero_of_dvd_of_lt hdvd hsize
    · intro heq
      rw [heq]
      exact Nat.dvd_zero _
  rw [hzero, State.suspedSize, Nat.add_eq_zero_iff, List.length_eq_zero_iff,
    List.length_eq_zero_iff]

/-- **The collector is right** about tables that are kept. -/
theorem seen_of_inv (h : Inv s) : Seen s where
  empty hempty := by
    obtain ⟨hsession, hsleep⟩ := (isSuspedEmpty_iff h.size).mp hempty
    have hno : ∀ session, ¬ s.Outstanding session := by
      intro session hout
      obtain ⟨co, hco, -⟩ := h.callbacks session hout
      simp [State.getSusped, AList.lookup, hsession] at hco
    refine ⟨?_, ?_, ?_⟩
    · apply List.eq_nil_iff_forall_not_mem.mpr
      intro w hw
      have hid := (h.sleeps w._id).mpr ⟨w, hw, rfl⟩
      simp [AList.mem_keys, AList.keys, hsleep] at hid
    · exact List.eq_nil_iff_forall_not_mem.mpr fun session hs => hno session (.inl hs)
    · exact List.eq_nil_iff_forall_not_mem.mpr fun session hs => hno session (.inr hs)
  sessions session co hco := by
    rcases h.sessions session co hco with ⟨-, hw⟩ | ⟨hnone, -⟩
    · exact .inl hw
    · exact .inr hnone
  sleeps id hid := (h.sleeps id).mp hid

/-! ## The sizes of the tables -/

section Size

variable {α β : Type} [DecidableEq α]

/-- An insert adds one entry at most. -/
theorem length_entries_insert (m : AList fun _ : α => β) (a : α) (b : β) :
    (m.insert a b).entries.length ≤ m.entries.length + 1 := by
  rw [AList.entries_insert, List.length_cons]
  have := (List.kerase_sublist a m.entries).length_le
  omega

/-- An erase adds none. -/
theorem length_entries_erase (m : AList fun _ : α => β) (a : α) :
    (m.erase a).entries.length ≤ m.entries.length :=
  (List.kerase_sublist a m.entries).length_le

end Size

/-- Forgetting a session leaves no more suspended.
SOURCE: module/actorComponent.cc:130-144 -/
theorem suspedSize_removeSusped (s : State) (session : ℤ) :
    (s.removeSusped session).suspedSize ≤ s.suspedSize :=
  Nat.add_le_add_right (length_entries_erase s.m_suspedSession session) _

/-- Nor does a coroutine that goes on.
SOURCE: module/actorComponent.cc:43-53 -/
theorem suspedSize_afterYield (s : State) (w : Waiter) :
    (s.afterYield w).suspedSize ≤ s.suspedSize :=
  Nat.add_le_add (length_entries_erase s.m_suspedSession w.session)
    (length_entries_erase s.m_suspedSleep w._id)

/-! ## The sessions -/

/-- What is found after an erase is another key, and was there. -/
theorem lookup_of_erase {m : AList fun _ : ℤ => CoEntry} {session session' : ℤ} {co : CoEntry}
    (h : (m.erase session').lookup session = some co) :
    session ≠ session' ∧ m.lookup session = some co := by
  by_cases heq : session = session'
  · subst heq
    simp [AList.lookup_erase] at h
  · rw [AList.lookup_erase_ne heq] at h
    exact ⟨heq, h⟩

/-- An entry with a new session hides no other. -/
theorem lookup_insert_new {m : AList fun _ : ℤ => CoEntry} {session session' : ℤ}
    {co co' : CoEntry} (hnew : m.lookup session' = none) (h : m.lookup session = some co) :
    (m.insert session' co').lookup session = some co := by
  have hne : session ≠ session' := by
    rintro rfl
    rw [hnew] at h
    cases h
  rw [AList.lookup_insert_ne hne]
  exact h

/-- A session that is not in the table is of no timer that is outstanding.
SOURCE: module/actorComponent.cc:97-111 -/
theorem not_outstanding_of_none (h : Inv s) {session : ℤ} (hnone : s.getSusped session = none) :
    ¬ s.Outstanding session := by
  intro hout
  obtain ⟨co, hco, -⟩ := h.callbacks session hout
  rw [hnone] at hco
  cases hco

/-- An entry without a callback is no timer's that is outstanding.
SOURCE: module/actorComponent.cc:97-111 -/
theorem not_outstanding (h : Inv s) {session : ℤ} {co : CoEntry}
    (hco : s.getSusped session = some co) (hfunc : co._func = false) :
    ¬ s.Outstanding session := by
  intro hout
  obtain ⟨co', hco', hfunc'⟩ := h.callbacks session hout
  obtain rfl : co' = co := Option.some.inj (hco'.symm.trans hco)
  simp [hfunc] at hfunc'

/-- The timers that are outstanding keep their entries when one with another session is taken
out.
SOURCE: module/actorComponent.cc:97-111, 130-144 -/
theorem callbacks_removeSusped (h : Inv s) {session session' : ℤ} (hout : s.Outstanding session')
    (hne : session' ≠ session) :
    ∃ co, (s.removeSusped session).getSusped session' = some co ∧ co._func = true := by
  obtain ⟨co, hco, hfunc⟩ := h.callbacks session' hout
  refine ⟨co, ?_, hfunc⟩
  change (s.m_suspedSession.erase session).lookup session' = some co
  rw [AList.lookup_erase_ne hne]
  exact hco

/-! ## One step -/

/-- A step that leaves the tables and the calls alone. -/
theorem inv_same (h : Inv s) (hsession : s'.m_suspedSession = s.m_suspedSession)
    (hsleep : s'.m_suspedSleep = s.m_suspedSleep) (hwait : s'.waiting = s.waiting)
    (htimers : s'.timers = s.timers) (hcalling : s'.calling = s.calling) : Inv s' := by
  have hget : ∀ session, s'.getSusped session = s.getSusped session := by
    intro session
    rw [State.getSusped, State.getSusped, hsession]
  have hout : ∀ session, s'.Outstanding session ↔ s.Outstanding session := by
    intro session
    rw [State.Outstanding, State.Outstanding, htimers, hcalling]
  refine ⟨?_, ?_, ?_, ?_, ?_, ?_, ?_⟩
  · rw [State.suspedSize, hsession, hsleep]
    exact h.size
  · rw [hwait]
    exact h.ids
  · rw [hsleep, hwait]
    exact h.sleeps
  · intro session co hco
    rw [hget] at hco
    rw [hwait, hout]
    exact h.sessions session co hco
  · intro session hs
    rw [hget]
    exact h.callbacks session ((hout session).mp hs)
  · rw [htimers, hcalling]
    exact h.once
  · intro w hw
    rw [hout]
    exact h.apart w (hwait ▸ hw)

/-- Waking a coroutine keeps the invariant.
SOURCE: operation/worker.cc:131-141 -/
theorem inv_wakeup (h : Inv s) (entry : Option ℕ) : Inv (s.wakeup entry) := by
  unfold State.wakeup
  cases entry with
  | none => exact h
  | some entry =>
    simp only
    split
    · exact inv_same h rfl rfl rfl rfl rfl
    · exact h

/-- An entry of the table that is no timer's can be taken out.
SOURCE: module/actorComponent.cc:130-144 -/
theorem inv_removeSusped (h : Inv s) {session : ℤ} (hno : ¬ s.Outstanding session) :
    Inv (s.removeSusped session) := by
  refine ⟨(suspedSize_removeSusped s session).trans_lt h.size, h.ids, h.sleeps, ?_, ?_, h.once,
    h.apart⟩
  · intro session' co hco
    exact h.sessions session' co (lookup_of_erase hco).2
  · intro session' hout
    refine callbacks_removeSusped h hout ?_
    rintro rfl
    exact hno hout

/-- So does a response.
SOURCE: module/actorComponent.cc:210-295 -/
theorem inv_resoueDispatch (h : Inv s) {session : ℤ} (hk : Kept s (.resoue session)) :
    Inv (s.resoueDispatch session) := by
  unfold State.resoueDispatch
  cases hco : s.getSusped session with
  | none => exact h
  | some co =>
    have hremoved := inv_removeSusped h (not_outstanding h hco (hk co hco))
    cases hentry : co._entry with
    | none =>
      simp only [hentry]
      exact hremoved
    | some entry =>
      simp only [hentry]
      split
      · exact hremoved
      · exact inv_wakeup hremoved _

/-- Erasing what is not there changes nothing. -/
theorem erase_of_not_mem {m : AList fun _ : ℕ => ℤ} {id : ℕ} (h : id ∉ m) : m.erase id = m :=
  AList.ext (List.kerase_of_notMem_keys h)

/-- So does an error.
SOURCE: module/actorComponent.cc:342-364 -/
theorem inv_errorDispatch (h : Inv s) {session : ℤ} (hk : Kept s (.error session)) :
    Inv (s.errorDispatch session) := by
  unfold State.errorDispatch
  cases hco : s.getSusped session with
  | none => exact h
  | some co =>
    obtain ⟨hfunc, hid⟩ := hk co hco
    have hsleep : s.removeSleepSusped co._id = s := by
      rw [State.removeSleepSusped, erase_of_not_mem hid]
    simp only [hsleep]
    exact inv_wakeup (inv_removeSusped h (not_outstanding h hco hfunc)) _

/-- The callback of a timer is called: the timer is outstanding as it was. -/
theorem inv_timeoutDispatch (h : Inv s) {session : ℤ} (hk : Kept s (.timeout session)) :
    Inv (s.timeoutDispatch session) := by
  unfold State.timeoutDispatch
  cases hco : s.getSusped session with
  | none => exact h
  | some co =>
    simp only
    split
    · next hfunc =>
      have htimer : session ∈ s.timers := by
        rcases h.sessions session co hco with ⟨hno, -⟩ | ⟨-, hout⟩
        · simp [hfunc] at hno
        · exact (hout hfunc).resolve_right hk
      have hperm : (s.timers.erase session ++ session :: s.calling).Perm
          (s.timers ++ s.calling) :=
        List.perm_middle.trans ((List.perm_cons_erase htimer).symm.append_right s.calling)
      have hout : ∀ session', session' ∈ s.timers.erase session ∨ session' ∈ session :: s.calling ↔
          s.Outstanding session' := by
        intro session'
        rw [← List.mem_append, hperm.mem_iff, List.mem_append, State.Outstanding]
      refine ⟨h.size, h.ids, h.sleeps, ?_, ?_, hperm.nodup_iff.mpr h.once, ?_⟩
      · intro session' co' hco'
        rcases h.sessions session' co' hco' with hw | ⟨hnone, hcall⟩
        · exact .inl hw
        · exact .inr ⟨hnone, fun hf => (hout session').mpr (hcall hf)⟩
      · intro session' hs
        exact h.callbacks session' ((hout session').mp hs)
      · intro w hw hs
        exact h.apart w hw ((hout w.session).mp hs)
    · exact h

/-- The return of a callback takes its timer out.
SOURCE: module/actorComponent.cc:130-144, 210-295 -/
theorem inv_callbackReturn (h : Inv s) {session : ℤ} (hcall : session ∈ s.calling) :
    Inv { s.removeSusped session with calling := s.calling.erase session } := by
  have honce := List.nodup_append.mp h.once
  have hout : ∀ session', session' ∈ s.timers ∨ session' ∈ s.calling.erase session ↔
      s.Outstanding session' ∧ session' ≠ session := by
    intro session'
    rw [honce.2.1.mem_erase_iff, State.Outstanding]
    constructor
    · rintro (ht | ⟨hne, hc⟩)
      · exact ⟨.inl ht, honce.2.2 session' ht session hcall⟩
      · exact ⟨.inr hc, hne⟩
    · rintro ⟨ht | hc, hne⟩
      · exact .inl ht
      · exact .inr ⟨hne, hc⟩
  refine ⟨(suspedSize_removeSusped s session).trans_lt h.size, h.ids, h.sleeps, ?_, ?_, ?_, ?_⟩
  · intro session' co hco
    obtain ⟨hne, hco⟩ := lookup_of_erase hco
    rcases h.sessions session' co hco with hw | ⟨hnone, hf⟩
    · exact .inl hw
    · exact .inr ⟨hnone, fun hfunc => (hout session').mpr ⟨hf hfunc, hne⟩⟩
  · intro session' hs
    obtain ⟨hs, hne⟩ := (hout session').mp hs
    exact callbacks_removeSusped h hs hne
  · exact h.once.sublist (List.Sublist.append_left List.erase_sublist s.timers)
  · intro w hw hs
    exact h.apart w hw ((hout w.session).mp hs).1

/-- The coroutine whose `doWait` returns, and the others.
SOURCE: module/actorComponent.cc:43-53 -/
theorem waiting_perm {l : List Waiter} {i : ℕ} {w : Waiter} (hi : l[i]? = some w) :
    l.Perm (w :: l.eraseIdx i) := by
  obtain ⟨hlt, rfl⟩ := List.getElem?_eq_some_iff.mp hi
  exact (List.getElem_cons_eraseIdx_perm hlt).symm

/-- A `doWait` that returns takes its own entries out.
SOURCE: module/actorComponent.cc:43-53 -/
theorem inv_doReturn (h : Inv s) {i : ℕ} {w : Waiter} (hi : s.waiting[i]? = some w) :
    Inv { s.afterYield w with waiting := s.waiting.eraseIdx i } := by
  have hperm := waiting_perm hi
  have hw : w ∈ s.waiting := hperm.mem_iff.mpr List.mem_cons_self
  have hids : ((w :: s.waiting.eraseIdx i).map Waiter._id).Nodup :=
    ((hperm.map Waiter._id).nodup_iff).mp h.ids
  rw [List.map_cons, List.nodup_cons] at hids
  have hrest : ∀ v ∈ s.waiting.eraseIdx i, v ∈ s.waiting ∧ v._id ≠ w._id := by
    intro v hv
    refine ⟨hperm.mem_iff.mpr (List.mem_cons_of_mem _ hv), ?_⟩
    intro heq
    exact hids.1 (List.mem_map.mpr ⟨v, hv, heq⟩)
  have hsplit : ∀ v ∈ s.waiting, v = w ∨ v ∈ s.waiting.eraseIdx i := by
    intro v hv
    exact List.mem_cons.mp (hperm.mem_iff.mp hv)
  refine ⟨(suspedSize_afterYield s w).trans_lt h.size, hids.2, ?_, ?_, ?_, h.once, ?_⟩
  · intro id
    change id ∈ s.m_suspedSleep.erase w._id ↔ _
    rw [AList.mem_erase, h.sleeps]
    constructor
    · rintro ⟨hne, v, hv, rfl⟩
      rcases hsplit v hv with rfl | hv
      · exact absurd rfl hne
      · exact ⟨v, hv, rfl⟩
    · rintro ⟨v, hv, rfl⟩
      exact ⟨(hrest v hv).2, v, (hrest v hv).1, rfl⟩
  · intro session co hco
    obtain ⟨hne, hco⟩ := lookup_of_erase hco
    rcases h.sessions session co hco with ⟨hf, v, hv, rfl, hid⟩ | htimer
    · rcases hsplit v hv with rfl | hv
      · exact absurd rfl hne
      · exact .inl ⟨hf, v, hv, rfl, hid⟩
    · exact .inr htimer
  · intro session hout
    exact (inv_removeSusped h (h.apart w hw)).callbacks session hout
  · intro v hv
    exact h.apart v (hrest v hv).1

/-- A `doWait` with a new session and a new id is entered in both tables.
SOURCE: module/actorComponent.cc:43-53 -/
theorem inv_doWait (h : Inv s) (hk : Kept s .doWait) :
    Inv s.doWait ∧ s.doWait.waiting ≠ s.waiting := by
  obtain ⟨hsession, hid, hroom⟩ := hk
  change s.m_suspedSession.lookup (genSession s.m_session) = none at hsession
  have hnew : ¬ s.Outstanding (genSession s.m_session) := not_outstanding_of_none h hsession
  unfold State.doWait State.insertSusped
  simp only [hsession]
  refine ⟨⟨?_, ?_, ?_, ?_, ?_, h.once, ?_⟩, by simp⟩
  · have hlen := length_entries_insert s.m_suspedSession (genSession s.m_session)
      { _id := doGenEntryId s.m_entryId, _entry := some s.suspends, _func := false }
    have hlen' := length_entries_insert s.m_suspedSleep (doGenEntryId s.m_entryId)
      (genSession s.m_session)
    unfold State.suspedSize at hroom
    simp only [State.suspedSize, State.insertSleepSusped]
    omega
  · simp only [List.map_append, List.map_cons, List.map_nil]
    refine List.nodup_append.mpr ⟨h.ids, List.nodup_singleton _, ?_⟩
    intro id hmem id' hmem'
    obtain ⟨w, hw, rfl⟩ := List.mem_map.mp hmem
    rw [List.mem_singleton.mp hmem']
    exact hid w hw
  · intro id
    simp only [State.insertSleepSusped, AList.mem_insert, h.sleeps, List.mem_append,
      List.mem_singleton]
    constructor
    · rintro (rfl | ⟨w, hw, rfl⟩)
      · exact ⟨_, .inr rfl, rfl⟩
      · exact ⟨w, .inl hw, rfl⟩
    · rintro ⟨w, hw | rfl, rfl⟩
      · exact .inr ⟨w, hw, rfl⟩
      · exact .inl rfl
  · intro session co hco
    simp only [State.getSusped, State.insertSleepSusped] at hco
    by_cases heq : session = genSession s.m_session
    · subst heq
      rw [AList.lookup_insert, Option.some.injEq] at hco
      subst hco
      exact .inl ⟨rfl, _, List.mem_append_right _ (List.mem_singleton.mpr rfl), rfl, rfl⟩
    · rw [AList.lookup_insert_ne heq] at hco
      rcases h.sessions session co hco with ⟨hf, w, hw, hrest⟩ | htimer
      · exact .inl ⟨hf, w, List.mem_append_left _ hw, hrest⟩
      · exact .inr htimer
  · intro session hout
    obtain ⟨co, hco, hfunc⟩ := h.callbacks session hout
    exact ⟨co, lookup_insert_new hsession hco, hfunc⟩
  · intro w hw
    rcases List.mem_append.mp hw with hw | hw
    · exact h.apart w hw
    · rw [List.mem_singleton.mp hw]
      exact hnew

/-- A timer with a new session is entered in the first table.
SOURCE: module/actorComponent.cc:29-41 -/
theorem inv_doTimeout (h : Inv s) {func : Bool} (hk : Kept s (.doTimeout func)) :
    Inv (s.doTimeout func) := by
  unfold State.doTimeout State.insertSusped
  cases hsession : s.m_suspedSession.lookup (genSession s.m_session) with
  | some co =>
    simp only [hsession]
    exact inv_same h rfl rfl rfl rfl rfl
  | none =>
    simp only [hsession]
    obtain ⟨hroom, hapart⟩ := hk hsession
    have hnew : ¬ s.Outstanding (genSession s.m_session) := not_outstanding_of_none h hsession
    have hout : ∀ session,
        (session ∈ (if func then genSession s.m_session :: s.timers else s.timers) ∨
          session ∈ s.calling) ↔
        s.Outstanding session ∨ func = true ∧ session = genSession s.m_session := by
      intro session
      cases func <;> simp [State.Outstanding, or_comm, or_left_comm, or_assoc]
    refine ⟨?_, h.ids, h.sleeps, ?_, ?_, ?_, ?_⟩
    · have hlen := length_entries_insert s.m_suspedSession (genSession s.m_session)
        { _id := doGenEntryId s.m_entryId, _entry := none, _func := func }
      unfold State.suspedSize at hroom
      simp only [State.suspedSize]
      omega
    · intro session co hco
      simp only [State.getSusped] at hco
      by_cases heq : session = genSession s.m_session
      · subst heq
        rw [AList.lookup_insert, Option.some.injEq] at hco
        subst hco
        exact .inr ⟨rfl, fun hf => (hout _).mpr (.inr ⟨hf, rfl⟩)⟩
      · rw [AList.lookup_insert_ne heq] at hco
        rcases h.sessions session co hco with hw | ⟨hnone, hf⟩
        · exact .inl hw
        · exact .inr ⟨hnone, fun hfunc => (hout session).mpr (.inl (hf hfunc))⟩
    · intro session hs
      simp only [State.getSusped]
      rcases (hout session).mp hs with hold | ⟨hf, rfl⟩
      · obtain ⟨co, hco, hfunc⟩ := h.callbacks session hold
        exact ⟨co, lookup_insert_new hsession hco, hfunc⟩
      · exact ⟨_, AList.lookup_insert _, hf⟩
    · cases func with
      | false => exact h.once
      | true => exact List.nodup_cons.mpr ⟨fun hmem => hnew (List.mem_append.mp hmem), h.once⟩
    · intro w hw hs
      rcases (hout w.session).mp hs with hold | ⟨hf, heq⟩
      · exact h.apart w hw hold
      · exact hapart hf w hw heq

/-- **One step**: what the tables keep is kept, and the collector goes on seeing it. -/
theorem step_seen {e : Event} (h : Inv s) (hk : Kept s e) (hs : step s e = some s') :
    StepSeen s e s' ∧ Inv s' := by
  -- the steps in which no `doWait` returns
  have hother (hinv : Inv s') (hret : ∀ i, e ≠ .doReturn i) (hwait : e ≠ .doWait) :
      StepSeen s e s' ∧ Inv s' :=
    ⟨⟨seen_of_inv hinv, fun i _ he => absurd he (hret i), fun he => absurd he hwait⟩, hinv⟩
  cases e with
  | genEntryId =>
    obtain rfl := Option.some.inj hs
    exact hother (inv_same h rfl rfl rfl rfl rfl) (by simp) (by simp)
  | doWait =>
    obtain rfl := Option.some.inj hs
    obtain ⟨hinv, hne⟩ := inv_doWait h hk
    exact ⟨⟨seen_of_inv hinv, by simp, fun _ heq => absurd heq hne⟩, hinv⟩
  | doWakeup co =>
    obtain rfl := Option.some.inj hs
    refine hother ?_ (by simp) (by simp)
    unfold State.doWakeup
    split
    · exact h
    · exact inv_wakeup h _
  | doTimeout func =>
    obtain rfl := Option.some.inj hs
    exact hother (inv_doTimeout h hk) (by simp) (by simp)
  | resoue session =>
    obtain rfl := Option.some.inj hs
    exact hother (inv_resoueDispatch h hk) (by simp) (by simp)
  | timeout session =>
    obtain rfl := Option.some.inj hs
    exact hother (inv_timeoutDispatch h hk) (by simp) (by simp)
  | error session =>
    obtain rfl := Option.some.inj hs
    exact hother (inv_errorDispatch h hk) (by simp) (by simp)
  | resume i =>
    obtain ⟨w, -, -, rfl⟩ := step_resume.mp hs
    exact hother (inv_same h rfl rfl rfl rfl rfl) (by simp) (by simp)
  | doReturn i =>
    obtain ⟨w, hi, -, rfl⟩ := step_doReturn.mp hs
    have hinv := inv_doReturn h hi
    refine ⟨⟨seen_of_inv hinv, ?_, by simp⟩, hinv⟩
    intro j v hj hv
    obtain rfl : i = j := by simpa using hj
    obtain rfl : w = v := Option.some.inj (hi.symm.trans hv)
    refine ⟨?_, ?_⟩
    · intro hmem
      exact (AList.mem_erase.mp hmem).1 rfl
    · intro hmem
      exact (AList.mem_erase.mp hmem).1 rfl
  | callbackReturn session =>
    obtain ⟨hcall, rfl⟩ := step_callbackReturn.mp hs
    exact hother (inv_callbackReturn h hcall) (by simp) (by simp)

/-! ## Runs -/

/-- A new component is in order. -/
theorem inv_start (m_entryId : ℕ) : Inv (start m_entryId) where
  size := by
    show (0 : ℕ) < 2 ^ 32
    decide
  ids := List.nodup_nil
  sleeps := by simp [start]
  sessions := by simp [start, State.getSusped]
  callbacks := by simp [start, State.Outstanding]
  once := List.nodup_nil
  apart := by simp [start]

/-- **The collector sees every coroutine that waits.**  In every run whose steps all meet the
condition, after each step the tables are empty only with no coroutine in `doWait` and no callback
outstanding, and a `doWait` that returns leaves neither its session nor its id in them.
SOURCE: module/actorComponent.cc:29-181, 210-262, 342-364, module/actorGcc.cc:47-53 -/
theorem collector_sees_waiting (m_entryId : ℕ) (es : List Event)
    (hmeets : system.Meets Kept (start m_entryId) es) :
    system.Always StepSeen (start m_entryId) es := by
  refine System.always_of_meets (I := Inv) (g := Kept) ?_ (inv_start m_entryId) hmeets
  intro s e s' hinv hk hs
  exact step_seen hinv hk hs

/-- A coroutine waits and gets its response, while a timer is set and goes off.
SOURCE: module/actorComponent.cc:29-41, 43-53, 86-95, 210-295 -/
theorem collector_sees_waiting_response : system.Always StepSeen (start 7)
    [.doWait, .doTimeout true, .resoue 1, .resume 0, .doReturn 0, .timeout 2, .callbackReturn 2] :=
  collector_sees_waiting 7
    [.doWait, .doTimeout true, .resoue 1, .resume 0, .doReturn 0, .timeout 2, .callbackReturn 2]
    (by decide)

/-- An error for the session of a coroutine in `doWait`: both tables are empty, and the coroutine
has not run again.
SOURCE: module/actorComponent.cc:43-53 -/
theorem collector_misses_waiting :
    ¬ ∀ (m_entryId : ℕ) (es : List Event),
      system.Always StepSeen (start m_entryId) es := by
  intro hall
  have hseen := ((hall 0 [.doWait, .error 1] _ rfl).2 _ rfl).1.seen.empty (by decide)
  have hwait := hseen.1
  revert hwait
  decide

end MagicNet.Component
