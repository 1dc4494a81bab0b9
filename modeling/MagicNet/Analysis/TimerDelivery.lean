import MagicNet.Model.TimerDelivery

/-!
# A timer's function is called once

A timer is on its way while the clock has it or its message is in the mailbox (`inFlight`), and it is
not on its way any more when its function has been called.  What keeps the function in the table until
then is that the other sessions are different ones: those of the coroutines in `doWait`, whose return
takes an entry out, and those of the functions that are being called.  Only an answer that carries the
timer's own session takes it away.

SOURCE: module/actorComponent.cc:29-53, 69-79, 210-262, 342-364, module/actor.cc:97-114,
lualib/auto/luaCoreAuto.cc:90-131
-/

set_option autoImplicit false

namespace MagicNet.TimerDelivery

open MagicNet.Foundation MagicNet.Component

variable {s s' : State} {c c' : Component.State}

/-! ## Timers on their way -/

def Msg.timer : Msg → Option ℤ
  | .timeout session => some session
  | _ => none

/-- The sessions of the timers that have not gone off, and of the messages that have come of those
that have. -/
def State.inFlight (s : State) : List ℤ := s.armed ++ s.mailbox.filterMap Msg.timer

/-- A session is in flight as a timer or as its message. -/
theorem mem_inFlight {x : ℤ} : x ∈ s.inFlight ↔ x ∈ s.armed ∨ Msg.timeout x ∈ s.mailbox := by
  rw [State.inFlight, List.mem_append, List.mem_filterMap]
  refine or_congr Iff.rfl ⟨?_, fun hx => ⟨_, hx, rfl⟩⟩
  rintro ⟨msg, hmsg, hx⟩
  cases msg with
  | timeout session =>
    obtain rfl := Option.some.inj hx
    exact hmsg
  | _ => cases hx

/-- The sessions given out are the numbers of the calls; a timer is on its way or called, and not
both; and while it is on its way and has not been answered, its function is in the table. -/
structure Inv (s : State) : Prop where
  session : s.cpt.m_session = s.calls
  calls_lt : s.calls < 2 ^ 31
  keys_le : ∀ x co, s.cpt.getSusped x = some co → x ≤ s.calls
  inFlight_le : ∀ x ∈ s.inFlight, x ≤ s.calls
  set_le : ∀ x ∈ s.set, x ≤ s.calls
  set_nodup : s.set.Nodup
  once : (s.inFlight ++ s.called).Nodup
  waiting : ∀ w ∈ s.cpt.waiting, w.session ∉ s.set
  waiting_le : ∀ w ∈ s.cpt.waiting, w.session ≤ s.calls
  calling : ∀ x ∈ s.cpt.calling, x ∈ s.called
  called : ∀ x ∈ s.called, x ∈ s.set
  funcs : ∀ x co, s.cpt.getSusped x = some co → co._func = true → x ∈ s.set
  live : ∀ x ∈ s.set, x ∉ s.answered → x ∈ s.inFlight →
    ∃ co, s.cpt.getSusped x = some co ∧ co._func = true
  complete : ∀ x ∈ s.set, x ∉ s.answered → x ∈ s.inFlight ∨ x ∈ s.called

/-- At the start there are neither. -/
theorem inv_of_starts (h : Starts s) : Inv s := by
  obtain ⟨m_entryId, hcpt⟩ := h.cpt
  have hflight : s.inFlight = [] := by simp [State.inFlight, h.armed, h.mailbox]
  have hempty (x : ℤ) : s.cpt.getSusped x = none := by rw [hcpt]; rfl
  constructor <;> simp [hempty, hflight, h.set, h.called, h.calls] <;> simp [hcpt, start]

/-- The next session is new.
SOURCE: module/actorComponent.cc:69-79 -/
theorem Inv.next (h : Inv s) (hlt : s.calls + 1 < 2 ^ 31) :
    genSession s.cpt.m_session = s.calls + 1 := by
  have hbmod : Int.bmod ((s.calls : ℤ) + 1) (2 ^ 32) = s.calls + 1 := by
    rw [Int.bmod_def]
    omega
  rw [h.session, genSession, hbmod, if_neg (by omega)]

/-- The next session is waited for by nobody.
SOURCE: module/actorComponent.cc:69-79 -/
theorem Inv.fresh (h : Inv s) : s.cpt.getSusped (s.calls + 1) = none := by
  cases hget : s.cpt.getSusped (s.calls + 1) with
  | none => rfl
  | some co =>
    have hle := h.keys_le _ co hget
    omega

/-- What is on its way may be in another order. -/
theorem Inv.perm (h : Inv s) {armed : List ℤ} {mailbox : List Msg}
    (hp : ({ s with armed := armed, mailbox := mailbox } : State).inFlight.Perm s.inFlight) :
    Inv { s with armed := armed, mailbox := mailbox } :=
  { h with
    inFlight_le := fun x hx => h.inFlight_le x (hp.mem_iff.mp hx)
    once := (hp.append_right _).nodup_iff.mpr h.once
    live := fun x hx ha hf => h.live x hx ha (hp.mem_iff.mp hf)
    complete := fun x hx ha => (h.complete x hx ha).imp_left hp.mem_iff.mpr }

/-! ## What leaves the table -/

/-- Entries go, from some of the sessions, and nothing comes. -/
structure Removes (c c' : Component.State) (gone : ℤ → Prop) : Prop where
  session : c'.m_session = c.m_session
  waiting : ∀ w ∈ c'.waiting, w ∈ c.waiting
  calling : ∀ x ∈ c'.calling, x ∈ c.calling
  kept : ∀ x, ¬ gone x → c'.getSusped x = c.getSusped x
  sub : ∀ x co, c'.getSusped x = some co → c.getSusped x = some co

/-- Nothing is gone of a timer on its way, but what has been answered. -/
theorem Inv.removes (h : Inv s) {gone : ℤ → Prop} {answered : List ℤ} (hr : Removes s.cpt c gone)
    (hsub : ∀ x ∈ s.answered, x ∈ answered)
    (hgone : ∀ x ∈ s.set, x ∈ s.inFlight → gone x → x ∈ answered) :
    Inv { s with cpt := c, answered := answered } :=
  { h with
    session := hr.session.trans h.session
    keys_le := fun x co hx => h.keys_le x co (hr.sub x co hx)
    waiting := fun w hw => h.waiting w (hr.waiting w hw)
    waiting_le := fun w hw => h.waiting_le w (hr.waiting w hw)
    calling := fun x hx => h.calling x (hr.calling x hx)
    funcs := fun x co hx => h.funcs x co (hr.sub x co hx)
    live := fun x hx ha hf => by
      obtain ⟨co, hco, hfunc⟩ := h.live x hx (fun hin => ha (hsub x hin)) hf
      refine ⟨co, ?_, hfunc⟩
      rw [← hco]
      exact hr.kept x fun hg => ha (hgone x hx hf hg)
    complete := fun x hx ha => h.complete x hx fun hin => ha (hsub x hin) }

/-- What leaves the sessions removes none. -/
theorem Removes.of_eq (hs : c'.m_session = c.m_session)
    (ht : c'.m_suspedSession = c.m_suspedSession) (hw : c'.waiting = c.waiting)
    (hc : c'.calling = c.calling) : Removes c c' fun _ => False := by
  refine ⟨hs, fun w h => hw ▸ h, fun x h => hc ▸ h, fun x _ => ?_, fun x co h => ?_⟩
  · rw [Component.State.getSusped, ht]
    rfl
  · rwa [Component.State.getSusped, ht] at h

/-- The table of `c'` is that of `c` without one session. -/
theorem Removes.of_erase {session : ℤ} (hs : c'.m_session = c.m_session)
    (ht : c'.m_suspedSession = c.m_suspedSession.erase session)
    (hw : ∀ w ∈ c'.waiting, w ∈ c.waiting) (hc : ∀ x ∈ c'.calling, x ∈ c.calling) :
    Removes c c' fun x => x = session := by
  have hget (x : ℤ) (hx : x ≠ session) : c'.getSusped x = c.getSusped x := by
    rw [Component.State.getSusped, ht, AList.lookup_erase_ne hx]
    rfl
  refine ⟨hs, hw, hc, hget, fun x co h => ?_⟩
  by_cases hx : x = session
  · subst hx
    rw [Component.State.getSusped, ht, AList.lookup_erase] at h
    cases h
  · rwa [hget x hx] at h

/-- It is enough to bound what is removed. -/
theorem Removes.mono {gone gone' : ℤ → Prop} (h : Removes c c' gone)
    (hsub : ∀ x, gone x → gone' x) : Removes c c' gone' :=
  { h with kept := fun x hx => h.kept x fun hg => hx (hsub x hg) }

/-- Waking changes the phase only.
SOURCE: module/actorComponent.cc:55-65 -/
theorem wakeup_eq (c : Component.State) (entry : Option ℕ) :
    ∃ phase, c.wakeup entry = { c with phase := phase } := by
  cases entry with
  | none => exact ⟨c.phase, rfl⟩
  | some entry =>
    by_cases hblocked : c.phase entry = .blocked
    · exact ⟨Function.update c.phase entry .woken, if_pos hblocked⟩
    · exact ⟨c.phase, if_neg hblocked⟩

/-- A `RESOUE` message removes the entry of its own session. -/
theorem resoueDispatch_removes (c : Component.State) (session : ℤ) :
    Removes c (c.resoueDispatch session) fun x => x = session := by
  have hsame : Removes c c fun x => x = session :=
    (Removes.of_eq rfl rfl rfl rfl).mono fun _ => False.elim
  have herase (phase : ℕ → Phase) :
      Removes c { c.removeSusped session with phase := phase } fun x => x = session :=
    Removes.of_erase rfl rfl (fun _ => id) fun _ => id
  unfold Component.State.resoueDispatch
  split
  · exact hsame
  · split
    · exact herase c.phase
    · split
      · exact herase c.phase
      · rename_i entry _ _
        obtain ⟨phase, hphase⟩ := wakeup_eq (c.removeSusped session) (some entry)
        rw [hphase]
        exact herase phase

/-- So does an error.
SOURCE: module/actorComponent.cc:342-364 -/
theorem errorDispatch_removes (c : Component.State) (session : ℤ) :
    Removes c (c.errorDispatch session) fun x => x = session := by
  unfold Component.State.errorDispatch
  split
  · exact (Removes.of_eq rfl rfl rfl rfl).mono fun _ => False.elim
  · rename_i co _
    obtain ⟨phase, hphase⟩ :=
      wakeup_eq ((c.removeSleepSusped co._id).removeSusped session) co._entry
    rw [hphase]
    exact Removes.of_erase rfl rfl (fun _ => id) fun _ => id

/-- A wake-up removes none.
SOURCE: module/actorComponent.cc:55-65 -/
theorem doWakeup_removes (c : Component.State) (co : CoEntry) :
    Removes c (c.doWakeup co) fun _ => False := by
  unfold Component.State.doWakeup
  split
  · exact Removes.of_eq rfl rfl rfl rfl
  · obtain ⟨phase, hphase⟩ := wakeup_eq c co._entry
    rw [hphase]
    exact Removes.of_eq rfl rfl rfl rfl

/-! ## New entries -/

/-- A call takes the next session and enters it. -/
theorem Inv.insert (h : Inv s) (hlt : s.calls + 1 < 2 ^ 31) {co : CoEntry} (armed set : List ℤ)
    (hs : c.m_session = s.calls + 1)
    (ht : c.m_suspedSession = s.cpt.m_suspedSession.insert ((s.calls : ℤ) + 1) co)
    (hw : ∀ w ∈ c.waiting, w ∈ s.cpt.waiting ∨ w.session = s.calls + 1 ∧ co._func = false)
    (hc : c.calling = s.cpt.calling)
    (harmed : armed = s.armed ∨ armed = ((s.calls : ℤ) + 1) :: s.armed)
    (hfunc : co._func = true → armed = ((s.calls : ℤ) + 1) :: s.armed)
    (hset : set = if co._func then ((s.calls : ℤ) + 1) :: s.set else s.set) :
    Inv { s with cpt := c, calls := s.calls + 1, armed := armed, set := set } := by
  have hget (x : ℤ) (hx : x ≠ s.calls + 1) : c.getSusped x = s.cpt.getSusped x := by
    rw [Component.State.getSusped, ht, AList.lookup_insert_ne hx]
    rfl
  have hnew : c.getSusped (s.calls + 1) = some co := by
    rw [Component.State.getSusped, ht, AList.lookup_insert]
  have hcast : ((s.calls + 1 : ℕ) : ℤ) = s.calls + 1 := by push_cast; rfl
  have hnotset : ((s.calls : ℤ) + 1) ∉ s.set := fun hx => by
    have hle := h.set_le _ hx
    omega
  have hmem (x : ℤ) : x ∈ set ↔ x ∈ s.set ∨ x = s.calls + 1 ∧ co._func = true := by
    rw [hset]
    cases co._func <;> simp [or_comm]
  have hflight (x : ℤ) :
      x ∈ ({ s with cpt := c, calls := s.calls + 1, armed := armed, set := set } : State).inFlight ↔
        x ∈ s.inFlight ∨ x = s.calls + 1 ∧ armed = ((s.calls : ℤ) + 1) :: s.armed := by
    simp only [mem_inFlight]
    rcases harmed with rfl | rfl
    · simp
    · simp only [List.mem_cons, and_true]
      tauto
  have hle (x : ℤ) (hx : x ≤ s.calls) : x ≤ ((s.calls + 1 : ℕ) : ℤ) := by omega
  refine
    { session := hs.trans hcast.symm, calls_lt := hlt, keys_le := ?_, inFlight_le := ?_, set_le := ?_,
      set_nodup := ?_, once := ?_, waiting := ?_, waiting_le := ?_, calling := ?_, called := ?_,
      funcs := ?_, live := ?_, complete := ?_ }
  · intro x co' hx
    by_cases hn : x = s.calls + 1
    · exact hn.le.trans hcast.ge
    · exact hle x (h.keys_le x co' ((hget x hn).symm.trans hx))
  · intro x hx
    rcases (hflight x).mp hx with hx | ⟨rfl, -⟩
    · exact hle x (h.inFlight_le x hx)
    · exact hcast.ge
  · intro x hx
    rcases (hmem x).mp hx with hx | ⟨rfl, -⟩
    · exact hle x (h.set_le x hx)
    · exact hcast.ge
  · change set.Nodup
    rw [hset]
    split
    · exact List.nodup_cons.mpr ⟨hnotset, h.set_nodup⟩
    · exact h.set_nodup
  · rcases harmed with rfl | rfl
    · exact h.once
    · refine List.nodup_cons.mpr ⟨fun hx => ?_, h.once⟩
      rcases List.mem_append.mp hx with hx | hx
      · have hx' := h.inFlight_le _ hx
        omega
      · exact hnotset (h.called _ hx)
  · intro w hwin hx
    rcases hw w hwin with hold | ⟨hsession, hfalse⟩
    · rcases (hmem _).mp hx with hx | ⟨hx, -⟩
      · exact h.waiting w hold hx
      · have hwle := h.waiting_le w hold
        omega
    · rcases (hmem _).mp hx with hx | ⟨-, htrue⟩
      · exact hnotset (hsession ▸ hx)
      · rw [hfalse] at htrue
        cases htrue
  · intro w hwin
    rcases hw w hwin with hold | ⟨hsession, -⟩
    · exact hle _ (h.waiting_le w hold)
    · exact hsession.le.trans hcast.ge
  · intro x hx
    rw [hc] at hx
    exact h.calling x hx
  · exact fun x hx => (hmem x).mpr (.inl (h.called x hx))
  · intro x co' hx hco'
    by_cases hn : x = s.calls + 1
    · subst hn
      obtain rfl := Option.some.inj (hnew.symm.trans hx)
      exact (hmem _).mpr (.inr ⟨rfl, hco'⟩)
    · exact (hmem x).mpr (.inl (h.funcs x co' ((hget x hn).symm.trans hx) hco'))
  · intro x hx ha hf
    rcases (hmem x).mp hx with hold | ⟨rfl, htrue⟩
    · have hn : x ≠ s.calls + 1 := fun heq => hnotset (heq ▸ hold)
      have hf' : x ∈ s.inFlight := ((hflight x).mp hf).resolve_right fun hr => hn hr.1
      obtain ⟨co', hco', hfunc'⟩ := h.live x hold ha hf'
      exact ⟨co', (hget x hn).trans hco', hfunc'⟩
    · exact ⟨co, hnew, htrue⟩
  · intro x hx ha
    rcases (hmem x).mp hx with hold | ⟨rfl, htrue⟩
    · exact (h.complete x hold ha).imp_left fun hf => (hflight x).mpr (.inl hf)
    · exact .inl ((hflight _).mpr (.inr ⟨rfl, hfunc htrue⟩))

/-! ## The steps -/

/-- A wait takes a new session and keeps the invariant.
SOURCE: module/actorComponent.cc:43-53 -/
theorem doWait_inv (h : Inv s) (hlt : s.calls + 1 < 2 ^ 31) :
    Inv { s with cpt := s.cpt.doWait, calls := s.calls + 1 } := by
  have hfresh : s.cpt.m_suspedSession.lookup (genSession s.cpt.m_session) = none := by
    rw [h.next hlt]
    exact h.fresh
  have hwait : s.cpt.doWait.m_suspedSession = s.cpt.m_suspedSession.insert ((s.calls : ℤ) + 1)
      ⟨doGenEntryId s.cpt.m_entryId, some s.cpt.suspends, false⟩ ∧
      s.cpt.doWait.m_session = s.calls + 1 ∧ s.cpt.doWait.calling = s.cpt.calling ∧
      s.cpt.doWait.waiting = s.cpt.waiting ++
        [⟨s.calls + 1, doGenEntryId s.cpt.m_entryId, s.cpt.suspends⟩] := by
    simp [Component.State.doWait, Component.State.insertSusped, h.next hlt, hfresh,
      Component.State.insertSleepSusped]
  obtain ⟨ht, hs, hc, hw⟩ := hwait
  refine h.insert hlt s.armed s.set hs ht ?_ hc (.inl rfl) (fun hf => ?_) ?_
  · intro w hwin
    rw [hw] at hwin
    rcases List.mem_append.mp hwin with hold | hnew
    · exact .inl hold
    · obtain rfl := List.mem_singleton.mp hnew
      exact .inr ⟨rfl, rfl⟩
  · cases hf
  · rfl

/-- What a coroutine does itself keeps the invariant.
SOURCE: module/actorComponent.cc:43-53 -/
theorem coroutine_inv (h : Inv s) {e : Component.Event} (hlocal : Local e = true)
    (hcond : Cond s (.coroutine e)) {cpt : Component.State}
    (hs : Component.step s.cpt e = some cpt) :
    Inv { s with cpt := cpt, calls := if e = .doWait then s.calls + 1 else s.calls } := by
  have hremoves {gone : ℤ → Prop} (hne : e ≠ .doWait) (hr : Removes s.cpt cpt gone)
      (hgone : ∀ x ∈ s.set, x ∈ s.inFlight → gone x → x ∈ s.answered) :
      Inv { s with cpt := cpt, calls := if e = .doWait then s.calls + 1 else s.calls } := by
    rw [if_neg hne]
    exact h.removes hr (fun _ => id) hgone
  cases e with
  | doTimeout func => cases hlocal
  | resoue session => cases hlocal
  | timeout session => cases hlocal
  | error session => cases hlocal
  | genEntryId =>
    obtain rfl := Option.some.inj hs
    exact hremoves (by simp) (Removes.of_eq rfl rfl rfl rfl) fun _ _ _ => False.elim
  | doWait =>
    obtain rfl := Option.some.inj hs
    rw [if_pos rfl]
    exact doWait_inv h hcond
  | doWakeup co =>
    obtain rfl := Option.some.inj hs
    exact hremoves (by simp) (doWakeup_removes _ co) fun _ _ _ => False.elim
  | resume i =>
    obtain ⟨w, -, -, rfl⟩ := step_resume.mp hs
    exact hremoves (by simp) (Removes.of_eq rfl rfl rfl rfl) fun _ _ _ => False.elim
  | doReturn i =>
    obtain ⟨w, hw, -, rfl⟩ := step_doReturn.mp hs
    have hr : Removes s.cpt { s.cpt.afterYield w with waiting := s.cpt.waiting.eraseIdx i }
        fun x => x = w.session :=
      Removes.of_erase rfl rfl (fun v hv => List.mem_of_mem_eraseIdx hv) fun _ => id
    refine hremoves (by simp) hr ?_
    rintro x hx - rfl
    exact absurd hx (h.waiting w (List.mem_of_getElem? hw))
  | callbackReturn session =>
    obtain ⟨hin, rfl⟩ := step_callbackReturn.mp hs
    have hr : Removes s.cpt
        { s.cpt.removeSusped session with calling := s.cpt.calling.erase session }
        fun x => x = session :=
      Removes.of_erase rfl rfl (fun _ => id) fun x hx => List.mem_of_mem_erase hx
    refine hremoves (by simp) hr ?_
    rintro x - hf rfl
    -- the function has been called, so its timer is not on its way any more
    exact absurd rfl ((List.nodup_append.mp h.once).2.2 x hf x (h.calling x hin))

/-- A new timer takes a new session.
SOURCE: module/actorComponent.cc:29-41 -/
theorem doTimeout_inv (h : Inv s) {func : Bool} (hlt : s.calls + 1 < 2 ^ 31)
    (hs : step s (.doTimeout func) = some s') : Inv s' := by
  have hfresh := h.fresh
  have hlookup : s.cpt.m_suspedSession.lookup (genSession s.cpt.m_session) = none := by
    rw [h.next hlt]
    exact hfresh
  simp only [step, h.next hlt, hfresh, Option.some.injEq] at hs
  subst hs
  have hcpt : (s.cpt.doTimeout func).m_suspedSession =
        s.cpt.m_suspedSession.insert ((s.calls : ℤ) + 1) ⟨doGenEntryId s.cpt.m_entryId, none, func⟩ ∧
      (s.cpt.doTimeout func).m_session = s.calls + 1 ∧
      (s.cpt.doTimeout func).calling = s.cpt.calling ∧
      (s.cpt.doTimeout func).waiting = s.cpt.waiting := by
    simp [Component.State.doTimeout, Component.State.insertSusped, h.next hlt, hlookup]
  obtain ⟨ht, hsession, hc, hw⟩ := hcpt
  exact h.insert hlt _ _ hsession ht (fun w hwin => .inl (hw ▸ hwin)) hc (.inr rfl) (fun _ => rfl) rfl

/-- The message of a timer is dispatched: its function is called if it is in the table.
SOURCE: module/actorComponent.cc:210-295 -/
theorem timeout_inv (h : Inv s) {x : ℤ} {mailbox : List Msg}
    (hmail : s.mailbox = .timeout x :: mailbox) :
    Inv (dispatchMessage { s with mailbox := mailbox } (.timeout x)) := by
  set t : State := { s with mailbox := mailbox } with ht
  have hperm : s.inFlight.Perm (x :: t.inFlight) := by
    rw [State.inFlight, hmail]
    exact List.perm_middle
  have honce : (x :: (t.inFlight ++ s.called)).Nodup :=
    (hperm.append_right _).nodup_iff.mp h.once
  obtain ⟨hx, hrest⟩ := List.nodup_cons.mp honce
  have hsub (y : ℤ) (hy : y ∈ t.inFlight) : y ∈ s.inFlight :=
    hperm.mem_iff.mpr (List.mem_cons_of_mem x hy)
  have hin : x ∈ s.inFlight := hperm.mem_iff.mpr List.mem_cons_self
  by_cases hco : ∃ co ∈ s.cpt.getSusped x, co._func = true
  · obtain ⟨co, hget, hfunc⟩ := hco
    have hcpt : s.cpt.timeoutDispatch x =
        { s.cpt with timers := s.cpt.timers.erase x, calling := x :: s.cpt.calling } := by
      simp [Component.State.timeoutDispatch, Option.mem_def.mp hget, hfunc]
    have hstep : dispatchMessage t (.timeout x) = { t with
        cpt := { s.cpt with timers := s.cpt.timers.erase x, calling := x :: s.cpt.calling }
        called := s.called ++ [x] } := by
      have hif : ∃ co ∈ t.cpt.getSusped x, co._func = true := ⟨co, hget, hfunc⟩
      rw [dispatchMessage, if_pos hif]
      exact congrArg (fun c => { t with cpt := c, called := s.called ++ [x] }) hcpt
    rw [hstep]
    exact { h with
      inFlight_le := fun y hy => h.inFlight_le y (hsub y hy)
      once := by
        change (t.inFlight ++ (s.called ++ [x])).Nodup
        rw [← List.append_assoc]
        exact (List.perm_append_singleton x _).nodup_iff.mpr honce
      calling := fun y hy => by
        rcases List.mem_cons.mp hy with rfl | hy
        · simp
        · exact List.mem_append_left _ (h.calling y hy)
      called := fun y hy => by
        rcases List.mem_append.mp hy with hy | hy
        · exact h.called y hy
        · obtain rfl := List.mem_singleton.mp hy
          exact h.funcs y co hget hfunc
      live := fun y hy ha hf => h.live y hy ha (hsub y hf)
      complete := fun y hy ha => by
        rcases h.complete y hy ha with hf | hc
        · rcases List.mem_cons.mp (hperm.mem_iff.mp hf) with rfl | hf
          · exact .inr (by simp)
          · exact .inl hf
        · exact .inr (List.mem_append_left _ hc) }
  · have hcpt : s.cpt.timeoutDispatch x = s.cpt := by
      unfold Component.State.timeoutDispatch
      cases hget : s.cpt.getSusped x with
      | none => rfl
      | some co =>
        have hfunc : co._func ≠ true := fun hf => hco ⟨co, hget, hf⟩
        simp [hfunc]
    have hstep : dispatchMessage t (.timeout x) = t := by
      have hif : ¬ ∃ co ∈ t.cpt.getSusped x, co._func = true := hco
      rw [dispatchMessage, if_neg hif]
      exact congrArg (fun c => { t with cpt := c }) hcpt
    rw [hstep]
    exact { h with
      inFlight_le := fun y hy => h.inFlight_le y (hsub y hy)
      once := hrest
      live := fun y hy ha hf => h.live y hy ha (hsub y hf)
      complete := fun y hy ha => by
        rcases h.complete y hy ha with hf | hc
        · rcases List.mem_cons.mp (hperm.mem_iff.mp hf) with rfl | hf
          · exact absurd (h.live y hy ha hin) hco
          · exact .inl hf
        · exact .inr hc }

/-- A message that is not a timer's leaves or joins the mailbox. -/
theorem Inv.mailbox (h : Inv s) {mailbox : List Msg}
    (hm : mailbox.filterMap Msg.timer = s.mailbox.filterMap Msg.timer) :
    Inv { s with mailbox := mailbox } := by
  refine Inv.perm h (List.Perm.of_eq ?_)
  rw [State.inFlight, State.inFlight, hm]

/-- Every step within the condition keeps it. -/
theorem step_inv (s : State) (e : Event) (s' : State) (h : Inv s) (hcond : Cond s e)
    (hs : step s e = some s') : Inv s' := by
  cases e with
  | coroutine e =>
    simp only [step, Option.ite_none_right_eq_some, Option.map_eq_some_iff] at hs
    obtain ⟨hlocal, cpt, hcpt, rfl⟩ := hs
    exact coroutine_inv h hlocal hcond hcpt
  | doTimeout func => exact doTimeout_inv h hcond hs
  | fire x =>
    simp only [step, Option.ite_none_right_eq_some, Option.some.injEq] at hs
    obtain ⟨hx, rfl⟩ := hs
    apply h.perm
    rw [State.inFlight, State.inFlight, List.filterMap_append]
    -- the session moves from the front to the end
    have hend : (s.armed.erase x ++ (s.mailbox.filterMap Msg.timer ++ [x])).Perm
        (x :: (s.armed.erase x ++ s.mailbox.filterMap Msg.timer)) := by
      rw [← List.append_assoc]
      exact List.perm_append_singleton _ _
    exact hend.trans ((List.perm_cons_erase hx).symm.append_right _)
  | doSendMessage msg =>
    cases msg with
    | timeout x => exact hcond.elim
    | resoue x =>
      obtain rfl := Option.some.inj hs
      exact h.mailbox (by simp [Msg.timer])
    | error x =>
      obtain rfl := Option.some.inj hs
      exact h.mailbox (by simp [Msg.timer])
    | other =>
      obtain rfl := Option.some.inj hs
      exact h.mailbox (by simp [Msg.timer])
  | dispatch =>
    cases hmail : s.mailbox with
    | nil => simp [step, hmail] at hs
    | cons msg mailbox =>
      simp only [step, hmail, Option.some.injEq] at hs
      subst hs
      have hpop (htimer : msg.timer = none) : Inv { s with mailbox := mailbox } :=
        h.mailbox (by rw [hmail, List.filterMap_cons_none htimer])
      cases msg with
      | timeout x => exact timeout_inv h hmail
      | resoue x =>
        refine (hpop rfl).removes (resoueDispatch_removes s.cpt x)
          (fun y hy => List.mem_cons_of_mem x hy) ?_
        rintro y - - rfl
        exact List.mem_cons_self
      | error x =>
        refine (hpop rfl).removes (errorDispatch_removes s.cpt x)
          (fun y hy => List.mem_cons_of_mem x hy) ?_
        rintro y - - rfl
        exact List.mem_cons_self
      | other => exact hpop rfl

/-! ## Runs -/

/-- The functions that were given to timers and those that have been called: none is called twice, or
while its timer is with the clock or its message in the mailbox; one that has not been answered is
called once its message has been dispatched, and is in the table until then. -/
structure Delivered (s : State) : Prop where
  atMostOnce : s.called.Nodup
  fired : ∀ x ∈ s.called, x ∈ s.set ∧ x ∉ s.armed ∧ Msg.timeout x ∉ s.mailbox
  complete : ∀ x ∈ s.set, x ∉ s.answered →
    x ∈ s.armed ∨ Msg.timeout x ∈ s.mailbox ∨ x ∈ s.called
  kept : ∀ x ∈ s.set, x ∉ s.answered → x ∈ s.armed ∨ Msg.timeout x ∈ s.mailbox →
    x ∈ s.cpt.m_suspedSession

/-- Then what has been delivered is in order. -/
theorem Inv.delivered (h : Inv s) : Delivered s where
  atMostOnce := (List.nodup_append.mp h.once).2.1
  fired x hx := by
    have hnot : x ∉ s.inFlight := fun hf => (List.nodup_append.mp h.once).2.2 x hf x hx rfl
    rw [mem_inFlight, not_or] at hnot
    exact ⟨h.called x hx, hnot⟩
  complete x hx ha := by
    rw [← or_assoc, ← mem_inFlight]
    exact h.complete x hx ha
  kept x hx ha hf := by
    obtain ⟨co, hco, -⟩ := h.live x hx ha (mem_inFlight.mpr hf)
    rw [← AList.lookup_isSome]
    exact Option.isSome_iff_exists.mpr ⟨co, hco⟩

/-- In every run of a component in which less than 2^31 sessions are given out and no other actor sends
an `M_ID_TIMEOUT`, with its coroutines waiting, being woken and returning and other messages of other
actors coming in any order, the function of a timer is called once at most, after its timer has gone
off and its message has been dispatched, and exactly once where no answer has come for its session.
SOURCE: module/actorComponent.cc:29-53, 69-79, 210-262, 342-364, module/actor.cc:97-114,
lualib/auto/luaCoreAuto.cc:90-131 -/
theorem timer_delivered (s : State) (h : system.Via Cond s) : Delivered s :=
  (h.invariant (I := Inv) (fun _ h0 => inv_of_starts h0) step_inv).delivered

/-- A timer is set, a coroutine waits for an answer, the timer goes off, and the answer is dispatched
before its message. -/
theorem timer_delivered_once : ∃ s, system.Via Cond s ∧ s.called = [1] ∧ Delivered s := by
  have h0 : system.init ⟨Component.start 0, 0, [], [], [], [], []⟩ :=
    ⟨⟨0, rfl⟩, rfl, rfl, rfl, rfl, rfl, rfl⟩
  obtain ⟨s, hvia, hcalled⟩ := System.exists_via (g := Cond)
    [.doTimeout true, .coroutine .doWait, .doSendMessage (.resoue 2), .fire 1, .dispatch, .dispatch,
      .coroutine (.callbackReturn 1)]
    (fun s => s.called = [1]) h0 (by decide +kernel) (by decide +kernel)
  exact ⟨s, hvia, of_decide_eq_true hcalled, timer_delivered s hvia⟩

/-- With an `M_ID_TIMEOUT` of another actor the function is called while its timer is with the
clock. -/
example :
    (system.run ⟨Component.start 0, 0, [], [], [], [], []⟩
      [.doTimeout true, .doSendMessage (.timeout 1), .dispatch]).map (fun s => (s.called, s.armed)) =
        some ([1], [1]) := by
  decide +kernel

end MagicNet.TimerDelivery
