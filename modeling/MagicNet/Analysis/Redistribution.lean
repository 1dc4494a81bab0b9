import MagicNet.Analysis.IdleBalance
import MagicNet.Model.Redistribution

/-!
# Who gets the stolen tasks

The targets are the least loaded workers of a map that was made before the thefts, and of all
workers: a busy worker with little to do gets stolen tasks like any other.  Of the range as many
workers as there are tasks get some, all where there are more tasks than workers.  And a worker that
gets tasks is entered in the new map twice, when it gets them and after all have been handed out.
-/

set_option autoImplicit false

namespace MagicNet.Dispatcher

open MagicNet.Foundation MagicNet.Util
open MagicNet.Worker (Place Sound Ended)

variable {s s' s₁ s₂ : State} {r : Reads} {range it : List (ℕ × ℕ)} {kv : ℕ × ℕ} {avg : ℕ}

/-! ## The steps of the workers -/

/-- What the steps of the workers leave to the dispatcher. -/
structure Elsewhere (s s' : State) : Prop where
  pc : s'.pc = s.pc
  busyings : s'.busyings = s.busyings
  loadMaps : s'.loadMaps = s.loadMaps
  newLoadMaps : s'.newLoadMaps = s.newLoadMaps
  tasks : s'.items .tasks = s.items .tasks

/-- Only the dispatcher changes what the dispatcher keeps for itself.
SOURCE: operation/scheduler.cc:103-201 -/
theorem elsewhere_of_step {e : Event} (h : Inv s) (hs : step s e = some s')
    (he : ∀ r, e ≠ .dispatch r) : Elsewhere s s' := by
  cases e with
  | work e =>
    have hs : work s e = some s' := hs
    cases hstep : Worker.step s.workers e with
    | none =>
      rw [work_none h.sound hstep] at hs
      cases hs
    | some a =>
      have hdisp : ¬ IsDispatcher e := by
        intro he
        cases e <;> first | exact he | cases hs
      obtain ⟨t, ht, hresult⟩ := work_result h.shape h.sound h.settled hdisp hstep
      obtain rfl : t = s' := Option.some.inj (ht.symm.trans hs)
      obtain ⟨htasks, -, -⟩ := work_frame hdisp hstep h.settled
      rw [← hresult.workers] at htasks
      exact ⟨hresult.pc, hresult.busyings, hresult.loadMaps, hresult.newLoadMaps, htasks⟩
  | collect tk prev next =>
    simp only [step, Option.ite_none_right_eq_some, Option.some.injEq] at hs
    obtain ⟨hdone, rfl⟩ := hs
    exact ⟨rfl, rfl, rfl, rfl, congrFun (h.collect hdone).items_eq .tasks⟩
  | dispatch r => exact absurd rfl (he r)

/-! ## The steps that hand tasks out -/

/-- A round of the loop over the range, while tasks are left.
SOURCE: operation/worker.cc:21-29, 31-39, operation/scheduler.cc:103-201 -/
theorem share_moves (h : Inv s) (hpc : s.pc = .share .busy range (kv :: it) avg) (havg : 0 < avg)
    (htasks : s.items .tasks ≠ []) (hs : dispatch s r = some s') :
    s'.pc = .share .busy range it avg ∧ s'.items .tasks = (s.items .tasks).drop avg ∧
      s'.items (.m_newQueue kv.2) = s.items (.m_newQueue kv.2) ++ (s.items .tasks).take avg := by
  obtain ⟨-, hit⟩ := h.fits hpc
  have hw : kv.2 < s.works := hit kv List.mem_cons_self
  have hexclusive := h.shape.exclusive
  obtain ⟨mem₁, tasks, in_, mem₂, q, hcut, hin, hpush, -, hrest, hq, -, -⟩ :=
    Ends.cut_push (n := avg) (h.shape.exact (p := .tasks) (by simp))
      (h.shape.exact (p := .m_newQueue kv.2) (by simp)) (hexclusive.nodup _) (hexclusive.nodup _)
      (fun b hb hb' => by cases hexclusive.unique hb hb')
  have hsome : in_.m_head ≠ none := by
    intro hempty
    have htake := hin.empty.mp hempty
    rcases List.take_eq_nil_iff.mp htake with hzero | hnil
    · omega
    · exact htasks hnil
  simp only [dispatch, hpc, share, hcut, Option.bind_eq_bind, Option.bind_some, if_neg hsome,
    m_works_eq hw, hpush] at hs
  cases hs
  refine ⟨rfl, ?_, ?_⟩
  · refine Eq.trans ?_ hrest.toHolds.items_eq
    simp [State.items, State.setEnds]
  · refine Eq.trans ?_ hq.toHolds.items_eq
    simp [State.items, State.setEnds]

/-- The queue of a worker whose ends the dispatcher has left alone.
SOURCE: operation/scheduler.cc:103-201 -/
theorem newQueue_kept {v : ℕ} (h : Inv s) (hs : dispatch s r = some s')
    (hends : s'.ends (.m_newQueue v) = s.ends (.m_newQueue v)) :
    s'.items (.m_newQueue v) = s.items (.m_newQueue v) := by
  obtain ⟨t, ht, hserved⟩ := dispatch_served h r
  obtain rfl : t = s' := Option.some.inj (ht.symm.trans hs)
  exact hserved.items_eq h (by simp) hends

/-- No worker or no task is left, and nothing is added.
SOURCE: operation/worker.cc:21-29, 31-39, operation/scheduler.cc:103-201 -/
theorem share_ends (h : Inv s) (hpc : s.pc = .share .busy range it avg)
    (hnone : it = [] ∨ s.items .tasks = []) (hs : dispatch s r = some s') :
    s'.pc = .leftover .busy range ∧ s'.items .tasks = s.items .tasks ∧
      ∀ v, s'.items (.m_newQueue v) = s.items (.m_newQueue v) := by
  cases it with
  | nil =>
    simp only [dispatch, hpc, share] at hs
    cases hs
    exact ⟨rfl, rfl, fun _ => rfl⟩
  | cons kv it =>
    have hnil : s.items .tasks = [] := hnone.resolve_left (List.cons_ne_nil kv it)
    have hlocal := h.shape.exact (p := .tasks) (by simp)
    obtain ⟨mem, tasks, in_, hcut, hrest, hin, -⟩ :=
      Ends.cut_exact (n := avg) hlocal (h.shape.exclusive.nodup _)
    rw [hnil, List.take_nil] at hin
    rw [hnil, List.drop_nil] at hrest
    have hnew : ∀ v, s'.ends (.m_newQueue v) = s.ends (.m_newQueue v) ∧
        s'.pc = .leftover .busy range ∧ s'.items .tasks = [] := by
      intro v
      have hdispatch := hs
      simp only [dispatch, hpc, share, hcut, Option.bind_eq_bind, Option.bind_some,
        if_pos (hin.empty.mpr rfl), hin.toHolds.destroy] at hdispatch
      cases hdispatch
      refine ⟨by simp [State.setEnds], rfl, ?_⟩
      refine Eq.trans ?_ hrest.toHolds.items_eq
      simp [State.items, State.setEnds]
    refine ⟨(hnew 0).2.1, ?_, fun v => newQueue_kept h hs (hnew v).1⟩
    rw [hnil]
    exact (hnew 0).2.2

/-- What is left over goes to the first worker of the range.
SOURCE: operation/scheduler.cc:103-201 -/
theorem leftover_moves (h : Inv s) (hpc : s.pc = .leftover .busy range)
    (hs : dispatch s r = some s') : s'.pc = .reload range ∧
      ∀ kv, range.head? = some kv →
        s'.items (.m_newQueue kv.2) = s.items (.m_newQueue kv.2) ++ s.items .tasks := by
  obtain ⟨-, hknown⟩ := h.fits hpc
  have hlocal := h.shape.exact (p := .tasks) (by simp)
  have hgo : s'.pc = .reload range := by
    simp only [dispatch, hpc, Option.bind_eq_bind, Option.bind_eq_some_iff] at hs
    obtain ⟨t, -, hs⟩ := hs
    cases hs
    rfl
  refine ⟨hgo, fun kv hkv => ?_⟩
  by_cases hempty : (s.ends .tasks).m_head = none
  · rw [hlocal.empty.mp hempty, List.append_nil]
    apply newQueue_kept h hs
    simp only [dispatch, hpc, addLeftover, if_pos hempty, Option.bind_eq_bind,
      Option.bind_some] at hs
    cases hs
    rfl
  · have hw : kv.2 < s.works := hknown kv (List.mem_of_mem_head? hkv)
    obtain ⟨mem, q, hpush, hq, -⟩ :=
      Ends.pushListUnlock_exact (h.shape.exact (p := .m_newQueue kv.2) (by simp)) hlocal
        (nodup_append h.shape.exclusive (by simp))
    simp only [dispatch, hpc, addLeftover, if_neg hempty, hkv, m_works_eq hw, hpush,
      Option.bind_eq_bind, Option.bind_some] at hs
    cases hs
    refine Eq.trans ?_ hq.toHolds.items_eq
    simp [State.items, State.setEnds]

/-! ## The workers that get tasks -/

/-- Those of a range that get some of `n` tasks, each up to `avg`. -/
def receivers (avg : ℕ) : List (ℕ × ℕ) → ℕ → List ℕ
  | [], _ => []
  | kv :: it, n => if n = 0 then [] else kv.2 :: receivers avg it (n - avg)

/-- What is left over of `n` tasks goes to the first worker of the range. -/
def remainder (range : List (ℕ × ℕ)) (n : ℕ) : List ℕ :=
  if n = 0 then [] else (range.head?.map Prod.snd).toList

/-- The workers that still get some of the stolen tasks. -/
def State.receivers (s : State) : List ℕ :=
  let n := (s.items .tasks).length
  match s.pc with
  | .busyings [] =>
    let avg := (average n s.loadMaps.least.length).getD 0
    Dispatcher.receivers avg s.loadMaps.least n ++
      remainder s.loadMaps.least (n - avg * s.loadMaps.least.length)
  | .share .busy range it avg =>
    Dispatcher.receivers avg it n ++ remainder range (n - avg * it.length)
  | .leftover .busy range => remainder range n
  | _ => []

/-- Without tasks nobody gets any. -/
theorem receivers_zero (avg : ℕ) (range : List (ℕ × ℕ)) : receivers avg range 0 = [] := by
  cases range <;> rfl

/-- One task for each, as long as there are some. -/
theorem receivers_one (range : List (ℕ × ℕ)) (n : ℕ) :
    receivers 1 range n = (range.take n).map Prod.snd := by
  induction range generalizing n with
  | nil => simp [receivers]
  | cons kv range ih =>
    cases n with
    | zero => simp [receivers]
    | succ n => simp [receivers, ih]

/-- There is enough for all. -/
theorem receivers_all (havg : 0 < avg) (range : List (ℕ × ℕ)) (n : ℕ)
    (hn : avg * range.length ≤ n) : receivers avg range n = range.map Prod.snd := by
  induction range generalizing n with
  | nil => rfl
  | cons kv range ih =>
    rw [List.length_cons, Nat.mul_succ] at hn
    have hpos : n ≠ 0 := by omega
    rw [receivers, if_neg hpos, ih (n - avg) (by omega), List.map_cons]

/-- The share of a worker is not 0.
SOURCE: operation/scheduler.cc:103-219 -/
theorem average_pos {n len : ℕ} (h : average n len = some avg) : 0 < avg := by
  unfold average at h
  split at h
  · cases h
  · rw [Option.some.injEq] at h
    split at h
    · omega
    · next hne => exact h ▸ Nat.pos_of_ne_zero hne

/-- **Who gets tasks**: as many of the range, from its front, as there are tasks. -/
theorem mem_receivers (hne : range ≠ []) {n v : ℕ} (havg : average n range.length = some avg) :
    v ∈ receivers avg range n ++ remainder range (n - avg * range.length) ↔
      v ∈ (range.take n).map Prod.snd := by
  have hlen : 0 < range.length := List.length_pos_iff.mpr hne
  simp only [average, if_neg hlen.ne', Option.some.injEq] at havg
  by_cases hless : n < range.length
  · rw [if_pos (Nat.div_eq_of_lt hless)] at havg
    subst havg
    have hnone : n - 1 * range.length = 0 := by omega
    rw [receivers_one, hnone, remainder, if_pos rfl, List.append_nil]
  · have hge : range.length ≤ n := not_lt.mp hless
    have hpos : 0 < n / range.length := Nat.div_pos hge hlen
    rw [if_neg hpos.ne'] at havg
    subst havg
    rw [receivers_all hpos range n (Nat.div_mul_le_self n _), List.take_of_length_le hge,
      List.mem_append]
    refine or_iff_left_of_imp fun hfirst => ?_
    unfold remainder at hfirst
    split at hfirst
    · cases hfirst
    · obtain ⟨kv, rest, rfl⟩ := List.exists_cons_of_ne_nil hne
      obtain rfl : v = kv.2 := by simpa using hfirst
      simp

/-! ## The steps of the phase -/

/-- Between the thefts and the second half. -/
def Pc.Sharing : Pc → Prop
  | .busyings [] | .leftover .busy _ | .reload _ | .balance => True
  | .share .busy _ _ avg => 0 < avg
  | _ => False

/-- The last tasks are handed out without a change of the busy workers.
SOURCE: operation/scheduler.cc:103-219 -/
theorem addLeftover_busyings (hs : addLeftover s range = some s') : s'.busyings = s.busyings := by
  unfold addLeftover at hs
  split at hs
  · cases hs
    rfl
  · simp only [Option.bind_eq_bind, Option.bind_eq_some_iff] at hs
    obtain ⟨kv, -, w, -, y, -, hs⟩ := hs
    cases hs
    rfl

/-- Who was found busy does not change any more.
SOURCE: operation/scheduler.cc:103-201 -/
theorem dispatch_busyings (hsharing : s.pc.Sharing) (hpc : s.pc ≠ .balance)
    (hs : dispatch s r = some s') : s'.busyings = s.busyings := by
  unfold Pc.Sharing at hsharing
  split at hsharing
  · next heq =>
    simp only [dispatch, heq, leave, Option.bind_eq_bind] at hs
    split at hs <;> obtain ⟨u, -, hs⟩ := Option.bind_eq_some_iff.mp hs <;> cases hs <;> rfl
  · next range heq =>
    simp only [dispatch, heq, Option.bind_eq_bind, Option.bind_eq_some_iff] at hs
    obtain ⟨t, ht, hs⟩ := hs
    cases hs
    have hbusyings : t.busyings = s.busyings := addLeftover_busyings ht
    exact hbusyings
  · next it heq =>
    cases it with
    | nil =>
      simp only [dispatch, heq, leave, Option.bind_eq_bind, Option.bind_eq_some_iff] at hs
      obtain ⟨u, -, hs⟩ := hs
      cases hs
      rfl
    | cons kv it =>
      simp only [dispatch, heq, Option.bind_eq_bind, Option.bind_eq_some_iff] at hs
      obtain ⟨w, -, hs⟩ := hs
      cases hs
      rfl
  · next heq => exact absurd heq hpc
  · next range it avg heq =>
    cases it with
    | nil =>
      simp only [dispatch, heq, share] at hs
      cases hs
      rfl
    | cons kv it =>
      simp only [dispatch, heq, share, Option.bind_eq_bind, Option.bind_eq_some_iff] at hs
      obtain ⟨x, -, hs⟩ := hs
      split at hs
      · obtain ⟨u, -, hs⟩ := Option.bind_eq_some_iff.mp hs
        cases hs
        rfl
      · simp only [Option.bind_eq_some_iff] at hs
        obtain ⟨w, -, y, -, u, -, hs⟩ := hs
        cases hs
        rfl
  · exact hsharing.elim

/-- Nobody in the list was found busy. -/
def State.Rested (s : State) (ws : List ℕ) : Prop := ∀ v ∈ ws, v ∉ s.busyings.map Prod.fst

/-- A queue that has got tasks is not as before.
SOURCE: operation/scheduler.cc:103-201 -/
theorem keepsOut_iff {w : ℕ} {added : List ℕ} (hhands : s.pc.handsOut = true) (hadded : added ≠ [])
    (hw : s'.items (.m_newQueue w) = s.items (.m_newQueue w) ++ added)
    (hothers : ∀ v, v ≠ w → s'.items (.m_newQueue v) = s.items (.m_newQueue v)) :
    KeepsOut s (.dispatch r) s' ↔ w ∉ s.busyings.map Prod.fst := by
  constructor
  · intro hkeeps hbusy
    obtain ⟨kv, hkv, rfl⟩ := List.mem_map.mp hbusy
    have hsame := hkeeps r rfl hhands kv hkv
    rw [hw, List.append_right_eq_self] at hsame
    exact hadded hsame
  · intro hfree r' _ _ kv hkv
    apply hothers
    rintro rfl
    exact hfree (List.mem_map_of_mem hkv)

/-- A step that hands nothing to a worker.
SOURCE: operation/scheduler.cc:103-201 -/
theorem keepsOut_of_same (hsame : ∀ v, s'.items (.m_newQueue v) = s.items (.m_newQueue v)) :
    KeepsOut s (.dispatch r) s' := fun _ _ _ kv _ => hsame kv.1

/-- A step that hands nothing out gives no busy worker anything. -/
theorem keepsOut_of_pc {e : Event} (hpc : s.pc.handsOut = false) : KeepsOut s e s' :=
  fun _ _ hhands => absurd hhands (by simp [hpc])

/-- Nobody gets tasks, and the step hands none. -/
theorem keepsOut_none {e : Event} (hkeeps : KeepsOut s e s') (hafter : s'.receivers = s.receivers) :
    KeepsOut s e s' ∧ s.Rested s'.receivers ↔ s.Rested s.receivers := by
  rw [hafter]
  exact and_iff_right hkeeps

/-- Nor does the step after the last theft, which only finds the range.
SOURCE: operation/scheduler.cc:103-201 -/
theorem taken_keepsOut (h : Inv s) (hpc : s.pc = .busyings []) (hs : dispatch s r = some s') :
    s'.pc.Sharing ∧
      (KeepsOut s (.dispatch r) s' ∧ s.Rested s'.receivers ↔ s.Rested s.receivers) := by
  have hlocal := h.shape.exact (p := .tasks) (by simp)
  have hkeeps : KeepsOut s (.dispatch r) s' := keepsOut_of_pc (by rw [hpc]; rfl)
  simp only [dispatch, hpc, leave, Option.bind_eq_bind] at hs
  split at hs
  · next hempty =>
    obtain ⟨u, -, hs⟩ := Option.bind_eq_some_iff.mp hs
    cases hs
    refine ⟨trivial, keepsOut_none hkeeps ?_⟩
    simp [State.receivers, hpc, hlocal.empty.mp hempty, receivers_zero, remainder]
  · obtain ⟨avg, havg, hs⟩ := Option.bind_eq_some_iff.mp hs
    cases hs
    rw [hlocal.count] at havg
    refine ⟨average_pos havg, keepsOut_none hkeeps ?_⟩
    simp only [State.receivers, hpc, havg, Option.getD_some]
    rfl

/-- The last tasks go to a busy worker only where one is among the receivers.
SOURCE: operation/scheduler.cc:103-201 -/
theorem leftover_keepsOut (h : Inv s) (hpc : s.pc = .leftover .busy range)
    (hs : dispatch s r = some s') : s'.pc.Sharing ∧
      (KeepsOut s (.dispatch r) s' ∧ s.Rested s'.receivers ↔ s.Rested s.receivers) := by
  obtain ⟨hgo, hfirst⟩ := leftover_moves h hpc hs
  have hafter : s'.receivers = [] := by simp [State.receivers, hgo]
  have hbefore : s.receivers = remainder range (s.items .tasks).length := by
    simp [State.receivers, hpc]
  obtain ⟨kv, rest, rfl⟩ := List.exists_cons_of_ne_nil (h.fits hpc).1
  have hothers : ∀ v, v ≠ kv.2 → s'.items (.m_newQueue v) = s.items (.m_newQueue v) := by
    intro v hv
    apply newQueue_kept h hs
    apply ((dispatch_goes hs).2 v _).1
    simpa [hpc, Pc.written] using Ne.symm hv
  have hmoved := hfirst kv rfl
  refine ⟨hgo ▸ trivial, ?_⟩
  by_cases hnone : s.items .tasks = []
  · rw [hnone, List.append_nil] at hmoved
    refine keepsOut_none (keepsOut_of_same fun v => ?_) ?_
    · by_cases hv : v = kv.2
      · rw [hv, hmoved]
      · exact hothers v hv
    · rw [hafter, hbefore, hnone]
      rfl
  · have hlen : (s.items .tasks).length ≠ 0 := by simpa using hnone
    rw [keepsOut_iff (by rw [hpc]; rfl) hnone hmoved hothers, hafter, hbefore, remainder,
      if_neg hlen]
    simp [State.Rested]

/-- So does a worker's share.
SOURCE: operation/scheduler.cc:103-219 -/
theorem share_keepsOut (h : Inv s) (hpc : s.pc = .share .busy range it avg) (havg : 0 < avg)
    (hs : dispatch s r = some s') : s'.pc.Sharing ∧
      (KeepsOut s (.dispatch r) s' ∧ s.Rested s'.receivers ↔ s.Rested s.receivers) := by
  have hbefore : s.receivers = receivers avg it (s.items .tasks).length ++
      remainder range ((s.items .tasks).length - avg * it.length) := by
    simp [State.receivers, hpc]
  by_cases hnone : it = [] ∨ s.items .tasks = []
  · obtain ⟨hgo, htasks, hsame⟩ := share_ends h hpc hnone hs
    have hafter : s'.receivers = remainder range (s.items .tasks).length := by
      simp [State.receivers, hgo, htasks]
    refine ⟨hgo ▸ trivial, keepsOut_none (keepsOut_of_same hsame) ?_⟩
    rw [hafter, hbefore]
    rcases hnone with rfl | hnil
    · simp [receivers]
    · simp [hnil, receivers_zero]
  · obtain ⟨hne, hsome⟩ := not_or.mp hnone
    obtain ⟨kv, it, rfl⟩ := List.exists_cons_of_ne_nil hne
    obtain ⟨hgo, htasks, hmoved⟩ := share_moves h hpc havg hsome hs
    have hothers : ∀ v, v ≠ kv.2 → s'.items (.m_newQueue v) = s.items (.m_newQueue v) := by
      intro v hv
      apply newQueue_kept h hs
      apply ((dispatch_goes hs).2 v _).1
      simpa [hpc, Pc.written] using Ne.symm hv
    have htake : (s.items .tasks).take avg ≠ [] := by
      rw [Ne, List.take_eq_nil_iff]
      rintro (hzero | hnil)
      · omega
      · exact hsome hnil
    have hlen : (s.items .tasks).length ≠ 0 := by simpa using hsome
    have hafter : s.receivers = kv.2 :: s'.receivers := by
      rw [hbefore, receivers, if_neg hlen, List.cons_append]
      simp only [State.receivers, hgo, htasks, List.length_drop, List.length_cons]
      rw [Nat.mul_succ, Nat.sub_sub, Nat.add_comm]
    refine ⟨hgo ▸ havg, ?_⟩
    rw [keepsOut_iff (by rw [hpc]; rfl) htake hmoved hothers, hafter]
    simp [State.Rested]

/-- **Each step of the phase** hands tasks to the next of those that get some, or to nobody.
SOURCE: operation/scheduler.cc:103-201 -/
theorem dispatch_keepsOut (h : Inv s) (hsharing : s.pc.Sharing) (hpc : s.pc ≠ .balance)
    (hs : dispatch s r = some s') : s'.pc.Sharing ∧
      (KeepsOut s (.dispatch r) s' ∧ s.Rested s'.receivers ↔ s.Rested s.receivers) := by
  unfold Pc.Sharing at hsharing
  split at hsharing
  · next heq => exact taken_keepsOut h heq hs
  · next range heq => exact leftover_keepsOut h heq hs
  · next it heq =>
    have hkeeps : KeepsOut s (.dispatch r) s' := keepsOut_of_pc (by rw [heq]; rfl)
    have hgo : s'.pc = .balance ∨ ∃ it', s'.pc = .reload it' := by
      cases it with
      | nil =>
        simp only [dispatch, heq, leave, Option.bind_eq_bind, Option.bind_eq_some_iff] at hs
        obtain ⟨u, -, hs⟩ := hs
        cases hs
        exact .inl rfl
      | cons kv it =>
        simp only [dispatch, heq, Option.bind_eq_bind, Option.bind_eq_some_iff] at hs
        obtain ⟨w, -, hs⟩ := hs
        cases hs
        exact .inr ⟨it, rfl⟩
    have hbefore : s.receivers = [] := by simp [State.receivers, heq]
    have hafter : s'.receivers = [] := by
      rcases hgo with hgo | ⟨it', hgo⟩ <;> simp [State.receivers, hgo]
    refine ⟨?_, keepsOut_none hkeeps (hafter.trans hbefore.symm)⟩
    rcases hgo with hgo | ⟨it', hgo⟩ <;> rw [hgo] <;> trivial
  · next heq => exact absurd heq hpc
  · next range it avg heq => exact share_keepsOut h heq hsharing hs
  · exact hsharing.elim

/-- One step of the phase, whoever takes it. -/
theorem step_keepsOut {e : Event} (h : Inv s) (hsharing : s.pc.Sharing) (hpc : s.pc ≠ .balance)
    (hs : step s e = some s') : s'.pc.Sharing ∧ s'.busyings = s.busyings ∧
      (KeepsOut s e s' ∧ s.Rested s'.receivers ↔ s.Rested s.receivers) := by
  by_cases he : ∃ r, e = .dispatch r
  · obtain ⟨r, rfl⟩ := he
    obtain ⟨hnext, hiff⟩ := dispatch_keepsOut h hsharing hpc hs
    exact ⟨hnext, dispatch_busyings hsharing hpc hs, hiff⟩
  · obtain ⟨hsame, hbusyings, hload, -, htasks⟩ :=
      elsewhere_of_step h hs fun r heq => he ⟨r, heq⟩
    refine ⟨hsame ▸ hsharing, hbusyings, keepsOut_none (fun r heq => absurd ⟨r, heq⟩ he) ?_⟩
    simp only [State.receivers, hsame, hload, htasks]

/-! ## The phase -/

/-- The run that is left of the phase: tasks are handed to those that still get some. -/
theorem always_keepsOut {es : List Event} (h : Inv s) (hsharing : s.pc.Sharing)
    (hrun : system.run s es = some s₂) (hinside : system.Meets (fun t _ => t.pc ≠ .balance) s es)
    (hend : s₂.pc = .balance) : system.Always KeepsOut s es ↔ s.Rested s.receivers := by
  induction es generalizing s with
  | nil =>
    obtain rfl : s = s₂ := by simpa using hrun
    have hnone : s.receivers = [] := by simp [State.receivers, hend]
    rw [hnone]
    exact iff_of_true trivial nofun
  | cons e es ih =>
    obtain ⟨t, ht, hrest⟩ := Option.bind_eq_some_iff.mp hrun
    obtain ⟨hnext, hbusyings, hstep⟩ := step_keepsOut h hsharing hinside.1 ht
    have htail := ih (step_inv h ht) hnext hrest (hinside.2 t ht)
    have hsame : t.Rested t.receivers ↔ s.Rested t.receivers := by
      unfold State.Rested
      rw [hbusyings]
    rw [← hstep, ← hsame, ← htail]
    constructor
    · exact fun hall => hall t ht
    · intro hboth t' ht'
      obtain rfl : t = t' := Option.some.inj (ht.symm.trans ht')
      exact hboth

/-! ## Two workers -/

/-- What an iteration on its own reaches the system reaches. -/
theorem reachable_of_iteration (h : iteration.Reachable s) : system.Reachable s := by
  refine System.Via.invariant (I := system.Reachable) ?_ ?_ h
  · rintro s ⟨s₀, r, h₀, -, hd⟩
    exact .step (e := .dispatch r) h₀ trivial hd
  · intro s r s' hreach _ hs
    exact .step (e := .dispatch r) hreach trivial (alone_eq.mp hs).2.1

/-- The dispatcher by itself is the dispatcher while the workers do nothing.
SOURCE: operation/scheduler.cc:103-201 -/
theorem run_of_iteration {rs : List Reads} (h : iteration.run s rs = some s') :
    system.run s (rs.map .dispatch) = some s' := by
  induction rs generalizing s with
  | nil => exact h
  | cons r rs ih =>
    obtain ⟨t, ht, hrest⟩ := Option.bind_eq_some_iff.mp h
    rw [List.map_cons, System.run_cons]
    have hd : system.step s (.dispatch r) = some t := (alone_eq.mp ht).2.1
    rw [hd]
    exact ih hrest

/-- `n` tasks for the first worker and `m` for the second; the first is found busy, and its tasks
are taken. -/
def robbed (n m : ℕ) : Option State := do
  let s₀ ← (system.run start (List.replicate n (.work (.createTask 0)) ++
    List.replicate m (.work (.createTask 1)))).filter (·.pc = .top)
  let s ← dispatch s₀ ⟨false, false, 0⟩
  iteration.run s ([(true, n), (false, m), (false, 0), (false, n), (false, m), (false, 0),
    (false, 0), (false, 0), (false, 0), (false, 0), (false, 0)].map fun r => ⟨false, r.1, r.2⟩)

/-- All go to one worker, which then has that many. -/
def handOut (load : ℕ) : List Reads := [0, load, 0, 0, load, 0].map (⟨false, false, ·⟩)

/-- The phase, with no worker's step in it. -/
structure Alone (s : State) (rs : List Reads) (s' : State) : Prop where
  reachable : iteration.Reachable s
  run : iteration.run s rs = some s'
  phase : Redistribution s (rs.map .dispatch) s'

/-- A run on fixed inputs that has the phase on its own in it.
SOURCE: operation/scheduler.cc:103-201 -/
theorem exists_alone_phase (n m load : ℕ) (p : State → State → Bool)
    (h : (robbed n m).any (fun s => s.pc == .busyings [] &&
      decide (system.Meets (fun t _ => t.pc ≠ .balance) s ((handOut load).map .dispatch)) &&
        (iteration.run s (handOut load)).any (fun t => t.pc == .balance && p s t)) = true) :
    ∃ s₁ s₂, Alone s₁ (handOut load) s₂ ∧ p s₁ s₂ = true := by
  obtain ⟨s₁, hs₁, htest⟩ := (Option.any_eq_true _ _).mp h
  simp only [Bool.and_eq_true, beq_iff_eq, decide_eq_true_eq] at htest
  obtain ⟨⟨hpc, hinside⟩, hrun⟩ := htest
  obtain ⟨s₂, hs₂, hlast⟩ := (Option.any_eq_true _ _).mp hrun
  simp only [Bool.and_eq_true, beq_iff_eq] at hlast
  simp only [robbed, Option.bind_eq_bind, Option.bind_eq_some_iff,
    Option.filter_eq_some_iff] at hs₁
  obtain ⟨s₀, ⟨hstart, htop⟩, s, hd, hrest⟩ := hs₁
  have hinit : iteration.init s :=
    ⟨s₀, _, System.reachable_of_run (A := system) start_starts hstart, by simpa using htop, hd⟩
  exact ⟨s₁, s₂, ⟨System.reachable_of_run hinit hrest, hs₂,
    hpc, run_of_iteration hs₂, hinside, hlast.1⟩, hlast.2⟩

/-- **The stolen tasks stay away from the busy workers**, whatever the workers do meanwhile, exactly
when as many of the least loaded workers as there are tasks, from the first on, were not busy.
SOURCE: operation/scheduler.cc:112-177 -/
theorem stolen_stay_out (s₁ s₂ : State) (es : List Event) (h₁ : system.Reachable s₁)
    (hphase : Redistribution s₁ es s₂) : system.Always KeepsOut s₁ es ↔ s₁.RangeRests := by
  have hinv := inv_of_reachable h₁
  have hpc := hphase.pc
  have hne : s₁.loadMaps.least ≠ [] := LoadMap.least_ne_nil (hinv.fits hpc).2
  obtain ⟨avg, havg⟩ := average_eq (s₁.items .tasks).length (List.length_pos_iff.mpr hne).ne'
  have hreceivers : s₁.receivers = receivers avg s₁.loadMaps.least (s₁.items .tasks).length ++
      remainder s₁.loadMaps.least
        ((s₁.items .tasks).length - avg * s₁.loadMaps.least.length) := by
    simp [State.receivers, hpc, havg]
  rw [always_keepsOut hinv (by rw [hpc]; trivial) hphase.run hphase.inside hphase.ends, hreceivers]
  constructor
  · intro hrested kv hkv
    exact hrested kv.2 ((mem_receivers hne havg).mpr (List.mem_map_of_mem hkv))
  · intro hrested v hv
    obtain ⟨kv, hkv, rfl⟩ := List.mem_map.mp ((mem_receivers hne havg).mp hv)
    exact hrested kv hkv

/-- Three tasks of the busy worker, and none of the other: that one gets them.
SOURCE: operation/scheduler.cc:103-201 -/
theorem stolen_stay_out_three : ∃ s₁ s₂, Alone s₁ (handOut 3) s₂ ∧
    (s₁.items .tasks).length = 3 ∧ system.Always KeepsOut s₁ ((handOut 3).map .dispatch) := by
  obtain ⟨s₁, s₂, hphase, htest⟩ := exists_alone_phase 3 0 3
    (fun s _ => (s.items .tasks).length == 3 && s.loadMaps.least == [(0, 1)] &&
      s.busyings.map Prod.fst == [0]) (by decide +kernel)
  simp only [Bool.and_eq_true, beq_iff_eq] at htest
  obtain ⟨⟨hthree, hleast⟩, hbusy⟩ := htest
  refine ⟨s₁, s₂, hphase, hthree, (stolen_stay_out s₁ s₂ _
    (reachable_of_iteration hphase.reachable) hphase.phase).mpr fun kv hkv => ?_⟩
  rw [hleast] at hkv
  obtain rfl := List.mem_singleton.mp (List.mem_of_mem_take hkv)
  simp [hbusy]

/-- The busy worker has one task and the other two: it gets its own back.
SOURCE: operation/scheduler.cc:103-201 -/
theorem stolen_comes_back : ¬ ∀ s₁ s₂ rs, Alone s₁ rs s₂ →
    (∃ w < s₁.works, w ∉ s₁.busyings.map Prod.fst) →
      system.Always KeepsOut s₁ (rs.map .dispatch) := by
  intro hall
  obtain ⟨s₁, s₂, hphase, htest⟩ := exists_alone_phase 1 2 1
    (fun s _ => s.works == 2 && s.receivers == [0] && s.busyings.map Prod.fst == [0])
    (by decide +kernel)
  simp only [Bool.and_eq_true, beq_iff_eq] at htest
  obtain ⟨⟨hworks, hreceivers⟩, hbusy⟩ := htest
  obtain ⟨hpc, hrun, hinside, hend⟩ := hphase.phase
  have hinv := inv_of_reachable (reachable_of_iteration hphase.reachable)
  have hrested := (always_keepsOut hinv (by rw [hpc]; trivial) hrun hinside hend).mp
    (hall s₁ s₂ _ hphase ⟨1, by omega, by simp [hbusy]⟩)
  refine hrested 0 ?_ ?_
  · simp [hreceivers]
  · simp [hbusy]

/-! ## The map -/

/-- An entry is put in somewhere. -/
theorem LoadMap.insert_perm (m : LoadMap) (kv : ℕ × ℕ) : (m.insert kv).Perm (kv :: m) := by
  rw [insert]
  conv_rhs => rw [← List.takeWhile_append_dropWhile (p := (·.1 ≤ kv.1)) (l := m)]
  exact List.perm_middle

/-- It counts for its own worker. -/
theorem LoadMap.count_insert (m : LoadMap) (kv : ℕ × ℕ) (w : ℕ) :
    ((m.insert kv).map Prod.snd).count w =
      (m.map Prod.snd).count w + if kv.2 = w then 1 else 0 := by
  rw [((m.insert_perm kv).map Prod.snd).count_eq, List.map_cons, List.count_cons]
  simp

/-- How often the first worker of the range stands in the new map. -/
def State.Listed (s : State) (w : ℕ) : Prop :=
  match s.pc with
  | .busyings [] => s.loadMaps.least.head?.map Prod.snd = some w ∧ s.items .tasks ≠ []
  | .share .busy range it avg => range.head?.map Prod.snd = some w ∧ 0 < avg ∧
      (it = range ∧ s.items .tasks ≠ [] ∨ 1 ≤ (s.newLoadMaps.map Prod.snd).count w)
  | .leftover .busy range =>
    range.head?.map Prod.snd = some w ∧ 1 ≤ (s.newLoadMaps.map Prod.snd).count w
  | .reload it => it.head?.map Prod.snd = some w ∧ 1 ≤ (s.newLoadMaps.map Prod.snd).count w ∨
      2 ≤ (s.newLoadMaps.map Prod.snd).count w
  | .balance => 2 ≤ (s.loadMaps.map Prod.snd).count w
  | _ => False

section Listed

variable {w : ℕ}

/-- Where there are tasks, the step after the last theft goes on to the shares.
SOURCE: operation/scheduler.cc:103-219 -/
theorem taken_goes (h : Inv s) (hpc : s.pc = .busyings []) (htasks : s.items .tasks ≠ [])
    (hs : dispatch s r = some s') : ∃ avg, 0 < avg ∧
      s'.pc = .share .busy s.loadMaps.least s.loadMaps.least avg ∧
        s'.items .tasks = s.items .tasks := by
  have hlocal := h.shape.exact (p := .tasks) (by simp)
  have hsome : (s.ends .tasks).m_head ≠ none := fun hempty => htasks (hlocal.empty.mp hempty)
  simp only [dispatch, hpc, if_neg hsome, Option.bind_eq_bind, Option.bind_eq_some_iff] at hs
  obtain ⟨avg, havg, hs⟩ := hs
  cases hs
  exact ⟨avg, average_pos havg, rfl, rfl⟩

/-- The first worker of the range is entered when it gets tasks, as it does in the first round.
SOURCE: operation/worker.cc:21-29, 31-39, operation/scheduler.cc:103-201 -/
theorem share_listed (h : Inv s) (hpc : s.pc = .share .busy range it avg) (hl : s.Listed w)
    (hs : dispatch s r = some s') : s'.Listed w := by
  have hgoes := (dispatch_goes hs).1
  have hshares : it = range → s.items .tasks ≠ [] → ∃ it', s'.pc = .share .busy range it' avg := by
    rintro rfl htasks
    obtain ⟨kv, it', rfl⟩ := List.exists_cons_of_ne_nil (h.fits hpc).1.1
    simp only [State.Listed, hpc] at hl
    exact ⟨it', (share_moves h hpc hl.2.1 htasks hs).1⟩
  simp only [State.Listed, hpc] at hl
  obtain ⟨hfirst, havg, hbefore⟩ := hl
  generalize hpc' : s'.pc = pc', s'.loadMaps = m, hnew : s'.newLoadMaps = m' at hgoes
  rw [hpc] at hgoes
  cases hgoes with
  | shareEnd | shareBreak =>
    rcases hbefore with ⟨hrange, htasks⟩ | hlisted
    · obtain ⟨it', hgo⟩ := hshares hrange htasks
      cases hpc'.symm.trans hgo
    · simp only [State.Listed, hpc', hnew]
      exact ⟨hfirst, hlisted⟩
  | share _ _ kv it _ hhead =>
    simp only [State.Listed, hpc', hnew, Phase.note]
    refine ⟨hfirst, havg, .inr ?_⟩
    rw [LoadMap.count_insert]
    rcases hbefore with ⟨rfl, -⟩ | hlisted
    · have hw : kv.2 = w := by simpa using hfirst
      rw [if_pos hw]
      omega
    · omega

/-- It is entered again when all tasks have been handed out.
SOURCE: operation/scheduler.cc:103-201 -/
theorem dispatch_listed (h : Inv s) (hpc : s.pc ≠ .balance) (hl : s.Listed w)
    (hs : dispatch s r = some s') : s'.Listed w := by
  have hgoes := (dispatch_goes hs).1
  generalize heq : s.pc = pc, hpc' : s'.pc = pc', hmap : s'.loadMaps = m,
    hnew : s'.newLoadMaps = m' at hgoes
  cases hgoes with
  | noneTaken | taken avg =>
    simp only [State.Listed, heq] at hl
    obtain ⟨avg, havg, hgo, htasks⟩ := taken_goes h heq hl.2 hs
    simp only [State.Listed, hgo]
    exact ⟨hl.1, havg, .inl ⟨trivial, htasks ▸ hl.2⟩⟩
  | shareEnd phase range avg | shareBreak phase range kv it avg | share phase range kv it avg =>
    cases phase with
    | busy => exact share_listed h heq hl hs
    | waiting => simp [State.Listed, heq] at hl
  | leftoverBusy range =>
    simp only [State.Listed, heq] at hl
    simp only [State.Listed, hpc', hnew]
    exact .inl hl
  | reload kv it =>
    simp only [State.Listed, heq] at hl
    simp only [State.Listed, hpc', hnew]
    refine .inr ?_
    rw [LoadMap.count_insert]
    rcases hl with ⟨hfirst, hlisted⟩ | htwice
    · have hw : kv.2 = w := by simpa using hfirst
      rw [if_pos hw]
      omega
    · omega
  | reloadEnd =>
    simp only [State.Listed, heq] at hl
    simp only [State.Listed, hpc', hmap]
    rcases hl with ⟨hnone, -⟩ | htwice
    · cases hnone
    · exact htwice
  | noneIdle | idle => exact absurd heq hpc
  | _ => simp [State.Listed, heq] at hl

/-- A step of the phase keeps a worker listed. -/
theorem step_listed {e : Event} (h : Inv s) (hpc : s.pc ≠ .balance) (hl : s.Listed w)
    (hs : step s e = some s') : s'.Listed w := by
  by_cases he : ∃ r, e = .dispatch r
  · obtain ⟨r, rfl⟩ := he
    exact dispatch_listed h hpc hl hs
  · obtain ⟨hsame, -, hload, hnew, htasks⟩ :=
      elsewhere_of_step h hs fun r heq => he ⟨r, heq⟩
    simpa only [State.Listed, hsame, hload, hnew, htasks] using hl

end Listed

/-- After the phase the worker that got tasks first stands in the map twice. -/
theorem listed_twice {es : List Event} (h₁ : system.Reachable s₁) (htasks : s₁.items .tasks ≠ [])
    (hphase : Redistribution s₁ es s₂) : ∃ w, 2 ≤ (s₂.loadMaps.map Prod.snd).count w := by
  have hinv := inv_of_reachable h₁
  have hne : s₁.loadMaps.least ≠ [] := LoadMap.least_ne_nil (hinv.fits hphase.pc).2
  obtain ⟨kv, rest, hleast⟩ := List.exists_cons_of_ne_nil hne
  have hlisted : s₁.Listed kv.2 := by
    simp only [State.Listed, hphase.pc, hleast]
    exact ⟨rfl, htasks⟩
  have hends : Inv s₂ ∧ s₂.Listed kv.2 := by
    refine System.run_invariant (I := fun t => Inv t ∧ t.Listed kv.2) ?_ ⟨hinv, hlisted⟩
      hphase.run hphase.inside
    rintro t e t' ⟨ht, hl⟩ hpc hs
    exact ⟨step_inv ht hs, step_listed ht hpc hl hs⟩
  refine ⟨kv.2, ?_⟩
  simpa only [State.Listed, hphase.ends] using hends.2

/-- In a map of the workers nobody stands twice. -/
theorem not_mapOfWorkers {w : ℕ} (h : 2 ≤ (s.loadMaps.map Prod.snd).count w) :
    ¬ s.MapOfWorkers := by
  rintro ⟨hworkers, -⟩
  rw [hworkers.count_eq] at h
  have hle := List.nodup_iff_count_le_one.mp (List.nodup_range (n := s.works)) w
  omega

/-- **The load map is no map of the workers** after tasks have been stolen, whether or not the
workers do something meanwhile.
SOURCE: operation/scheduler.cc:122-195 -/
theorem load_map_repeats (s₁ s₂ : State) (es : List Event) (h₁ : system.Reachable s₁)
    (htasks : s₁.items .tasks ≠ []) (hphase : Redistribution s₁ es s₂) : ¬ s₂.MapOfWorkers := by
  obtain ⟨w, hw⟩ := listed_twice h₁ htasks hphase
  exact not_mapOfWorkers hw

/-- Three stolen tasks for the second worker: it is entered two times, and the first worker has the
load that it had before.
SOURCE: operation/worker.cc:56-58 -/
theorem load_map_repeats_three : ∃ s₁ s₂, Alone s₁ (handOut 3) s₂ ∧
    s₂.loadMaps = [(3, 0), (3, 1), (3, 1)] ∧ s₂.getRunnableNum 0 = 0 ∧ ¬ s₂.MapOfWorkers := by
  obtain ⟨s₁, s₂, hphase, htest⟩ := exists_alone_phase 3 0 3
    (fun s t => (s.items .tasks).length == 3 && t.loadMaps == [(3, 0), (3, 1), (3, 1)] &&
      t.getRunnableNum 0 == 0) (by decide +kernel)
  simp only [Bool.and_eq_true, beq_iff_eq] at htest
  obtain ⟨⟨hthree, hmap⟩, hload⟩ := htest
  have hsome : s₁.items .tasks ≠ [] := List.ne_nil_of_length_pos (by omega)
  exact ⟨s₁, s₂, hphase, hmap, hload, load_map_repeats s₁ s₂ _
    (reachable_of_iteration hphase.reachable) hsome hphase.phase⟩

/-- The phase does not keep the map a map of the workers. -/
theorem load_map_is_no_map : ¬ ∀ s₁ s₂ rs, Alone s₁ rs s₂ → s₁.items .tasks ≠ [] →
    s₂.MapOfWorkers := by
  intro hall
  obtain ⟨s₁, s₂, hphase, htest⟩ := exists_alone_phase 3 0 3
    (fun s t => (s.items .tasks).length == 3 && (t.loadMaps.map Prod.snd).count 1 == 2)
    (by decide +kernel)
  simp only [Bool.and_eq_true, beq_iff_eq] at htest
  have hsome : s₁.items .tasks ≠ [] := List.ne_nil_of_length_pos (by omega)
  exact not_mapOfWorkers htest.2.ge (hall s₁ s₂ _ hphase hsome)

end MagicNet.Dispatcher
