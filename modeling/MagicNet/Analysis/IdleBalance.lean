import Mathlib.Data.List.TakeWhile
import MagicNet.Analysis.LoadBalance
import MagicNet.Model.IdleBalance

/-!
# What the idle workers take

The number of tasks that are asked for is half of the load, rounded down, so it is 0 when the load
is 1; and `steal(0)` takes all there is.  With no worker's step in between, a load of 0 in the map
is the load of a worker without tasks, so that nobody else than the worker that is stolen from loses
a task, and nobody that has tasks gets more.
-/

set_option autoImplicit false

namespace MagicNet.Dispatcher

open MagicNet.Foundation MagicNet.Util
open MagicNet.Worker (Place Sound Ended)

variable {s s' s₁ s₂ : State} {r : Reads} {rs : List Reads} {w v : ℕ} {caller : Caller}

/-! ## Sorted load maps -/

namespace LoadMap

variable {m : LoadMap} {kv : ℕ × ℕ}

def Sorted (m : LoadMap) : Prop := m.Pairwise (·.1 ≤ ·.1)

/-- Where a test fails from one load on, what is left behind the first failure fails it. -/
theorem not_of_mem_dropWhile {p : ℕ × ℕ → Bool} (h : m.Sorted)
    (hdown : ∀ a ∈ m, ∀ b ∈ m, a.1 ≤ b.1 → p b = true → p a = true) :
    ∀ x ∈ m.dropWhile p, p x ≠ true := by
  induction m with
  | nil => simp
  | cons a m ih =>
    obtain ⟨hle, hm⟩ := List.pairwise_cons.mp h
    intro x hx
    by_cases ha : p a = true
    · rw [List.dropWhile_cons_of_pos ha] at hx
      apply ih hm _ x hx
      intro b hb b' hb'
      exact hdown b (List.mem_cons_of_mem a hb) b' (List.mem_cons_of_mem a hb')
    · rw [List.dropWhile_cons_of_neg ha] at hx
      intro hpx
      rcases List.mem_cons.mp hx with rfl | hmem
      · exact ha hpx
      · exact ha (hdown a List.mem_cons_self x hx (hle x hmem) hpx)

/-- Inserting keeps a load map in order. -/
theorem sorted_insert (h : m.Sorted) : (m.insert kv).Sorted := by
  have hbefore : ∀ a ∈ m.takeWhile (·.1 ≤ kv.1), a.1 ≤ kv.1 := by
    intro a ha
    simpa using List.mem_takeWhile_imp ha
  have hafter : ∀ b ∈ m.dropWhile (·.1 ≤ kv.1), kv.1 ≤ b.1 := by
    intro b hb
    have hnot := not_of_mem_dropWhile h (p := fun x => decide (x.1 ≤ kv.1))
      (fun a _ b _ hab hb => by simp at hb ⊢; omega) b hb
    simp at hnot
    omega
  rw [Sorted, insert, List.pairwise_append, List.pairwise_cons]
  refine ⟨h.sublist (List.takeWhile_sublist _), ⟨hafter, h.sublist (List.dropWhile_sublist _)⟩, ?_⟩
  intro a ha b hb
  rcases List.mem_cons.mp hb with rfl | hb
  · exact hbefore a ha
  · exact (hbefore a ha).trans (hafter b hb)

/-- The entries that are not among the least have a load. -/
theorem others_pos (h : m.Sorted) : ∀ kv ∈ m.others, 0 < kv.1 := by
  cases m with
  | nil => simp [others]
  | cons kv m =>
    obtain ⟨hle, hm⟩ := List.pairwise_cons.mp h
    intro x hx
    have hnot := not_of_mem_dropWhile hm (p := fun x => decide (x.1 = kv.1))
      (fun a ha b _ hab hb => by
        have := hle a ha
        simp at hb ⊢
        omega) x hx
    have := hle x ((List.dropWhile_sublist _).subset hx)
    simp at hnot
    omega

/-- What several inserts put into a map. -/
theorem mem_foldl {l : List (ℕ × ℕ)} {x : ℕ × ℕ} (hx : x ∈ l.foldl insert m) : x ∈ m ∨ x ∈ l := by
  induction l generalizing m with
  | nil => exact .inl hx
  | cons kv l ih =>
    rcases ih hx with hm | hl
    · rcases mem_insert.mp hm with rfl | hm
      · exact .inr List.mem_cons_self
      · exact .inl hm
    · exact .inr (List.mem_cons_of_mem kv hl)

/-- The least loaded workers are all as loaded as the first. -/
theorem least_eq {x : ℕ × ℕ} (hhead : m.head? = some kv) (hx : x ∈ m.least) :
    x ∈ m ∧ x.1 = kv.1 := by
  cases m with
  | nil => cases hhead
  | cons kv' m =>
    obtain rfl : kv' = kv := Option.some.inj hhead
    rcases List.mem_cons.mp hx with rfl | hx
    · exact ⟨List.mem_cons_self, rfl⟩
    · refine ⟨List.mem_cons_of_mem _ ((List.takeWhile_sublist _).subset hx), ?_⟩
      simpa using List.mem_takeWhile_imp hx

end LoadMap

/-! ## What a step leaves alone -/

/-- The worker to whose queues the step may write. -/
def Pc.written : Pc → Option ℕ
  | .popNew w _ | .popRunnable w _ => some w
  | .share _ _ (kv :: _) _ | .leftover _ (kv :: _) => some kv.2
  | _ => none

/-- A step of the dispatcher by itself, with the load of the worker it looks at.
SOURCE: operation/scheduler.cc:103-219 -/
theorem alone_eq : alone s r = some s' ↔ s.pc ≠ .top ∧ dispatch s r = some s' ∧
    ∀ w, s.looked = some w → r.load = s'.getRunnableNum w := by
  by_cases hpc : s.pc = .top
  · simp [alone, hpc]
  · cases hd : dispatch s r with
    | none => simp [alone, hd]
    | some t =>
      by_cases hall : s.looked.all (fun w => r.load = t.getRunnableNum w) = true
      · simp [alone, hpc, hd, hall]
        rintro rfl
        simpa [Option.all_eq_true] using hall
      · simp [alone, hpc, hd, hall]
        rintro rfl
        simpa [Option.all_eq_true] using hall

/-- The workers are numbered by their places.
SOURCE: operation/scheduler.cc:97-101 -/
theorem m_works_some {i : ℕ} (h : s.m_works i = some w) : w = i := by
  simp only [State.m_works, Option.ite_none_right_eq_some, Option.some.injEq] at h
  exact h.2.symm

/-- A queue to which a list has been added is not empty.
SOURCE: util/deque.h:33-48, 55-73 -/
theorem pushListUnlock_head {mem mem' : Memory ℕ} {q l q' l' : Ends ℕ}
    (h : Ends.pushListUnlock mem q l = some (mem', q', l')) (hl : l.m_head ≠ none) :
    q'.m_head ≠ none := by
  simp only [Ends.pushListUnlock, if_neg hl] at h
  split at h
  · cases h
    exact hl
  · next hq =>
    simp only [Option.bind_eq_bind, Option.bind_eq_some_iff] at h
    obtain ⟨mem₁, -, mem₂, -, h⟩ := h
    cases h
    exact hq

/-- Where a step goes and what becomes of the two load maps; a worker to which tasks have been added
has some. -/
inductive Goes (s : State) (r : Reads) (s' : State) : Pc → Pc → LoadMap → LoadMap → Prop where
  | stop : Goes s r s' .top .stopped s.loadMaps s.newLoadMaps
  | start : Goes s r s' .top (.busy 0) [] []
  | busy (i : ℕ) : Goes s r s' (.busy i) (.busy (i + 1)) s.loadMaps s.newLoadMaps
  | busyEnd (i : ℕ) : Goes s r s' (.busy i) (.loads 0) s.loadMaps s.newLoadMaps
  | load (i : ℕ) (hi : i < s.works) :
    Goes s r s' (.loads i) (.loads (i + 1)) (s.loadMaps.insert (r.load, i)) s.newLoadMaps
  | loadsEnd (i : ℕ) : Goes s r s' (.loads i) (.busyings s.busyings) s.loadMaps s.newLoadMaps
  | busyings (kv : ℕ × ℕ) (kvs : List (ℕ × ℕ)) :
    Goes s r s' (.busyings (kv :: kvs)) (.assertLink kv.1 (.busyings kvs)) s.loadMaps s.newLoadMaps
  | noneTaken : Goes s r s' (.busyings []) .balance s.loadMaps s.newLoadMaps
  | taken (avg : ℕ) : Goes s r s' (.busyings [])
      (.share .busy s.loadMaps.least s.loadMaps.least avg) s.loadMaps
      (s.loadMaps.others.foldl LoadMap.insert [])
  | assertLink (w : ℕ) (caller : Caller) :
    Goes s r s' (.assertLink w caller) (.popNew w caller) s.loadMaps s.newLoadMaps
  | popNew (w : ℕ) (caller : Caller) :
    Goes s r s' (.popNew w caller) (.assertAgain w caller) s.loadMaps s.newLoadMaps
  | assertAgain (w : ℕ) (caller : Caller) : Goes s r s' (.assertAgain w caller)
      (if 0 < caller.n then caller.after else .popRunnable w caller) s.loadMaps s.newLoadMaps
  | popRunnable (w : ℕ) (caller : Caller) :
    Goes s r s' (.popRunnable w caller) caller.after s.loadMaps s.newLoadMaps
  | shareEnd (phase : Phase) (range : List (ℕ × ℕ)) (avg : ℕ) :
    Goes s r s' (.share phase range [] avg) (.leftover phase range) s.loadMaps s.newLoadMaps
  | shareBreak (phase : Phase) (range : List (ℕ × ℕ)) (kv : ℕ × ℕ) (it : List (ℕ × ℕ)) (avg : ℕ) :
    Goes s r s' (.share phase range (kv :: it) avg) (.leftover phase range) s.loadMaps s.newLoadMaps
  | share (phase : Phase) (range : List (ℕ × ℕ)) (kv : ℕ × ℕ) (it : List (ℕ × ℕ)) (avg : ℕ)
      (hhead : (s'.ends (.m_newQueue kv.2)).m_head ≠ none) :
    Goes s r s' (.share phase range (kv :: it) avg) (.share phase range it avg) s.loadMaps
      (phase.note s.newLoadMaps (r.load, kv.2))
  | leftoverBusy (range : List (ℕ × ℕ)) :
    Goes s r s' (.leftover .busy range) (.reload range) s.loadMaps s.newLoadMaps
  | leftoverWaiting (range : List (ℕ × ℕ)) :
    Goes s r s' (.leftover .waiting range) .top s.loadMaps s.newLoadMaps
  | reload (kv : ℕ × ℕ) (it : List (ℕ × ℕ)) : Goes s r s' (.reload (kv :: it)) (.reload it)
      s.loadMaps (s.newLoadMaps.insert (r.load, kv.2))
  | reloadEnd : Goes s r s' (.reload []) .balance s.newLoadMaps s.loadMaps
  | noneIdle : Goes s r s' .balance .top s.loadMaps s.newLoadMaps
  | idle (w n : ℕ) : Goes s r s' .balance (.assertLink w (.waiting n s.loadMaps.least)) s.loadMaps
      s.newLoadMaps
  | noneStolen (range : List (ℕ × ℕ)) :
    Goes s r s' (.stolen range) .top s.loadMaps s.newLoadMaps
  | stolen (range : List (ℕ × ℕ)) (avg : ℕ) :
    Goes s r s' (.stolen range) (.share .waiting range range avg) s.loadMaps s.newLoadMaps
  | stopped : Goes s r s' .stopped .stopped s.loadMaps s.newLoadMaps

/-- The ends of the worker's queues are as they were. -/
def SameEnds (s s' : State) (v : ℕ) : Prop :=
  s'.ends (.m_newQueue v) = s.ends (.m_newQueue v) ∧
    s'.ends (.m_runnableQueue v) = s.ends (.m_runnableQueue v)

/-- What is left over is added to the queue of the first worker of the range. -/
theorem addLeftover_spec {range : List (ℕ × ℕ)} (hs : addLeftover s range = some s') :
    s'.loadMaps = s.loadMaps ∧ s'.newLoadMaps = s.newLoadMaps ∧
      ∀ v, (∀ kv, range.head? = some kv → v ≠ kv.2) → SameEnds s s' v := by
  unfold addLeftover at hs
  split at hs
  · cases hs
    exact ⟨rfl, rfl, fun _ _ => ⟨rfl, rfl⟩⟩
  · simp only [Option.bind_eq_bind, Option.bind_eq_some_iff] at hs
    obtain ⟨kv, hkv, w, hw, y, -, hs⟩ := hs
    obtain rfl := m_works_some hw
    cases hs
    refine ⟨rfl, rfl, fun v hv => ?_⟩
    simp [SameEnds, State.setEnds, hv kv hkv]

/-- A step goes on from `pc`, and writes the queues of one worker at most. -/
def GoesFrom (s : State) (r : Reads) (s' : State) (pc : Pc) : Prop :=
  Goes s r s' pc s'.pc s'.loadMaps s'.newLoadMaps ∧ ∀ v, pc.written ≠ some v → SameEnds s s' v

/-- The queues are as they are. -/
theorem sameEnds_refl (s : State) (v : ℕ) : SameEnds s s v := ⟨rfl, rfl⟩

/-- The start of an iteration.
SOURCE: operation/scheduler.cc:104-113 -/
theorem goes_top (hpc : s.pc = .top) (hs : dispatch s r = some s') : GoesFrom s r s' .top := by
  simp only [dispatch, hpc] at hs
  split at hs <;> cases hs
  · exact ⟨.stop, fun v _ => sameEnds_refl s v⟩
  · exact ⟨.start, fun v _ => sameEnds_refl s v⟩

/-- The loop that looks for busy workers.
SOURCE: operation/scheduler.cc:114-120 -/
theorem goes_busy {i : ℕ} (hpc : s.pc = .busy i) (hs : dispatch s r = some s') :
    GoesFrom s r s' (.busy i) := by
  simp only [dispatch, hpc] at hs
  split at hs <;> cases hs
  · exact ⟨.busy i, fun v _ => sameEnds_refl s v⟩
  · exact ⟨.busyEnd i, fun v _ => sameEnds_refl s v⟩

/-- The loop that reads the loads.
SOURCE: operation/scheduler.cc:123-133 -/
theorem goes_loads {i : ℕ} (hpc : s.pc = .loads i) (hs : dispatch s r = some s') :
    GoesFrom s r s' (.loads i) := by
  simp only [dispatch, hpc] at hs
  split at hs
  · next hi =>
    cases hs
    exact ⟨.load i hi, fun v _ => sameEnds_refl s v⟩
  · cases hs
    refine ⟨.loadsEnd i, fun v _ => ?_⟩
    simp [SameEnds, State.setEnds]

/-- The loop that steals from the busy workers, and what follows it.
SOURCE: operation/scheduler.cc:138-153 -/
theorem goes_busyings {kvs : List (ℕ × ℕ)} (hpc : s.pc = .busyings kvs)
    (hs : dispatch s r = some s') : GoesFrom s r s' (.busyings kvs) := by
  cases kvs with
  | cons kv kvs =>
    simp only [dispatch, hpc, Option.bind_eq_bind, Option.bind_eq_some_iff] at hs
    obtain ⟨w, hw, hs⟩ := hs
    obtain rfl := m_works_some hw
    cases hs
    exact ⟨.busyings kv kvs, fun v _ => sameEnds_refl s v⟩
  | nil =>
    simp only [dispatch, hpc, leave, Option.bind_eq_bind] at hs
    split at hs <;> obtain ⟨u, -, hs⟩ := Option.bind_eq_some_iff.mp hs <;> cases hs
    · exact ⟨.noneTaken, fun v _ => sameEnds_refl s v⟩
    · exact ⟨.taken u, fun v _ => sameEnds_refl s v⟩

/-- The first section of `steal`.
SOURCE: operation/worker.cc:220, 236 -/
theorem goes_popNew (hpc : s.pc = .popNew w caller) (hs : dispatch s r = some s') :
    GoesFrom s r s' (.popNew w caller) := by
  have hne : ∀ v, (Pc.popNew w caller).written ≠ some v → v ≠ w := by
    rintro v hv rfl
    exact hv rfl
  simp only [dispatch, hpc, popNew] at hs
  split at hs
  · obtain ⟨x, -, hs⟩ := Option.bind_eq_some_iff.mp hs
    cases hs
    refine ⟨.popNew w caller, fun v hv => ?_⟩
    simp [SameEnds, State.setEnds, hne v hv]
  · cases hs
    refine ⟨.popNew w caller, fun v hv => ?_⟩
    simp [SameEnds, State.setEnds, hne v hv]

/-- The second section of `steal(0)`.
SOURCE: operation/worker.cc:239-245, operation/scheduler.cc:141 -/
theorem goes_popRunnable (hpc : s.pc = .popRunnable w caller) (hs : dispatch s r = some s') :
    GoesFrom s r s' (.popRunnable w caller) := by
  simp only [dispatch, hpc, popRunnable, Option.bind_eq_bind, Option.bind_eq_some_iff] at hs
  obtain ⟨x, -, u, -, y, -, u', -, hs⟩ := hs
  cases hs
  refine ⟨.popRunnable w caller, fun v hv => ?_⟩
  have hne : v ≠ w := fun heq => hv (heq ▸ rfl)
  simp [SameEnds, State.setEnds, hne]

/-- The loops that give out what was taken.
SOURCE: operation/scheduler.cc:155-165, 197-205 -/
theorem goes_share {phase : Phase} {range it : List (ℕ × ℕ)} {avg : ℕ}
    (hpc : s.pc = .share phase range it avg) (hs : dispatch s r = some s') :
    GoesFrom s r s' (.share phase range it avg) := by
  cases it with
  | nil =>
    simp only [dispatch, hpc, share] at hs
    cases hs
    exact ⟨.shareEnd phase range avg, fun v _ => sameEnds_refl s v⟩
  | cons kv it =>
    simp only [dispatch, hpc, share, Option.bind_eq_bind, Option.bind_eq_some_iff] at hs
    obtain ⟨x, -, hs⟩ := hs
    split at hs
    · obtain ⟨u, -, hs⟩ := Option.bind_eq_some_iff.mp hs
      cases hs
      refine ⟨.shareBreak phase range kv it avg, fun v _ => ?_⟩
      simp [SameEnds, State.setEnds]
    · next hin =>
      simp only [Option.bind_eq_some_iff] at hs
      obtain ⟨w, hw, y, hy, u, -, hs⟩ := hs
      obtain rfl := m_works_some hw
      cases hs
      refine ⟨.share phase range kv it avg ?_, fun v hv => ?_⟩
      · simpa [State.setEnds] using pushListUnlock_head hy hin
      · have hne : v ≠ kv.2 := fun heq => hv (heq ▸ rfl)
        simp [SameEnds, State.setEnds, hne]

/-- What is left over after such a loop.
SOURCE: operation/scheduler.cc:167-168, 207-209 -/
theorem goes_leftover {phase : Phase} {range : List (ℕ × ℕ)} (hpc : s.pc = .leftover phase range)
    (hs : dispatch s r = some s') : GoesFrom s r s' (.leftover phase range) := by
  simp only [dispatch, hpc, Option.bind_eq_bind, Option.bind_eq_some_iff] at hs
  obtain ⟨t, ht, hs⟩ := hs
  obtain ⟨hmap, hnew, hends⟩ := addLeftover_spec ht
  have hends : ∀ v, (Pc.leftover phase range).written ≠ some v → SameEnds s t v := by
    refine fun v hv => hends v ?_
    rintro kv hkv rfl
    obtain ⟨range, rfl⟩ := List.head?_eq_some_iff.mp hkv
    exact hv rfl
  rw [GoesFrom]
  cases phase with
  | busy =>
    cases hs
    rw [hmap, hnew]
    exact ⟨.leftoverBusy range, hends⟩
  | waiting =>
    simp only [leave, Option.bind_eq_bind, Option.bind_eq_some_iff] at hs
    obtain ⟨u, -, hs⟩ := hs
    cases hs
    rw [hmap, hnew]
    exact ⟨.leftoverWaiting range, hends⟩

/-- The loop that reads the loads again.
SOURCE: operation/scheduler.cc:170-175 -/
theorem goes_reload {it : List (ℕ × ℕ)} (hpc : s.pc = .reload it) (hs : dispatch s r = some s') :
    GoesFrom s r s' (.reload it) := by
  cases it with
  | nil =>
    simp only [dispatch, hpc, leave, Option.bind_eq_bind, Option.bind_eq_some_iff] at hs
    obtain ⟨u, -, hs⟩ := hs
    cases hs
    exact ⟨.reloadEnd, fun v _ => sameEnds_refl s v⟩
  | cons kv it =>
    simp only [dispatch, hpc, Option.bind_eq_bind, Option.bind_eq_some_iff] at hs
    obtain ⟨w, hw, hs⟩ := hs
    obtain rfl := m_works_some hw
    cases hs
    exact ⟨.reload kv it, fun v _ => sameEnds_refl s v⟩

/-- The test for idle workers, up to the call of `steal`.
SOURCE: operation/scheduler.cc:179-188 -/
theorem goes_balance (hpc : s.pc = .balance) (hs : dispatch s r = some s') :
    GoesFrom s r s' .balance := by
  simp only [dispatch, hpc] at hs
  split at hs
  · cases hs
  · split at hs
    · cases hs
      exact ⟨.noneIdle, fun v _ => sameEnds_refl s v⟩
    · simp only [Option.bind_eq_bind, Option.bind_eq_some_iff] at hs
      obtain ⟨max, -, w, -, hs⟩ := hs
      cases hs
      exact ⟨.idle w _, fun v _ => sameEnds_refl s v⟩

/-- What follows that call.
SOURCE: operation/scheduler.cc:189-195 -/
theorem goes_stolen {range : List (ℕ × ℕ)} (hpc : s.pc = .stolen range)
    (hs : dispatch s r = some s') : GoesFrom s r s' (.stolen range) := by
  simp only [dispatch, hpc, leave, Option.bind_eq_bind] at hs
  split at hs <;> obtain ⟨u, -, hs⟩ := Option.bind_eq_some_iff.mp hs <;> cases hs
  · exact ⟨.noneStolen range, fun v _ => sameEnds_refl s v⟩
  · exact ⟨.stolen range u, fun v _ => sameEnds_refl s v⟩

/-- **What a step of the dispatcher can do.**  Queues of workers change only where the step writes to
them.
SOURCE: operation/scheduler.cc:103-211, operation/worker.cc:217-247 -/
theorem dispatch_goes (hs : dispatch s r = some s') :
    Goes s r s' s.pc s'.pc s'.loadMaps s'.newLoadMaps ∧
      ∀ v, s.pc.written ≠ some v → SameEnds s s' v := by
  cases hpc : s.pc with
  | top => exact goes_top hpc hs
  | busy i => exact goes_busy hpc hs
  | loads i => exact goes_loads hpc hs
  | busyings kvs => exact goes_busyings hpc hs
  | assertLink w caller =>
    simp only [dispatch, hpc, Option.bind_eq_bind, Option.bind_eq_some_iff] at hs
    obtain ⟨u, -, hs⟩ := hs
    cases hs
    exact ⟨.assertLink w caller, fun v _ => sameEnds_refl s v⟩
  | popNew w caller => exact goes_popNew hpc hs
  | assertAgain w caller =>
    simp only [dispatch, hpc, Option.bind_eq_bind, Option.bind_eq_some_iff] at hs
    obtain ⟨u, -, hs⟩ := hs
    cases hs
    exact ⟨.assertAgain w caller, fun v _ => sameEnds_refl s v⟩
  | popRunnable w caller => exact goes_popRunnable hpc hs
  | share phase range it avg => exact goes_share hpc hs
  | leftover phase range => exact goes_leftover hpc hs
  | reload it => exact goes_reload hpc hs
  | balance => exact goes_balance hpc hs
  | stolen range => exact goes_stolen hpc hs
  | stopped =>
    simp only [dispatch, hpc] at hs
    cases hs
    rw [hpc]
    exact ⟨.stopped, fun v _ => sameEnds_refl s v⟩

/-- A part of a list has gone to the end of another.  A list that is as long as before is as it
was. -/
theorem moveTable_of_length {t : Place → List ℕ} {p p' q : Place} {moved rest : List ℕ}
    (hrest : rest.Sublist (t p)) (hlen : (moveTable t p p' moved rest q).length = (t q).length) :
    moveTable t p p' moved rest q = t q := by
  by_cases hp' : q = p'
  · subst hp'
    rw [moveTable_target] at hlen ⊢
    rw [List.length_append] at hlen
    have hmoved : moved = [] := List.length_eq_zero_iff.mp (by omega)
    rw [hmoved, List.append_nil]
  · by_cases hp : q = p
    · subst hp
      rw [moveTable_source hp'] at hlen ⊢
      exact hrest.eq_of_length hlen
    · exact moveTable_of_ne hp hp'

/-- A step of the dispatcher to which `Model.Worker` is a witness: a list that is as long as before
is as it was. -/
theorem queue_of_length {a b : Worker.State} {e : Worker.Event} {q : Place} (he : IsDispatcher e)
    (hstep : Worker.step a e = some b) (hlen : (b.queue q).length = (a.queue q).length) :
    b.queue q = a.queue q := by
  cases e with
  | steal w n =>
    rcases Worker.step_steal hstep with rfl | ⟨rest, rfl⟩
    · rfl
    · exact moveTable_of_length (List.take_sublist _ _) hlen
  | stealNew w =>
    obtain ⟨-, rfl⟩ := Worker.step_stealNew.mp hstep
    exact moveTable_of_length (List.nil_sublist _) hlen
  | stealRunnable =>
    obtain ⟨w, -, rfl⟩ := Worker.step_stealRunnable.mp hstep
    by_cases hq : q = .tasks
    · subst hq
      simp [Worker.State.moveAll, Worker.State.move, moveTable] at hlen ⊢
      exact hlen
    · have hfirst : (a.moveAll (.m_runnableQueue w) .tasks).queue q =
          moveTable a.queue (.m_runnableQueue w) .tasks (a.queue (.m_runnableQueue w)) [] q := rfl
      by_cases hlist : q = .steal_list
      · subst hlist
        simp [Worker.State.moveAll, Worker.State.move, moveTable] at hlen ⊢
        exact List.length_eq_zero_iff.mp hlen.symm
      · have hsecond : ((a.moveAll (.m_runnableQueue w) .tasks).moveAll .steal_list .tasks).queue q =
            (a.moveAll (.m_runnableQueue w) .tasks).queue q := queue_moveAll hlist hq
        have hboth := hsecond.trans hfirst
        exact hboth.trans (moveTable_of_length (List.nil_sublist _) (hboth ▸ hlen))
  | addTask w n =>
    obtain ⟨-, rfl⟩ := Worker.step_addTask.mp hstep
    exact moveTable_of_length (List.drop_sublist _ _) hlen
  | _ => exact absurd he id

/-- A queue whose ends a step has left alone has the same tasks. -/
theorem Served.items_eq {p : Place} (h : Served s s') (hs : Inv s) (hp : ∀ w, p ≠ .m_waitQueue w)
    (hends : s'.ends p = s.ends p) : s'.items p = s.items p := by
  rcases h.workers with hsame | ⟨e, he, hstep⟩
  · exact congrFun (congrArg Worker.State.queue hsame) p
  · apply queue_of_length he hstep
    have hcount := (h.shape.exact hp).count
    rw [hends] at hcount
    exact hcount.symm.trans (hs.shape.exact hp).count

/-- A step of an iteration, with what the dispatcher's steps are known to keep. -/
theorem alone_served (h : Inv s) (hs : alone s r = some s') : Served s s' ∧ Inv s' := by
  obtain ⟨-, hd, -⟩ := alone_eq.mp hs
  obtain ⟨t, ht, hserved⟩ := dispatch_served h r
  obtain rfl : t = s' := Option.some.inj (ht.symm.trans hd)
  exact ⟨hserved, step_inv (e := .dispatch r) h hd⟩

/-- The number of tasks to run is a matter of the ends.
SOURCE: operation/worker.cc:56-58 -/
theorem getRunnableNum_of_ends (hends : SameEnds s s' v) :
    s'.getRunnableNum v = s.getRunnableNum v := by
  rw [State.getRunnableNum, State.getRunnableNum, hends.1, hends.2]

/-- The load is the number of tasks that the worker has to run.
SOURCE: operation/worker.cc:56-58 -/
theorem length_runnables (h : Inv s) : (s.runnables v).length = s.getRunnableNum v := by
  have hnew := (h.shape.exact (p := .m_newQueue v) (by simp)).count
  have hrun := (h.shape.exact (p := .m_runnableQueue v) (by simp)).count
  rw [State.runnables, List.length_append, State.getRunnableNum, hnew, hrun, Nat.add_comm]

/-! ## The first half -/

/-- An entry without a load is that of a worker without tasks. -/
def Zeros (s : State) (m : LoadMap) : Prop := ∀ kv ∈ m, kv.1 = 0 → s.getRunnableNum kv.2 = 0

/-- What the place in the first half says about the load maps. -/
def Pc.Mapped (s : State) : Pc → Prop
  | .busy _ => s.loadMaps = []
  | .loads _ | .busyings _ => s.loadMaps.Sorted ∧ Zeros s s.loadMaps
  | .assertLink _ (.busyings _) | .popNew _ (.busyings _) => s.loadMaps.Sorted ∧ Zeros s s.loadMaps
  | .assertAgain _ (.busyings _) => s.loadMaps.Sorted ∧ Zeros s s.loadMaps
  | .popRunnable _ (.busyings _) => s.loadMaps.Sorted ∧ Zeros s s.loadMaps
  | .share .busy _ _ _ | .leftover .busy _ => ∀ kv ∈ s.newLoadMaps, 0 < kv.1
  | .reload _ => Zeros s s.newLoadMaps
  | .balance => Zeros s s.loadMaps
  | _ => True

/-- Idle workers stay idle where nobody gets more tasks.
SOURCE: operation/worker.cc:56-58 -/
theorem Zeros.mono {m : LoadMap} (h : Zeros s m)
    (hle : ∀ v, s'.getRunnableNum v ≤ s.getRunnableNum v) : Zeros s' m := by
  intro kv hkv hzero
  have hnone := h kv hkv hzero
  have hless := hle kv.2
  omega

/-- Inserting a worker with its load keeps that.
SOURCE: operation/worker.cc:56-58 -/
theorem Zeros.insert {m : LoadMap} {kv : ℕ × ℕ} (h : Zeros s m)
    (hkv : kv.1 = s.getRunnableNum kv.2) : Zeros s (m.insert kv) := by
  intro x hx hzero
  rcases LoadMap.mem_insert.mp hx with rfl | hx
  · exact hkv.symm.trans hzero
  · exact h x hx hzero

/-- What is taken from a worker makes no load higher. -/
theorem steal_le {kvs : List (ℕ × ℕ)} (hpc : s.pc = .popNew w (.busyings kvs) ∨
    s.pc = .popRunnable w (.busyings kvs)) (hs : dispatch s r = some s') :
    s'.getRunnableNum v ≤ s.getRunnableNum v := by
  by_cases hv : v = w
  · subst hv
    have hle : ∀ q : Ends ℕ, q.popBackAllUnlock.1.m_count ≤ q.m_count := by
      intro q
      unfold Ends.popBackAllUnlock
      split
      · exact le_refl _
      · exact Nat.zero_le _
    rcases hpc with hpc | hpc
    · simp only [dispatch, hpc, popNew] at hs
      cases hs
      have := hle (s.ends (.m_newQueue v))
      simp [State.getRunnableNum, State.setEnds]
      omega
    · simp only [dispatch, hpc, popRunnable, Option.bind_eq_bind, Option.bind_eq_some_iff] at hs
      obtain ⟨x, -, u, -, y, -, u', -, hs⟩ := hs
      cases hs
      have := hle (s.ends (.m_runnableQueue v))
      simp [State.getRunnableNum, State.setEnds]
      omega
  · refine (getRunnableNum_of_ends ((dispatch_goes hs).2 v ?_)).le
    rcases hpc with hpc | hpc
    · rw [hpc]
      simp [Pc.written, Ne.symm hv]
    · rw [hpc]
      simp [Pc.written, Ne.symm hv]

/-- A worker with a task has a load.
SOURCE: operation/worker.cc:56-58 -/
theorem getRunnableNum_pos (h : Inv s) (hhead : (s.ends (.m_newQueue w)).m_head ≠ none) :
    0 < s.getRunnableNum w := by
  have hexact := h.shape.exact (p := .m_newQueue w) (by simp)
  have hne := List.length_pos_iff.mpr (hexact.ne_nil hhead)
  rw [← hexact.count] at hne
  rw [State.getRunnableNum]
  omega

/-- **Each step of the first half** keeps the load maps in order: a load of 0 in them is that of a
worker without tasks. -/
theorem alone_mapped (h : Inv s) (hm : s.pc.Mapped s) (hs : alone s r = some s') :
    s'.pc.Mapped s' := by
  obtain ⟨-, hinv⟩ := alone_served h hs
  obtain ⟨-, hd, hload⟩ := alone_eq.mp hs
  obtain ⟨hgoes, hends⟩ := dispatch_goes hd
  have hle : s.pc.written = none → ∀ v, s'.getRunnableNum v ≤ s.getRunnableNum v := by
    intro hnone v
    exact (getRunnableNum_of_ends (hends v (by simp [hnone]))).le
  generalize hpc : s.pc = pc, s'.pc = pc', hmap : s'.loadMaps = m,
    hnew : s'.newLoadMaps = m' at hgoes
  rw [hpc] at hm hle
  cases hgoes with
  | start => exact hmap
  | busy i => exact hmap.trans hm
  | busyEnd i =>
    have hnil : s'.loadMaps = [] := hmap.trans hm
    show s'.loadMaps.Sorted ∧ Zeros s' s'.loadMaps
    rw [hnil]
    exact ⟨List.Pairwise.nil, fun _ => nofun⟩
  | load i hi =>
    have hlooked := hload i (by simp [State.looked, hpc, m_works_eq hi])
    show s'.loadMaps.Sorted ∧ Zeros s' s'.loadMaps
    rw [hmap]
    exact ⟨LoadMap.sorted_insert hm.1, (hm.2.mono (hle rfl)).insert hlooked⟩
  | loadsEnd i | busyings kv kvs =>
    show s'.loadMaps.Sorted ∧ Zeros s' s'.loadMaps
    rw [hmap]
    exact ⟨hm.1, hm.2.mono (hle rfl)⟩
  | noneTaken =>
    show Zeros s' s'.loadMaps
    rw [hmap]
    exact hm.2.mono (hle rfl)
  | taken avg =>
    show ∀ kv ∈ s'.newLoadMaps, 0 < kv.1
    rw [hnew]
    intro kv hkv
    have hmem := (LoadMap.mem_foldl hkv).resolve_left List.not_mem_nil
    exact LoadMap.others_pos hm.1 kv hmem
  | assertLink w caller =>
    cases caller with
    | busyings kvs =>
      show s'.loadMaps.Sorted ∧ Zeros s' s'.loadMaps
      rw [hmap]
      exact ⟨hm.1, hm.2.mono (hle rfl)⟩
    | waiting n range => trivial
  | popNew w caller =>
    cases caller with
    | busyings kvs =>
      show s'.loadMaps.Sorted ∧ Zeros s' s'.loadMaps
      rw [hmap]
      exact ⟨hm.1, hm.2.mono fun v => steal_le (.inl hpc) hd⟩
    | waiting n range => trivial
  | assertAgain w caller =>
    cases caller with
    | busyings kvs =>
      show s'.loadMaps.Sorted ∧ Zeros s' s'.loadMaps
      rw [hmap]
      exact ⟨hm.1, hm.2.mono (hle rfl)⟩
    | waiting n range => split <;> trivial
  | popRunnable w caller =>
    cases caller with
    | busyings kvs =>
      show s'.loadMaps.Sorted ∧ Zeros s' s'.loadMaps
      rw [hmap]
      exact ⟨hm.1, hm.2.mono fun v => steal_le (.inr hpc) hd⟩
    | waiting n range => trivial
  | shareEnd phase range avg | shareBreak phase range kv it avg =>
    cases phase with
    | busy =>
      show ∀ kv ∈ s'.newLoadMaps, 0 < kv.1
      rw [hnew]
      exact hm
    | waiting => trivial
  | share phase range kv it avg hhead =>
    have hlooked := hload kv.2 (by simp [State.looked, hpc])
    cases phase with
    | busy =>
      have hpos : 0 < r.load := hlooked ▸ getRunnableNum_pos hinv hhead
      show ∀ kv ∈ s'.newLoadMaps, 0 < kv.1
      rw [hnew]
      intro x hx
      rcases LoadMap.mem_insert.mp hx with rfl | hx
      · exact hpos
      · exact hm x hx
    | waiting => trivial
  | leftoverBusy range =>
    show Zeros s' s'.newLoadMaps
    rw [hnew]
    intro kv hkv hzero
    have hpos := hm kv hkv
    omega
  | reload kv it =>
    have hlooked := hload kv.2 (by simp [State.looked, hpc])
    show Zeros s' s'.newLoadMaps
    rw [hnew]
    exact (Zeros.mono hm (hle rfl)).insert hlooked
  | reloadEnd =>
    show Zeros s' s'.loadMaps
    rw [hmap]
    exact Zeros.mono hm (hle rfl)
  | stop | leftoverWaiting range | noneIdle | idle w n | noneStolen range | stolen range avg
  | stopped => trivial

/-- Where an iteration has come to its second half, the queues are in order, and a load of 0 is that
of a worker without tasks. -/
theorem mapped_of_reachable (h : iteration.Reachable s) : Inv s ∧ s.pc.Mapped s := by
  apply System.Via.invariant (I := fun s => Inv s ∧ s.pc.Mapped s) _ _ h
  · rintro s ⟨s₀, r, h₀, hpc, hd⟩
    refine ⟨step_inv (e := .dispatch r) (inv_of_reachable h₀) hd, ?_⟩
    simp only [dispatch, hpc] at hd
    split at hd <;> cases hd <;> trivial
  · rintro s r s' ⟨hinv, hm⟩ - hs
    exact ⟨(alone_served hinv hs).2, alone_mapped hinv hm hs⟩

/-! ## The second half -/

/-- The iteration is at its end. -/
theorem IdlePhase.done (h : IdlePhase s rs s₂) (hpc : s.pc = .top) : s₂ = s := by
  cases rs with
  | nil => exact (Option.some.inj h.run).symm
  | cons r rs =>
    have hstep : iteration.step s r = none := if_pos hpc
    have hrun := h.run
    rw [System.run_cons, hstep] at hrun
    cases hrun

/-- It is not, and there is a next step. -/
theorem IdlePhase.next (h : IdlePhase s rs s₂) (hpc : s.pc ≠ .top) :
    ∃ r t rs', alone s r = some t ∧ IdlePhase t rs' s₂ := by
  cases rs with
  | nil =>
    obtain rfl := Option.some.inj h.run
    exact absurd h.pc hpc
  | cons r rs =>
    obtain ⟨t, ht, hrest⟩ := Option.bind_eq_some_iff.mp h.run
    exact ⟨r, t, rs, ht, hrest, h.pc⟩

/-- The worker's tasks stand where they stood. -/
def Kept (s s' : State) (v : ℕ) : Prop :=
  s'.items (.m_newQueue v) = s.items (.m_newQueue v) ∧
    s'.items (.m_runnableQueue v) = s.items (.m_runnableQueue v)

/-- A worker that keeps its tasks in two steps keeps them. -/
theorem Kept.trans (h : Kept s s₁ v) (h' : Kept s₁ s₂ v) : Kept s s₂ v :=
  ⟨h'.1.trans h.1, h'.2.trans h.2⟩

/-- A step keeps the tasks of a worker to which it does not write. -/
theorem kept_of_alone (h : Inv s) (hs : alone s r = some s') (hv : s.pc.written ≠ some v) :
    Kept s s' v := by
  obtain ⟨hserved, -⟩ := alone_served h hs
  obtain ⟨-, hd, -⟩ := alone_eq.mp hs
  obtain ⟨hnew, hrun⟩ := (dispatch_goes hd).2 v hv
  constructor
  · exact hserved.items_eq h (by simp) hnew
  · exact hserved.items_eq h (by simp) hrun

/-- The rest of the second half, when tasks have been stolen for the workers of `idle`. -/
def Pc.Shares (idle : List (ℕ × ℕ)) : Pc → Prop
  | .stolen range | .leftover .waiting range => range ⊆ idle
  | .share .waiting range it _ => range ⊆ idle ∧ it ⊆ idle
  | .top => True
  | _ => False

section Shares

variable {idle : List (ℕ × ℕ)}

/-- What is shared out goes to idle workers. -/
theorem alone_shares (hm : s.pc.Shares idle) (hs : alone s r = some s') :
    s'.pc.Shares idle ∧ ∀ v, s.pc.written = some v → ∃ kv ∈ idle, kv.2 = v := by
  obtain ⟨htop, hd, -⟩ := alone_eq.mp hs
  have hgoes := (dispatch_goes hd).1
  generalize hpc : s.pc = pc, s'.pc = pc', s'.loadMaps = m, s'.newLoadMaps = m' at hgoes hm
  cases hgoes with
  | stop | start => exact absurd hpc htop
  | noneStolen range => exact ⟨trivial, nofun⟩
  | stolen range avg => exact ⟨⟨hm, hm⟩, nofun⟩
  | shareEnd phase range avg =>
    cases phase with
    | busy => exact absurd hm id
    | waiting => exact ⟨hm.1, nofun⟩
  | shareBreak phase range kv it avg =>
    cases phase with
    | busy => exact absurd hm id
    | waiting =>
      refine ⟨hm.1, ?_⟩
      rintro v ⟨⟩
      exact ⟨kv, hm.2 List.mem_cons_self, rfl⟩
  | share phase range kv it avg hhead =>
    cases phase with
    | busy => exact absurd hm id
    | waiting =>
      refine ⟨⟨hm.1, (List.cons_subset.mp hm.2).2⟩, ?_⟩
      rintro v ⟨⟩
      exact ⟨kv, hm.2 List.mem_cons_self, rfl⟩
  | leftoverWaiting range =>
    refine ⟨trivial, fun v hv => ?_⟩
    cases range with
    | nil => cases hv
    | cons kv range =>
      cases hv
      exact ⟨kv, hm List.mem_cons_self, rfl⟩
  | _ => exact absurd hm id

/-- **When tasks are shared out**, the workers that are not meant keep theirs and get none. -/
theorem IdlePhase.kept (h : IdlePhase s rs s₂) (hinv : Inv s) (hm : s.pc.Shares idle)
    (hv : ∀ kv ∈ idle, kv.2 ≠ v) : Kept s s₂ v := by
  induction rs generalizing s with
  | nil =>
    obtain rfl := Option.some.inj h.run
    exact ⟨rfl, rfl⟩
  | cons r rs ih =>
    obtain ⟨t, ht, hrest⟩ := Option.bind_eq_some_iff.mp h.run
    obtain ⟨hshares, hwritten⟩ := alone_shares hm ht
    have hkept : Kept s t v := by
      apply kept_of_alone hinv ht
      intro heq
      obtain ⟨kv, hkv, rfl⟩ := hwritten v heq
      exact hv kv hkv rfl
    exact hkept.trans (ih ⟨hrest, h.pc⟩ (alone_served hinv ht).2 hshares)

end Shares

/-- What `steal(n)` leaves of a worker's tasks: nothing when `n` is 0, and else the runnable queue and
all but at most `n` of the new queue. -/
structure Robbed (s t : State) (w n : ℕ) : Prop where
  all : n = 0 → t.items (.m_newQueue w) = [] ∧ t.items (.m_runnableQueue w) = []
  some : 0 < n → t.items (.m_runnableQueue w) = s.items (.m_runnableQueue w) ∧
    ∃ rest, (s.items (.m_newQueue w)).length - n ≤ rest ∧
      t.items (.m_newQueue w) = (s.items (.m_newQueue w)).take rest

section Stealing

variable {n : ℕ} {range : List (ℕ × ℕ)}

/-- `popBack(n)` of the new queue. -/
theorem popNew_takes (h : Inv s) (hn : 0 < n) (hs : popNew s w (.waiting n range) = some s') :
    ∃ rest, (s.items (.m_newQueue w)).length - n ≤ rest ∧
      s'.items (.m_newQueue w) = (s.items (.m_newQueue w)).take rest := by
  obtain ⟨mem, q, l, rest, hpop, hrest, hq, -, -⟩ := Ends.popBackUnlock_exact (n := n % 2 ^ 32)
    (h.shape.exact (p := .m_newQueue w) (by simp)) (h.shape.exclusive.nodup _)
  have hcaller : 0 < (Caller.waiting n range).n := hn
  have hpop' : Ends.popBackUnlock s.mem (s.ends (.m_newQueue w))
      ((Caller.waiting n range).n % 2 ^ 32) = some (mem, q, l) := hpop
  simp only [popNew, if_pos hcaller, hpop', Option.bind_eq_bind, Option.bind_some,
    Option.some.injEq] at hs
  subst hs
  refine ⟨rest, ?_, ?_⟩
  · have hmod : n % 2 ^ 32 ≤ n := Nat.mod_le _ _
    rw [hrest]
    split <;> omega
  · simpa [State.items, State.setEnds] using hq.toHolds.items_eq

/-- `popBackAll` of the new queue. -/
theorem popNew_empties (h : Inv s) (hn : caller.n = 0) (hs : popNew s w caller = some s') :
    s'.items (.m_newQueue w) = [] := by
  have hexact := h.shape.exact (p := .m_newQueue w) (by simp)
  rw [popNew, if_neg (by omega), Ends.popBackAllUnlock_eq hexact] at hs
  cases hs
  simp [State.items, State.setEnds, Ends.items, Ends.zero, walk]

/-- `popBackAll` of the runnable queue. -/
theorem popRunnable_empties (h : Inv s) (hs : popRunnable s w caller = some s') :
    s'.items (.m_runnableQueue w) = [] ∧ s'.ends (.m_newQueue w) = s.ends (.m_newQueue w) := by
  have hexact := h.shape.exact (p := .m_runnableQueue w) (by simp)
  simp only [popRunnable, Ends.popBackAllUnlock_eq hexact, Option.bind_eq_bind,
    Option.bind_eq_some_iff] at hs
  obtain ⟨x, -, u, -, y, -, u', -, hs⟩ := hs
  cases hs
  constructor
  · simp [State.items, State.setEnds, Ends.items, Ends.zero, walk]
  · simp [State.setEnds]

/-- **`steal(n)`**, from its first assertion on.
SOURCE: operation/worker.cc:217-247 -/
theorem IdlePhase.steal (h : IdlePhase s rs s₂) (hinv : Inv s)
    (hpc : s.pc = .assertLink w (.waiting n range)) :
    ∃ t rs', IdlePhase t rs' s₂ ∧ Inv t ∧ t.pc = .stolen range ∧ Robbed s t w n ∧
      ∀ v, v ≠ w → Kept s t v := by
  -- the first assertion
  obtain ⟨r₁, s₁, rs₁, hs₁, h₁⟩ := h.next (by simp [hpc])
  have hinv₁ := (alone_served hinv hs₁).2
  have hkept₁ : ∀ v, Kept s s₁ v := fun v => kept_of_alone hinv hs₁ (by simp [hpc, Pc.written])
  have hpc₁ : s₁.pc = .popNew w (.waiting n range) := by
    obtain ⟨-, hd, -⟩ := alone_eq.mp hs₁
    simp only [dispatch, hpc, Option.bind_eq_bind, Option.bind_eq_some_iff] at hd
    obtain ⟨u, -, hd⟩ := hd
    cases hd
    rfl
  -- the new queue
  obtain ⟨r₂, s₂', rs₂, hs₂, h₂⟩ := h₁.next (by simp [hpc₁])
  have hinv₂ := (alone_served hinv₁ hs₂).2
  have hpop : popNew s₁ w (.waiting n range) = some s₂' := by
    obtain ⟨-, hd, -⟩ := alone_eq.mp hs₂
    simpa only [dispatch, hpc₁] using hd
  have hkept₂ : ∀ v, v ≠ w → Kept s₁ s₂' v :=
    fun v hv => kept_of_alone hinv₁ hs₂ (by simp [hpc₁, Pc.written, Ne.symm hv])
  have hrun₂ : s₂'.items (.m_runnableQueue w) = s₁.items (.m_runnableQueue w) := by
    apply (alone_served hinv₁ hs₂).1.items_eq hinv₁ (by simp)
    unfold popNew at hpop
    split at hpop
    · obtain ⟨x, -, hpop⟩ := Option.bind_eq_some_iff.mp hpop
      cases hpop
      simp [State.setEnds]
    · cases hpop
      simp [State.setEnds]
  have hpc₂ : s₂'.pc = .assertAgain w (.waiting n range) := by
    unfold popNew at hpop
    split at hpop
    · obtain ⟨x, -, hpop⟩ := Option.bind_eq_some_iff.mp hpop
      cases hpop
      rfl
    · cases hpop
      rfl
  -- the second assertion
  obtain ⟨r₃, s₃, rs₃, hs₃, h₃⟩ := h₂.next (by simp [hpc₂])
  have hinv₃ := (alone_served hinv₂ hs₃).2
  have hkept₃ : ∀ v, Kept s₂' s₃ v := fun v => kept_of_alone hinv₂ hs₃ (by simp [hpc₂, Pc.written])
  have hpc₃ : s₃.pc = if 0 < n then .stolen range else .popRunnable w (.waiting n range) := by
    obtain ⟨-, hd, -⟩ := alone_eq.mp hs₃
    simp only [dispatch, hpc₂, Option.bind_eq_bind, Option.bind_eq_some_iff] at hd
    obtain ⟨u, -, hd⟩ := hd
    cases hd
    rfl
  have hkept : ∀ v, v ≠ w → Kept s s₃ v := fun v hv =>
    (hkept₁ v).trans ((hkept₂ v hv).trans (hkept₃ v))
  rcases Nat.eq_zero_or_pos n with hn | hn
  · -- the runnable queue
    rw [if_neg (by omega)] at hpc₃
    obtain ⟨r₄, t, rs₄, hs₄, h₄⟩ := h₃.next (by simp [hpc₃])
    have hinv₄ := (alone_served hinv₃ hs₄).2
    have hpop' : popRunnable s₃ w (.waiting n range) = some t := by
      obtain ⟨-, hd, -⟩ := alone_eq.mp hs₄
      simpa only [dispatch, hpc₃] using hd
    obtain ⟨hrun, hnew⟩ := popRunnable_empties hinv₃ hpop'
    have hnew' := (alone_served hinv₃ hs₄).1.items_eq hinv₃ (by simp) hnew
    refine ⟨t, rs₄, h₄, hinv₄, ?_, ⟨fun _ => ⟨?_, hrun⟩, fun hpos => by omega⟩, fun v hv => ?_⟩
    · simp only [popRunnable, Option.bind_eq_bind, Option.bind_eq_some_iff] at hpop'
      obtain ⟨x, -, u, -, y, -, u', -, hpop'⟩ := hpop'
      cases hpop'
      rfl
    · have hzero : (Caller.waiting n range).n = 0 := hn
      rw [hnew', (hkept₃ w).1]
      exact popNew_empties hinv₁ hzero hpop
    · refine (hkept v hv).trans (kept_of_alone hinv₃ hs₄ ?_)
      simp [hpc₃, Pc.written, Ne.symm hv]
  · rw [if_pos hn] at hpc₃
    refine ⟨s₃, rs₃, h₃, hinv₃, hpc₃, ⟨fun hzero => by omega, fun _ => ⟨?_, ?_⟩⟩, hkept⟩
    · rw [(hkept₃ w).2, hrun₂, (hkept₁ w).2]
    · obtain ⟨rest, hle, hitems⟩ := popNew_takes hinv₁ hn hpop
      rw [(hkept₁ w).1] at hle hitems
      exact ⟨rest, hle, (hkept₃ w).1.trans hitems⟩

end Stealing

/-- Tasks are stolen: the least load in the map is 0, and not all are. -/
def Acts (s : State) : Prop :=
  (∃ kv, s.loadMaps.head? = some kv ∧ kv.1 = 0) ∧ s.loadMaps.least.length ≠ s.loadMaps.length

/-- A worker is robbed once, if nothing else happens to it. -/
theorem Robbed.trans {t : State} {n : ℕ} (hbefore : Kept s s₁ w) (h : Robbed s₁ t w n)
    (hafter : Kept t s₂ w) : Robbed s s₂ w n := by
  refine ⟨fun hn => ?_, fun hn => ?_⟩
  · obtain ⟨hnew, hrun⟩ := h.all hn
    exact ⟨hafter.1.trans hnew, hafter.2.trans hrun⟩
  · obtain ⟨hrun, rest, hle, hnew⟩ := h.some hn
    rw [hbefore.1] at hle hnew
    exact ⟨hafter.2.trans (hrun.trans hbefore.2), rest, hle, hafter.1.trans hnew⟩

/-- **The second half**: nothing changes, or a part is stolen of the tasks of the worker that comes
last in the map, and nobody else's.
SOURCE: operation/worker.cc:56-58 -/
theorem idlePhase_result (h₁ : iteration.Reachable s₁) (hpc : s₁.pc = .balance)
    (h : IdlePhase s₁ rs s₂) :
    ¬ Acts s₁ ∧ (∀ v, Kept s₁ s₂ v) ∨
      Acts s₁ ∧ ∃ max, s₁.loadMaps.getLast? = some max ∧
        (∀ v, v ≠ max.2 → s₁.getRunnableNum v ≠ 0 → Kept s₁ s₂ v) ∧
        (s₁.getRunnableNum max.2 ≠ 0 → Robbed s₁ s₂ max.2
          (min (s₁.getRunnableNum max.2 / 2) (s₁.loadMaps.least.length * 1024))) := by
  obtain ⟨hinv, hm⟩ := mapped_of_reachable h₁
  have hzeros : Zeros s₁ s₁.loadMaps := by
    rw [hpc] at hm
    exact hm
  obtain ⟨r, t, rs', ht, hrest⟩ := h.next (by simp [hpc])
  have hinv' := (alone_served hinv ht).2
  have hkept : ∀ v, Kept s₁ t v := fun v => kept_of_alone hinv ht (by simp [hpc, Pc.written])
  obtain ⟨-, hd, hload⟩ := alone_eq.mp ht
  simp only [dispatch, hpc] at hd
  split at hd
  · cases hd
  · next kv m hmap =>
    split at hd
    · next hnot =>
      cases hd
      obtain rfl := hrest.done rfl
      refine .inl ⟨?_, hkept⟩
      rintro ⟨⟨kv', hkv, hzero⟩, hlen⟩
      rw [hmap] at hkv
      cases hkv
      exact hnot.elim (fun hne => hne hzero) hlen
    · next hacts =>
      obtain ⟨hzero, hlen⟩ := not_or.mp hacts
      have hhead : s₁.loadMaps.head? = some kv := by rw [hmap]; rfl
      simp only [Option.bind_eq_bind, Option.bind_eq_some_iff] at hd
      obtain ⟨max, hmax, w, hw, hd⟩ := hd
      obtain rfl := m_works_some hw
      have hlooked : r.load = t.getRunnableNum max.2 := by
        apply hload
        simp [State.looked, hpc, hmax]
      have hsame : t.getRunnableNum max.2 = s₁.getRunnableNum max.2 := by
        rw [← length_runnables hinv', ← length_runnables hinv, State.runnables, State.runnables,
          (hkept max.2).1, (hkept max.2).2]
      rw [hlooked, hsame] at hd
      have hpc' : t.pc = .assertLink max.2 (.waiting
          (min (s₁.getRunnableNum max.2 / 2) (s₁.loadMaps.least.length * 1024))
          s₁.loadMaps.least) := by
        cases hd
        rfl
      refine .inr ⟨⟨⟨kv, hhead, not_not.mp hzero⟩, hlen⟩, max, hmax, ?_⟩
      obtain ⟨u, rs₂, hu, hinvu, hpcu, hrobbed, hothers⟩ := hrest.steal hinv' hpc'
      have hidle : ∀ v, s₁.getRunnableNum v ≠ 0 → Kept u s₂ v := by
        intro v hv
        have hshares : u.pc.Shares s₁.loadMaps.least := by
          rw [hpcu]
          exact fun x hx => hx
        apply hu.kept hinvu hshares
        · rintro x hx rfl
          obtain ⟨hmem, heq⟩ := LoadMap.least_eq hhead hx
          exact hv (hzeros x hmem (heq.trans (not_not.mp hzero)))
      constructor
      · intro v hv hne
        exact (hkept v).trans ((hothers v hv).trans (hidle v hne))
      · intro hne
        exact hrobbed.trans (hkept _) (hidle _ hne)

/-! ## What a worker loses -/

/-- From a worker that keeps its tasks nothing is removed. -/
theorem removed_of_kept (h : Kept s s' v) : removed s s' v = [] := by
  rw [removed, State.runnables, State.runnables, h.1, h.2, List.filter_eq_nil_iff]
  intro a ha
  simp [ha]

/-- Of a list of which `rest` stays, at most the others are lost. -/
theorem length_removed_le {rest : ℕ} (hrun : s'.items (.m_runnableQueue w) =
    s.items (.m_runnableQueue w)) (hnew : s'.items (.m_newQueue w) =
      (s.items (.m_newQueue w)).take rest) :
    (removed s s' w).length ≤ (s.items (.m_newQueue w)).length - rest := by
  rw [removed, State.runnables, State.runnables, hrun, hnew, List.filter_append,
    List.length_append]
  have hkept : (s.items (.m_runnableQueue w)).filter (fun a => decide (a ∉
      (s.items (.m_newQueue w)).take rest ++ s.items (.m_runnableQueue w))) = [] := by
    rw [List.filter_eq_nil_iff]
    intro a ha
    simp [ha]
  rw [hkept, List.length_nil, Nat.add_zero]
  conv_lhs => rw [← List.take_append_drop rest (s.items (.m_newQueue w))]
  rw [List.filter_append, List.length_append]
  have hfirst : ((s.items (.m_newQueue w)).take rest).filter (fun a => decide (a ∉
      ((s.items (.m_newQueue w)).take rest ++ (s.items (.m_newQueue w)).drop rest).take rest ++
        s.items (.m_runnableQueue w))) = [] := by
    rw [List.filter_eq_nil_iff, List.take_append_drop]
    intro a ha
    simp [ha]
  rw [hfirst, List.length_nil, Nat.zero_add, ← List.length_drop]
  exact List.length_filter_le _ _

/-- A worker that has no tasks left has lost all it had.
SOURCE: operation/worker.cc:56-58 -/
theorem length_removed_all (hinv : Inv s) (hnew : s'.items (.m_newQueue w) = [])
    (hrun : s'.items (.m_runnableQueue w) = []) :
    (removed s s' w).length = s.getRunnableNum w := by
  rw [removed, State.runnables, hnew, hrun, ← length_runnables hinv]
  simp [State.runnables]

/-- Nor from one that has none.
SOURCE: operation/worker.cc:56-58 -/
theorem removed_of_none (hinv : Inv s) (h : s.getRunnableNum v = 0) : removed s s' v = [] := by
  rw [← length_runnables hinv, List.length_eq_zero_iff] at h
  rw [removed, h]
  rfl

/-- The number that is asked for is 0 only when the load is 1, or there is none. -/
theorem stealN_eq_zero {load len : ℕ} (hlen : 0 < len) :
    min (load / 2) (len * 1024) = 0 ↔ load ≤ 1 := by
  omega

/-! ## The second half comes to an end -/

/-- How many steps there are at most to the end of the iteration; `none` in its first half. -/
def State.left (s : State) : Option ℕ :=
  match s.pc with
  | .balance => some (s.loadMaps.least.length + 8)
  | .assertLink _ (.waiting _ range) => some (range.length + 7)
  | .popNew _ (.waiting _ range) => some (range.length + 6)
  | .assertAgain _ (.waiting _ range) => some (range.length + 5)
  | .popRunnable _ (.waiting _ range) => some (range.length + 4)
  | .stolen range => some (range.length + 3)
  | .share .waiting _ it _ => some (it.length + 2)
  | .leftover .waiting _ => some 1
  | .top => some 0
  | _ => none

/-- **Each step of the second half** leaves fewer steps to do.
SOURCE: operation/scheduler.cc:103-201 -/
theorem dispatch_left {n : ℕ} (hd : dispatch s r = some s') (hpc : s.pc ≠ .top)
    (hn : s.left = some n) : ∃ m, s'.left = some m ∧ m < n := by
  have hgoes := (dispatch_goes hd).1
  unfold State.left at hn ⊢
  generalize s.pc = pc, s'.pc = pc', s'.loadMaps = m, s'.newLoadMaps = m' at hgoes hn hpc ⊢
  cases hgoes with
  | stop | start => exact absurd rfl hpc
  | noneIdle =>
    cases hn
    exact ⟨0, rfl, by omega⟩
  | idle w n =>
    cases hn
    exact ⟨_, rfl, by omega⟩
  | assertLink w caller | popNew w caller | popRunnable w caller =>
    cases caller with
    | busyings kvs => cases hn
    | waiting k range =>
      cases hn
      exact ⟨_, rfl, by omega⟩
  | assertAgain w caller =>
    cases caller with
    | busyings kvs => cases hn
    | waiting k range =>
      cases hn
      by_cases hk : 0 < (Caller.waiting k range).n
      · rw [if_pos hk]
        exact ⟨_, rfl, by omega⟩
      · rw [if_neg hk]
        exact ⟨_, rfl, by omega⟩
  | noneStolen range =>
    cases hn
    exact ⟨0, rfl, by omega⟩
  | stolen range avg =>
    cases hn
    exact ⟨_, rfl, by omega⟩
  | shareEnd phase range avg | shareBreak phase range kv it avg =>
    cases phase with
    | busy => cases hn
    | waiting =>
      cases hn
      exact ⟨1, rfl, by simp⟩
  | share phase range kv it avg hhead =>
    cases phase with
    | busy => cases hn
    | waiting =>
      cases hn
      exact ⟨_, rfl, by simp⟩
  | leftoverWaiting range =>
    cases hn
    exact ⟨0, rfl, by omega⟩
  | _ => cases hn

/-- A step can be done whatever is read, so also when the load that is read is the worker's. -/
theorem exists_alone {n : ℕ} (h : Inv s) (hpc : s.pc ≠ .top) (hn : s.left = some n) :
    ∃ r t, alone s r = some t := by
  obtain ⟨t, ht, -⟩ := dispatch_served h ⟨false, false, 0⟩
  cases hl : s.looked with
  | none => exact ⟨_, t, alone_eq.mpr ⟨hpc, ht, fun w hw => by rw [hl] at hw; cases hw⟩⟩
  | some w =>
    rw [State.looked] at hl
    split at hl
    · next heq => simp [State.left, heq] at hn
    · next heq => simp [State.left, heq] at hn
    · next phase range kv it avg heq =>
      cases phase with
      | busy => simp [State.left, heq] at hn
      | waiting =>
        refine ⟨⟨false, false, t.getRunnableNum kv.2⟩, t, alone_eq.mpr ⟨hpc, ?_, ?_⟩⟩
        · simp only [dispatch, heq] at ht ⊢
          exact ht
        · intro v hv
          simp only [State.looked, heq, Option.some.injEq] at hv
          rw [← hv]
    · next heq => simp [State.left, heq] at hn
    · next heq =>
      obtain ⟨t, ht, -⟩ := dispatch_served h ⟨false, false, s.getRunnableNum w⟩
      refine ⟨_, t, alone_eq.mpr ⟨hpc, ht, fun v hv => ?_⟩⟩
      rw [State.looked, heq] at hv
      obtain rfl : w = v := Option.some.inj (hl.symm.trans hv)
      exact (getRunnableNum_of_ends ((dispatch_goes ht).2 _ (by simp [heq, Pc.written]))).symm
    · cases hl

/-- An iteration comes to its end.
SOURCE: operation/scheduler.cc:103-219 -/
theorem exists_idlePhase {n : ℕ} (h : Inv s) (hn : s.left = some n) :
    ∃ rs s', IdlePhase s rs s' := by
  induction n using Nat.strong_induction_on generalizing s with
  | _ n ih =>
    by_cases hpc : s.pc = .top
    · exact ⟨[], s, rfl, hpc⟩
    · obtain ⟨r, t, ht⟩ := exists_alone h hpc hn
      obtain ⟨-, hd, -⟩ := alone_eq.mp ht
      obtain ⟨m, hm, hlt⟩ := dispatch_left hd hpc hn
      obtain ⟨rs, s', hrun, hend⟩ := ih m hlt (alone_served h ht).2 hm
      refine ⟨r :: rs, s', ?_, hend⟩
      have hstep : iteration.step s r = some t := ht
      rw [System.run_cons, hstep]
      exact hrun

/-- What is lost is too much exactly where a single task is. -/
theorem atMostHalf_iff (h₁ : iteration.Reachable s₁) (hpc : s₁.pc = .balance)
    (h : IdlePhase s₁ rs s₂) : AtMostHalf s₁ s₂ ↔ ¬ OneTask s₁ := by
  obtain ⟨hinv, -⟩ := mapped_of_reachable h₁
  rcases idlePhase_result h₁ hpc h with ⟨hnot, hkept⟩ | ⟨hacts, max, hmax, hothers, hrobbed⟩
  · refine iff_of_true ⟨fun w => ?_, fun w _ => hkept w⟩ fun hone => hnot ⟨hone.1, hone.2.1⟩
    rw [removed_of_kept (hkept w)]
    exact Nat.zero_le _
  · have hlen : 0 < s₁.loadMaps.least.length := by
      apply List.length_pos_iff.mpr
      apply LoadMap.least_ne_nil
      rintro hnil
      rw [hnil] at hmax
      cases hmax
    constructor
    · rintro hhalf ⟨-, -, max', hmax', hone⟩
      obtain rfl : max = max' := Option.some.inj (hmax.symm.trans hmax')
      obtain ⟨hnew, hrun⟩ := (hrobbed (by omega)).all ((stealN_eq_zero hlen).mpr hone.le)
      have hall := length_removed_all hinv hnew hrun
      have hle := hhalf.half max.2
      omega
    · intro hone
      have hmore : s₁.getRunnableNum max.2 ≠ 1 := fun heq => hone ⟨hacts.1, hacts.2, max, hmax, heq⟩
      refine ⟨fun w => ?_, fun w hw => ?_⟩
      · by_cases hload : s₁.getRunnableNum w = 0
        · rw [removed_of_none hinv hload]
          exact Nat.zero_le _
        · by_cases hw : w = max.2
          · subst hw
            have hpos : 0 < min (s₁.getRunnableNum max.2 / 2)
                (s₁.loadMaps.least.length * 1024) := by
              rw [Nat.pos_iff_ne_zero, Ne, stealN_eq_zero hlen]
              omega
            obtain ⟨hrun, rest, hle, hnew⟩ := (hrobbed hload).some hpos
            have hlost := length_removed_le hrun hnew
            omega
          · rw [removed_of_kept (hothers w hw hload)]
            exact Nat.zero_le _
      · apply hothers w
        · rintro rfl
          exact hmore hw
        · omega

/-- **Idle balancing takes at most half**, with no worker's step in between, exactly when it is not
the case that the least load in the map is 0, not all loads are, and the worker that comes last in
the map has one task; and it comes to an end.
SOURCE: operation/scheduler.cc:179-210, operation/worker.cc:217-247 -/
theorem idle_half {s₁ : State} (h : iteration.Reachable s₁) (hpc : s₁.pc = .balance) :
    (∃ rs s₂, IdlePhase s₁ rs s₂) ∧
      ∀ rs s₂, IdlePhase s₁ rs s₂ → (AtMostHalf s₁ s₂ ↔ ¬ OneTask s₁) := by
  constructor
  · exact exists_idlePhase (mapped_of_reachable h).1 (by rw [State.left, hpc])
  · intro rs s₂ hphase
    exact atMostHalf_iff h hpc hphase

/-- Two workers, and `n` tasks for the first: the dispatcher finds nobody busy, and reads both
loads. -/
def loaded (n : ℕ) : Option State := do
  let s₀ ← (system.run start (List.replicate n (.work (.createTask 0)))).filter (·.pc = .top)
  let s ← dispatch s₀ ⟨false, false, 0⟩
  iteration.run s ([n, 0, 0, n, 0, 0, 0].map (⟨false, false, ·⟩))

/-- A state with so many tasks can be reached. -/
theorem exists_loaded {n : ℕ} (p : State → Bool) (h : (loaded n).any p = true) :
    ∃ s, iteration.Reachable s ∧ p s = true := by
  obtain ⟨s, hs, hp⟩ := (Option.any_eq_true _ _).mp h
  simp only [loaded, Option.bind_eq_bind, Option.bind_eq_some_iff, Option.filter_eq_some_iff] at hs
  obtain ⟨s₀, ⟨hrun, hpc⟩, s₁, hd, hrest⟩ := hs
  refine ⟨s, ?_, hp⟩
  have hinit : system.init start := start_starts
  have hstart : iteration.init s₁ :=
    ⟨s₀, _, System.reachable_of_run hinit hrun, by simpa using hpc, hd⟩
  exact System.reachable_of_run hstart hrest

/-- Three tasks: the idle worker takes one of them at most.
SOURCE: operation/worker.cc:56-58 -/
theorem idle_half_three : ∃ s₁ s₂ rs, iteration.Reachable s₁ ∧ s₁.getRunnableNum 0 = 3 ∧
    IdlePhase s₁ rs s₂ ∧ AtMostHalf s₁ s₂ := by
  obtain ⟨s₁, h₁, hp⟩ := exists_loaded (n := 3) (fun s => s.pc = .balance ∧
    s.loadMaps = [(0, 1), (3, 0)] ∧ s.getRunnableNum 0 = 3) (by decide)
  obtain ⟨hpc, hmap, hnum⟩ : s₁.pc = .balance ∧ s₁.loadMaps = [(0, 1), (3, 0)] ∧
      s₁.getRunnableNum 0 = 3 := by simpa using hp
  obtain ⟨⟨rs, s₂, hphase⟩, hhalf⟩ := idle_half h₁ hpc
  refine ⟨s₁, s₂, rs, h₁, hnum, hphase, (hhalf rs s₂ hphase).mpr ?_⟩
  rintro ⟨-, -, max, hmax, hone⟩
  rw [hmap] at hmax
  cases hmax
  have hone : s₁.getRunnableNum 0 = 1 := hone
  omega

/-- One task: the idle worker takes it. -/
theorem idle_takes_last : ¬ ∀ (s₁ s₂ : State) (rs : List Reads), iteration.Reachable s₁ →
    s₁.pc = .balance → IdlePhase s₁ rs s₂ → AtMostHalf s₁ s₂ := by
  intro hall
  obtain ⟨s₁, h₁, hp⟩ := exists_loaded (n := 1) (fun s => s.pc = .balance ∧
    s.loadMaps = [(0, 1), (1, 0)] ∧ s.getRunnableNum 0 = 1) (by decide)
  obtain ⟨hpc, hmap, hnum⟩ : s₁.pc = .balance ∧ s₁.loadMaps = [(0, 1), (1, 0)] ∧
      s₁.getRunnableNum 0 = 1 := by simpa using hp
  obtain ⟨rs, s₂, hphase⟩ := exists_idlePhase (mapped_of_reachable h₁).1
    (by rw [State.left, hpc])
  apply (atMostHalf_iff h₁ hpc hphase).mp (hall s₁ s₂ rs h₁ hpc hphase)
  refine ⟨⟨(0, 1), ?_, rfl⟩, ?_, (1, 0), ?_, hnum⟩
  · rw [hmap]
    rfl
  · rw [hmap]
    decide
  · rw [hmap]
    rfl

end MagicNet.Dispatcher
