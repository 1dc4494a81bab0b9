import MagicNet.Analysis.WorkerQueues

/-!
# Balancing the load keeps the tasks

Each step of the dispatcher is a move of tasks from one queue or list to the end of another, or
touches none.  On the way it splits and joins linked lists; it can always do so, whatever the
workers have done in between, because the queues are in shape.  Its local lists are empty
wherever they go out of scope, and the load map it divides by the size of is never empty.
-/

set_option autoImplicit false

namespace MagicNet.Dispatcher

open MagicNet.Foundation MagicNet.Util
open MagicNet.Worker (Place Sound Ended)

variable {s s' : State} {w : ℕ} {caller : Caller}

/-! ## The load map -/

/-- The entries are entries of workers. -/
def Known (works : ℕ) (m : List (ℕ × ℕ)) : Prop := ∀ kv ∈ m, kv.2 < works

namespace LoadMap

variable {m : LoadMap} {kv : ℕ × ℕ} {works : ℕ}

/-- What is in a map after an insert. -/
theorem mem_insert {x : ℕ × ℕ} : x ∈ m.insert kv ↔ x = kv ∨ x ∈ m := by
  have hsplit : x ∈ m ↔ x ∈ m.takeWhile (·.1 ≤ kv.1) ∨ x ∈ m.dropWhile (·.1 ≤ kv.1) := by
    conv_lhs => rw [← List.takeWhile_append_dropWhile (p := (·.1 ≤ kv.1)) (l := m)]
    rw [List.mem_append]
  rw [insert, List.mem_append, List.mem_cons, hsplit]
  tauto

/-- A map is not empty after one. -/
theorem insert_ne_nil : m.insert kv ≠ [] := by
  simp [insert]

/-- A known worker is inserted. -/
theorem known_insert (h : Known works m) (hkv : kv.2 < works) : Known works (m.insert kv) := by
  intro x hx
  rcases mem_insert.mp hx with rfl | hx
  · exact hkv
  · exact h x hx

/-- Several are. -/
theorem known_foldl {l : List (ℕ × ℕ)} (hm : Known works m) (hl : Known works l) :
    Known works (l.foldl insert m) := by
  induction l generalizing m with
  | nil => exact hm
  | cons kv l ih =>
    apply ih (known_insert hm (hl kv List.mem_cons_self))
    exact fun x hx => hl x (List.mem_cons_of_mem kv hx)

/-- Those with the least load are known. -/
theorem known_least (h : Known works m) : Known works m.least := by
  cases m with
  | nil => exact h
  | cons kv m =>
    intro x hx
    rcases List.mem_cons.mp hx with rfl | hx
    · exact h _ List.mem_cons_self
    · exact h x (List.mem_cons_of_mem kv ((List.takeWhile_sublist _).subset hx))

/-- So are the others. -/
theorem known_others (h : Known works m) : Known works m.others := by
  cases m with
  | nil => exact h
  | cons kv m => exact fun x hx => h x (List.mem_cons_of_mem kv ((List.dropWhile_sublist _).subset hx))

/-- Some worker has the least load. -/
theorem least_ne_nil (h : m ≠ []) : m.least ≠ [] := by
  cases m with
  | nil => exact h
  | cons kv m => simp [least]

end LoadMap

/-- An average over somebody can be taken.
SOURCE: operation/scheduler.cc:103-219 -/
theorem average_eq (size : ℕ) {n : ℕ} (hn : n ≠ 0) : ∃ avg, average size n = some avg := by
  rw [average, if_neg hn]
  exact ⟨_, rfl⟩

/-! ## The dispatcher's locals -/

/-- The workers that tasks are shared out among. -/
def Range (works : ℕ) (range : List (ℕ × ℕ)) : Prop := range ≠ [] ∧ Known works range

def Caller.Fits (works : ℕ) (loadMaps : LoadMap) : Caller → Prop
  | .busyings kvs => (∀ kv ∈ kvs, kv.1 < works) ∧ loadMaps ≠ []
  | .waiting _ range => Range works range

/-- What the place in `dispatcherWork` says about its locals. -/
def Pc.Fits (works : ℕ) (loadMaps newLoadMaps : LoadMap) : Pc → Prop
  | .top | .busy _ | .stopped => True
  | .loads i => i = 0 ∨ loadMaps ≠ []
  | .busyings kvs => (Caller.busyings kvs).Fits works loadMaps
  | .assertLink w caller | .popNew w caller | .assertAgain w caller =>
    w < works ∧ caller.Fits works loadMaps
  | .popRunnable w caller => w < works ∧ caller.Fits works loadMaps ∧ caller.n = 0
  | .share _ range it _ => Range works range ∧ Known works it
  | .leftover _ range | .stolen range => Range works range
  | .reload it => Known works it ∧ (it = [] → newLoadMaps ≠ [])
  | .balance => loadMaps ≠ []

/-- The list `tasks` is in scope, and may hold tasks. -/
def Pc.HasTasks : Pc → Prop
  | .busyings _ | .share _ _ _ _ | .leftover _ _ | .stolen _ => True
  | .assertLink _ (.busyings _) | .popNew _ (.busyings _) | .popRunnable _ (.busyings _) => True
  | .assertAgain _ (.busyings _) => True
  | .assertAgain _ (.waiting n _) => 0 < n
  | _ => False

structure Locals (s : State) : Prop where
  works : 0 < s.works
  busyings : ∀ kv ∈ s.busyings, kv.1 < s.works
  loadMaps : Known s.works s.loadMaps
  newLoadMaps : Known s.works s.newLoadMaps
  pc : s.pc.Fits s.works s.loadMaps s.newLoadMaps
  tasks : ¬ s.pc.HasTasks → s.items .tasks = []
  steal_list : s.pc.stealing = none → s.items .steal_list = []

/-- Nothing is on its way between two queues of a worker that is not in `moveRunnable`. -/
def Settled (a : Worker.State) : Prop := ∀ w, a.pc w ≠ .moving → a.queue (.moving w) = []

structure Inv (s : State) : Prop where
  shape : Shape s.mem s.ends s.items
  sound : Sound s.workers
  ended : Ended s.workers
  settled : Settled s.workers
  locals : Locals s

/-- The step of the dispatcher has kept its locals in order and the queues in shape; to the workers
it is no step, or a step that `Model.Worker` has for it; and it has kept the tasks. -/
structure Served (s s' : State) : Prop where
  shape : Shape s'.mem s'.ends s'.items
  workers : s'.workers = s.workers ∨
    ∃ e, IsDispatcher e ∧ Worker.step s.workers e = some s'.workers
  locals : Locals s'
  queued : queued s' = queued s

/-- A number below the number of workers is a worker.
SOURCE: operation/scheduler.cc:97-101 -/
theorem m_works_eq (h : w < s.works) : s.m_works w = some w := if_pos h

/-- A state serves itself. -/
theorem Inv.served (h : Inv s) : Served s s := ⟨h.shape, .inl rfl, h.locals, rfl⟩

/-- The dispatcher goes on, and touches no list. -/
theorem Served.goto {pc : Pc} {busyings : List (ℕ × ℕ)} {loadMaps newLoadMaps : LoadMap}
    (h : Served s s') (hstealing : pc.stealing = s'.pc.stealing)
    (hbusyings : ∀ kv ∈ busyings, kv.1 < s'.works) (hload : Known s'.works loadMaps)
    (hnew : Known s'.works newLoadMaps)
    (hfits : pc.Fits s'.works loadMaps newLoadMaps)
    (htasks : ¬ pc.HasTasks → s'.items .tasks = []) :
    Served s { s' with
      pc := pc, busyings := busyings, loadMaps := loadMaps, newLoadMaps := newLoadMaps } := by
  have hworkers : State.workers { s' with
      pc := pc, busyings := busyings, loadMaps := loadMaps, newLoadMaps := newLoadMaps } =
      s'.workers := workers_eq rfl rfl rfl rfl rfl rfl rfl hstealing
  refine ⟨h.shape, ?_, ⟨h.locals.works, hbusyings, hload, hnew, hfits, htasks, ?_⟩, h.queued⟩
  · rw [hworkers]
    exact h.workers
  · intro hnone
    exact h.locals.steal_list (hstealing.symm.trans hnone)

/-- The same, with the load maps as they are. -/
theorem Served.goto_pc {pc : Pc} (h : Served s s') (hstealing : pc.stealing = s'.pc.stealing)
    (hfits : pc.Fits s'.works s'.loadMaps s'.newLoadMaps)
    (htasks : ¬ pc.HasTasks → s'.items .tasks = []) :
    Served s { s' with pc := pc } :=
  h.goto hstealing h.locals.busyings h.locals.loadMaps h.locals.newLoadMaps hfits htasks

/-- What the place of the dispatcher says about its locals. -/
theorem Inv.fits {pc : Pc} (h : Inv s) (hpc : s.pc = pc) :
    pc.Fits s.works s.loadMaps s.newLoadMaps := hpc ▸ h.locals.pc

/-- Where it has none, `tasks` is empty. -/
theorem Inv.no_tasks {pc : Pc} (h : Inv s) (hpc : s.pc = pc) :
    ¬ pc.HasTasks → s.items .tasks = [] := hpc ▸ h.locals.tasks

/-- `tasks` goes out of scope, empty. -/
theorem leave_eq (hshape : Shape s.mem s.ends s.items) (htasks : s.items .tasks = []) (pc : Pc) :
    leave s pc = some { s with pc := pc } := by
  have hholds := hshape.holds .tasks
  rw [htasks] at hholds
  simp [leave, hholds.destroy]

/-! ## Taking tasks away -/

/-- The new queue of a worker is one of the places. -/
theorem mem_newQueue (hw : w < s.works) : Place.m_newQueue w ∈ places s.works := by
  simp [places, hw]

/-- So is its runnable queue. -/
theorem mem_runnableQueue (hw : w < s.works) : Place.m_runnableQueue w ∈ places s.works := by
  simp [places, hw]

/-- So is the list that `steal` begins with.
SOURCE: operation/worker.cc:217-247 -/
theorem mem_steal_list : Place.steal_list ∈ places s.works := by simp [places]

/-- So is the dispatcher's own. -/
theorem mem_tasks : Place.tasks ∈ places s.works := by simp [places]

/-- A step that has moved tasks from `p` to the end of `p'`. -/
theorem queued_move {p p' : Place} {moved rest : List ℕ} (hworks : s'.works = s.works)
    (hitems : s'.items = moveTable s.items p p' moved rest) (hp : p ∈ places s.works)
    (hp' : p' ∈ places s.works) (hne : p ≠ p') (hperm : (s.items p).Perm (moved ++ rest)) :
    queued s' = queued s := by
  rw [queued, queued, hworks, hitems]
  exact tally_move hp hp' hne hperm

/-- A step that moves tasks from one queue or list to the end of another. -/
theorem Inv.moved {p p' : Place} {moved rest : List ℕ} {mem : Memory ℕ} {q q' : Ends ℕ} {pc : Pc}
    {newLoadMaps : LoadMap} {e : Worker.Event} (h : Inv s) (hp : p ∈ places s.works)
    (hp' : p' ∈ places s.works) (hne : p ≠ p') (hperm : (s.items p).Perm (moved ++ rest))
    (hq : q.Exact mem rest) (hq' : q'.Exact mem (s.items p' ++ moved))
    (hsame : ∀ b, b ∉ s.items p → b ∉ s.items p' → s.mem.Same mem b) (he : IsDispatcher e)
    (hstep : Worker.step s.workers e =
      some { s.workers.move p p' moved rest with stealing := pc.stealing })
    (hnew : Known s.works newLoadMaps) (hfits : pc.Fits s.works s.loadMaps newLoadMaps)
    (htasks : ¬ pc.HasTasks → moveTable s.items p p' moved rest .tasks = [])
    (hlist : pc.stealing = none → moveTable s.items p p' moved rest .steal_list = []) :
    Served s { (s.setEnds mem p q).setEnds mem p' q' with
      pc := pc, newLoadMaps := newLoadMaps } := by
  have hshape : Shape mem _ (moveTable s.items p p' moved rest) :=
    h.shape.move hne hperm hq.toHolds (fun _ => hq.head) hq' hsame
  have hitems : State.items { (s.setEnds mem p q).setEnds mem p' q' with
      pc := pc, newLoadMaps := newLoadMaps } = moveTable s.items p p' moved rest :=
    items_of_shape hshape
  refine ⟨shape_items hshape, .inr ⟨e, he, ?_⟩, ⟨h.locals.works, h.locals.busyings,
    h.locals.loadMaps, hnew, hfits, ?_, ?_⟩, ?_⟩
  · rw [hstep, Option.some.injEq]
    symm
    exact workers_eq hitems rfl rfl rfl rfl rfl rfl rfl
  · intro hnot
    rw [hitems]
    exact htasks hnot
  · intro hnone
    rw [hitems]
    exact hlist hnone
  · exact queued_move rfl hitems hp hp' hne hperm

/-- `popBackAll` of the new queue, in `steal(0)`. -/
theorem popNew_all (h : Inv s) (hpc : s.pc = .popNew w caller) (hn : caller.n = 0) :
    ∃ s', popNew s w caller = some s' ∧ Served s s' := by
  obtain ⟨hw, hcaller⟩ := h.fits hpc
  have hfits : (Pc.assertAgain w caller).Fits s.works s.loadMaps s.newLoadMaps := ⟨hw, hcaller⟩
  have hsteal : s.items .steal_list = [] := h.locals.steal_list (by rw [hpc]; rfl)
  have hnew := h.shape.exact (p := .m_newQueue w) (by simp)
  have hstealing : (Pc.assertAgain w caller).stealing = some w := if_pos hn
  refine ⟨{ (s.setEnds s.mem (.m_newQueue w) .zero).setEnds s.mem .steal_list
    (s.ends (.m_newQueue w)) with pc := .assertAgain w caller }, ?_, ?_⟩
  · rw [popNew, if_neg (by omega), Ends.popBackAllUnlock_eq hnew]
  · apply h.moved (mem_newQueue hw) mem_steal_list (by simp) (by rw [List.append_nil])
      Ends.exact_zero (by rw [hsteal]; exact hnew) (fun _ _ _ => ⟨rfl, rfl⟩)
      (e := .stealNew w) trivial _ h.locals.newLoadMaps hfits
    · intro hnot
      rw [moveTable_of_ne (by simp) (by simp)]
      apply h.no_tasks hpc
      cases caller with
      | busyings kvs => exact fun _ => hnot trivial
      | waiting n range => exact id
    · intro hnone
      rw [hstealing] at hnone
      cases hnone
    · rw [Worker.step_stealNew]
      refine ⟨by rw [State.workers, hpc]; rfl, ?_⟩
      rw [hstealing]
      rfl

/-- Moving nothing changes nothing. -/
theorem moveTable_nil (t : Place → List ℕ) (p p' : Place) :
    moveTable t p p' [] (t p) = t := by
  rw [moveTable, List.append_nil, Function.update_eq_self, Function.update_eq_self]

/-- What `Model.Worker` says of `steal(n)`, as a move of the items from `rest` on.
SOURCE: operation/worker.cc:217-247 -/
theorem step_steal_eq {a : Worker.State} {n rest : ℕ} (hn : 0 < n) (hnone : a.stealing = none)
    (hrest : rest = if (a.queue (.m_newQueue w)).length ≤ 1 then (a.queue (.m_newQueue w)).length
      else (a.queue (.m_newQueue w)).length - max 1 (n % 2 ^ 32)) :
    Worker.step a (.steal w n) = some (a.move (.m_newQueue w) .tasks
      ((a.queue (.m_newQueue w)).drop rest) ((a.queue (.m_newQueue w)).take rest)) := by
  simp only [Worker.step]
  rw [if_pos ⟨hn, hnone⟩]
  split
  · next hle =>
    rw [if_pos hle] at hrest
    rw [hrest, List.drop_length, List.take_length, Worker.State.move, moveTable_nil]
  · next hgt =>
    rw [if_neg hgt] at hrest
    rw [hrest]

/-- `popBack(n)` of the new queue. -/
theorem popNew_some (h : Inv s) (hpc : s.pc = .popNew w caller) (hn : 0 < caller.n) :
    ∃ s', popNew s w caller = some s' ∧ Served s s' := by
  cases caller with
  | busyings kvs => exact absurd hn (Nat.lt_irrefl 0)
  | waiting n range =>
    obtain ⟨hw, hrange⟩ := h.fits hpc
    have hfits : (Pc.assertAgain w (.waiting n range)).Fits s.works s.loadMaps s.newLoadMaps :=
      ⟨hw, hrange⟩
    have htasks : s.items .tasks = [] := h.no_tasks hpc id
    have hpos : 0 < n := hn
    have hnone : s.pc.stealing = none := by rw [hpc]; rfl
    have hafter : (Pc.assertAgain w (.waiting n range)).stealing = none := if_neg hpos.ne'
    obtain ⟨mem, q, l, rest, hpop, hrest, hq, hl, hsame⟩ := Ends.popBackUnlock_exact
      (n := n % 2 ^ 32) (h.shape.exact (p := .m_newQueue w) (by simp)) (h.shape.exclusive.nodup _)
    refine ⟨{ (s.setEnds mem (.m_newQueue w) q).setEnds mem .tasks l with
      pc := .assertAgain w (.waiting n range) }, ?_, ?_⟩
    · have hpop' : Ends.popBackUnlock s.mem (s.ends (.m_newQueue w))
          ((Caller.waiting n range).n % 2 ^ 32) = some (mem, q, l) := hpop
      rw [popNew, if_pos hn, hpop']
      rfl
    · have hperm : (s.items (.m_newQueue w)).Perm
          ((s.items (.m_newQueue w)).drop rest ++ (s.items (.m_newQueue w)).take rest) := by
        refine List.Perm.trans ?_ List.perm_append_comm
        rw [List.take_append_drop]
      apply h.moved (mem_newQueue hw) mem_tasks (by simp) hperm hq (by rw [htasks]; exact hl)
        (fun b hb _ => hsame b hb) (e := .steal w n) trivial _ h.locals.newLoadMaps hfits
      · exact fun hnot => absurd hpos hnot
      · intro _
        rw [moveTable_of_ne (by simp) (by simp)]
        exact h.locals.steal_list hnone
      · rw [step_steal_eq hpos (hnone : s.workers.stealing = none) hrest, hafter]
        have hstays : { s.workers with stealing := none } = s.workers :=
          congrArg (fun o => { s.workers with stealing := o }) hnone.symm
        exact congrArg (fun a : Worker.State => some (a.move _ _ _ _)) hstays.symm

/-- When `steal` has returned, the dispatcher is in none.
SOURCE: operation/worker.cc:217-247 -/
theorem after_stealing : caller.after.stealing = none := by
  cases caller <;> rfl

/-- It has what was stolen.
SOURCE: operation/worker.cc:217-247 -/
theorem after_hasTasks : caller.after.HasTasks := by
  cases caller <;> trivial

/-- And its locals are those of the caller. -/
theorem after_fits {works : ℕ} {loadMaps newLoadMaps : LoadMap}
    (h : caller.Fits works loadMaps) : caller.after.Fits works loadMaps newLoadMaps := by
  cases caller with
  | busyings kvs => exact h
  | waiting n range => exact h

/-- What was stolen is added to `tasks`.
SOURCE: operation/scheduler.cc:103-219 -/
theorem receive_eq {mem : Memory ℕ} {tasks stolen : Ends ℕ} {l m : List ℕ}
    (htasks : tasks.Exact mem l) (hstolen : stolen.Exact mem m) (hnodup : (l ++ m).Nodup)
    (hempty : ∀ n range, caller = .waiting n range → l = []) :
    ∃ mem' tasks', caller.receive mem tasks stolen = some (mem', tasks', .zero) ∧
      tasks'.Exact mem' (l ++ m) ∧ ∀ a ∉ l ++ m, mem.Same mem' a := by
  cases caller with
  | busyings kvs => exact Ends.append_exact htasks hstolen hnodup
  | waiting n range =>
    obtain rfl := hempty n range rfl
    exact ⟨mem, stolen, rfl, hstolen, fun _ _ => ⟨rfl, rfl⟩⟩

/-- The lists of `steal(0)` are joined, and the caller receives them. -/
theorem receive_stolen (h : Inv s) (hpc : s.pc = .popRunnable w caller) :
    ∃ mem₁ stolen mem₂ tasks,
      (s.ends (.m_runnableQueue w)).append s.mem (s.ends .steal_list) =
        some (mem₁, stolen, .zero) ∧
      caller.receive mem₁ (s.ends .tasks) stolen = some (mem₂, tasks, .zero) ∧
      tasks.Exact mem₂ (s.items .tasks ++
        (s.items (.m_runnableQueue w) ++ s.items .steal_list)) ∧
      ∀ b, b ∉ s.items .tasks → b ∉ s.items (.m_runnableQueue w) → b ∉ s.items .steal_list →
        s.mem.Same mem₂ b := by
  have hexclusive := h.shape.exclusive
  have htasks := h.no_tasks hpc
  have hlocal := h.shape.exact (p := .tasks) (by simp)
  have hboth : (s.items (.m_runnableQueue w) ++ s.items .steal_list).Nodup :=
    nodup_append hexclusive (by simp)
  obtain ⟨mem₁, stolen, happend, hstolen, hsame₁⟩ :=
    Ends.append_exact (h.shape.exact (p := .m_runnableQueue w) (by simp))
      (h.shape.exact (p := .steal_list) (by simp)) hboth
  have hapart : ∀ b ∈ s.items .tasks,
      b ∉ s.items (.m_runnableQueue w) ++ s.items .steal_list := by
    intro b hb
    rw [List.mem_append]
    rintro (hmem | hmem)
    · cases hexclusive.unique hb hmem
    · cases hexclusive.unique hb hmem
  have hlocal₁ : (s.ends .tasks).Exact mem₁ (s.items .tasks) :=
    ⟨hlocal.toHolds.congr fun b hb => hsame₁ b (hapart b hb), hlocal.head⟩
  have hnodup := List.nodup_append'.mpr ⟨hexclusive.nodup .tasks, hboth, hapart⟩
  obtain ⟨mem₂, tasks, hreceive, hexact, hsame₂⟩ := receive_eq hlocal₁ hstolen hnodup
    (fun n range (heq : caller = .waiting n range) => htasks (by subst heq; exact id))
  refine ⟨mem₁, stolen, mem₂, tasks, happend, hreceive, hexact, fun b hb hb' hb'' => ?_⟩
  have h₁ := hsame₁ b (by simp [hb', hb''])
  have h₂ := hsame₂ b (by simp [hb, hb', hb''])
  exact ⟨h₂.1.trans h₁.1, h₂.2.trans h₁.2⟩

/-- `popBackAll` of the runnable queue, and the way of all that `steal(0)` has found to `tasks`. -/
theorem popRunnable_all (h : Inv s) (hpc : s.pc = .popRunnable w caller) :
    ∃ s', popRunnable s w caller = some s' ∧ Served s s' := by
  obtain ⟨hw, hcaller, hn⟩ := h.fits hpc
  have hrun := h.shape.exact (p := .m_runnableQueue w) (by simp)
  obtain ⟨mem₁, stolen, mem₂, tasks, happend, hreceive, hexact, hsame⟩ := receive_stolen h hpc
  -- a move of the queue's tasks, and one of the list's
  have hshape : Shape mem₂ _ ((s.workers.moveAll (.m_runnableQueue w) .tasks).moveAll .steal_list
      .tasks).queue :=
    h.shape.gather (by simp) (by simp) (by simp) hexact hsame
  refine ⟨{ ((s.setEnds mem₂ (.m_runnableQueue w) .zero).setEnds mem₂ .steal_list
    .zero).setEnds mem₂ .tasks tasks with pc := caller.after }, ?_, shape_items hshape,
    .inr ⟨.stealRunnable, trivial, ?_⟩, ⟨h.locals.works, h.locals.busyings, h.locals.loadMaps,
    h.locals.newLoadMaps, after_fits hcaller, ?_, ?_⟩, ?_⟩
  · have hdestroy : (Ends.zero : Ends ℕ).destroy = some () := rfl
    simp only [popRunnable, Ends.popBackAllUnlock_eq hrun, happend, hreceive, hdestroy,
      Option.bind_eq_bind, Option.bind_some]
  · rw [Worker.step_stealRunnable]
    have hstealing : s.workers.stealing = some w := by
      rw [State.workers, hpc]
      exact if_pos hn
    refine ⟨w, hstealing, ?_⟩
    exact workers_eq (items_of_shape hshape) rfl rfl rfl rfl rfl rfl after_stealing
  · exact fun hnot => absurd after_hasTasks hnot
  · intro _
    refine (congrFun (items_of_shape hshape) .steal_list).trans ?_
    simp [Worker.State.moveAll, Worker.State.move, moveTable]
  · have hfirst : tally (places s.works) (s.workers.moveAll (.m_runnableQueue w) .tasks).queue =
        queued s := tally_move (mem_runnableQueue hw) mem_tasks (by simp) (by rw [List.append_nil])
    have hsecond : tally (places s.works) ((s.workers.moveAll (.m_runnableQueue w)
        .tasks).moveAll .steal_list .tasks).queue =
        tally (places s.works) (s.workers.moveAll (.m_runnableQueue w) .tasks).queue :=
      tally_move mem_steal_list mem_tasks (by simp) (by rw [List.append_nil])
    refine Eq.trans ?_ (hsecond.trans hfirst)
    exact congrArg (tally (places s.works)) (items_of_shape hshape)

/-! ## Sharing tasks out -/

section Share

variable {phase : Phase} {range it : List (ℕ × ℕ)} {avg load : ℕ}

/-- What `Model.Worker` says of the tasks that are added to a worker's. -/
theorem step_addTask_eq {n : ℕ} (hnone : s.pc.stealing = none) :
    Worker.step s.workers (.addTask w n) =
      some { s.workers.move .tasks (.m_newQueue w) ((s.items .tasks).take n)
        ((s.items .tasks).drop n) with stealing := none } := by
  rw [Worker.step_addTask]
  refine ⟨hnone, ?_⟩
  exact congrArg (fun o => { s.workers.move .tasks (.m_newQueue w) ((s.items .tasks).take n)
    ((s.items .tasks).drop n) with stealing := o }) hnone.symm

/-- One round of the loop over the least loaded workers.
SOURCE: operation/worker.cc:21-29, 31-39 -/
theorem share_round (h : Inv s) (hpc : s.pc = .share phase range it avg) :
    ∃ s', share s phase range avg load it = some s' ∧ Served s s' := by
  obtain ⟨hrange, hit⟩ := h.fits hpc
  have hnone : s.pc.stealing = none := by rw [hpc]; rfl
  cases it with
  | nil =>
    refine ⟨_, rfl, ?_⟩
    exact h.served.goto_pc hnone.symm hrange fun hnot => absurd trivial hnot
  | cons kv it =>
    have hw : kv.2 < s.works := hit kv List.mem_cons_self
    have hlocal := h.shape.exact (p := .tasks) (by simp)
    have hnew := h.shape.exact (p := .m_newQueue kv.2) (by simp)
    have hexclusive := h.shape.exclusive
    obtain ⟨mem₁, tasks, in_, mem₂, q, hcut, hin, hpush, hrest₁, hrest₂, hq, hsame₁, hsame₂⟩ :=
      Ends.cut_push (n := avg) hlocal hnew (hexclusive.nodup _) (hexclusive.nodup _)
        (fun b hb hb' => by cases hexclusive.unique hb hb')
    by_cases hempty : in_.m_head = none
    · -- nothing is left, and the list is as it was
      have htake : (s.items .tasks).take avg = [] := hin.empty.mp hempty
      have hdrop : (s.items .tasks).drop avg = s.items .tasks := by
        conv_rhs => rw [← List.take_append_drop avg (s.items .tasks), htake]
        rfl
      rw [hdrop] at hrest₁
      rw [htake] at hin
      have hshape : Shape mem₁ (Function.update s.ends .tasks tasks) s.items := by
        apply h.shape.change hexclusive
        intro p
        by_cases hp : p = .tasks
        · subst hp
          rw [Function.update_self]
          exact .inl ⟨hrest₁.toHolds, fun _ => hrest₁.head⟩
        · rw [Function.update_of_ne hp]
          exact .inr ⟨rfl, rfl, fun b hb => hsame₁ b fun hmem => hp (hexclusive.unique hb hmem)⟩
      refine ⟨{ s.setEnds mem₁ .tasks tasks with pc := .leftover phase range }, ?_,
        shape_items hshape, .inl ?_, ⟨h.locals.works, h.locals.busyings, h.locals.loadMaps,
        h.locals.newLoadMaps, hrange, fun hnot => absurd trivial hnot, ?_⟩, ?_⟩
      · simp only [share, hcut, Option.bind_eq_bind, Option.bind_some, if_pos hempty,
          hin.toHolds.destroy]
      · exact workers_eq (items_of_shape hshape) rfl rfl rfl rfl rfl rfl hnone.symm
      · intro _
        exact (congrFun (items_of_shape hshape) _).trans (h.locals.steal_list hnone)
      · exact congrArg (tally (places s.works)) (items_of_shape hshape)
    · refine ⟨{ (s.setEnds mem₂ .tasks tasks).setEnds mem₂ (.m_newQueue kv.2) q with
        pc := .share phase range it avg
        newLoadMaps := phase.note s.newLoadMaps (load, kv.2) }, ?_, ?_⟩
      · have hdestroy : (Ends.zero : Ends ℕ).destroy = some () := rfl
        simp only [share, hcut, Option.bind_eq_bind, Option.bind_some, if_neg hempty,
          m_works_eq hw, hpush, hdestroy]
      · have hnoted : Known s.works (phase.note s.newLoadMaps (load, kv.2)) := by
          cases phase with
          | busy => exact LoadMap.known_insert h.locals.newLoadMaps hw
          | waiting => exact h.locals.newLoadMaps
        have hfits : (Pc.share phase range it avg).Fits s.works s.loadMaps
            (phase.note s.newLoadMaps (load, kv.2)) :=
          ⟨hrange, fun x hx => hit x (List.mem_cons_of_mem kv hx)⟩
        apply h.moved mem_tasks (mem_newQueue hw) (by simp) (by rw [List.take_append_drop]) hrest₂
          hq hsame₂ (e := .addTask kv.2 avg) trivial _ hnoted hfits
        · exact fun hnot => absurd trivial hnot
        · intro _
          rw [moveTable_of_ne (by simp) (by simp)]
          exact h.locals.steal_list hnone
        · exact step_addTask_eq hnone

/-- What is left over goes to the first of the range. -/
theorem addLeftover_all (h : Inv s) (hpc : s.pc = .leftover phase range) :
    ∃ s', addLeftover s range = some s' ∧ s'.items .tasks = [] ∧ s'.pc = s.pc ∧
      Served s s' := by
  obtain ⟨hne, hknown⟩ := h.fits hpc
  have hlocal := h.shape.exact (p := .tasks) (by simp)
  unfold addLeftover
  by_cases hempty : (s.ends .tasks).m_head = none
  · rw [if_pos hempty]
    exact ⟨s, rfl, hlocal.empty.mp hempty, rfl, h.served⟩
  · rw [if_neg hempty]
    obtain ⟨kv, rest, rfl⟩ := List.exists_cons_of_ne_nil hne
    have hw : kv.2 < s.works := hknown kv List.mem_cons_self
    have hnone : s.pc.stealing = none := by rw [hpc]; rfl
    have hnew := h.shape.exact (p := .m_newQueue kv.2) (by simp)
    obtain ⟨mem, q, hpush, hq, hsame⟩ :=
      Ends.pushListUnlock_exact hnew hlocal (nodup_append h.shape.exclusive (by simp))
    have hserved : Served s ((s.setEnds mem .tasks .zero).setEnds mem (.m_newQueue kv.2) q) := by
      refine h.moved mem_tasks (mem_newQueue hw) (by simp) (by rw [List.append_nil])
        Ends.exact_zero hq (fun b hb hb' => hsame b (by simp [hb, hb']))
        (e := .addTask kv.2 (s.items .tasks).length) trivial ?_ h.locals.newLoadMaps h.locals.pc
        (fun _ => rfl) ?_
      · have hstep := step_addTask_eq (w := kv.2) (n := (s.items .tasks).length) hnone
        rw [List.take_length, List.drop_length] at hstep
        rw [← hnone] at hstep
        exact hstep
      · intro _
        rw [moveTable_of_ne (by simp) (by simp)]
        exact h.locals.steal_list hnone
    refine ⟨(s.setEnds mem .tasks .zero).setEnds mem (.m_newQueue kv.2) q, ?_, ?_, rfl, hserved⟩
    · simp only [List.head?_cons, Option.bind_eq_bind, Option.bind_some, m_works_eq hw, hpush]
    · exact (hserved.shape.exact (p := .tasks) (by simp)).empty.mp rfl

end Share

/-! ## Any step of the dispatcher -/

section Dispatch

variable {i : ℕ} {kvs range it : List (ℕ × ℕ)} {phase : Phase}

/-- The loop that looks for busy workers.
SOURCE: operation/scheduler.cc:103-201 -/
theorem busy_served (h : Inv s) (hpc : s.pc = .busy i) (r : Reads) :
    ∃ s', dispatch s r = some s' ∧ Served s s' := by
  have hnone : s.pc.stealing = none := by rw [hpc]; rfl
  have htasks := h.no_tasks hpc
  simp only [dispatch, hpc]
  split
  · next hi =>
    refine ⟨_, rfl, h.served.goto hnone.symm ?_ h.locals.loadMaps h.locals.newLoadMaps trivial
      htasks⟩
    intro kv hkv
    split at hkv
    · rcases List.mem_append.mp hkv with hold | hnew
      · exact h.locals.busyings kv hold
      · rw [List.mem_singleton.mp hnew]
        exact hi
    · exact h.locals.busyings kv hkv
  · exact ⟨_, rfl, h.served.goto_pc hnone.symm (.inl rfl) htasks⟩

/-- The loop that reads the loads.
SOURCE: operation/scheduler.cc:103-201 -/
theorem loads_served (h : Inv s) (hpc : s.pc = .loads i) (r : Reads) :
    ∃ s', dispatch s r = some s' ∧ Served s s' := by
  have hnone : s.pc.stealing = none := by rw [hpc]; rfl
  have htasks := h.no_tasks hpc
  simp only [dispatch, hpc]
  split
  · next hi =>
    exact ⟨_, rfl, h.served.goto hnone.symm h.locals.busyings
      (LoadMap.known_insert h.locals.loadMaps hi) h.locals.newLoadMaps
      (.inr LoadMap.insert_ne_nil) htasks⟩
  · next hi =>
    have hne : s.loadMaps ≠ [] := (h.fits hpc).resolve_left fun hzero => hi (hzero ▸ h.locals.works)
    -- the list that comes into scope is empty, as the one before it was
    have hsame : s.setEnds s.mem .tasks .zero = s := by
      have hlocal := h.shape.exact (p := .tasks) (by simp)
      rw [htasks id] at hlocal
      rw [State.setEnds, ← hlocal.eq_zero, Function.update_eq_self]
    rw [hsame]
    exact ⟨_, rfl, h.served.goto_pc hnone.symm ⟨h.locals.busyings, hne⟩
      fun hnot => absurd trivial hnot⟩

/-- The loop over the busy workers, and the first division after it.
SOURCE: operation/scheduler.cc:103-201 -/
theorem busyings_served (h : Inv s) (hpc : s.pc = .busyings kvs) (r : Reads) :
    ∃ s', dispatch s r = some s' ∧ Served s s' := by
  obtain ⟨hkvs, hne⟩ := h.fits hpc
  have hnone : s.pc.stealing = none := by rw [hpc]; rfl
  cases kvs with
  | nil =>
    simp only [dispatch, hpc]
    split
    · next hempty =>
      have hitems := (h.shape.exact (p := .tasks) (by simp)).empty.mp hempty
      exact ⟨_, leave_eq h.shape hitems _, h.served.goto_pc hnone.symm hne fun _ => hitems⟩
    · have hleast := LoadMap.least_ne_nil hne
      have hknown := LoadMap.known_least h.locals.loadMaps
      obtain ⟨avg, havg⟩ := average_eq (s.ends .tasks).m_count
        (List.length_pos_iff.mpr hleast).ne'
      rw [havg]
      refine ⟨_, rfl, h.served.goto hnone.symm h.locals.busyings h.locals.loadMaps ?_
        ⟨⟨hleast, hknown⟩, hknown⟩ fun hnot => absurd trivial hnot⟩
      exact LoadMap.known_foldl (by simp [Known]) (LoadMap.known_others h.locals.loadMaps)
  | cons kv kvs =>
    have hw : kv.1 < s.works := hkvs kv List.mem_cons_self
    simp only [dispatch, hpc, m_works_eq hw]
    exact ⟨_, rfl, h.served.goto_pc hnone.symm
      ⟨hw, fun x hx => hkvs x (List.mem_cons_of_mem kv hx), hne⟩ fun hnot => absurd trivial hnot⟩

/-- The second assertion of `steal`, which returns after it if it was asked for a number.
SOURCE: operation/scheduler.cc:103-201, operation/worker.cc:217-247 -/
theorem assertAgain_served (h : Inv s) (hpc : s.pc = .assertAgain w caller) (r : Reads) :
    ∃ s', dispatch s r = some s' ∧ Served s s' := by
  obtain ⟨hw, hcaller⟩ := h.fits hpc
  have hassert := Ends.assertLink_ok (h.shape.exact (p := .m_newQueue w) (by simp))
  simp only [dispatch, hpc, hassert]
  refine ⟨_, rfl, ?_⟩
  split
  · next hn =>
    have hnone : s.pc.stealing = none := by
      rw [hpc]
      exact if_neg hn.ne'
    exact h.served.goto_pc (after_stealing.trans hnone.symm) (after_fits hcaller)
      fun hnot => absurd after_hasTasks hnot
  · next hn =>
    have hzero : caller.n = 0 := by omega
    refine h.served.goto_pc (by rw [hpc]; rfl) ⟨hw, hcaller, hzero⟩ ?_
    cases caller with
    | busyings kvs => exact fun hnot => absurd trivial hnot
    | waiting n range => exact fun _ => h.no_tasks hpc hn

/-- What is left over is added, and the first half goes on with the loads.
SOURCE: operation/scheduler.cc:103-201 -/
theorem leftover_served (h : Inv s) (hpc : s.pc = .leftover phase range) (r : Reads) :
    ∃ s', dispatch s r = some s' ∧ Served s s' := by
  obtain ⟨t, hadd, hempty, htpc, ht⟩ := addLeftover_all h hpc
  have htfits := ht.locals.pc
  rw [htpc, hpc] at htfits
  have hnone : t.pc.stealing = none := by rw [htpc, hpc]; rfl
  simp only [dispatch, hpc, hadd]
  cases phase with
  | busy =>
    exact ⟨_, rfl, ht.goto_pc hnone.symm
      ⟨htfits.2, fun hnil => absurd hnil htfits.1⟩ fun _ => hempty⟩
  | waiting =>
    exact ⟨_, leave_eq ht.shape hempty _, ht.goto_pc hnone.symm trivial fun _ => hempty⟩

/-- The loop that reads the loads of the least loaded workers again.
SOURCE: operation/scheduler.cc:103-201 -/
theorem reload_served (h : Inv s) (hpc : s.pc = .reload it) (r : Reads) :
    ∃ s', dispatch s r = some s' ∧ Served s s' := by
  obtain ⟨hit, hne⟩ := h.fits hpc
  have hnone : s.pc.stealing = none := by rw [hpc]; rfl
  have htasks := h.no_tasks hpc
  cases it with
  | nil =>
    simp only [dispatch, hpc]
    refine ⟨_, leave_eq (s := { s with loadMaps := s.newLoadMaps, newLoadMaps := s.loadMaps })
      h.shape (htasks id) _, ?_⟩
    exact h.served.goto hnone.symm h.locals.busyings h.locals.newLoadMaps h.locals.loadMaps
      (hne rfl) htasks
  | cons kv it =>
    have hw : kv.2 < s.works := hit kv List.mem_cons_self
    simp only [dispatch, hpc, m_works_eq hw]
    exact ⟨_, rfl, h.served.goto hnone.symm h.locals.busyings h.locals.loadMaps
      (LoadMap.known_insert h.locals.newLoadMaps hw)
      ⟨fun x hx => hit x (List.mem_cons_of_mem kv hx), fun _ => LoadMap.insert_ne_nil⟩ htasks⟩

/-- The choice of the most loaded worker.
SOURCE: operation/scheduler.cc:103-201 -/
theorem balance_served (h : Inv s) (hpc : s.pc = .balance) (r : Reads) :
    ∃ s', dispatch s r = some s' ∧ Served s s' := by
  have hne : s.loadMaps ≠ [] := h.fits hpc
  have hnone : s.pc.stealing = none := by rw [hpc]; rfl
  have htasks := h.no_tasks hpc
  have hrange : Range s.works s.loadMaps.least :=
    ⟨LoadMap.least_ne_nil hne, LoadMap.known_least h.locals.loadMaps⟩
  obtain ⟨max, hmax, hw⟩ : ∃ max, s.loadMaps.getLast? = some max ∧ max.2 < s.works :=
    ⟨_, List.getLast?_eq_some_getLast hne, h.locals.loadMaps _ (List.getLast_mem hne)⟩
  simp only [dispatch, hpc]
  split
  · next hnil => exact absurd hnil hne
  · split
    · exact ⟨_, rfl, h.served.goto_pc hnone.symm trivial htasks⟩
    · simp only [hmax, Option.bind_eq_bind, Option.bind_some, m_works_eq hw]
      exact ⟨_, rfl, h.served.goto_pc hnone.symm ⟨hw, hrange⟩ htasks⟩

/-- What was stolen is divided.
SOURCE: operation/scheduler.cc:103-201 -/
theorem stolen_served (h : Inv s) (hpc : s.pc = .stolen range) (r : Reads) :
    ∃ s', dispatch s r = some s' ∧ Served s s' := by
  have hrange : Range s.works range := h.fits hpc
  have hnone : s.pc.stealing = none := by rw [hpc]; rfl
  simp only [dispatch, hpc]
  split
  · next hempty =>
    have hitems := (h.shape.exact (p := .tasks) (by simp)).empty.mp hempty
    exact ⟨_, leave_eq h.shape hitems _, h.served.goto_pc hnone.symm trivial fun _ => hitems⟩
  · obtain ⟨avg, havg⟩ := average_eq (s.ends .tasks).m_count
      (List.length_pos_iff.mpr hrange.1).ne'
    rw [havg]
    exact ⟨_, rfl, h.served.goto_pc hnone.symm ⟨hrange, hrange.2⟩ fun hnot => absurd trivial hnot⟩

/-- **Each step of the dispatcher** is possible, whatever is read.
SOURCE: operation/scheduler.cc:103-201 -/
theorem dispatch_served (h : Inv s) (r : Reads) :
    ∃ s', dispatch s r = some s' ∧ Served s s' := by
  cases hpc : s.pc with
  | top =>
    have hnone : s.pc.stealing = none := by rw [hpc]; rfl
    have htasks := h.no_tasks hpc
    simp only [dispatch, hpc]
    split
    · exact ⟨_, rfl, h.served.goto_pc hnone.symm trivial htasks⟩
    · refine ⟨_, rfl, h.served.goto hnone.symm ?_ ?_ ?_ trivial htasks⟩ <;> simp [Known]
  | busy i => exact busy_served h hpc r
  | loads i => exact loads_served h hpc r
  | busyings kvs => exact busyings_served h hpc r
  | assertLink w caller =>
    have hnone : s.pc.stealing = none := by rw [hpc]; rfl
    have htasks := h.no_tasks hpc
    have hassert := Ends.assertLink_ok (h.shape.exact (p := .m_newQueue w) (by simp))
    have hfits := h.fits hpc
    simp only [dispatch, hpc, hassert]
    refine ⟨_, rfl, h.served.goto_pc hnone.symm hfits ?_⟩
    cases caller <;> exact htasks
  | popNew w caller =>
    simp only [dispatch, hpc]
    rcases Nat.eq_zero_or_pos caller.n with hn | hn
    · exact popNew_all h hpc hn
    · exact popNew_some h hpc hn
  | assertAgain w caller => exact assertAgain_served h hpc r
  | popRunnable w caller =>
    simp only [dispatch, hpc]
    exact popRunnable_all h hpc
  | share phase range it avg =>
    simp only [dispatch, hpc]
    exact share_round h hpc
  | leftover phase range => exact leftover_served h hpc r
  | reload it => exact reload_served h hpc r
  | balance => exact balance_served h hpc r
  | stolen range => exact stolen_served h hpc r
  | stopped =>
    simp only [dispatch, hpc]
    exact ⟨s, rfl, h.served⟩

end Dispatch

/-! ## Runs -/

@[simp] theorem queue_setPc {a : Worker.State} {pc : Worker.Pc} :
    (a.setPc w pc).queue = a.queue := rfl

/-- A move leaves the other queues. -/
theorem queue_move {a : Worker.State} {p p' q : Place} {moved rest : List ℕ} (hp : q ≠ p)
    (hp' : q ≠ p') : (a.move p p' moved rest).queue q = a.queue q := moveTable_of_ne hp hp'

/-- So does the move of all. -/
theorem queue_moveAll {a : Worker.State} {p p' q : Place} (hp : q ≠ p) (hp' : q ≠ p') :
    (a.moveAll p p').queue q = a.queue q := moveTable_of_ne hp hp'

/-- A step that `Model.Worker` has for the dispatcher leaves the workers where they are, and what is
on its way between two queues of a worker. -/
theorem dispatcher_frame {a b : Worker.State} {e : Worker.Event} (he : IsDispatcher e)
    (hstep : Worker.step a e = some b) :
    b.pc = a.pc ∧ ∀ w, b.queue (.moving w) = a.queue (.moving w) := by
  cases e with
  | steal w n =>
    rcases Worker.step_steal hstep with rfl | ⟨rest, rfl⟩
    · exact ⟨rfl, fun _ => rfl⟩
    · exact ⟨rfl, fun w' => queue_move (by simp) (by simp)⟩
  | stealNew w =>
    obtain ⟨-, rfl⟩ := Worker.step_stealNew.mp hstep
    refine ⟨rfl, fun w' => ?_⟩
    have hstay : (a.moveAll (.m_newQueue w) .steal_list).queue (.moving w') =
        a.queue (.moving w') := queue_moveAll (by simp) (by simp)
    exact hstay
  | stealRunnable =>
    obtain ⟨w, -, rfl⟩ := Worker.step_stealRunnable.mp hstep
    refine ⟨rfl, fun w' => ?_⟩
    have hfirst : (a.moveAll (.m_runnableQueue w) .tasks).queue (.moving w') =
        a.queue (.moving w') := queue_moveAll (by simp) (by simp)
    have hsecond : ((a.moveAll (.m_runnableQueue w) .tasks).moveAll .steal_list .tasks).queue
        (.moving w') = (a.moveAll (.m_runnableQueue w) .tasks).queue (.moving w') :=
      queue_moveAll (by simp) (by simp)
    exact hsecond.trans hfirst
  | addTask w n =>
    obtain ⟨-, rfl⟩ := Worker.step_addTask.mp hstep
    exact ⟨rfl, fun w' => queue_move (by simp) (by simp)⟩
  | _ => exact absurd he id

/-- A worker goes on from a place where nothing is on its way. -/
theorem Settled.setPc {a : Worker.State} {pc : Worker.Pc} (h : Settled a) (hpc : a.pc w ≠ .moving) :
    Settled (a.setPc w pc) := by
  intro w' hw'
  by_cases hw : w' = w
  · subst hw
    exact h w' hpc
  · rw [Worker.setPc_of_ne hw] at hw'
    exact h w' hw'

/-- A step of the workers leaves the dispatcher's lists alone, and leaves nothing on its way. -/
theorem work_frame {a b : Worker.State} {e : Worker.Event} (he : ¬ IsDispatcher e)
    (hstep : Worker.step a e = some b) (h : Settled a) :
    b.queue .tasks = a.queue .tasks ∧ b.queue .steal_list = a.queue .steal_list ∧ Settled b := by
  cases e with
  | createTask w =>
    rw [Worker.step_createTask.mp hstep]
    refine ⟨?_, ?_, fun w' hw' => ?_⟩
    · simp [Worker.State.push, Worker.State.setTask]
    · simp [Worker.State.push, Worker.State.setTask]
    · simpa [Worker.State.push, Worker.State.setTask] using h w' hw'
  | pop w =>
    obtain ⟨hpc, ⟨-, rfl⟩ | ⟨tk, rest, -, rfl⟩⟩ := Worker.step_pop.mp hstep
    · exact ⟨rfl, rfl, h.setPc (by simp [hpc])⟩
    · have hset : Settled (a.setPc w (.popped tk)) := h.setPc (by simp [hpc])
      refine ⟨by simp, by simp, fun w' hw' => ?_⟩
      refine Eq.trans ?_ (hset w' hw')
      simp
  | swapIn w =>
    obtain ⟨tk, hpc, rfl⟩ := Worker.step_swapIn.mp hstep
    exact ⟨rfl, rfl, Settled.setPc h (by simp [Worker.State.setTask, hpc])⟩
  | suspend w =>
    obtain ⟨tk, wrk, hpc, -, -, rfl⟩ := Worker.step_suspend.mp hstep
    refine ⟨?_, ?_, fun w' hw' => ?_⟩
    · simp [Worker.State.push, Worker.State.setTask]
    · simp [Worker.State.push, Worker.State.setTask]
    · simpa [Worker.State.push, Worker.State.setTask] using h w' hw'
  | finish w =>
    obtain ⟨tk, hpc, -, rfl⟩ := Worker.step_finish.mp hstep
    exact ⟨rfl, rfl, h⟩
  | swapOut w =>
    obtain ⟨tk, hpc, rfl⟩ := Worker.step_swapOut.mp hstep
    exact ⟨rfl, rfl, h.setPc (by simp [hpc])⟩
  | switch w =>
    obtain ⟨tk, hpc, ⟨-, rfl⟩ | ⟨-, rfl⟩⟩ := Worker.step_switch.mp hstep
    · exact ⟨rfl, rfl, h.setPc (by simp [hpc])⟩
    · have hset : Settled (a.setPc w .check) := h.setPc (by simp [hpc])
      exact ⟨rfl, rfl, hset⟩
  | check w =>
    obtain ⟨hpc, rfl⟩ := Worker.step_check.mp hstep
    exact ⟨rfl, rfl, h.setPc (by simp [hpc])⟩
  | takeNew w =>
    obtain ⟨hpc, rfl⟩ := Worker.step_takeNew.mp hstep
    refine ⟨by simp [queue_moveAll], by simp [queue_moveAll], fun w' hw' => ?_⟩
    have hne : w' ≠ w := by
      rintro rfl
      exact hw' (Worker.setPc_self _)
    rw [Worker.setPc_of_ne hne] at hw'
    refine Eq.trans ?_ (h w' hw')
    simp [queue_moveAll, hne]
  | moveRunnable w =>
    obtain ⟨hpc, rfl⟩ := Worker.step_moveRunnable.mp hstep
    refine ⟨by simp [queue_moveAll], by simp [queue_moveAll], fun w' hw' => ?_⟩
    by_cases hne : w' = w
    · subst hne
      simp [Worker.State.moveAll, Worker.State.move, moveTable]
    · rw [Worker.setPc_of_ne hne] at hw'
      refine Eq.trans ?_ (h w' hw')
      simp [queue_moveAll, hne]
  | wakeup tk id =>
    obtain ⟨-, ⟨-, rfl⟩ | ⟨wrk, -, rfl⟩⟩ := Worker.step_wakeup.mp hstep
    · exact ⟨rfl, rfl, h⟩
    · exact ⟨rfl, rfl, h⟩
  | wakeupBySelf k =>
    obtain ⟨-, ⟨-, rfl⟩ | ⟨-, -, rfl⟩⟩ := Worker.step_wakeupBySelf.mp hstep
    · exact ⟨rfl, rfl, h⟩
    · have hstay : ∀ q, q ≠ .m_waitQueue k.wrk → q ≠ .m_runnableQueue k.wrk →
          moveTable a.queue (.m_waitQueue k.wrk) (.m_runnableQueue k.wrk) [k.tk]
            ((a.queue (.m_waitQueue k.wrk)).erase k.tk) q = a.queue q := fun q => moveTable_of_ne
      refine ⟨hstay .tasks (by simp) (by simp), hstay .steal_list (by simp) (by simp),
        fun w' hw' => ?_⟩
      exact (hstay (.moving w') (by simp) (by simp)).trans (h w' hw')
  | steal | stealNew | stealRunnable | addTask => exact absurd trivial he

/-- The invariant holds at the start. -/
theorem inv_of_starts (h : Starts s) : Inv s := by
  have hshape : Shape s.mem s.ends fun _ => [] := by
    refine ⟨exclusive_of_empty fun _ => rfl, fun p => ?_, fun p _ => ?_⟩
    · rw [h.ends p]
      exact Ends.exact_zero.toHolds
    · rw [h.ends p]
      rfl
  have hitems : ∀ p, s.items p = [] := fun p => congrFun (items_of_shape hshape) p
  have hstarts : Worker.Starts s.workers := by
    refine ⟨hitems, h.worker, h.created, h.issued, h.wakers, ?_⟩
    rw [State.workers, h.pc]
    rfl
  refine ⟨shape_items hshape, Worker.sound_of_starts hstarts, ?_, fun w _ => hitems _,
    h.works, ?_, ?_, ?_, ?_, fun _ => hitems _, fun _ => hitems _⟩
  · rintro tk - (⟨p, hp⟩ | ⟨w, hw⟩)
    · rw [hstarts.queue p] at hp
      cases hp
    · rw [hstarts.pc w] at hw
      cases hw
  · simp [h.busyings]
  · simp [Known, h.loadMaps]
  · simp [Known, h.newLoadMaps]
  · rw [h.pc]
    trivial

/-- The invariant does not look at the links of the tasks that stand nowhere. -/
theorem Inv.of_shape {mem : Memory ℕ} (h : Inv s) (hshape : Shape mem s.ends s.items) :
    Inv { s with mem := mem } := by
  have hitems : State.items { s with mem := mem } = s.items := hshape.items_eq
  have hworkers : State.workers { s with mem := mem } = s.workers :=
    workers_eq hitems rfl rfl rfl rfl rfl rfl rfl
  refine ⟨hitems.symm ▸ hshape, ?_, ?_, ?_, h.locals.works, h.locals.busyings, h.locals.loadMaps,
    h.locals.newLoadMaps, h.locals.pc, ?_, ?_⟩
  · rw [hworkers]
    exact h.sound
  · rw [hworkers]
    exact h.ended
  · rw [hworkers]
    exact h.settled
  · intro hnot
    rw [hitems]
    exact h.locals.tasks hnot
  · intro hnone
    rw [hitems]
    exact h.locals.steal_list hnone

/-- The links of a task that is done are no part of a list. -/
theorem Inv.collect {tk : ℕ} {prev next : Option ℕ} (h : Inv s)
    (hdone : (s.tasks tk)._state = .done) :
    Shape ⟨Function.update s.mem._prev tk prev, Function.update s.mem._next tk next⟩ s.ends
      s.items := by
  have hnone : ¬ Stored s.items tk := fun hstored => h.ended tk hdone (.inl hstored)
  apply h.shape.change h.shape.exclusive
  intro p
  refine .inr ⟨rfl, rfl, fun b hb => ?_⟩
  have hne : b ≠ tk := fun heq => hnone ⟨p, heq ▸ hb⟩
  exact ⟨Function.update_of_ne hne _ _, Function.update_of_ne hne _ _⟩

/-- **Each step**, the dispatcher's and the workers', keeps the invariant. -/
theorem step_inv {e : Event} (h : Inv s) (hs : step s e = some s') : Inv s' := by
  cases e with
  | work e =>
    have hs : work s e = some s' := hs
    cases hstep : Worker.step s.workers e with
    | none =>
      rw [work_none h.sound hstep] at hs
      cases hs
    | some a =>
      have he : ¬ IsDispatcher e := by
        intro he
        cases e <;> first | exact he | cases hs
      obtain ⟨t, ht, hresult⟩ := work_result h.shape h.sound h.settled he hstep
      obtain rfl : t = s' := Option.some.inj (ht.symm.trans hs)
      obtain ⟨htasks, hlist, hsettled⟩ := work_frame he hstep h.settled
      rw [← hresult.workers] at hstep htasks hlist hsettled
      refine ⟨hresult.shape, Worker.step_sound h.sound hstep,
        Worker.step_ended h.sound h.ended hstep, hsettled, ?_, ?_, ?_, ?_, ?_, ?_, ?_⟩
      · rw [hresult.works]
        exact h.locals.works
      · rw [hresult.works, hresult.busyings]
        exact h.locals.busyings
      · rw [hresult.works, hresult.loadMaps]
        exact h.locals.loadMaps
      · rw [hresult.works, hresult.newLoadMaps]
        exact h.locals.newLoadMaps
      · rw [hresult.works, hresult.loadMaps, hresult.newLoadMaps, hresult.pc]
        exact h.locals.pc
      · rw [hresult.pc]
        exact fun hnot => htasks.trans (h.locals.tasks hnot)
      · rw [hresult.pc]
        exact fun hnone => hlist.trans (h.locals.steal_list hnone)
  | collect tk prev next =>
    simp only [step, Option.ite_none_right_eq_some, Option.some.injEq] at hs
    obtain ⟨hdone, rfl⟩ := hs
    exact h.of_shape (h.collect hdone)
  | dispatch r =>
    obtain ⟨t, ht, hserved⟩ := dispatch_served h r
    obtain rfl : t = s' := Option.some.inj (ht.symm.trans hs)
    rcases hserved.workers with hsame | ⟨e, he, hstep⟩
    · have hsound := h.sound
      have hended := h.ended
      have hsettled := h.settled
      rw [← hsame] at hsound hended hsettled
      exact ⟨hserved.shape, hsound, hended, hsettled, hserved.locals⟩
    · obtain ⟨hpc, hmoving⟩ := dispatcher_frame he hstep
      refine ⟨hserved.shape, Worker.step_sound h.sound hstep,
        Worker.step_ended h.sound h.ended hstep, fun w hw => ?_, hserved.locals⟩
      rw [hmoving w]
      exact h.settled w (hpc ▸ hw)

/-- It holds in every reachable state. -/
theorem inv_of_reachable (h : system.Reachable s) : Inv s :=
  System.Via.invariant (I := Inv) (fun _ => inv_of_starts) (fun _ _ _ hinv _ => step_inv hinv) h

/-- What is said of the state: the dispatcher's next step can be done, whatever it finds busy and
reads as a load, with no null pointer followed, no assertion failed, no local list destroyed that
is not empty and no division by zero; and it leaves the tasks in the queues and lists as they are.
No task stands twice among them, the ends and the counts are exact, and between two iterations the
local lists are empty. -/
structure Conserved (s : State) : Prop where
  next : ∀ r, ∃ s', dispatch s r = some s' ∧ queued s' = queued s
  exclusive : Exclusive s.items
  exact : ∀ p, (∀ w, p ≠ .m_waitQueue w) → (s.ends p).Exact s.mem (s.items p)
  locals : s.pc = .top → s.ends .tasks = .zero ∧ s.ends .steal_list = .zero

/-- **Balancing the load keeps the tasks**, whatever the workers do between the dispatcher's
steps.
SOURCE: operation/scheduler.cc:103-219, operation/worker.cc:217-247 -/
theorem load_balance {s : State} (h : system.Reachable s) : Conserved s := by
  have hinv := inv_of_reachable h
  refine ⟨fun r => ?_, hinv.shape.exclusive, fun p hp => hinv.shape.exact hp, fun hpc => ?_⟩
  · obtain ⟨s', hdispatch, hserved⟩ := dispatch_served hinv r
    exact ⟨s', hdispatch, hserved.queued⟩
  · have htasks := hinv.locals.tasks
    have hlist := hinv.locals.steal_list
    rw [hpc] at htasks hlist
    have hexact := hinv.shape.exact (p := .tasks) (by simp)
    have hexact' := hinv.shape.exact (p := .steal_list) (by simp)
    rw [htasks id] at hexact
    rw [hlist rfl] at hexact'
    exact ⟨hexact.eq_zero, hexact'.eq_zero⟩

/-- Two workers without tasks. -/
def start : State where
  works := 2
  mem := ⟨fun _ => none, fun _ => none⟩
  ends := fun _ => .zero
  worker := fun _ => .top
  m_gccQueue := fun _ => []
  tasks := fun _ => ⟨.runnable, 0, none⟩
  created := 0
  issued := []
  wakers := []
  pc := .top
  busyings := []
  loadMaps := []
  newLoadMaps := []

/-- A scheduler that has just been started. -/
theorem start_starts : Starts start := by
  constructor <;> simp [start]

/-- Three tasks for the first worker; the dispatcher finds it busy, with the load 3, and has taken its
tasks when a fourth comes in. -/
def busyWorker : List Event :=
  List.replicate 3 (.work (.createTask 0)) ++
    [(false, 0), (true, 3), (false, 0), (false, 0), (false, 3), (false, 0), (false, 0), (false, 0),
      (false, 0), (false, 0)].map (fun r => .dispatch ⟨false, r.1, r.2⟩) ++
    .work (.createTask 0) :: List.replicate 4 (.dispatch ⟨false, false, 0⟩)

/-- The three tasks go to the other worker, and the fourth stays. -/
theorem load_balance_busy : ∃ s, system.Reachable s ∧
    (s.items (.m_newQueue 0) = [3] ∧ s.items (.m_newQueue 1) = [0, 1, 2]) ∧ Conserved s := by
  have hinit : system.init start := start_starts
  obtain ⟨s, hs, hitems⟩ := System.exists_reachable busyWorker
    (fun s : State => s.items (.m_newQueue 0) = [3] ∧ s.items (.m_newQueue 1) = [0, 1, 2])
    hinit (by decide)
  exact ⟨s, hs, by simpa using hitems, load_balance hs⟩

end MagicNet.Dispatcher
