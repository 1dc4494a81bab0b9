import MagicNet.Analysis.QueueFifo
import MagicNet.Model.Collector

/-!
# What a pass of the collector reaches

The length of the queue falls with every handle that does not go back, and the `for` compares it
with the number of rounds made.  After `i` rounds, `r` of them without a push, the loop goes on while
`i + r` is below the length at the start: a pass that drops a handle ends before it has come to all.
Only the last handle can be dropped without harm.  Whatever the passes leave, an actor is sent
`M_ID_QUIT` at most once, for its handle is in the queue once and goes when the message is sent;
unless the handle is entered for two actors.
-/

set_option autoImplicit false

namespace MagicNet.ActorGcc

open MagicNet.Foundation MagicNet.Util

variable {o : Options} {s s' : State}

/-! ## What the steps do -/

/-- The three ends of the body of the `for`.
SOURCE: module/actorGcc.cc:38-55 -/
theorem examine_cases (o : Options) (s : State) (handle : BitVec 32) :
    (s.waits o handle = true ∧ ∃ id, s.leaving handle = some id ∧ s.examine o handle =
        { s.set id { s.actors id with
            m_death_us := (s.actors id).m_death_us + o._actor_gcc_sleep_us } with
          m_qGcc := s.m_qGcc.local_push handle }) ∨
      (s.waits o handle = false ∧ ∃ id, s.leaving handle = some id ∧ s.examine o handle =
        s.set id { s.actors id with
          m_death_us := (s.actors id).m_death_us + o._actor_gcc_sleep_us
          quits := (s.actors id).quits + 1 }) ∨
      s.waits o handle = false ∧ s.leaving handle = none ∧ s.examine o handle = s := by
  unfold State.waits State.leaving State.examine
  cases hgrab : s.m_actors handle with
  | none => exact .inr (.inr ⟨rfl, rfl, rfl⟩)
  | some id =>
    cases hdeath : (s.actors id).m_indeath with
    | false => exact .inr (.inr ⟨by simp [hdeath], by simp [hdeath], by simp [hdeath]⟩)
    | true =>
      cases hready : (s.actors id).isSuspedEmpty &&
          o._actor_gcc_timeout_us < (s.actors id).m_death_us + o._actor_gcc_sleep_us with
      | false =>
        refine .inl ⟨by simp [hdeath, hready], id, by simp [hdeath], ?_⟩
        simp only [hdeath, Bool.not_true, Bool.false_eq_true, if_false]
        exact if_neg (ne_of_eq_of_ne hready Bool.false_ne_true)
      | true =>
        refine .inr (.inl ⟨by simp [hdeath, hready], id, by simp [hdeath], ?_⟩)
        simp only [hdeath, Bool.not_true, Bool.false_eq_true, if_false]
        exact if_pos hready

/-- The actor that is set, and the others. -/
theorem set_actors (s : State) (id id' : ℕ) (a : Actor) :
    (s.set id a).actors id' = if id' = id then a else s.actors id' := by
  unfold State.set
  by_cases heq : id' = id
  · subst heq
    simp
  · simp [heq]

/-- What a new record keeps of one actor it keeps of all. -/
theorem set_field {β : Type} (f : Actor → β) {id : ℕ} {a : Actor} (h : f a = f (s.actors id))
    (id' : ℕ) : f ((s.set id a).actors id') = f (s.actors id') := by
  rw [set_actors]
  split
  · rename_i heq
    rw [heq, h]
  · rfl

/-- `doExit` of an actor that leaves already does nothing; otherwise it marks the actor and enters
its handle.
SOURCE: module/actor.cc:116-124 -/
theorem doExit_cases (s : State) (id : ℕ) :
    ((s.actors id).m_indeath = true ∧ s.doExit id = s) ∨
      (s.actors id).m_indeath = false ∧ s.doExit id =
        { s.set id { s.actors id with m_indeath := true } with
          m_qGcc := s.m_qGcc.local_push (s.actors id).m_handle, quiet := false } := by
  unfold State.doExit
  cases hdeath : (s.actors id).m_indeath with
  | true => exact .inl ⟨rfl, if_pos hdeath⟩
  | false => exact .inr ⟨rfl, if_neg (by simp [hdeath])⟩

/-- What the body of the `for` does with a handle. -/
structure Examined (o : Options) (s : State) (handle : BitVec 32) (t : State) : Prop where
  m_actors : t.m_actors = s.m_actors
  allocated : t.allocated = s.allocated
  m_handle : ∀ id, (t.actors id).m_handle = (s.actors id).m_handle
  m_indeath : ∀ id, (t.actors id).m_indeath = (s.actors id).m_indeath
  m_death_us : ∀ id, (t.actors id).m_death_us = (s.actors id).m_death_us +
    if s.leaving handle = some id then o._actor_gcc_sleep_us else 0
  quits : ∀ id, (t.actors id).quits = (s.actors id).quits +
    if s.leaving handle = some id ∧ s.waits o handle = false then 1 else 0
  contents : t.m_qGcc.contents = s.m_qGcc.contents ++ if s.waits o handle then [handle] else []
  found : s.waits o handle → ∃ id, s.leaving handle = some id
  pass : t.present = s.present ∧ t.deaths = s.deaths ∧ t.quiet = s.quiet

/-- A new record for the actor, with more time. -/
theorem examined_set {handle : BitVec 32} {id : ℕ} {a : Actor} {q : Queue (BitVec 32)}
    (hleaving : s.leaving handle = some id) (hhandle : a.m_handle = (s.actors id).m_handle)
    (hindeath : a.m_indeath = (s.actors id).m_indeath)
    (hdeath : a.m_death_us = (s.actors id).m_death_us + o._actor_gcc_sleep_us)
    (hquits : a.quits = (s.actors id).quits + if s.waits o handle = false then 1 else 0)
    (hq : q.contents = s.m_qGcc.contents ++ if s.waits o handle then [handle] else []) :
    Examined o s handle { s.set id a with m_qGcc := q } := by
  refine ⟨rfl, rfl, ?_, ?_, ?_, ?_, hq, fun _ => ⟨id, hleaving⟩, rfl, rfl, rfl⟩
  all_goals
    intro id'
    rw [show ({ s.set id a with m_qGcc := q } : State).actors id' = _ from set_actors s id id' a]
    by_cases heq : id' = id
  · rw [if_pos heq, heq]
    exact hhandle
  · rw [if_neg heq]
  · rw [if_pos heq, heq]
    exact hindeath
  · rw [if_neg heq]
  · rw [if_pos heq, heq, if_pos hleaving]
    exact hdeath
  · have hother : s.leaving handle ≠ some id' := by simp [hleaving, Ne.symm heq]
    rw [if_neg heq, if_neg hother]
    exact (BitVec.add_zero _).symm
  · rw [if_pos heq, heq, hquits]
    simp [hleaving]
  · have hother : s.leaving handle ≠ some id' := by simp [hleaving, Ne.symm heq]
    rw [if_neg heq, if_neg fun h => hother h.1, Nat.add_zero]

/-- What the collector does with a handle it has popped.
SOURCE: module/actorGcc.cc:27-58 -/
theorem examine_spec (o : Options) (s : State) (handle : BitVec 32) :
    Examined o s handle (s.examine o handle) := by
  rcases examine_cases o s handle with ⟨hwaits, id, hleaving, heq⟩ |
    ⟨hwaits, id, hleaving, heq⟩ | ⟨hwaits, hleaving, heq⟩
  · rw [heq]
    refine examined_set hleaving rfl rfl rfl (by simp [hwaits]) ?_
    rw [hwaits, if_pos rfl]
    exact s.m_qGcc.contents_push handle
  · rw [heq]
    exact examined_set hleaving rfl rfl rfl (by simp [hwaits]) (by simp [hwaits])
  · rw [heq]
    refine ⟨rfl, rfl, fun _ => rfl, fun _ => rfl, ?_, ?_, ?_, ?_, rfl, rfl, rfl⟩
    all_goals simp [hwaits, hleaving]

/-- A round pops a handle and looks at its actor, or the pass ends.
SOURCE: module/actorGcc.cc:27-58 -/
theorem step_round (hs : step o s .round = some s') : ∃ i, s.pc = .pass i ∧
    (s.m_qGcc.length ≤ i ∧ s' = { s with pc := .top } ∨
      ∃ handle q, i < s.m_qGcc.length ∧ s.m_qGcc.contents = handle :: q.contents ∧ s' =
        { State.examine o { s with m_qGcc := q } handle with
          pc := .pass (i + 1)
          examined := s.examined ++ [⟨handle, s.leaving handle, s.waits o handle⟩] }) := by
  simp only [step] at hs
  split at hs
  · rename_i i hpc
    refine ⟨i, hpc, ?_⟩
    split at hs
    · rename_i hlt
      split at hs
      · rename_i handle q hpop
        obtain ⟨hhead, htail⟩ := s.m_qGcc.contents_pop
        rw [hpop] at hhead htail
        have hcons := List.cons_head?_tail (show handle ∈ s.m_qGcc.contents.head? from hhead.symm)
        exact .inr ⟨handle, q, hlt, by rw [← hcons, htail], (Option.some.inj hs).symm⟩
      · cases hs
    · exact .inl ⟨by omega, (Option.some.inj hs).symm⟩
  · cases hs

/-- A new actor has just been made. -/
theorem register_new (s : State) (handle : BitVec 32) :
    (s.set s.allocated ⟨handle, false, 0, 0, 0⟩).actors s.allocated = ⟨handle, false, 0, 0, 0⟩ := by
  rw [set_actors, if_pos rfl]

/-- The others stay when one is made. -/
theorem register_old {id : ℕ} (handle : BitVec 32) (hid : id < s.allocated) :
    (s.set s.allocated ⟨handle, false, 0, 0, 0⟩).actors id = s.actors id := by
  rw [set_actors, if_neg hid.ne]

/-- What the registry finds when an actor has been registered. -/
theorem register_grab {handle handle' : BitVec 32} {id : ℕ}
    (hid : Function.update s.m_actors handle (some s.allocated) handle' = some id) :
    handle' = handle ∧ id = s.allocated ∨ s.m_actors handle' = some id := by
  by_cases heq : handle' = handle
  · subst heq
    rw [Function.update_self] at hid
    exact .inl ⟨rfl, (Option.some.inj hid).symm⟩
  · rw [Function.update_of_ne heq] at hid
    exact .inr hid

/-- What it finds when one has been taken out. -/
theorem unregister_grab {handle handle' : BitVec 32} {id : ℕ}
    (hid : Function.update s.m_actors handle none handle' = some id) :
    s.m_actors handle' = some id := by
  by_cases heq : handle' = handle
  · subst heq
    simp at hid
  · simpa [heq] using hid

/-- An actor that is found has been allocated, and has the handle. -/
theorem register_found {handle handle' : BitVec 32} {id : ℕ}
    (hgrab : ∀ handle id, s.m_actors handle = some id →
      id < s.allocated ∧ (s.actors id).m_handle = handle)
    (hid : Function.update s.m_actors handle (some s.allocated) handle' = some id) :
    id < s.allocated + 1 ∧
      ((s.set s.allocated ⟨handle, false, 0, 0, 0⟩).actors id).m_handle = handle' := by
  rcases register_grab hid with ⟨rfl, rfl⟩ | hid
  · rw [register_new]
    exact ⟨Nat.lt_succ_self _, rfl⟩
  · obtain ⟨hlt, hhandle⟩ := hgrab handle' id hid
    rw [register_old handle hlt]
    exact ⟨hlt.trans (Nat.lt_succ_self _), hhandle⟩

/-! ## The invariant of every run -/

/-- The number of handles that did not go back. -/
def dropped (l : List Exam) : ℕ := l.countP fun x => !x.waits

/-- What is known in the rounds of a pass. -/
structure Passing (o : Options) (s : State) : Prop where
  ptr : ∀ x ∈ s.examined, ∀ id, x.ptr = some id →
    id < s.allocated ∧ (s.actors id).m_handle = x.handle
  leaving : ∀ x ∈ s.examined, x.waits → ∃ id, x.ptr = some id
  deaths : ∀ id, (s.actors id).m_death_us = s.deaths id +
    BitVec.ofNat 32 (s.examined.countP fun x => x.ptr = some id) * o._actor_gcc_sleep_us

/-- What is known while nothing is entered: the queue has the handles still to be examined and
then those put back, and the loop was not over before any of the rounds. -/
structure Undisturbed (s : State) : Prop where
  handles : s.examined.map Exam.handle = s.present.take s.examined.length
  queue : s.m_qGcc.contents = s.present.drop s.examined.length ++
    (s.examined.filter Exam.waits).map Exam.handle
  tested : ∀ k < s.examined.length, k + dropped (s.examined.take k) < s.present.length

structure Inv (o : Options) (s : State) : Prop where
  grab : ∀ handle id, s.m_actors handle = some id →
    id < s.allocated ∧ (s.actors id).m_handle = handle
  passing : ∀ i, s.pc = .pass i → i = s.examined.length ∧ Passing o s ∧
    (s.quiet → Undisturbed s)

/-- The length of the queue in a pass: the drops are what is missing. -/
theorem Undisturbed.length (h : Undisturbed s) :
    s.m_qGcc.length + dropped s.examined = s.present.length := by
  have hle : s.examined.length ≤ s.present.length := by
    have hlen := congrArg List.length h.handles
    rw [List.length_map, List.length_take] at hlen
    omega
  have hsplit := s.examined.length_eq_countP_add_countP Exam.waits
  have hdropped : dropped s.examined = s.examined.countP fun x => ¬ x.waits := by
    simp [dropped]
  rw [← Queue.contents_length, h.queue, List.length_append, List.length_drop, List.length_map,
    ← List.countP_eq_length_filter]
  omega

/-- A change of the records that keeps the handles and the times. -/
theorem Inv.of_actors (h : Inv o s) (hpc : s'.pc = s.pc) (hqueue : s'.quiet → s'.m_qGcc = s.m_qGcc)
    (hquiet : s'.quiet → s.quiet) (hgrab : ∀ handle id, s'.m_actors handle = some id →
      s.m_actors handle = some id) (hallocated : s'.allocated = s.allocated)
    (hpresent : s'.present = s.present) (hexamined : s'.examined = s.examined)
    (hdeaths : s'.deaths = s.deaths)
    (hhandle : ∀ id, (s'.actors id).m_handle = (s.actors id).m_handle)
    (hdeath : ∀ id, (s'.actors id).m_death_us = (s.actors id).m_death_us) : Inv o s' := by
  refine ⟨fun handle id hid => ?_, fun i hi => ?_⟩
  · rw [hallocated, hhandle]
    exact h.grab handle id (hgrab handle id hid)
  · obtain ⟨hcount, hpassing, hundisturbed⟩ := h.passing i (hpc ▸ hi)
    refine ⟨hexamined ▸ hcount, ⟨?_, ?_, ?_⟩, fun hq => ?_⟩
    · intro x hx id hid
      rw [hallocated, hhandle]
      exact hpassing.ptr x (hexamined ▸ hx) id hid
    · rw [hexamined]
      exact hpassing.leaving
    · intro id
      rw [hdeath, hdeaths, hexamined]
      exact hpassing.deaths id
    · obtain ⟨hhandles, hcontents, htested⟩ := hundisturbed (hquiet hq)
      refine ⟨?_, ?_, ?_⟩
      · rw [hexamined, hpresent]
        exact hhandles
      · rw [hqueue hq, hexamined, hpresent]
        exact hcontents
      · rw [hexamined, hpresent]
        exact htested

/-- What a round leaves, the handle examined being the front of the queue. -/
structure Round (o : Options) (s : State) (handle : BitVec 32) (rest : List (BitVec 32))
    (s' : State) : Prop where
  lt : s.examined.length < s.m_qGcc.length
  cons : s.m_qGcc.contents = handle :: rest
  pc : s'.pc = .pass (s.examined.length + 1)
  examined : s'.examined = s.examined ++ [⟨handle, s.leaving handle, s.waits o handle⟩]
  contents : s'.m_qGcc.contents = rest ++ if s.waits o handle then [handle] else []

/-- A round leaves the queue undisturbed where the registry stays. -/
theorem Undisturbed.round {handle : BitVec 32} {rest : List (BitVec 32)} (h : Undisturbed s)
    (hr : Round o s handle rest s') (hpresent : s'.present = s.present) : Undisturbed s' := by
  have hlength := h.length
  have hlt : s.examined.length < s.present.length := by
    have := hr.lt
    omega
  have hqueue := h.queue
  rw [hr.cons, List.drop_eq_getElem_cons hlt, List.cons_append, List.cons.injEq] at hqueue
  obtain ⟨hfront, hrest⟩ := hqueue
  refine ⟨?_, ?_, ?_⟩
  · rw [hr.examined, hpresent, List.map_append, h.handles, List.length_append,
      List.length_singleton, List.take_add_one, List.getElem?_eq_getElem hlt, ← hfront]
    rfl
  · rw [hr.contents, hrest, hr.examined, hpresent, List.length_append, List.length_singleton,
      List.filter_append, List.map_append, List.append_assoc]
    cases s.waits o handle <;> simp
  · intro k hk
    rw [hr.examined, hpresent]
    rw [hr.examined, List.length_append, List.length_singleton] at hk
    rw [List.take_append_of_le_length (by omega)]
    by_cases hlast : k = s.examined.length
    · subst hlast
      rw [List.take_length]
      have := hr.lt
      omega
    · exact h.tested k (by omega)

/-- The actor that a handle makes leave for longer has that handle. -/
theorem Inv.leaving (h : Inv o s) {handle : BitVec 32} {id : ℕ}
    (hleaving : s.leaving handle = some id) :
    id < s.allocated ∧ (s.actors id).m_handle = handle :=
  h.grab handle id (Option.filter_eq_some_iff.mp hleaving).1

/-- And the pass goes on over the rest of the queue.
SOURCE: module/actorGcc.cc:27-58 -/
theorem Passing.round {handle : BitVec 32} {q : Queue (BitVec 32)} {t : State} {pc : Pc}
    (hinv : Inv o s) (h : Passing o s) (he : Examined o { s with m_qGcc := q } handle t) :
    Passing o { t with
      pc := pc
      examined := s.examined ++ [⟨handle, s.leaving handle, s.waits o handle⟩] } := by
  refine ⟨fun x hx id hid => ?_, fun x hx hwaits => ?_, fun id => ?_⟩
  · change id < t.allocated ∧ (t.actors id).m_handle = x.handle
    rw [he.allocated, he.m_handle]
    rcases List.mem_append.mp hx with hold | hnew
    · exact h.ptr x hold id hid
    · obtain rfl := List.mem_singleton.mp hnew
      exact hinv.leaving hid
  · rcases List.mem_append.mp hx with hold | hnew
    · exact h.leaving x hold hwaits
    · obtain rfl := List.mem_singleton.mp hnew
      exact he.found hwaits
  · change (t.actors id).m_death_us = t.deaths id + _
    rw [he.m_death_us, he.pass.2.1, List.countP_append, List.countP_singleton]
    change (s.actors id).m_death_us + (if s.leaving handle = some id then _ else 0) = _
    rw [h.deaths id]
    by_cases hleaving : s.leaving handle = some id
    · simp only [hleaving, decide_true, if_true]
      rw [BitVec.ofNat_add, BitVec.add_mul, BitVec.add_assoc]
      simp
    · simp [hleaving]

/-- A round keeps the invariant.
SOURCE: module/actorGcc.cc:27-58 -/
theorem inv_round (h : Inv o s) (hs : step o s .round = some s') : Inv o s' := by
  obtain ⟨i, hpc, ⟨-, rfl⟩ | ⟨handle, q, hlt, hcons, rfl⟩⟩ := step_round hs
  · exact ⟨h.grab, nofun⟩
  · obtain ⟨rfl, hpassing, hundisturbed⟩ := h.passing i hpc
    have he := examine_spec o { s with m_qGcc := q } handle
    generalize State.examine o { s with m_qGcc := q } handle = t at he
    refine ⟨fun handle' id hid => ?_, fun i hi => ⟨?_, hpassing.round h he, fun hquiet => ?_⟩⟩
    · change id < t.allocated ∧ (t.actors id).m_handle = handle'
      rw [he.allocated, he.m_handle]
      exact h.grab handle' id (he.m_actors ▸ hid)
    · obtain rfl := Pc.pass.inj hi
      simp
    · have hu := hundisturbed (he.pass.2.2 ▸ hquiet)
      exact hu.round ⟨hlt, hcons, rfl, rfl, he.contents⟩ he.pass.1

/-- So does a new actor.
SOURCE: module/actorSystem.cc:35-64 -/
theorem Inv.register (h : Inv o s) (handle : BitVec 32) : Inv o
    { s.set s.allocated ⟨handle, false, 0, 0, 0⟩ with
      m_actors := Function.update s.m_actors handle (some s.allocated)
      allocated := s.allocated + 1
      deaths := Function.update s.deaths s.allocated 0 } := by
  refine ⟨fun handle' id hid => register_found h.grab hid, fun i hi => ?_⟩
  · obtain ⟨hcount, hpassing, hundisturbed⟩ := h.passing i hi
    refine ⟨hcount, ⟨fun x hx id hid => ?_, hpassing.leaving, fun id => ?_⟩,
      fun hquiet => ⟨(hundisturbed hquiet).handles, (hundisturbed hquiet).queue,
        (hundisturbed hquiet).tested⟩⟩
    · obtain ⟨hlt, hhandle⟩ := hpassing.ptr x hx id hid
      dsimp only
      rw [register_old handle hlt]
      exact ⟨hlt.trans (Nat.lt_succ_self _), hhandle⟩
    · dsimp only
      by_cases heq : id = s.allocated
      · subst heq
        have hnone : s.examined.countP (fun x => x.ptr = some s.allocated) = 0 := by
          rw [List.countP_eq_zero]
          intro x hx hptr
          exact (hpassing.ptr x hx _ (of_decide_eq_true hptr)).1.false
        rw [set_actors, if_pos rfl, Function.update_self]
        change 0 = 0 + BitVec.ofNat 32 (s.examined.countP _) * _
        rw [hnone]
        simp
      · rw [set_actors, if_neg heq, Function.update_of_ne heq]
        exact hpassing.deaths id

/-- One step keeps the invariant.
SOURCE: module/actorGcc.cc:27-58, module/actor.cc:116-124 -/
theorem step_inv {e : Event} (h : Inv o s) (hs : step o s e = some s') : Inv o s' := by
  cases e with
  | doRegister handle =>
    simp only [step, Option.ite_none_right_eq_some, Option.some.injEq] at hs
    obtain ⟨-, rfl⟩ := hs
    exact h.register handle
  | doUnRegister handle =>
    obtain rfl := Option.some.inj hs
    exact h.of_actors rfl (fun _ => rfl) id (fun handle' id hid => unregister_grab hid) rfl rfl rfl
      rfl (fun _ => rfl) (fun _ => rfl)
  | doExit id =>
    simp only [step, Option.ite_none_right_eq_some, Option.some.injEq] at hs
    obtain ⟨-, rfl⟩ := hs
    rcases doExit_cases s id with ⟨-, heq⟩ | ⟨-, heq⟩
    · rw [heq]
      exact h
    · rw [heq]
      exact h.of_actors rfl nofun nofun (fun _ _ h => h) rfl rfl rfl rfl (set_field _ rfl)
        (set_field _ rfl)
  | susped id n =>
    simp only [step, Option.ite_none_right_eq_some, Option.some.injEq] at hs
    obtain ⟨-, rfl⟩ := hs
    exact h.of_actors rfl (fun _ => rfl) (fun h => h) (fun _ _ h => h) rfl rfl rfl rfl
      (set_field _ rfl) (set_field _ rfl)
  | doShutdown =>
    obtain rfl := Option.some.inj hs
    exact h.of_actors rfl (fun _ => rfl) id (fun _ _ h => h) rfl rfl rfl rfl (fun _ => rfl)
      (fun _ => rfl)
  | begin =>
    simp only [step, Option.ite_none_right_eq_some, Option.some.injEq] at hs
    obtain ⟨-, rfl⟩ := hs
    refine ⟨h.grab, fun i hi => ?_⟩
    dsimp only at hi
    split at hi <;> cases hi
  | awake =>
    simp only [step, Option.ite_none_right_eq_some, Option.some.injEq] at hs
    obtain ⟨-, rfl⟩ := hs
    refine ⟨h.grab, fun i hi => ⟨(Pc.pass.inj hi).symm, ⟨nofun, nofun, fun id => ?_⟩, fun _ => ?_⟩⟩
    · simp
    · exact ⟨rfl, by simp, nofun⟩
  | round => exact inv_round h hs

/-! ## The end of a pass -/

/-- Nothing is dropped among handles that are all put back, and only then. -/
theorem dropped_eq_zero (l : List Exam) : dropped l = 0 ↔ ∀ x ∈ l, x.waits = true := by
  simp [dropped, List.countP_eq_zero]

/-- Among handles that differ an actor is found once. -/
theorem countP_ptr (h : Passing o s) (hnodup : (s.examined.map Exam.handle).Nodup) {x : Exam}
    {id : ℕ} (hx : x ∈ s.examined) (hptr : x.ptr = some id) :
    s.examined.countP (fun y => y.ptr = some id) = 1 := by
  have honly : ∀ y ∈ s.examined, (y.ptr = some id ↔ y = x) := by
    intro y hy
    constructor
    · intro hyptr
      have hhandle := (h.ptr y hy id hyptr).2.symm.trans (h.ptr x hx id hptr).2
      exact List.inj_on_of_nodup_map hnodup hy hx hhandle
    · rintro rfl
      exact hptr
  have hcount : s.examined.countP (fun y => y.ptr = some id) = s.examined.count x :=
    List.countP_congr fun y hy => by simpa using honly y hy
  rw [hcount]
  exact List.count_eq_one_of_mem hnodup.of_map hx

/-- At the end of a pass in which nothing was entered, every handle has been examined once exactly
where all but the last of them went back.
SOURCE: module/actorGcc.cc:27-58 -/
theorem complete_iff (h : Inv o s) {i : ℕ} (hpc : s.pc = .pass i) (hquiet : s.quiet = true)
    (hend : s.m_qGcc.length ≤ i) : Complete o { s with pc := .top } ↔
      ∀ x ∈ s.examined.take (s.present.length - 1), x.waits = true := by
  obtain ⟨rfl, hpassing, hundisturbed⟩ := h.passing i hpc
  have hu := hundisturbed hquiet
  have hlength := hu.length
  rw [← dropped_eq_zero]
  constructor
  · rintro ⟨honce, -, -⟩
    have hall : s.examined.length = s.present.length := by
      simpa using congrArg List.length honce
    by_cases hempty : s.examined.length = 0
    · simp [List.length_eq_zero_iff.mp hempty, dropped]
    · have htested := hu.tested (s.present.length - 1) (by omega)
      omega
  · intro hkept
    have hall : s.present.length ≤ s.examined.length := by
      by_contra hless
      rw [List.take_of_length_le (by omega)] at hkept
      omega
    have honce : s.examined.map Exam.handle = s.present := by
      rw [hu.handles, List.take_of_length_le hall]
    refine ⟨honce, ?_, fun hnodup x hx hwaits => ?_⟩
    · change s.m_qGcc.contents = _
      rw [hu.queue, List.drop_of_length_le hall, List.nil_append]
    · obtain ⟨id, hptr⟩ := hpassing.leaving x hx hwaits
      refine ⟨id, hptr, ?_⟩
      change (s.actors id).m_death_us = _
      rw [hpassing.deaths id, countP_ptr hpassing (honce ▸ hnodup) hx hptr]
      simp

/-- A step ends a pass that was complete exactly where it meets the condition.
SOURCE: module/actorGcc.cc:27-58 -/
theorem step_exact {e : Event} (h : Inv o s) (hs : step o s e = some s') :
    (Exact o s e s' ↔ OnlyLast s e) ∧ Inv o s' := by
  refine ⟨?_, step_inv h hs⟩
  refine forall_congr' fun hends => ?_
  obtain ⟨rfl, hquiet, hover⟩ := hends
  obtain ⟨i, hpc, ⟨hend, rfl⟩ | ⟨handle, q, hlt, -⟩⟩ := step_round hs
  · exact complete_iff h hpc hquiet hend
  · simp only [State.over, hpc, decide_eq_true_eq] at hover
    omega

/-! ## One message -/

/-- An actor that leaves, and can be found, has been sent as many messages as its handle is missing
from the queue. -/
structure Told (s : State) : Prop where
  grab : ∀ handle id, s.m_actors handle = some id →
    id < s.allocated ∧ (s.actors id).m_handle = handle
  staying : ∀ id < s.allocated, (s.actors id).m_indeath = false → (s.actors id).quits = 0
  leaving : ∀ handle id, s.m_actors handle = some id → (s.actors id).m_indeath = true →
    (s.actors id).quits + s.m_qGcc.contents.count handle ≤ 1
  once : ∀ id < s.allocated, (s.actors id).quits ≤ 1

/-- Records and registry may change as long as no handle comes into the queue. -/
theorem Told.of_actors (h : Told s) (hqueue : s'.m_qGcc = s.m_qGcc)
    (hgrab : ∀ handle id, s'.m_actors handle = some id → s.m_actors handle = some id)
    (hallocated : s'.allocated = s.allocated)
    (hhandle : ∀ id, (s'.actors id).m_handle = (s.actors id).m_handle)
    (hdeath : ∀ id, (s'.actors id).m_indeath = (s.actors id).m_indeath)
    (hquits : ∀ id, (s'.actors id).quits = (s.actors id).quits) : Told s' := by
  refine ⟨?_, ?_, ?_, ?_⟩
  · intro handle id hid
    rw [hallocated, hhandle]
    exact h.grab handle id (hgrab handle id hid)
  · intro id hid
    rw [hdeath, hquits]
    exact h.staying id (hallocated ▸ hid)
  · intro handle id hid
    rw [hdeath, hquits, hqueue]
    exact h.leaving handle id (hgrab handle id hid)
  · intro id hid
    rw [hquits]
    exact h.once id (hallocated ▸ hid)

/-- An actor that is told to leave has its handle in the queue.
SOURCE: module/actor.cc:116-124 -/
theorem told_doExit (h : Told s) {id : ℕ} (hlt : id < s.allocated) (hc : Unused s (.doExit id)) :
    Told (s.doExit id) := by
  rcases doExit_cases s id with ⟨-, heq⟩ | ⟨hdeath, heq⟩
  · rw [heq]
    exact h
  · obtain ⟨habsent, hothers⟩ := hc hdeath
    rw [heq]
    have hhandles : ∀ id', ((s.set id { s.actors id with m_indeath := true }).actors id').m_handle =
        (s.actors id').m_handle := set_field _ rfl
    have hquits : ∀ id', ((s.set id { s.actors id with m_indeath := true }).actors id').quits =
        (s.actors id').quits := set_field _ rfl
    refine ⟨?_, ?_, ?_, ?_⟩
    · intro handle id' hid'
      dsimp only
      rw [hhandles]
      exact h.grab handle id' hid'
    · intro id' hid' hstays
      dsimp only at hstays ⊢
      rw [hquits]
      rw [set_actors] at hstays
      split at hstays
      · cases hstays
      · exact h.staying id' hid' hstays
    · intro handle id' hid' hleaves
      dsimp only at hleaves ⊢
      rw [hquits, Queue.contents_push, List.count_append, List.count_singleton]
      by_cases hhandle : (s.actors id).m_handle = handle
      · subst hhandle
        obtain rfl := hothers id' hid'
        rw [h.staying id' hlt hdeath, List.count_eq_zero_of_not_mem habsent]
        simp
      · have hne : id' ≠ id := by
          rintro rfl
          exact hhandle (h.grab handle id' hid').2
        rw [set_actors, if_neg hne] at hleaves
        simpa [hhandle] using h.leaving handle id' hid' hleaves
    · intro id' hid'
      dsimp only
      rw [hquits]
      exact h.once id' hid'

/-- The actor of a handle that leaves. -/
theorem leaving_iff {handle : BitVec 32} {id : ℕ} : s.leaving handle = some id ↔
    s.m_actors handle = some id ∧ (s.actors id).m_indeath = true :=
  Option.filter_eq_some_iff

/-- A round puts the handle back, or sends the message, or finds nobody who leaves. -/
theorem told_round (h : Told s) (hs : step o s .round = some s') : Told s' := by
  obtain ⟨i, -, ⟨-, rfl⟩ | ⟨handle, q, -, hcons, rfl⟩⟩ := step_round hs
  · exact ⟨h.grab, h.staying, h.leaving, h.once⟩
  · have he := examine_spec o { s with m_qGcc := q } handle
    generalize State.examine o { s with m_qGcc := q } handle = t at he
    have hquits : ∀ id, (t.actors id).quits = (s.actors id).quits +
        if s.leaving handle = some id ∧ s.waits o handle = false then 1 else 0 := he.quits
    have hcontents : t.m_qGcc.contents =
        q.contents ++ if s.waits o handle then [handle] else [] := he.contents
    have hcount : ∀ handle', s.m_qGcc.contents.count handle' =
        q.contents.count handle' + if handle = handle' then 1 else 0 := by
      intro handle'
      rw [hcons, List.count_cons]
      simp
    refine ⟨fun handle' id hid => ?_, fun id hlt hstays => ?_, fun handle' id hid hleaves => ?_,
      fun id hlt => ?_⟩ <;> dsimp only at *
    · rw [he.allocated, he.m_handle]
      exact h.grab handle' id (he.m_actors ▸ hid)
    · rw [he.m_indeath] at hstays
      have hnot : ¬(s.leaving handle = some id ∧ s.waits o handle = false) := by
        rintro ⟨hleaving, -⟩
        rw [(leaving_iff.mp hleaving).2] at hstays
        cases hstays
      rw [hquits, if_neg hnot]
      exact h.staying id (he.allocated ▸ hlt) hstays
    · rw [he.m_actors] at hid
      rw [he.m_indeath] at hleaves
      have hbefore := h.leaving handle' id hid hleaves
      rw [hcount] at hbefore
      rw [hquits, hcontents, List.count_append]
      by_cases hsame : handle = handle'
      · subst hsame
        have hleaving : s.leaving handle = some id := leaving_iff.mpr ⟨hid, hleaves⟩
        rw [if_pos rfl] at hbefore
        cases s.waits o handle with
        | true => simpa using hbefore
        | false =>
          simp only [hleaving, and_self, if_true, Bool.false_eq_true, if_false, List.count_nil]
          omega
      · have hnot : ¬ s.leaving handle = some id := by
          intro hleaving
          have hhandle := (h.grab handle id (leaving_iff.mp hleaving).1).2
          exact hsame (hhandle.symm.trans (h.grab handle' id hid).2)
        rw [if_neg hsame] at hbefore
        rw [if_neg fun hboth => hnot hboth.1]
        cases s.waits o handle with
        | true => simpa [hsame] using hbefore
        | false => simpa using hbefore
    · rw [hquits]
      split
      · rename_i hboth
        obtain ⟨hid, hleaves⟩ := leaving_iff.mp hboth.1
        have hbefore := h.leaving handle id hid hleaves
        rw [hcount, if_pos rfl] at hbefore
        omega
      · exact h.once id (he.allocated ▸ hlt)

/-- A new actor has not been told to leave. -/
theorem Told.register (h : Told s) (handle : BitVec 32) : Told
    { s.set s.allocated ⟨handle, false, 0, 0, 0⟩ with
      m_actors := Function.update s.m_actors handle (some s.allocated)
      allocated := s.allocated + 1
      deaths := Function.update s.deaths s.allocated 0 } := by
  refine ⟨fun handle' id hid => register_found h.grab hid, fun id hlt hstays => ?_,
    fun handle' id hid hleaves => ?_, fun id hlt => ?_⟩ <;> dsimp only at *
  · by_cases heq : id = s.allocated
    · rw [heq, register_new]
    · rw [register_old handle (by omega)] at hstays ⊢
      exact h.staying id (by omega) hstays
  · rcases register_grab hid with ⟨rfl, rfl⟩ | hid
    · rw [register_new] at hleaves
      cases hleaves
    · rw [register_old handle (h.grab handle' id hid).1] at hleaves ⊢
      exact h.leaving handle' id hid hleaves
  · by_cases heq : id = s.allocated
    · rw [heq, register_new]
      exact Nat.zero_le 1
    · rw [register_old handle (by omega)]
      exact h.once id (by omega)

/-- One step keeps it so that those who leave are in the queue or have been told to quit.
SOURCE: module/actorGcc.cc:27-58, module/actor.cc:116-124 -/
theorem step_told {e : Event} (h : Told s) (hc : Unused s e) (hs : step o s e = some s') :
    Told s' := by
  cases e with
  | doRegister handle =>
    simp only [step, Option.ite_none_right_eq_some, Option.some.injEq] at hs
    obtain ⟨-, rfl⟩ := hs
    exact h.register handle
  | doUnRegister handle =>
    obtain rfl := Option.some.inj hs
    exact h.of_actors rfl (fun handle' id hid => unregister_grab hid) rfl (fun _ => rfl)
      (fun _ => rfl) (fun _ => rfl)
  | doExit id =>
    simp only [step, Option.ite_none_right_eq_some, Option.some.injEq] at hs
    obtain ⟨hlt, rfl⟩ := hs
    exact told_doExit h hlt hc
  | susped id n =>
    simp only [step, Option.ite_none_right_eq_some, Option.some.injEq] at hs
    obtain ⟨-, rfl⟩ := hs
    exact h.of_actors rfl (fun _ _ h => h) rfl (set_field _ rfl) (set_field _ rfl)
      (set_field _ rfl)
  | doShutdown =>
    obtain rfl := Option.some.inj hs
    exact ⟨h.grab, h.staying, h.leaving, h.once⟩
  | begin =>
    simp only [step, Option.ite_none_right_eq_some, Option.some.injEq] at hs
    obtain ⟨-, rfl⟩ := hs
    exact ⟨h.grab, h.staying, h.leaving, h.once⟩
  | awake =>
    simp only [step, Option.ite_none_right_eq_some, Option.some.injEq] at hs
    obtain ⟨-, rfl⟩ := hs
    exact ⟨h.grab, h.staying, h.leaving, h.once⟩
  | round => exact told_round h hs

/-! ## The passes of a run -/

/-- Both hold at the start. -/
theorem inv_of_starts (h : Starts s) : Inv o s ∧ Told s := by
  have hgrab : ∀ handle id, s.m_actors handle = some id →
      id < s.allocated ∧ (s.actors id).m_handle = handle := by
    intro handle id hid
    rw [h.actors] at hid
    cases hid
  have hnone : ∀ id, ¬ id < s.allocated := by simp [h.allocated]
  refine ⟨⟨hgrab, ?_⟩, hgrab, ?_, ?_, ?_⟩
  · intro i hi
    rw [h.pc] at hi
    cases hi
  · exact fun id hid => absurd hid (hnone id)
  · exact fun handle id hid => absurd (hgrab handle id hid).1 (hnone id)
  · exact fun id hid => absurd hid (hnone id)

/-- **Passes.**  All along a run every pass in which nothing is entered examines each of the handles
present once, puts back exactly those of actors still to be waited for, and counts the time of these
once, exactly when in each of these passes all but the last of the handles were those of actors to
be waited for; and an actor is sent `M_ID_QUIT` at most once if no handle is entered that is in the
queue or has been given to another.
SOURCE: module/actorGcc.cc:27-58, module/actor.cc:116-124, util/queue.h:48-60 -/
theorem collector_passes (o : Options) (s₀ s : State) (es : List Event) (h0 : Starts s₀)
    (hrun : (system o).run s₀ es = some s) :
    ((system o).Always (Exact o) s₀ es ↔ (system o).Meets OnlyLast s₀ es) ∧
      ((system o).Meets Unused s₀ es → ∀ id < s.allocated, (s.actors id).quits ≤ 1) := by
  obtain ⟨hinv, htold⟩ := inv_of_starts (o := o) h0
  refine ⟨System.always_iff_of_iff (I := Inv o) (g := OnlyLast) (Q := Exact o)
    (fun _ _ _ h hs => step_exact h hs) hinv hrun, fun hmeets => ?_⟩
  have htold' : Told s :=
    System.run_invariant (I := Told) (fun _ _ _ h hc hs => step_told h hc hs) htold hrun hmeets
  exact htold'.once

/-- The collector when it is made: the array of the queue is not written yet. -/
def start : State :=
  { m_shutdown := false, m_qGcc := .new fun _ => 0, m_actors := fun _ => none
    actors := fun _ => ⟨0, false, 0, 0, 0⟩, allocated := 0, pc := .top, present := []
    examined := [], deaths := fun _ => 0, quiet := false }

/-- A collector that has just been started. -/
theorem start_starts : Starts start := ⟨rfl, fun _ => rfl, rfl, rfl⟩

instance (s : State) (e : Event) : Decidable (OnlyLast s e) :=
  inferInstanceAs (Decidable (_ ∧ _ → _))

instance (s : State) : (e : Event) → Decidable (Unused s e)
  | .doExit _ => inferInstanceAs (Decidable (_ → _ ∧ _))
  | .doRegister _ | .doUnRegister _ | .susped .. | .doShutdown | .begin | .awake | .round =>
    isTrue trivial

/-- A pass over two handles, of which the last can be told to quit.
SOURCE: module/actorSystem.cc:35-64, module/actor.cc:116-124, module/actorGcc.cc:25 -/
theorem collector_passes_last : ∃ s, (system ⟨1000, 500⟩).run start
    [.doRegister 1, .doRegister 2, .susped 0 1, .doExit 0, .doExit 1, .begin, .awake, .round,
      .round, .round] = some s ∧ s.m_qGcc.contents = [1] ∧ (s.actors 1).quits = 1 ∧
    (system ⟨1000, 500⟩).Always (Exact ⟨1000, 500⟩) start
      [.doRegister 1, .doRegister 2, .susped 0 1, .doExit 0, .doExit 1, .begin, .awake, .round,
        .round, .round] ∧ ∀ id < s.allocated, (s.actors id).quits ≤ 1 := by
  have hrun : ((system ⟨1000, 500⟩).run start [.doRegister 1, .doRegister 2, .susped 0 1, .doExit 0,
      .doExit 1, .begin, .awake, .round, .round, .round]).any
        (fun s => s.m_qGcc.contents == [1] && (s.actors 1).quits == 1) = true := by
    decide +kernel
  obtain ⟨s, hs, htest⟩ := (Option.any_eq_true _ _).mp hrun
  rw [Bool.and_eq_true, beq_iff_eq, beq_iff_eq] at htest
  obtain ⟨hexact, honce⟩ := collector_passes ⟨1000, 500⟩ start s _ start_starts hs
  exact ⟨s, hs, htest.1, htest.2, hexact.mpr (by decide +kernel), honce (by decide +kernel)⟩

/-- The first of two handles belongs to nobody any more: the pass ends in front of the second. -/
theorem collector_stops : ¬ ∀ o s e s', (system o).Reachable s → step o s e = some s' →
    Exact o s e s' := by
  intro hall
  have hrun : ((system ⟨1000, 500⟩).run start [.doRegister 1, .doRegister 2, .doExit 0, .doExit 1,
      .doUnRegister 1, .begin, .awake, .round]).any
        (fun s => s.quiet && s.over && s.examined.map Exam.handle == [1] && s.present == [1, 2] &&
          (step ⟨1000, 500⟩ s .round).isSome) = true := by
    decide +kernel
  obtain ⟨s, hreach, htest⟩ := System.exists_reachable _ _ start_starts hrun
  simp only [Bool.and_eq_true, beq_iff_eq] at htest
  obtain ⟨⟨⟨⟨hquiet, hover⟩, hexamined⟩, hpresent⟩, hsome⟩ := htest
  obtain ⟨s', hs⟩ := Option.isSome_iff_exists.mp hsome
  have honce := (hall _ s .round s' hreach hs ⟨rfl, hquiet, hover⟩).once
  obtain ⟨i, hpc, ⟨-, rfl⟩ | ⟨handle, q, hlt, -⟩⟩ := step_round hs
  · change s.examined.map Exam.handle = s.present at honce
    rw [hexamined, hpresent] at honce
    exact absurd honce (by decide)
  · simp only [State.over, hpc, decide_eq_true_eq] at hover
    omega

end MagicNet.ActorGcc
