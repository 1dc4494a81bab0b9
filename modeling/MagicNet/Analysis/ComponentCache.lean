import MagicNet.Model.ComponentCache

/-!
# A component is loaded once and stays where it is

Threads look for components without the lock while another one adds to the table, and they may all
ask for the same name at once.  What makes this right is that an entry is written in full before the
count takes it in and not at all afterwards (`Stable`), and that whoever loads a library has looked for
its name with the lock taken, so that the name is not there (`Absent`) and cannot come before the
lock is free again.  `Relies` says what a thread knows at each place of its call.

SOURCE: module/componentGroup.cc:40-90, 141-148
-/

set_option autoImplicit false

namespace MagicNet.ComponentCache

open MagicNet.Foundation

variable {H : Type} {s s' : State H} {g g' : Group H} {t : ℕ}

/-! ## The table -/

/-- No published entry has the name. -/
def Absent (g : Group H) (name : List Char) : Prop := ∀ i < g.m_count, ¬ g.named i name

/-- An entry that can be used: its name is its own, and the library has the two functions that it
must have. -/
structure Complete (c : Component H) : Prop where
  _name : ∃ chars, c._name = some ⟨chars, true⟩
  _dll : c._dll.isSome
  _create : c._create.isSome
  _release : c._release.isSome

/-- The published entries can be used, and no two have one name. -/
structure Published (g : Group H) : Prop where
  m_count_le : g.m_count ≤ MAX_COMPONENT_TYPE
  complete : ∀ i < g.m_count, Complete (g.m_compts i)
  distinct : ∀ i < g.m_count, ∀ j < g.m_count, ∀ name, g.named i name → g.named j name → i = j

/-- What is published stays as it is. -/
structure Stable (g g' : Group H) : Prop where
  le : g.m_count ≤ g'.m_count
  same : ∀ i < g.m_count, g'.m_compts i = g.m_compts i

/-- A table has what it has. -/
theorem Stable.refl (g : Group H) : Stable g g := ⟨le_rfl, fun _ _ => rfl⟩

/-- An entry keeps its name. -/
theorem Stable.named_iff (h : Stable g g') {i : ℕ} (hi : i < g.m_count) (name : List Char) :
    g'.named i name ↔ g.named i name := by
  unfold Group.named
  rw [h.same i hi]

/-- Entries from `m_count` on may be written. -/
theorem stable_setEntry (c : Component H) : Stable g (g.setEntry g.m_count c) :=
  ⟨le_rfl, fun _ hi => Function.update_of_ne hi.ne _ _⟩

/-- Writing an entry does not count it.
SOURCE: module/componentGroup.cc:40-71 -/
@[simp] theorem setEntry_m_count (index : ℕ) (c : Component H) :
    (g.setEntry index c).m_count = g.m_count := rfl

@[simp] theorem setEntry_self (index : ℕ) (c : Component H) :
    (g.setEntry index c).m_compts index = c := Function.update_self ..

/-- The entries that are published stay so when the next one is written.
SOURCE: module/componentGroup.cc:40-71 -/
theorem Published.setEntry (h : Published g) (c : Component H) :
    Published (g.setEntry g.m_count c) := by
  have hst : Stable g (g.setEntry g.m_count c) := stable_setEntry c
  refine ⟨h.m_count_le, fun i hi => ?_, fun i hi j hj name hni hnj => ?_⟩
  · rw [hst.same i hi]
    exact h.complete i hi
  · exact h.distinct i hi j hj name ((hst.named_iff hi name).mp hni) ((hst.named_iff hj name).mp hnj)

/-- And a name that is absent stays absent. -/
theorem absent_setEntry {name : List Char} (h : Absent g name) (c : Component H) :
    Absent (g.setEntry g.m_count c) name := by
  intro i hi hname
  exact h i hi (((stable_setEntry (g := g) c).named_iff hi name).mp hname)

/-- The entry at `m_count` is published: it is complete, and its name is new. -/
theorem Published.count (h : Published g) (hlt : g.m_count < MAX_COMPONENT_TYPE)
    (hc : Complete (g.m_compts g.m_count)) {name : List Char} (hname : g.named g.m_count name)
    (habsent : Absent g name) : Published { g with m_count := g.m_count + 1 } := by
  have honly {other : List Char} (hother : g.named g.m_count other) : other = name := by
    obtain ⟨n, hn, rfl⟩ := hname
    obtain ⟨n', hn', rfl⟩ := hother
    rw [Option.mem_def.mp hn] at hn'
    rw [← Option.some.inj hn']
  refine ⟨hlt, fun i hi => ?_, fun i hi j hj other hni hnj => ?_⟩
  · rcases Nat.lt_succ_iff_lt_or_eq.mp hi with hi | rfl
    · exact h.complete i hi
    · exact hc
  · rcases Nat.lt_succ_iff_lt_or_eq.mp hi with hi | rfl <;>
      rcases Nat.lt_succ_iff_lt_or_eq.mp hj with hj | rfl
    · exact h.distinct i hi j hj other hni hnj
    · exact absurd (honly hnj ▸ hni) (habsent i hi)
    · exact absurd (honly hni ▸ hnj) (habsent j hj)
    · rfl

/-! ## What a thread knows -/

/-- The places between `lock` and `unlock`. -/
def Inside : Pc H → Prop
  | .out | .lock _ | .test false .. | .compare false .. => False
  | _ => True

/-- The entry that is being written: it is the next one, and the name is not there. -/
structure Room (g : Group H) (name : List Char) (index : ℕ) : Prop where
  index : index = g.m_count
  lt : g.m_count < MAX_COMPONENT_TYPE
  absent : Absent g name

/-- What a thread may rely on at its place. -/
def Relies (g : Group H) : Pc H → Prop
  | .out | .lock _ | .test false .. => True
  | .test true name i => ∀ j < i, ¬ g.named j name
  | .compare locked name i => i < g.m_count ∧ (locked = true → ∀ j < i, ¬ g.named j name)
  | .tryOpen name index | .store name index _ => Room g name index
  | .openSym name index => Room g name index ∧ (g.m_compts index)._dll.isSome
  | .strdup name index =>
    Room g name index ∧ (g.m_compts index)._dll.isSome ∧ (g.m_compts index)._create.isSome ∧
      (g.m_compts index)._release.isSome
  | .count name index => Room g name index ∧ Complete (g.m_compts index) ∧ g.named index name
  | .unlock name (some i) => i < g.m_count ∧ g.named i name
  | .unlock name none => Absent g name

/-- Outside, a thread relies on no more than that the count does not go down. -/
theorem Relies.outside {p : Pc H} (hp : ¬ Inside p) (h : Relies g p)
    (hle : g.m_count ≤ g'.m_count) : Relies g' p := by
  cases p with
  | out => trivial
  | lock => trivial
  | test locked name i =>
    cases locked with
    | false => trivial
    | true => exact absurd trivial hp
  | compare locked name i =>
    cases locked with
    | false => exact ⟨h.1.trans_le hle, fun hf => absurd hf Bool.false_ne_true⟩
    | true => exact absurd trivial hp
  | _ => exact absurd trivial hp

structure Inv (s : State H) : Prop where
  guarded : Guarded s.flag Inside s.pc
  published : Published s.group
  relies : ∀ t, Relies s.group (s.pc t)
  returned : ∀ r ∈ s.returned, ∀ i ∈ r.2, i < s.group.m_count ∧ s.group.named i r.1

/-- A new table is in order. -/
theorem inv_of_starts (h : Starts s) : Inv s where
  guarded := by
    rw [h.flag]
    exact Guarded.init fun t => by simp [h.pc t, Inside]
  published := by
    constructor <;> simp [h.m_count]
  relies t := by
    rw [h.pc t]
    trivial
  returned := by simp [h.returned]

/-- What calls have returned is good in a table that has grown. -/
theorem Inv.stable_returned (h : Inv s) (hst : Stable s.group g') :
    ∀ r ∈ s.returned, ∀ i ∈ r.2, i < g'.m_count ∧ g'.named i r.1 := by
  intro r hr i hi
  obtain ⟨hlt, hname⟩ := h.returned r hr i hi
  exact ⟨hlt.trans_le hst.le, (hst.named_iff hlt _).mpr hname⟩

/-- A thread goes on without writing to the table. -/
theorem Inv.goto (h : Inv s) {p : Pc H} (hside : Inside p ↔ Inside (s.pc t))
    (hp : Relies s.group p) : Inv (s.goto t p) where
  guarded := h.guarded.stay hside
  published := h.published
  relies := forall_update hp fun u _ => h.relies u
  returned := h.returned

/-- The thread that has the lock changes the table. -/
theorem Inv.write (h : Inv s) {p : Pc H} (ht : Inside (s.pc t)) (hp : Inside p)
    (hst : Stable s.group g') (hpub : Published g') (hrel : Relies g' p) :
    Inv ({ s with group := g' }.goto t p) where
  guarded := h.guarded.stay (iff_of_true hp ht)
  published := hpub
  relies := forall_update hrel fun u hu =>
    (h.relies u).outside (h.guarded.others ht u hu) hst.le
  returned := h.stable_returned hst

/-- So is what one more call returns. -/
theorem returned_append (h : Inv s) {name : List Char} {result : Option ℕ}
    (hres : ∀ i ∈ result, i < s.group.m_count ∧ s.group.named i name) :
    ∀ r ∈ s.returned ++ [(name, result)], ∀ i ∈ r.2,
      i < s.group.m_count ∧ s.group.named i r.1 := by
  intro r hr i hi
  rcases List.mem_append.mp hr with hr | hr
  · exact h.returned r hr i hi
  · obtain rfl := List.mem_singleton.mp hr
    exact hres i hi

/-! ## The steps -/

/-- A null pointer comes back from a call that has the lock and for a name that is not there. -/
def NotFound (s : State H) (e : Event H) (s' : State H) : Prop :=
  ∀ name, s'.returned = s.returned ++ [(name, none)] →
    Absent s.group name ∧ ∃ t, e = .tick t ∧ s.pc t = .unlock name none

/-- What a step does: what is published stays, and nothing comes back null that is there. -/
def Keeps (s : State H) (e : Event H) (s' : State H) : Prop :=
  Stable s.group s'.group ∧ NotFound s e s'

/-- A step that returns nothing does not fail to find anything. -/
theorem notFound_of_eq (e : Event H) (h : s'.returned = s.returned) : NotFound s e s' := by
  intro name hname
  simp [h] at hname

/-- The step of `get` at `i < m_count`. -/
theorem test_inv (h : Inv s) {locked : Bool} {name : List Char} {i : ℕ}
    (hpc : s.pc t = .test locked name i) :
    Inv (s.goto t
      (if i < s.group.m_count then .compare locked name i
      else if locked = false then .lock name
      else if s.group.m_count < MAX_COMPONENT_TYPE then .tryOpen name s.group.m_count
      else .unlock name none)) := by
  have hrel := h.relies t
  rw [hpc] at hrel
  by_cases hi : i < s.group.m_count
  · rw [if_pos hi]
    apply h.goto
    · rw [hpc]
      cases locked <;> rfl
    · refine ⟨hi, fun hl => ?_⟩
      subst hl
      exact hrel
  · rw [if_neg hi]
    cases locked with
    | false => exact h.goto (by rw [hpc]; rfl) trivial
    | true =>
      have habsent : Absent s.group name := fun j hj => hrel j (by omega)
      rw [if_neg Bool.true_eq_false.mp]
      split
      · exact h.goto (by rw [hpc]; rfl) ⟨rfl, ‹_›, habsent⟩
      · exact h.goto (by rw [hpc]; rfl) habsent

/-- A step of a thread keeps the invariant, and what a step has to keep.
SOURCE: module/componentGroup.cc:40-71 -/
theorem tick_inv (h : Inv s) (hs : tick s t = some s') :
    Inv s' ∧ Keeps s (.tick t) s' := by
  have hrel := h.relies t
  cases hpc : s.pc t with
  | out => simp [tick, hpc] at hs
  | tryOpen => simp [tick, hpc] at hs
  | openSym => simp [tick, hpc] at hs
  | test locked name i =>
    simp only [tick, hpc, Option.some.injEq] at hs
    subst hs
    exact ⟨test_inv h hpc, Stable.refl _, notFound_of_eq _ rfl⟩
  | compare locked name i =>
    simp only [tick, hpc, Option.some.injEq] at hs
    rw [hpc] at hrel
    by_cases hname : s.group.named i name
    · rw [if_pos hname] at hs
      cases locked with
      | true =>
        subst hs
        exact ⟨h.goto (by rw [hpc]; rfl) ⟨hrel.1, hname⟩, Stable.refl _, notFound_of_eq _ rfl⟩
      | false =>
        subst hs
        have hgo : Inv (s.goto t .out) := h.goto (by rw [hpc]; rfl) trivial
        refine ⟨⟨hgo.guarded, hgo.published, hgo.relies, ?_⟩, Stable.refl _, ?_⟩
        · apply returned_append h
          rintro j ⟨⟩
          exact ⟨hrel.1, hname⟩
        · intro other hother
          simp [State.ret] at hother
    · rw [if_neg hname] at hs
      subst hs
      refine ⟨h.goto ?_ ?_, Stable.refl _, notFound_of_eq _ rfl⟩
      · rw [hpc]
        cases locked <;> rfl
      · cases locked with
        | false => trivial
        | true =>
          intro j hj
          rcases Nat.lt_succ_iff_lt_or_eq.mp hj with hj | rfl
          · exact hrel.2 rfl j hj
          · exact hname
  | lock name =>
    simp only [tick, hpc] at hs
    cases hfree : s.flag with
    | true => simp [hfree] at hs
    | false =>
      simp only [hfree, Bool.false_eq_true, if_false, Option.some.injEq] at hs
      subst hs
      refine ⟨⟨h.guarded.enter hfree trivial, h.published, ?_, h.returned⟩, Stable.refl _,
        notFound_of_eq _ rfl⟩
      exact forall_update (fun j hj => absurd hj (Nat.not_lt_zero j)) fun u _ => h.relies u
  | store name index dl =>
    simp only [tick, hpc, Option.some.injEq] at hs
    subst hs
    rw [hpc] at hrel
    obtain ⟨rfl, hlt, habsent⟩ := hrel
    refine ⟨h.write (by rw [hpc]; trivial) trivial (stable_setEntry _) (h.published.setEntry _) ?_,
      stable_setEntry _, notFound_of_eq _ rfl⟩
    exact ⟨⟨rfl, hlt, absent_setEntry habsent _⟩, by simp⟩
  | strdup name index =>
    simp only [tick, hpc, Option.some.injEq] at hs
    subst hs
    rw [hpc] at hrel
    obtain ⟨⟨rfl, hlt, habsent⟩, hdll, hcreate, hrelease⟩ := hrel
    refine ⟨h.write (by rw [hpc]; trivial) trivial (stable_setEntry _) (h.published.setEntry _) ?_,
      stable_setEntry _, notFound_of_eq _ rfl⟩
    refine ⟨⟨rfl, hlt, absent_setEntry habsent _⟩, ?_, by simp [Group.named]⟩
    rw [setEntry_self]
    exact ⟨⟨name, rfl⟩, hdll, hcreate, hrelease⟩
  | count name index =>
    simp only [tick, hpc, Option.some.injEq] at hs
    subst hs
    rw [hpc] at hrel
    obtain ⟨⟨rfl, hlt, habsent⟩, hcomplete, hname⟩ := hrel
    have hst : Stable s.group { s.group with m_count := s.group.m_count + 1 } :=
      ⟨Nat.le_succ _, fun _ _ => rfl⟩
    exact ⟨h.write (by rw [hpc]; trivial) trivial hst
      (h.published.count hlt hcomplete hname habsent) ⟨Nat.lt_succ_self _, hname⟩, hst,
      notFound_of_eq _ rfl⟩
  | unlock name result =>
    simp only [tick, hpc, Option.some.injEq] at hs
    subst hs
    rw [hpc] at hrel
    refine ⟨⟨h.guarded.leave (by rw [hpc]; trivial) id, h.published, ?_, ?_⟩, Stable.refl _, ?_⟩
    · exact forall_update trivial fun u _ => h.relies u
    · apply returned_append h
      rintro i ⟨⟩
      exact hrel
    · intro other hother
      obtain ⟨rfl, rfl⟩ : name = other ∧ result = none := by simpa [State.ret] using hother
      exact ⟨hrel, t, rfl, hpc⟩

/-- Every step does.
SOURCE: module/componentGroup.cc:40-71 -/
theorem step_inv (s : State H) (e : Event H) (s' : State H) (h : Inv s)
    (hs : step s e = some s') : Keeps s e s' ∧ Inv s' := by
  cases e with
  | getComponent t name =>
    cases hpc : s.pc t with
    | out =>
      simp only [step, hpc, Option.some.injEq] at hs
      subst hs
      exact ⟨⟨Stable.refl _, notFound_of_eq _ rfl⟩, h.goto (by rw [hpc]; rfl) trivial⟩
    | _ => simp [step, hpc] at hs
  | tick t => exact (tick_inv h hs).symm
  | tryOpen t dl =>
    have hrel := h.relies t
    cases hpc : s.pc t with
    | tryOpen name index =>
      rw [hpc] at hrel
      cases dl with
      | none =>
        simp only [step, hpc, Option.some.injEq] at hs
        subst hs
        exact ⟨⟨Stable.refl _, notFound_of_eq _ rfl⟩, h.goto (by rw [hpc]; rfl) hrel.absent⟩
      | some dl =>
        simp only [step, hpc, Option.some.injEq] at hs
        subst hs
        exact ⟨⟨Stable.refl _, notFound_of_eq _ rfl⟩, h.goto (by rw [hpc]; rfl) hrel⟩
    | _ => simp [step, hpc] at hs
  | openSym t create release signal =>
    have hrel := h.relies t
    cases hpc : s.pc t with
    | openSym name index =>
      rw [hpc] at hrel
      obtain ⟨⟨rfl, hlt, habsent⟩, hdll⟩ := hrel
      simp only [step, hpc, Option.some.injEq] at hs
      subst hs
      refine ⟨⟨stable_setEntry _, notFound_of_eq _ rfl⟩, ?_⟩
      split
      · rename_i hsyms
        exact h.write (by rw [hpc]; trivial) trivial (stable_setEntry _) (h.published.setEntry _)
          ⟨⟨rfl, hlt, absent_setEntry habsent _⟩, by simpa using ⟨hdll, hsyms⟩⟩
      · exact h.write (by rw [hpc]; trivial) trivial (stable_setEntry _) (h.published.setEntry _)
          (absent_setEntry habsent _)
    | _ => simp [step, hpc] at hs

/-! ## Runs -/

/-- What has come back: components that are there and have the name, the same one for one name. -/
structure Answers (s : State H) : Prop where
  found : ∀ name i, (name, some i) ∈ s.returned → i < s.group.m_count ∧ s.group.named i name
  same : ∀ name i j, (name, some i) ∈ s.returned → (name, some j) ∈ s.returned → i = j

/-- In every run of any number of threads that call `getComponent`: the published entries are at
most 64, complete and of different names, and stay as they are; one thread at most is between `lock`
and `unlock`; a call that finds its component, or loads it, gives the entry of that name, always the
same one; and a call comes back with nothing only for a name that is not there.
SOURCE: module/componentGroup.cc:40-71 -/
theorem component_cache {s : State H} (h0 : Starts s) {es : List (Event H)}
    (hrun : (system (H := H)).run s es = some s') :
    Published s'.group ∧ Guarded s'.flag Inside s'.pc ∧ Answers s' ∧
      (system (H := H)).Always Keeps s es := by
  have hinv : Inv s' :=
    System.run_invariant (I := Inv) (fun s e s' hI _ hs => (step_inv s e s' hI hs).2)
      (inv_of_starts h0) hrun (System.meets_true s es)
  refine ⟨hinv.published, hinv.guarded, ⟨?_, ?_⟩, ?_⟩
  · exact fun name i hi => hinv.returned _ hi i rfl
  · intro name i j hi hj
    obtain ⟨hlti, hni⟩ := hinv.returned _ hi i rfl
    obtain ⟨hltj, hnj⟩ := hinv.returned _ hj j rfl
    exact hinv.published.distinct i hlti j hltj name hni hnj
  · exact System.always_of_invariant (I := Inv) step_inv (inv_of_starts h0) es

/-- Two threads look for the same component: one loads it and the other finds it. -/
theorem component_cache_race : ∃ s, system.run start race = some s ∧
    s.returned = [(['c'], some 0), (['c'], some 0)] ∧ Published s.group ∧ Answers s := by
  have hrun : (system.run start race).any
      (fun s => s.returned = [(['c'], some 0), (['c'], some 0)]) = true := by
    decide +kernel
  obtain ⟨s, hs, hreturned⟩ := (Option.any_eq_true _ _).mp hrun
  have hcache := component_cache ⟨rfl, rfl, fun _ => rfl, fun _ => rfl, rfl⟩ hs
  exact ⟨s, hs, of_decide_eq_true hreturned, hcache.1, hcache.2.2.1⟩

end MagicNet.ComponentCache
