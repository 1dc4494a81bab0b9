import MagicNet.Model.FileCache

/-!
# A file that is found at the second look

As long as no call finds its file at the second look, the lock is held by whoever reads or writes the
table, an entry stays as it was stored, and each block is stored once or has been freed; `clear` then
frees each block once.  A call that does find it frees the lock and reads the file without it, stores
what it has read over the entry, whose block is lost, and frees the lock once more: from the first of
these on two threads may change the table at once (`getDataFromFile_iff`).

SOURCE: util/ofile.cc:27-111
-/

set_option autoImplicit false

namespace MagicNet.FileCache

open MagicNet.Foundation

variable {s s' : State} {t : ℕ}

/-- The places that the text of the call has between a `lock` and the last `unlock`. -/
def Inside : Pc → Prop
  | .out | .lock _ _ => False
  | _ => True

/-- At the `unlock` after a second look that has found the file. -/
def Pc.Found : Pc → Bool
  | .unlockFound _ => true
  | _ => false

/-- The blocks that are in the table. -/
def State.stored (s : State) : List ℕ := s.m_data.entries.map fun e => e.2._bytes

/-- A thread has read a file into the block. -/
def Held (pc : ℕ → Pc) (b : ℕ) : Prop := ∃ t filename d, pc t = .store filename d ∧ d._bytes = b

/-- Each block is in one place: in the table, with the thread that is about to store it, or freed. -/
structure Ledger (s : State) : Prop where
  nodup : (s.stored ++ s.freed).Nodup
  lt : ∀ b ∈ s.stored ++ s.freed, b < s.blocks
  held : ∀ b, Held s.pc b → b < s.blocks ∧ b ∉ s.stored ++ s.freed
  all : ∀ b < s.blocks, b ∈ s.stored ++ s.freed ∨ Held s.pc b

/-- What is in the table stays there. -/
def Kept (s s' : State) : Prop :=
  ∀ filename, ∀ d ∈ s.m_data.lookup filename, d ∈ s'.m_data.lookup filename

/-- What a step of the cache does. -/
structure Sound (s : State) (e : Event) (s' : State) : Prop where
  guarded : Guarded s'.flag Inside s'.pc
  kept : Kept s s'
  ledger : Ledger s'

/-- The event is not the `unlock` after a second look that has found the file. -/
def Misses (s : State) : Event → Prop
  | .tick t => ¬ (s.pc t).Found
  | _ => True

instance (s : State) : ∀ e : Event, Decidable (Misses s e)
  | .tick t => inferInstanceAs (Decidable (¬ (s.pc t).Found))
  | .getDataFromFile _ _ | .fopen _ _ => isTrue trivial

/-- What a thread knows of the table at its place. -/
def Relies (m_data : AList fun _ : List Char => Data) : Pc → Prop
  | .unlockFirst filename true | .unlockFound filename | .unlock filename true => filename ∈ m_data
  | .fopen filename | .store filename _ => filename ∉ m_data
  | _ => True

/-- A thread outside the lock relies on nothing. -/
theorem Relies.outside {p : Pc} (hp : ¬ Inside p) (m_data : AList fun _ : List Char => Data) :
    Relies m_data p := by
  cases p with
  | out => trivial
  | lock => trivial
  | _ => exact absurd trivial hp

structure Inv (s : State) : Prop where
  guarded : Guarded s.flag Inside s.pc
  relies : ∀ t, Relies s.m_data (s.pc t)
  ledger : Ledger s

/-- An empty table is in order. -/
theorem inv_of_starts (h : Starts s) : Inv s where
  guarded := by
    rw [h.flag]
    exact Guarded.init fun t => by simp [h.pc t, Inside]
  relies t := by
    rw [h.pc t]
    trivial
  ledger := by
    constructor
    · simp [State.stored, h.m_data, h.freed]
    · simp [State.stored, h.m_data, h.freed]
    · rintro b ⟨t, filename, d, hpc, -⟩
      simp [h.pc t] at hpc
    · intro b hb
      simp [h.blocks] at hb

/-! ## Steps that read no file -/

/-- Which thread has which block is told by the places where one is held. -/
theorem held_update {pc : ℕ → Pc} {p : Pc} (hold : ∀ filename d, pc t ≠ .store filename d)
    (hnew : ∀ filename d, p ≠ .store filename d) (b : ℕ) :
    Held (Function.update pc t p) b ↔ Held pc b := by
  have hrow (u : ℕ) (filename : List Char) (d : Data) :
      Function.update pc t p u = .store filename d ↔ pc u = .store filename d := by
    by_cases hu : u = t
    · subst hu
      simp [hold filename d, hnew filename d]
    · simp [hu]
  simp only [Held, hrow]

/-- A thread that stores nothing changes nothing about who has which block. -/
theorem Ledger.goto (h : Ledger s) {p : Pc} (hold : ∀ filename d, s.pc t ≠ .store filename d)
    (hnew : ∀ filename d, p ≠ .store filename d) (flag : Bool) :
    Ledger ({ s with flag := flag }.goto t p) where
  nodup := h.nodup
  lt := h.lt
  held b hb := h.held b ((held_update hold hnew b).mp hb)
  all b hb := (h.all b hb).imp_right (held_update hold hnew b).mpr

/-- A thread goes on under the lock, or outside of it. -/
theorem Inv.goto (h : Inv s) {p : Pc} (hside : Inside p ↔ Inside (s.pc t))
    (hold : ∀ filename d, s.pc t ≠ .store filename d) (hnew : ∀ filename d, p ≠ .store filename d)
    (hp : Relies s.m_data p) : Inv (s.goto t p) where
  guarded := h.guarded.stay hside
  relies := forall_update hp fun u _ => h.relies u
  ledger := h.ledger.goto hold hnew s.flag

/-- A thread frees the lock and is outside. -/
theorem Inv.leave (h : Inv s) {p : Pc} (ht : Inside (s.pc t)) (hp : ¬ Inside p)
    (hold : ∀ filename d, s.pc t ≠ .store filename d) :
    Inv ({ s with flag := false }.goto t p) where
  guarded := h.guarded.leave ht hp
  relies := forall_update (Relies.outside hp _) fun u _ => h.relies u
  ledger := by
    refine h.ledger.goto hold ?_ false
    rintro filename d rfl
    exact hp trivial

/-- A table that stays keeps its entries. -/
theorem kept_of_eq (h : s'.m_data = s.m_data) : Kept s s' := fun _ _ hd => h ▸ hd

/-! ## Reading and storing -/

/-- A block comes, and the thread that has read the file holds it. -/
theorem Ledger.read (h : Ledger s) {filename : List Char} {d : Data} (hd : d._bytes = s.blocks)
    (hold : ∀ u filename d, s.pc u ≠ .store filename d) :
    Ledger ({ s with blocks := s.blocks + 1 }.goto t (.store filename d)) := by
  have hnone (b : ℕ) : ¬ Held s.pc b := by
    rintro ⟨u, f, d', hpc, -⟩
    exact hold u f d' hpc
  have hheld (b : ℕ) : Held (Function.update s.pc t (.store filename d)) b ↔ b = s.blocks := by
    constructor
    · rintro ⟨u, f, d', hpc, rfl⟩
      by_cases hu : u = t
      · subst hu
        simp only [Function.update_self, Pc.store.injEq] at hpc
        rw [← hpc.2, hd]
      · rw [Function.update_of_ne hu] at hpc
        exact absurd hpc (hold u f d')
    · rintro rfl
      exact ⟨t, filename, d, by simp, hd⟩
  refine ⟨h.nodup, fun b hb => (h.lt b hb).trans (Nat.lt_succ_self _), fun b hb => ?_,
    fun b hb => ?_⟩
  · obtain rfl := (hheld b).mp hb
    exact ⟨Nat.lt_succ_self _, fun hmem => (h.lt _ hmem).false⟩
  · rcases Nat.lt_succ_iff_lt_or_eq.mp hb with hb | rfl
    · exact .inl ((h.all b hb).resolve_right (hnone b))
    · exact .inr ((hheld _).mpr rfl)

/-- A block comes and is freed: the file was not read to its end. -/
theorem Ledger.short (h : Ledger s) {p : Pc} (hold : ∀ filename d, s.pc t ≠ .store filename d)
    (hnew : ∀ filename d, p ≠ .store filename d) :
    Ledger ({ s with blocks := s.blocks + 1, freed := s.freed ++ [s.blocks] }.goto t p) := by
  have hnew_lt : s.blocks ∉ s.stored ++ s.freed := fun hmem => (h.lt _ hmem).false
  have hmem (b : ℕ) : b ∈ s.stored ++ (s.freed ++ [s.blocks]) ↔
      b ∈ s.stored ++ s.freed ∨ b = s.blocks := by
    rw [← List.append_assoc, List.mem_append, List.mem_singleton]
  refine ⟨?_, fun b hb => ?_, fun b hb => ?_, fun b hb => ?_⟩
  · change (s.stored ++ (s.freed ++ [s.blocks])).Nodup
    rw [← List.append_assoc]
    refine List.Nodup.append h.nodup (List.nodup_singleton _) ?_
    intro b hb hnewb
    rw [List.mem_singleton] at hnewb
    exact hnew_lt (hnewb ▸ hb)
  · rcases (hmem b).mp hb with hb | rfl
    · exact (h.lt b hb).trans (Nat.lt_succ_self _)
    · exact Nat.lt_succ_self _
  · obtain ⟨hlt, hnot⟩ := h.held b ((held_update hold hnew b).mp hb)
    refine ⟨hlt.trans (Nat.lt_succ_self _), fun hb => ?_⟩
    rcases (hmem b).mp hb with hb | rfl
    · exact hnot hb
    · exact hlt.false
  · rcases Nat.lt_succ_iff_lt_or_eq.mp hb with hb | rfl
    · rcases h.all b hb with hb | hb
      · exact .inl ((hmem b).mpr (.inl hb))
      · exact .inr ((held_update hold hnew b).mpr hb)
    · exact .inl ((hmem _).mpr (.inr rfl))

/-- A new entry stores its block. -/
theorem stored_insert {filename : List Char} {d : Data} (habsent : filename ∉ s.m_data) :
    (s.m_data.insert filename d).entries.map (fun e => e.2._bytes) = d._bytes :: s.stored := by
  rw [AList.entries_insert_of_notMem habsent]
  rfl

/-- The block that was held goes into the table. -/
theorem Ledger.store (h : Ledger s) {filename : List Char} {d : Data} {p : Pc}
    (hpc : s.pc t = .store filename d) (hothers : ∀ u, u ≠ t → ∀ f d', s.pc u ≠ .store f d')
    (habsent : filename ∉ s.m_data) (hnew : ∀ f d', p ≠ .store f d') :
    Ledger ({ s with m_data := s.m_data.insert filename d }.goto t p) := by
  have hnone (b : ℕ) : ¬ Held (Function.update s.pc t p) b := by
    rintro ⟨u, f, d', hu, -⟩
    revert hu
    exact forall_update (P := fun p => p ≠ Pc.store f d') (hnew f d')
      (fun u hu => hothers u hu f d') u
  have honly (b : ℕ) (hb : Held s.pc b) : b = d._bytes := by
    obtain ⟨u, f, d', hu, rfl⟩ := hb
    by_cases hut : u = t
    · subst hut
      rw [hpc, Pc.store.injEq] at hu
      rw [hu.2]
    · exact absurd hu (hothers u hut f d')
  obtain ⟨hlt, hfresh⟩ := h.held d._bytes ⟨t, filename, d, hpc, rfl⟩
  have hlist : ({ s with m_data := s.m_data.insert filename d }.goto t p).stored =
      d._bytes :: s.stored := stored_insert habsent
  refine ⟨?_, fun b hb => ?_, fun b hb => absurd hb (hnone b), fun b hb => ?_⟩
  · rw [hlist]
    exact List.nodup_cons.mpr ⟨hfresh, h.nodup⟩
  · rw [hlist, List.cons_append, List.mem_cons] at hb
    rcases hb with rfl | hb
    · exact hlt
    · exact h.lt b hb
  · rw [hlist, List.cons_append, List.mem_cons]
    rcases h.all b hb with hb | hb
    · exact .inl (.inr hb)
    · exact .inl (.inl (honly b hb))

/-- It changes no entry. -/
theorem kept_insert {filename : List Char} {d : Data} (habsent : filename ∉ s.m_data)
    (hs : s'.m_data = s.m_data.insert filename d) : Kept s s' := by
  intro f d' hd'
  have hne : f ≠ filename := by
    rintro rfl
    rw [AList.lookup_eq_none.mpr habsent] at hd'
    simp at hd'
  rw [hs, AList.lookup_insert_ne hne]
  exact hd'

/-! ## The steps -/

/-- A step of a thread that does not find its file at the second look keeps the entries and the
invariant.
SOURCE: util/ofile.cc:27-70 -/
theorem tick_inv (h : Inv s) (hmiss : Misses s (.tick t)) (hs : tick s t = some s') :
    Kept s s' ∧ Inv s' := by
  have hrel := h.relies t
  cases hpc : s.pc t with
  | out => simp [tick, hpc] at hs
  | fopen => simp [tick, hpc] at hs
  | unlockFound filename => exact absurd (by rw [hpc]; rfl) hmiss
  | lock second filename =>
    simp only [tick, hpc] at hs
    cases hfree : s.flag with
    | true => simp [hfree] at hs
    | false =>
      simp only [hfree, Bool.false_eq_true, if_false, Option.some.injEq] at hs
      subst hs
      refine ⟨kept_of_eq rfl, h.guarded.enter hfree trivial, ?_, ?_⟩
      · exact forall_update trivial fun u _ => h.relies u
      · exact h.ledger.goto (by simp [hpc]) (by simp) true
  | getUnData second filename =>
    cases second with
    | false =>
      simp only [tick, hpc, Option.some.injEq] at hs
      subst hs
      refine ⟨kept_of_eq rfl, h.goto (by rw [hpc]; rfl) (by simp [hpc]) (by simp) ?_⟩
      cases hl : (s.m_data.lookup filename).isSome with
      | false => trivial
      | true => exact AList.lookup_isSome.mp hl
    | true =>
      simp only [tick, hpc, Option.some.injEq] at hs
      subst hs
      refine ⟨kept_of_eq rfl, ?_⟩
      split
      · rename_i hl
        exact h.goto (by rw [hpc]; rfl) (by simp [hpc]) (by simp) (AList.lookup_isSome.mp hl)
      · rename_i hl
        exact h.goto (by rw [hpc]; rfl) (by simp [hpc]) (by simp)
          fun hmem => hl (AList.lookup_isSome.mpr hmem)
  | unlockFirst filename ret =>
    simp only [tick, hpc, Option.some.injEq] at hs
    subst hs
    refine ⟨kept_of_eq rfl, h.leave (by rw [hpc]; trivial) ?_ (by simp [hpc])⟩
    cases ret <;> exact id
  | store filename d =>
    simp only [tick, hpc, Option.some.injEq] at hs
    subst hs
    rw [hpc] at hrel
    have hin : Inside (s.pc t) := by rw [hpc]; trivial
    have hothers (u : ℕ) (hu : u ≠ t) : ¬ Inside (s.pc u) := h.guarded.others hin u hu
    refine ⟨kept_insert hrel rfl, h.guarded.stay (by rw [hpc]; rfl), ?_, ?_⟩
    · refine forall_update ?_ fun u hu => Relies.outside (hothers u hu) _
      exact (AList.mem_insert _).mpr (.inl rfl)
    · refine h.ledger.store hpc (fun u hu f d' hst => ?_) hrel (by simp)
      exact hothers u hu (by rw [hst]; trivial)
  | unlock filename ret =>
    simp only [tick, hpc, Option.some.injEq] at hs
    subst hs
    exact ⟨kept_of_eq rfl, h.leave (by rw [hpc]; trivial) id (by simp [hpc])⟩

/-- Every such step does what is asked of it.
SOURCE: util/ofile.cc:27-70, 100-111 -/
theorem step_inv (s : State) (e : Event) (s' : State) (h : Inv s) (hmiss : Misses s e)
    (hs : step s e = some s') : Sound s e s' ∧ Inv s' := by
  suffices hsuff : Kept s s' ∧ Inv s' from
    ⟨⟨hsuff.2.guarded, hsuff.1, hsuff.2.ledger⟩, hsuff.2⟩
  cases e with
  | getDataFromFile t filename =>
    cases hpc : s.pc t with
    | out =>
      simp only [step, hpc, Option.some.injEq] at hs
      subst hs
      exact ⟨kept_of_eq rfl, h.goto (by rw [hpc]; rfl) (by simp [hpc]) (by simp) trivial⟩
    | _ => simp [step, hpc] at hs
  | tick t => exact tick_inv h hmiss hs
  | fopen t file =>
    cases hpc : s.pc t with
    | fopen filename =>
      have hrel := h.relies t
      rw [hpc] at hrel
      have hin : Inside (s.pc t) := by rw [hpc]; trivial
      have hstore (u : ℕ) (f : List Char) (d : Data) : s.pc u ≠ .store f d := by
        intro hu
        have hut : u = t := h.guarded.alone u t (by rw [hu]; trivial) hin
        rw [hut, hpc] at hu
        simp at hu
      rcases file with - | ⟨st_size, readRet⟩
      · simp only [step, hpc, Option.some.injEq] at hs
        subst hs
        exact ⟨kept_of_eq rfl, h.goto (by rw [hpc]; rfl) (by simp [hpc]) (by simp) trivial⟩
      · simp only [step, hpc, Option.ite_none_right_eq_some, Option.some.injEq] at hs
        obtain ⟨-, rfl⟩ := hs
        by_cases hall : readRet = st_size % 2 ^ 32
        · rw [if_pos hall]
          refine ⟨kept_of_eq rfl, h.guarded.stay (by rw [hpc]; rfl), ?_, ?_⟩
          · exact forall_update hrel fun u _ => h.relies u
          · exact h.ledger.read rfl hstore
        · rw [if_neg hall]
          refine ⟨kept_of_eq rfl, h.guarded.stay (by rw [hpc]; rfl), ?_, ?_⟩
          · exact forall_update trivial fun u _ => h.relies u
          · exact h.ledger.short (hstore t) (by simp)
    | _ => simp [step, hpc] at hs

end MagicNet.FileCache
