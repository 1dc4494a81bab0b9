import MagicNet.Analysis.ClockExactness

/-!
# When a cascade ends

`local_move` empties a bucket by placing its timers anew, one after the other, at the new time.
The timers of a level-0 bucket are all due in the 256 times that begin, but `local_append` takes
none of them for near, as it should: it puts each back into level 0, for ever if into the same
bucket, or into a higher level.  On the levels above, a timer goes to a lower level exactly when
it belongs to the part of the round that begins.
-/

set_option autoImplicit false

namespace MagicNet.Clock

open MagicNet.Foundation

variable {s s' : State}

/-! ## Which level a timer goes to -/

/-- The place is in a level below. -/
def Place.Below (level : ℕ) : Place → Prop
  | .slots _ => False
  | .ts l _ => l < level

/-- A place below a level is a bucket of a lower one. -/
theorem exists_ts_of_below {level : ℕ} {p : Place} (h : p.Below level) :
    ∃ l j, p = .ts l j ∧ l < level := by
  cases p with
  | slots i => exact h.elim
  | ts l j => exact ⟨l, j, rfl, h⟩

/-- The bits of a mask less one.
SOURCE: operation/clock.h:132-150 -/
theorem levelMask_bit : ∀ i < 3, ∀ b < 32,
    (levelMask i - 1).getLsbD b = decide (b < 8 + (i + 1) * 6) := by
  decide

/-- Words that agree above a mask of ones agree from its length upward. -/
theorem or_ones {x y ones : BitVec 32} {n : ℕ}
    (hones : ∀ b < 32, ones.getLsbD b = decide (b < n)) :
    (x ||| ones) = (y ||| ones) ↔ x >>> n = y >>> n := by
  constructor
  · intro h
    apply BitVec.eq_of_getLsbD_eq
    intro b hb
    rw [BitVec.getLsbD_ushiftRight, BitVec.getLsbD_ushiftRight]
    by_cases hlt : n + b < 32
    · have hbit := congrArg (BitVec.getLsbD · (n + b)) h
      simpa [hones _ hlt] using hbit
    · simp [BitVec.getLsbD_of_ge _ _ (not_lt.mp hlt)]
  · intro h
    apply BitVec.eq_of_getLsbD_eq
    intro b hb
    rw [BitVec.getLsbD_or, BitVec.getLsbD_or, hones b hb]
    by_cases hlow : b < n
    · simp [hlow]
    · have hbit := congrArg (BitVec.getLsbD · (b - n)) h
      simp only [BitVec.getLsbD_ushiftRight, Nat.add_sub_cancel' (not_lt.mp hlow)] at hbit
      rw [hbit]

/-- The test of a round of `local_append`.
SOURCE: operation/clock.h:132-150 -/
theorem or_levelMask {time current_time : BitVec 32} {i : ℕ} (hi : i < 3) :
    (time ||| (levelMask i - 1)) = (current_time ||| (levelMask i - 1)) ↔
      time >>> (8 + (i + 1) * 6) = current_time >>> (8 + (i + 1) * 6) :=
  or_ones (levelMask_bit i hi)

/-- Times that agree from a bit upward agree from a higher bit upward. -/
theorem shift_agree {x y : BitVec 32} {m n : ℕ} (hmn : m ≤ n) (h : x >>> m = y >>> m) :
    x >>> n = y >>> n := by
  obtain ⟨k, rfl⟩ := Nat.exists_eq_add_of_le hmn
  rw [BitVec.shiftRight_add, BitVec.shiftRight_add, h]

/-- A timer goes below a level where its time agrees with the current one from the next level's bits
on.
SOURCE: operation/clock.h:132-150 -/
theorem levelOf_lt {time current_time : BitVec 32} {level : ℕ} (hlevel : level < 3) :
    levelOf time current_time < level + 1 ↔
      time >>> (8 + (level + 1) * 6) = current_time >>> (8 + (level + 1) * 6) := by
  unfold levelOf
  constructor
  · intro h
    cases hfind : (List.range 3).find? fun i =>
        (time ||| (levelMask i - 1)) = (current_time ||| (levelMask i - 1)) with
    | none =>
      rw [hfind, Option.getD_none] at h
      omega
    | some i =>
      rw [hfind, Option.getD_some] at h
      obtain ⟨hi, -, -⟩ := List.find?_range_eq_some.mp hfind
      exact shift_agree (by omega) ((or_levelMask (by omega)).mp (of_decide_eq_true hi))
  · intro h
    have hround := (or_levelMask hlevel).mpr h
    cases hfind : (List.range 3).find? fun i =>
        (time ||| (levelMask i - 1)) = (current_time ||| (levelMask i - 1)) with
    | none =>
      have hnot := List.find?_eq_none.mp hfind level (List.mem_range.mpr hlevel)
      exact absurd (decide_eq_true hround) hnot
    | some i =>
      rw [Option.getD_some]
      by_contra hge
      obtain ⟨-, -, hbefore⟩ := List.find?_range_eq_some.mp hfind
      have hnot := hbefore level (by omega)
      rw [decide_eq_true hround] at hnot
      cases hnot

/-! ## The bucket that is moved -/

/-- The `while` stops in a round whose mask the time has no bit of. -/
theorem selectLoop_spec {ct mask time : BitVec 32} {n i level idx : ℕ}
    (h : selectLoop ct n mask time i = some (some (level, idx))) :
    ∃ k < n, level = i + k ∧ ct &&& (mask <<< (6 * k) - 1) = 0 := by
  induction n generalizing mask time i with
  | zero => cases h
  | succ n ih =>
    unfold selectLoop at h
    split at h
    · rename_i hzeros
      dsimp only at h
      split at h
      · obtain ⟨rfl, rfl⟩ := Prod.mk.inj (Option.some.inj (Option.some.inj h))
        exact ⟨0, Nat.succ_pos n, rfl, by simpa using hzeros⟩
      · obtain ⟨k, hk, rfl, hrest⟩ := ih h
        refine ⟨k + 1, by omega, by omega, ?_⟩
        rw [← BitVec.shiftLeft_add] at hrest
        rwa [show 6 * (k + 1) = 6 + 6 * k by omega]
    · cases h

/-- `local_shift` moves a bucket of the four levels, and one above the lowest only when the time
ends in zeros beyond its bit 8.
SOURCE: operation/clock.h:90-110 -/
theorem select_spec {ct : BitVec 32} {level idx : ℕ} (h : select ct = some (some (level, idx))) :
    level ≤ 3 ∧ (0 < level → ct.getLsbD 8 = false) := by
  by_cases hct : ct = 0
  · subst hct
    obtain ⟨rfl, rfl⟩ : 3 = level ∧ 0 = idx := by simpa [select] using h
    exact ⟨le_rfl, fun _ => rfl⟩
  · rw [select, if_neg hct] at h
    obtain ⟨k, hk, hlevel, hzeros⟩ := selectLoop_spec h
    obtain rfl : level = k := hlevel.trans (Nat.zero_add k)
    have hne : level ≠ 4 := by
      rintro rfl
      -- the mask has been shifted out of the word
      have hmask : CLOCK_SLOT <<< (6 * 4) - 1 = BitVec.allOnes 32 := by decide
      rw [hmask, BitVec.and_allOnes] at hzeros
      exact hct hzeros
    refine ⟨by omega, fun hpos => ?_⟩
    have hmask : ∀ i < 4, 0 < i → (CLOCK_SLOT <<< (6 * i) - 1).getLsbD 8 = true := by decide
    have hbit := congrArg (BitVec.getLsbD · 8) hzeros
    rw [BitVec.getLsbD_and, hmask level (by omega) hpos, Bool.and_true] at hbit
    exact hbit

/-- The same of the bucket that is moved.
SOURCE: operation/clock.h:124-130, 132-150 -/
theorem place_below {time ct : BitVec 32} {level idx : ℕ}
    (h : select ct = some (some (level, idx))) : (place time ct).Below level ↔
      0 < level ∧ time >>> (8 + level * 6) = ct >>> (8 + level * 6) := by
  obtain ⟨hlevel, hbit⟩ := select_spec h
  cases level with
  | zero => cases hplace : place time ct <;> simp [Place.Below]
  | succ level =>
    have hfar : (time ||| CLOCK_SLOT) ≠ (ct ||| CLOCK_SLOT_MASK) := by
      intro hnear
      have heq := congrArg (BitVec.getLsbD · 8) hnear
      rw [BitVec.getLsbD_or, BitVec.getLsbD_or, hbit (Nat.succ_pos level),
        show CLOCK_SLOT.getLsbD 8 = true by decide, Bool.or_true] at heq
      cases heq
    rw [place, if_neg hfar]
    simp only [Place.Below, levelOf_lt (show level < 3 by omega), Nat.zero_lt_succ, true_and]

/-! ## One bucket for each timer -/

/-- No timer stands in two buckets, nor twice in one. -/
structure Once (s : State) : Prop where
  nodup : ∀ level idx, (s.m_ts level idx).Nodup
  unique : ∀ {id level idx level' idx'}, id ∈ s.m_ts level idx → id ∈ s.m_ts level' idx' →
    level = level' ∧ idx = idx'

/-- Whether a timer stands once is a matter of the buckets. -/
theorem Once.of_eq (h : Once s) (hts : s'.m_ts = s.m_ts) : Once s' := by
  refine ⟨?_, ?_⟩
  · rw [hts]
    exact h.nodup
  · rw [hts]
    exact h.unique

/-- A timer that stands in no bucket may be placed.
SOURCE: operation/clock.h:132-150 -/
theorem Once.local_append {id : ℕ} (h : Once s) (hnew : ∀ level idx, id ∉ s.m_ts level idx) :
    Once (s.local_append id) := by
  unfold State.local_append
  constructor
  · intro level idx
    rw [push_m_ts]
    split
    · rw [← List.concat_eq_append]
      exact (h.nodup level idx).concat (hnew level idx)
    · rw [List.append_nil]
      exact h.nodup level idx
  · intro id' level idx level' idx' hmem hmem'
    rcases mem_push_ts_iff.mp hmem with hold | ⟨hplace, rfl⟩
    · rcases mem_push_ts_iff.mp hmem' with hold' | ⟨-, rfl⟩
      · exact h.unique hold hold'
      · exact absurd hold (hnew level idx)
    · rcases mem_push_ts_iff.mp hmem' with hold' | ⟨hplace', -⟩
      · exact absurd hold' (hnew level' idx')
      · exact Place.ts.inj (hplace.symm.trans hplace')

/-- The buckets after the front of one has been taken. -/
def State.pop (s : State) (level idx : ℕ) (rest : List ℕ) : State :=
  { s with m_ts := Function.update s.m_ts level (Function.update (s.m_ts level) idx rest) }

/-- The bucket the front is taken from. -/
theorem pop_self (level idx : ℕ) (rest : List ℕ) :
    (s.pop level idx rest).m_ts level idx = rest := by
  simp [State.pop]

/-- The other buckets stay. -/
theorem pop_of_ne {level idx level' idx' : ℕ} {rest : List ℕ}
    (hne : ¬(level' = level ∧ idx' = idx)) :
    (s.pop level idx rest).m_ts level' idx' = s.m_ts level' idx' := by
  by_cases hlevel : level' = level
  · subst hlevel
    have hidx : idx' ≠ idx := fun heq => hne ⟨rfl, heq⟩
    simp [State.pop, hidx]
  · simp [State.pop, hlevel]

section Pop

variable {level idx id : ℕ} {rest : List ℕ}

/-- What is left was there. -/
theorem mem_of_mem_pop (hcons : s.m_ts level idx = id :: rest) {id' level' idx' : ℕ}
    (h : id' ∈ (s.pop level idx rest).m_ts level' idx') : id' ∈ s.m_ts level' idx' := by
  by_cases hsame : level' = level ∧ idx' = idx
  · obtain ⟨rfl, rfl⟩ := hsame
    rw [pop_self] at h
    exact hcons ▸ List.mem_cons_of_mem id h
  · rwa [pop_of_ne hsame] at h

/-- Taking the front leaves each timer once. -/
theorem Once.pop (h : Once s) (hcons : s.m_ts level idx = id :: rest) :
    Once (s.pop level idx rest) := by
  refine ⟨fun level' idx' => ?_, fun hmem hmem' =>
    h.unique (mem_of_mem_pop hcons hmem) (mem_of_mem_pop hcons hmem')⟩
  by_cases hsame : level' = level ∧ idx' = idx
  · obtain ⟨rfl, rfl⟩ := hsame
    rw [pop_self]
    exact (List.nodup_cons.mp (hcons ▸ h.nodup level' idx')).2
  · rw [pop_of_ne hsame]
    exact h.nodup level' idx'

/-- The timer that was taken is in no bucket. -/
theorem not_mem_pop (h : Once s) (hcons : s.m_ts level idx = id :: rest) (level' idx' : ℕ) :
    id ∉ (s.pop level idx rest).m_ts level' idx' := by
  intro hmem
  have hfront : id ∈ s.m_ts level idx := hcons ▸ List.mem_cons_self
  obtain ⟨rfl, rfl⟩ := h.unique hfront (mem_of_mem_pop hcons hmem)
  rw [pop_self] at hmem
  exact (List.nodup_cons.mp (hcons ▸ h.nodup level idx)).1 hmem

end Pop

/-- A step leaves each timer in one bucket.
SOURCE: operation/clock.h:90-150 -/
theorem step_once {e : Event} (hinv : Inv s) (h : Once s) (hs : step s e = some s') : Once s' := by
  cases e with
  | timeOut time =>
    obtain ⟨-, -, rfl⟩ := step_timeOut hs
    refine Once.local_append (h.of_eq rfl) fun level idx hmem => ?_
    exact (hinv.ts level idx _ hmem).false
  | timeCancel id =>
    obtain ⟨-, rfl⟩ := step_timeCancel hs
    exact h.of_eq rfl
  | update =>
    obtain ⟨-, rfl⟩ := step_update hs
    exact h.of_eq rfl
  | process =>
    obtain ⟨pass, idx, -, ⟨-, -, rfl⟩ | ⟨-, -, rfl⟩ | ⟨id, rest, -, rfl⟩⟩ := step_process hs
    all_goals exact h.of_eq rfl
  | dispatch =>
    obtain ⟨pass, idx, id, -, ⟨-, rfl⟩ | ⟨-, rfl⟩⟩ := step_dispatch hs
    all_goals exact h.of_eq rfl
  | returned =>
    obtain ⟨pass, idx, -, rfl⟩ := step_returned hs
    exact h.of_eq rfl
  | shift =>
    obtain ⟨-, ⟨level, idx, rfl⟩ | rfl⟩ := step_shift hs
    all_goals exact h.of_eq rfl
  | move =>
    obtain ⟨level, idx, -, ⟨-, rfl⟩ | ⟨id, rest, hcons, rfl⟩⟩ := step_move hs
    · exact h.of_eq rfl
    · exact (h.pop hcons).local_append (not_mem_pop h hcons)

/-! ## The course of a cascade -/

/-- The timer is in a level below. -/
def Lower (s : State) (level id : ℕ) : Prop := ∃ l < level, ∃ j, id ∈ s.m_ts l j

/-- A cascade whose timers all go to a level below: under way, or over with the bucket empty. -/
def Descends (level idx : ℕ) (s : State) : Prop :=
  s.pc = .moving level idx ∧
      (∀ id ∈ s.m_ts level idx, (place (s.handles id)._expire s.m_time).Below level) ∨
    (∃ pass i, s.pc = .processing pass i) ∧ s.m_ts level idx = []

/-- The rounds that the `while` of `local_move` still makes. -/
def rounds (level idx : ℕ) (s : State) : ℕ :=
  if s.pc = .moving level idx then (s.m_ts level idx).length + 1 else 0

section Cascade

variable {level idx : ℕ}

/-- While a bucket is moved, a round for each of its timers and one to end are to come.
SOURCE: operation/clock.h:124-130 -/
theorem rounds_of_moving (hpc : s.pc = .moving level idx) :
    rounds level idx s = (s.m_ts level idx).length + 1 := if_pos hpc

/-- After the move no round is.
SOURCE: operation/clock.h:111-114 -/
theorem rounds_of_processing {pass : Pass} {i : ℕ} (hpc : s.pc = .processing pass i) :
    rounds level idx s = 0 := if_neg (by simp [hpc])

/-- A timer that was cancelled is still due when it was. -/
theorem cancel_expire (s : State) (id id' : ℕ) (n : Option ℕ) :
    (Function.update s.handles id { s.handles id with _cancel := true, cancelledAfter := n }
      id')._expire = (s.handles id')._expire := by
  by_cases heq : id' = id
  · subst heq
    rw [Function.update_self]
  · rw [Function.update_of_ne heq]

/-- A round takes one timer out of the bucket and puts it below.
SOURCE: operation/clock.h:124-130 -/
theorem step_descends {e : Event} (h : Descends level idx s) (he : e.Meanwhile)
    (hs : step s e = some s') : Descends level idx s' ∧
      rounds level idx s' + (if e == .move then 1 else 0) = rounds level idx s ∧
      ∀ id, id ∈ s.m_ts level idx ∨ Lower s level id →
        id ∈ s'.m_ts level idx ∨ Lower s' level id := by
  cases e with
  | timeCancel id =>
    obtain ⟨-, rfl⟩ := step_timeCancel hs
    refine ⟨h.imp_left fun ⟨hpc, hbelow⟩ => ⟨hpc, fun id' hid' => ?_⟩, rfl, fun _ hid' => hid'⟩
    rw [cancel_expire]
    exact hbelow id' hid'
  | move =>
    obtain ⟨level', idx', hmoving, hcases⟩ := step_move hs
    obtain ⟨hpc, hbelow⟩ | ⟨⟨pass, i, hpc⟩, -⟩ := h
    · obtain ⟨rfl, rfl⟩ := Pc.moving.inj (hpc.symm.trans hmoving)
      rw [rounds_of_moving hpc]
      rcases hcases with ⟨hempty, rfl⟩ | ⟨id, rest, hcons, hs'⟩
      · refine ⟨.inr ⟨⟨.second, _, rfl⟩, hempty⟩, ?_, fun _ hid' => hid'⟩
        rw [rounds_of_processing rfl, hempty]
        rfl
      · obtain ⟨l, j, hplace, hlt⟩ :=
          exists_ts_of_below (hbelow id (hcons ▸ List.mem_cons_self))
        obtain rfl : s' = (s.pop level idx rest).push (.ts l j) id :=
          hs'.trans (congrArg (State.push _ · id) hplace)
        have hbucket : ((s.pop level idx rest).push (.ts l j) id).m_ts level idx = rest := by
          rw [push_m_ts, pop_self, if_neg, List.append_nil]
          intro heq
          exact hlt.ne (Place.ts.inj heq).1
        refine ⟨.inl ⟨by simpa [State.pop] using hpc, fun id' hid' => ?_⟩, ?_, ?_⟩
        · rw [hbucket] at hid'
          simpa [State.pop] using hbelow id' (hcons ▸ List.mem_cons_of_mem id hid')
        · rw [rounds_of_moving (by simpa [State.pop] using hpc), hbucket, hcons]
          rfl
        · intro id' hid'
          rw [hbucket]
          rcases hid' with hid' | ⟨l', hl', j', hid'⟩
          · rcases List.mem_cons.mp (hcons ▸ hid') with rfl | hrest
            · exact .inr ⟨l, hlt, j, mem_push_self l j _⟩
            · exact .inl hrest
          · refine .inr ⟨l', hl', j', mem_push_of_mem ?_⟩
            rwa [pop_of_ne fun heq => hl'.ne heq.1]
    · cases hpc.symm.trans hmoving
  | _ => exact he.elim

/-- In a run a bucket that goes down does so to its end, a round for each timer.
SOURCE: operation/clock.h:124-130 -/
theorem run_descends {es : List Event} {t : State} (h : Descends level idx s)
    (hes : ∀ e ∈ es, e.Meanwhile) (hrun : system.run s es = some t) : Descends level idx t ∧
      rounds level idx t + es.count .move = rounds level idx s ∧
      ∀ id, id ∈ s.m_ts level idx ∨ Lower s level id →
        id ∈ t.m_ts level idx ∨ Lower t level id := by
  induction es generalizing s with
  | nil =>
    obtain rfl : s = t := by simpa using hrun
    exact ⟨h, rfl, fun _ hid => hid⟩
  | cons e es ih =>
    obtain ⟨u, hu, hrest⟩ := Option.bind_eq_some_iff.mp hrun
    obtain ⟨hdown, hround, hkept⟩ := step_descends h (hes e List.mem_cons_self) hu
    obtain ⟨hdown', hrounds, hkept'⟩ :=
      ih hdown (fun e' he' => hes e' (List.mem_cons_of_mem e he')) hrest
    refine ⟨hdown', ?_, fun id hid => hkept' id (hkept id hid)⟩
    rw [List.count_cons, ← hround, ← hrounds, Nat.add_assoc]

/-- A timer that is to be placed in the level or above does not get below. -/
theorem step_stays {e : Event} {id : ℕ}
    (h : ¬ Lower s level id ∧ ¬ (place (s.handles id)._expire s.m_time).Below level)
    (he : e.Meanwhile) (hs : step s e = some s') :
    ¬ Lower s' level id ∧ ¬ (place (s'.handles id)._expire s'.m_time).Below level := by
  obtain ⟨hlower, hplace⟩ := h
  cases e with
  | timeCancel id' =>
    obtain ⟨-, rfl⟩ := step_timeCancel hs
    refine ⟨hlower, ?_⟩
    rwa [cancel_expire]
  | move =>
    obtain ⟨level', idx', -, ⟨-, rfl⟩ | ⟨front, rest, hcons, rfl⟩⟩ := step_move hs
    · exact ⟨hlower, hplace⟩
    · refine ⟨?_, by simpa [State.local_append] using hplace⟩
      rintro ⟨l, hl, j, hmem⟩
      rcases mem_push_ts_iff.mp hmem with hold | ⟨hfront, rfl⟩
      · exact hlower ⟨l, hl, j, mem_of_mem_pop hcons hold⟩
      · apply hplace
        rw [show place (s.handles id)._expire s.m_time = .ts l j from hfront]
        exact hl
  | _ => exact he.elim

/-- Either `n` rounds leave the cascade under way, or fewer end it.
SOURCE: operation/clock.h:124-130 -/
theorem moves_end (n : ℕ) (hpc : s.pc = .moving level idx) :
    (∃ t, system.run s (List.replicate n .move) = some t ∧ t.pc = .moving level idx) ∨
      ∃ k t, system.run s (List.replicate k .move) = some t ∧ t.pc ≠ .moving level idx := by
  induction n with
  | zero => exact .inl ⟨s, rfl, hpc⟩
  | succ n ih =>
    rcases ih with ⟨t, ht, htpc⟩ | hended
    · have hmove : ∃ u, step t .move = some u := by
        simp only [step, htpc]
        cases t.m_ts level idx with
        | nil => exact ⟨_, rfl⟩
        | cons id rest => exact ⟨_, rfl⟩
      obtain ⟨u, hu⟩ := hmove
      have hrun : system.run s (List.replicate (n + 1) .move) = some u := by
        rw [List.replicate_succ', System.run_append, ht, Option.bind_some, System.run_singleton]
        exact hu
      by_cases hupc : u.pc = .moving level idx
      · exact .inl ⟨u, hrun, hupc⟩
      · exact .inr ⟨n + 1, u, hrun, hupc⟩
    · exact .inr hended

/-- A call of `local_move` does what it should exactly when each timer of the bucket goes below:
`m_slots` never has a timer at the remainder of its time. -/
theorem cascades_iff (hinv : Inv s) (honce : Once s) (hpc : s.pc = .moving level idx) :
    s.Cascades level idx ↔
      ∀ id ∈ s.m_ts level idx, (place (s.handles id)._expire s.m_time).Below level := by
  constructor
  · rintro ⟨n, hall⟩ id hid
    by_contra hplace
    have hmeanwhile : ∀ {k}, ∀ e ∈ List.replicate k Event.move, e.Meanwhile := by
      intro k e he
      rw [List.eq_of_mem_replicate he]
      trivial
    have hlower : ¬ Lower s level id := by
      rintro ⟨l, hl, j, hmem⟩
      exact hl.ne (honce.unique hmem hid).1
    obtain ⟨t, ht, -⟩ | ⟨k, t, ht, htpc⟩ := moves_end (n + 1) hpc
    · have hcount := (hall _ t ht hmeanwhile).1
      rw [List.count_replicate_self] at hcount
      omega
    · obtain ⟨hstays, -⟩ := System.run_invariant (g := fun _ e => e.Meanwhile)
        (I := fun u => ¬ Lower u level id ∧ ¬ (place (u.handles id)._expire u.m_time).Below level)
        (fun _ _ _ h he hs => step_stays h he hs) ⟨hlower, hplace⟩ ht
        (System.meets_of_forall (fun e he _ => hmeanwhile e he) s)
      rcases ((hall _ t ht hmeanwhile).2 htpc).2 id hid with hbelow | hslot
      · exact hstays hbelow
      · have hinvt : Inv t := System.run_invariant (I := Inv)
          (fun _ _ _ h _ hs => step_inv h hs) hinv ht (System.meets_true s _)
        obtain ⟨hlt, hidx, hdue⟩ := hinvt.slots _ id hslot
        have hexpire := (hinvt.handles id hlt).expire
        omega
  · intro hbelow
    refine ⟨rounds level idx s, fun es t hrun hes => ?_⟩
    obtain ⟨hdown, hrounds, hkept⟩ := run_descends (.inl ⟨hpc, hbelow⟩) hes hrun
    refine ⟨by omega, fun htpc => ?_⟩
    have hempty : t.m_ts level idx = [] := by
      obtain ⟨hmoving, -⟩ | ⟨-, hempty⟩ := hdown
      · exact absurd hmoving htpc
      · exact hempty
    refine ⟨hempty, fun id hid => .inl ?_⟩
    rcases hkept id (.inl hid) with hmem | hlower
    · rw [hempty] at hmem
      cases hmem
    · exact hlower

end Cascade

/-! ## The cascades of a run -/

/-- `local_shift` goes on to the bucket it selects.
SOURCE: operation/clock.h:90-110 -/
theorem step_shift_select (hs : step s .shift = some s') :
    ∃ target, select (s.m_time + 1) = some target ∧ s'.m_ts = s.m_ts ∧ s'.handles = s.handles ∧
      s'.m_time = s.m_time + 1 ∧
        ∀ level idx, s'.pc = .moving level idx ↔ target = some (level, idx) := by
  simp only [step, Option.ite_none_right_eq_some, Option.map_eq_some_iff] at hs
  obtain ⟨-, target, htarget, rfl⟩ := hs
  refine ⟨target, htarget, ?_⟩
  cases target with
  | none =>
    refine ⟨rfl, rfl, rfl, fun level idx => ⟨fun hpc => ?_, fun hbucket => ?_⟩⟩
    · cases hpc
    · cases hbucket
  | some bucket =>
    refine ⟨rfl, rfl, rfl, fun level idx => ?_⟩
    simp [Prod.ext_iff]

/-- A step cascades exactly where all that it moves arrives, and keeps the invariants.
SOURCE: operation/clock.h:90-109, 124-130 -/
theorem step_cascades {e : Event} (hinv : Inv s) (honce : Once s) (hs : step s e = some s') :
    (Cascaded s e s' ↔ AllArrive s e) ∧ Inv s' ∧ Once s' := by
  have hinv' := step_inv hinv hs
  have honce' := step_once hinv honce hs
  refine ⟨?_, hinv', honce'⟩
  by_cases hshift : e = .shift
  · subst hshift
    obtain ⟨target, htarget, hts, hhandles, htime, hpc⟩ := step_shift_select hs
    have hplaces : ∀ level idx, s'.pc = .moving level idx → (s'.Cascades level idx ↔
        ∀ id ∈ s.m_ts level idx, (s.handles id).Arrives level (s.m_time + 1)) := by
      intro level idx hmoving
      obtain rfl := (hpc level idx).mp hmoving
      rw [cascades_iff hinv' honce' hmoving, hts, hhandles, htime]
      exact forall₂_congr fun _ _ => place_below htarget
    simp only [Cascaded, AllArrive, htarget, forall_const]
    constructor
    · intro hall bucket hbucket
      obtain rfl : target = some bucket := hbucket
      have hmoving := (hpc bucket.1 bucket.2).mpr rfl
      exact (hplaces _ _ hmoving).mp (hall _ _ hmoving)
    · intro hall level idx hmoving
      exact (hplaces _ _ hmoving).mpr (hall (level, idx) ((hpc level idx).mp hmoving))
  · exact ⟨fun _ he => absurd he hshift, fun _ he => absurd he hshift⟩

/-- In a new wheel no timer stands twice. -/
theorem once_of_starts (h : Starts s) : Once s := by
  constructor
  · intro level idx
    rw [h.ts]
    exact List.nodup_nil
  · intro id level idx level' idx' hmem
    rw [h.ts] at hmem
    cases hmem

/-- The invariants hold in every reachable state. -/
theorem reachable_inv (h : system.Reachable s) : Inv s ∧ Once s := by
  apply System.Via.invariant (I := fun s => Inv s ∧ Once s) _ _ h
  · exact fun s h0 => ⟨(inv_of_starts h0).1, once_of_starts h0⟩
  · exact fun s e s' hI _ hs => ⟨step_inv hI.1 hs, step_once hI.1 hI.2 hs⟩

/-! ## Updates that find nothing -/

/-- The times before the first turn of the lowest level move at most a bucket of that level.
SOURCE: operation/clock.h:90-110 -/
theorem select_of_lt {ct : BitVec 32} (hct : ct ≠ 0) (hlt : ct.toNat < 2 ^ 14) :
    ∃ target, select ct = some target ∧ ∀ bucket ∈ target, bucket.1 = 0 := by
  rw [select, if_neg hct, selectLoop]
  split
  · next hzeros =>
    have hlow : ct.toNat % 256 = 0 := by
      have hnat := congrArg BitVec.toNat hzeros
      rw [BitVec.toNat_and] at hnat
      exact (Nat.and_two_pow_sub_one_eq_mod _ 8).symm.trans hnat
    have hidx : (ct >>> 8) &&& CLOCK_LEVEL_MASK ≠ 0 := by
      intro hzero
      have hnat := congrArg BitVec.toNat hzero
      rw [BitVec.toNat_and, BitVec.toNat_ushiftRight, Nat.shiftRight_eq_div_pow] at hnat
      have hdigit : ct.toNat / 2 ^ 8 % 2 ^ 6 = 0 :=
        (Nat.and_two_pow_sub_one_eq_mod _ 6).symm.trans hnat
      have hnone : ct.toNat = 0 := by omega
      exact hct (BitVec.eq_of_toNat_eq hnone)
    exact ⟨_, if_pos hidx, by simp⟩
  · exact ⟨none, rfl, by simp⟩

/-- The steps of an update that finds nothing to dispatch and nothing to move. -/
def plainUpdate (target : Option (ℕ × ℕ)) : List Event :=
  [.update, .process, .shift] ++ target.toList.map (fun _ => .move) ++ [.process]

/-- An update that finds nothing only moves the time on, and no bucket with timers is moved.
SOURCE: operation/clock.h:116-122 -/
theorem run_plainUpdate {target : Option (ℕ × ℕ)} (hpc : s.pc = .idle)
    (hslots : ∀ idx, s.m_slots idx = []) (hselect : select (s.m_time + 1) = some target)
    (hempty : ∀ bucket ∈ target, s.m_ts bucket.1 bucket.2 = []) :
    system.run s (plainUpdate target) = some
        { s with m_time := s.m_time + 1, shifts := s.shifts + 1, updates := s.updates + 1 } ∧
      system.Meets AllArrive s (plainUpdate target) := by
  have hnext : select (s.m_time + 1#32) = some target := hselect
  cases target with
  | none =>
    constructor
    · simp [plainUpdate, System.run, system, step, State.execute, hpc, hslots, hnext]
    · simp [plainUpdate, System.Meets, system, step, State.execute, hpc, hslots, hnext, AllArrive]
  | some bucket =>
    have hbucket := hempty bucket rfl
    constructor
    · simp [plainUpdate, System.run, system, step, State.execute, hpc, hslots, hnext, hbucket]
    · simp [plainUpdate, System.Meets, system, step, State.execute, hpc, hslots, hnext, hbucket,
        AllArrive]
      rintro level idx rfl id hid
      simp [hbucket] at hid

/-- The updates that come after `time`. -/
def plainUpdates (time : BitVec 32) : ℕ → List Event
  | 0 => []
  | n + 1 => plainUpdate ((select (time + 1)).bind id) ++ plainUpdates (time + 1) n

/-- Timers that are not near and not on the lowest level stay where they are until its first turn. -/
theorem run_plainUpdates (n : ℕ) (hpc : s.pc = .idle) (hslots : ∀ idx, s.m_slots idx = [])
    (hempty : ∀ idx, s.m_ts 0 idx = []) (hlt : s.m_time.toNat + n < 2 ^ 14) :
    system.run s (plainUpdates s.m_time n) = some
        { s with
          m_time := s.m_time + BitVec.ofNat 32 n, shifts := s.shifts + n,
          updates := s.updates + n } ∧
      system.Meets AllArrive s (plainUpdates s.m_time n) := by
  induction n generalizing s with
  | zero => exact ⟨by simp [plainUpdates], trivial⟩
  | succ n ih =>
    have htime : (s.m_time + 1).toNat = s.m_time.toNat + 1 := by
      rw [BitVec.toNat_add]
      exact Nat.mod_eq_of_lt (by simp; omega)
    have hct : s.m_time + 1 ≠ 0 := by
      intro hzero
      rw [hzero] at htime
      simp at htime
    obtain ⟨target, hselect, hlow⟩ := select_of_lt hct (by omega)
    obtain ⟨hone, hmeets⟩ := run_plainUpdate hpc hslots hselect fun bucket hbucket => by
      rw [hlow bucket hbucket]
      exact hempty _
    obtain ⟨hrest, hmeetsRest⟩ := ih (s := { s with
      m_time := s.m_time + 1, shifts := s.shifts + 1, updates := s.updates + 1 })
      hpc hslots hempty (by simp only; omega)
    simp only [plainUpdates, hselect, Option.bind_some, id_eq]
    constructor
    · rw [System.run_append, hone, Option.bind_some]
      refine hrest.trans ?_
      simp only [Option.some.injEq, State.mk.injEq, true_and]
      refine ⟨?_, by omega, by omega⟩
      rw [BitVec.add_assoc, BitVec.ofNat_add, BitVec.add_comm (1 : BitVec 32)]
      rfl
    · rw [System.meets_append]
      refine ⟨hmeets, fun t ht => ?_⟩
      obtain rfl := Option.some.inj (hone.symm.trans ht)
      exact hmeetsRest

/-! ## The result -/

/-- **Cascades.**  All along a run every call of `local_move` ends, leaves its bucket empty and puts
each of the timers into a lower level, or into the slot of its time, exactly when every bucket that
was to be moved had only timers of the part of the round that began: no timers on the lowest level,
and on the others those that agree with the new time from the level's bits upward.
SOURCE: operation/clock.h:90-110, 124-150 -/
theorem cascade_termination (s₀ s : State) (es : List Event) (h0 : Starts s₀)
    (hrun : system.run s₀ es = some s) :
    system.Always Cascaded s₀ es ↔ system.Meets AllArrive s₀ es := by
  refine System.always_iff_of_iff (I := fun s => Inv s ∧ Once s) ?_
    ⟨(inv_of_starts h0).1, once_of_starts h0⟩ hrun
  rintro s e s' ⟨hinv, honce⟩ hs
  exact step_cascades hinv honce hs

instance (t : ClockHandle) (level : ℕ) (ct : BitVec 32) : Decidable (t.Arrives level ct) :=
  inferInstanceAs (Decidable (_ ∧ _))

instance (s : State) (e : Event) : Decidable (AllArrive s e) :=
  inferInstanceAs (Decidable (_ → _))

/-- The wheel with one timer, set for the time 20000. -/
def oneTimer : State :=
  { start with
    m_ts := Function.update start.m_ts 1 (Function.update (start.m_ts 1) 1 [0])
    handles := Function.update start.handles 0 ⟨20000, false, 20000, 20000, none, []⟩
    allocated := 1 }

/-- The first turn of the lowest level, and the move of the bucket above it. -/
def firstTurn : List Event :=
  .timeOut 20000 :: (plainUpdates 0 16383 ++ [.update, .process, .shift, .move])

/-- The timer goes down a level, to the bucket of the lowest one that is moved before it is due. -/
theorem cascade_termination_placed : ∃ s, system.run start firstTurn = some s ∧
    s.m_ts 1 1 = [] ∧ s.m_ts 0 14 = [0] ∧ system.Always Cascaded start firstTurn := by
  have hset : system.step start (.timeOut 20000) = some oneTimer := rfl
  obtain ⟨hplain, hmeets⟩ := run_plainUpdates (s := oneTimer) 16383 rfl (fun _ => rfl)
    (fun _ => rfl) (by decide)
  let turned : State := { oneTimer with
    m_time := oneTimer.m_time + BitVec.ofNat 32 16383
    shifts := oneTimer.shifts + 16383
    updates := oneTimer.updates + 16383 }
  have hback : system.run oneTimer (plainUpdates 0 16383) = some turned := hplain
  have hlast : (system.run turned [.update, .process, .shift, .move]).any
      (fun s => s.m_ts 1 1 == [] && s.m_ts 0 14 == [0]) = true := by
    decide +kernel
  obtain ⟨s, hs, htest⟩ := (Option.any_eq_true _ _).mp hlast
  rw [Bool.and_eq_true, beq_iff_eq, beq_iff_eq] at htest
  have hrun : system.run start firstTurn = some s := by
    rw [firstTurn, System.run_cons, hset, Option.bind_some, System.run_append, hback,
      Option.bind_some, hs]
  refine ⟨s, hrun, htest.1, htest.2, (cascade_termination start s _ start_starts hrun).mpr ?_⟩
  refine System.meets_cons (by decide) hset (System.meets_append.mpr ⟨hmeets, fun t ht => ?_⟩)
  obtain rfl : turned = t := Option.some.inj (hback.symm.trans ht)
  decide +kernel

/-- A timer is set, and 256 updates are made, the last up to the shift. -/
def toCascade (time : BitVec 32) : List Event :=
  .timeOut time ::
    ((List.replicate 255 [Event.update, .process, .shift, .process]).flatten ++
      [.update, .process])

/-- The timer set for the time 300 goes back into the bucket it is taken from.
SOURCE: operation/clock.h:90-109 -/
theorem cascade_goes_on : ¬ ∀ s s', system.Reachable s → step s .shift = some s' →
    ∀ level idx, s'.pc = .moving level idx → s'.Cascades level idx := by
  intro hall
  have hrun : (system.run start (toCascade 300)).any (fun s => (step s .shift).any fun s' =>
      s'.pc == .moving 0 1 && s'.m_ts 0 1 == [0]) = true := by
    decide +kernel
  obtain ⟨s, hreach, htest⟩ := System.exists_reachable _ _ start_starts hrun
  obtain ⟨s', hs, htest⟩ := (Option.any_eq_true _ _).mp htest
  rw [Bool.and_eq_true, beq_iff_eq, beq_iff_eq] at htest
  obtain ⟨hpc, hbucket⟩ := htest
  obtain ⟨hinv, honce⟩ := reachable_inv hreach
  have hbelow := (cascades_iff (step_inv hinv hs) (step_once hinv honce hs) hpc).mp
    (hall s s' hreach hs 0 1 hpc) 0 (hbucket ▸ List.mem_cons_self)
  obtain ⟨l, j, -, hlt⟩ := exists_ts_of_below hbelow
  exact absurd hlt (Nat.not_lt_zero l)

end MagicNet.Clock
