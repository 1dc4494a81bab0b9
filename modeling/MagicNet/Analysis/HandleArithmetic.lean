import MagicNet.Foundation.CyclicScan
import MagicNet.Model.Reserve
import MagicNet.Model.ReserveCall
import MagicNet.Model.SlotLife

/-!
# The arithmetic of the handles

The handles run through the residues modulo `2 ^ 31`, whatever `m_sockSequence` starts with, and the
slot of a handle is its residue modulo `MAX_SOCKET`, which the wrap of the handles does not show in.
A call of `getReserve` scans `MAX_SOCKET` of them.
-/

set_option autoImplicit false

namespace MagicNet.ReserveCall

open MagicNet.Foundation MagicNet.Foundation.Cyclic MagicNet.Network

/-- The handles. -/
def HANDLES : ℕ := 2 ^ 31

/-- The slot of the handle is free. -/
def Table.Free (s : Table) (handle : ℤ) : Prop := (s.slot handle).m_state = .INVALID

instance (s : Table) : DecidablePred s.Free := fun handle =>
  inferInstanceAs (Decidable ((s.slot handle).m_state = .INVALID))

/-! ## The next handle -/

/-- The slots go round a whole number of times in all the handles.
SOURCE: network/socketSystem.cc:383-403 -/
theorem slots_dvd_handles : MAX_SOCKET ∣ HANDLES := ⟨2 ^ 15, by norm_num [MAX_SOCKET, HANDLES]⟩

/-- The slot of a handle is its remainder.
SOURCE: network/socketSystem.cc:383-403 -/
theorem SOCKET_GET_eq (handle : ℤ) : SOCKET_GET handle = place MAX_SOCKET handle := by
  unfold SOCKET_GET toUint32 place MAX_SOCKET
  omega

/-- `m_sockSequence` holds an `int32_t`. -/
structure Table.Int32 (s : Table) : Prop where
  low : -2 ^ 31 ≤ s.m_sockSequence
  high : s.m_sockSequence < 2 ^ 31

/-- **The next handle** of any `int32_t`, also across the wrap. -/
theorem nextHandle_eq {s : Table} (h : s.Int32) :
    nextHandle s.m_sockSequence = value HANDLES s.m_sockSequence 1 := by
  have hlow := h.low
  have hhigh := h.high
  by_cases hlast : s.m_sockSequence = 2 ^ 31 - 1
  · rw [hlast]
    decide
  · have hint : toInt32 (s.m_sockSequence + 1) = s.m_sockSequence + 1 :=
      Int.bmod_eq_of_le (by omega) (by omega)
    unfold nextHandle value HANDLES
    rw [hint]
    simp only
    split <;> omega

/-- A value of the sequence is an `int32_t`. -/
theorem int32_value {s : Table} {a : ℤ} {n : ℕ} (hs : s.m_sockSequence = value HANDLES a n) :
    s.Int32 := by
  have hnonneg := value_nonneg (show 0 < HANDLES by norm_num [HANDLES]) a n
  have hlt := value_lt (show 0 < HANDLES by norm_num [HANDLES]) a n
  unfold HANDLES at hnonneg hlt hs
  exact ⟨by omega, by omega⟩

/-! ## The loop and the scan -/

/-- What the loop leaves and returns, against a scan of the next `n` handles. -/
structure Scans (s : Table) (n : ℕ) (r : Reserved) : Prop where
  int32 : r.table.Int32
  sequence : value HANDLES r.table.m_sockSequence 0 = value HANDLES s.m_sockSequence r.steps
  full : probe s.Free HANDLES n s.m_sockSequence = none → r.ret = -1
  found : ∀ k, probe s.Free HANDLES n s.m_sockSequence = some k →
    r.ret = value HANDLES s.m_sockSequence k ∧ r.steps = k

/-- **The loop of `getReserve`** is a scan of the handles after `m_sockSequence`.
SOURCE: network/socketSystem.cc:383-403 -/
theorem reserveLoop_scans (n : ℕ) {s : Table} (h : s.Int32) : Scans s n (s.reserveLoop n) := by
  induction n generalizing s with
  | zero => exact ⟨h, rfl, fun _ => rfl, nofun⟩
  | succ n ih =>
    have hnext := nextHandle_eq h
    have h' : ({ s with m_sockSequence := nextHandle s.m_sockSequence } : Table).Int32 :=
      int32_value hnext
    unfold Table.reserveLoop
    simp only
    split
    · next hfree =>
      have hfirst : s.Free (value HANDLES s.m_sockSequence 1) := hnext ▸ hfree
      refine ⟨int32_value hnext, ?_, fun hnone => ?_, fun k hk => ?_⟩
      · show value HANDLES (nextHandle s.m_sockSequence) 0 = value HANDLES s.m_sockSequence 1
        rw [hnext, value_value]
      · rw [probe, if_pos hfirst] at hnone
        cases hnone
      · rw [probe, if_pos hfirst] at hk
        cases hk
        exact ⟨hnext, rfl⟩
    · next hfree =>
      have hfirst : ¬ s.Free (value HANDLES s.m_sockSequence 1) := hnext ▸ hfree
      have hrest := ih h'
      refine ⟨hrest.int32, ?_, fun hnone => ?_, fun k hk => ?_⟩
      · refine hrest.sequence.trans ?_
        show value HANDLES (nextHandle s.m_sockSequence) _ = _
        rw [hnext, value_value, Nat.add_comm 1]
      · rw [probe, if_neg hfirst, Option.map_eq_none_iff, ← hnext] at hnone
        exact hrest.full hnone
      · rw [probe, if_neg hfirst, ← hnext] at hk
        obtain ⟨i, hi, rfl⟩ := Option.map_eq_some_iff.mp hk
        obtain ⟨hret, hsteps⟩ := hrest.found i hi
        refine ⟨hret.trans ?_, congrArg (· + 1) hsteps⟩
        show value HANDLES (nextHandle s.m_sockSequence) i = _
        rw [hnext, value_value, Nat.add_comm 1]

/-! ## A call -/

/-- What a call returns: -1 when no slot is `INVALID`, and otherwise a handle of the first slot after
`m_sockSequence`, in the cyclic order of the slots, that is `INVALID`. -/
structure CallRight (s : Table) : Prop where
  full : s.getReserve.ret = -1 ↔ ∀ k < MAX_SOCKET, (s.m_sockGroup k).m_state ≠ .INVALID
  handle : s.getReserve.ret ≠ -1 → 0 ≤ s.getReserve.ret ∧ s.getReserve.ret < 2 ^ 31
  first : s.getReserve.ret ≠ -1 → ∃ n, 1 ≤ n ∧ n ≤ MAX_SOCKET ∧
    SOCKET_GET s.getReserve.ret = place MAX_SOCKET (s.m_sockSequence + n) ∧
    (s.m_sockGroup (SOCKET_GET s.getReserve.ret)).m_state = .INVALID ∧
    ∀ i : ℕ, 1 ≤ i → i < n →
      (s.m_sockGroup (place MAX_SOCKET (s.m_sockSequence + i))).m_state ≠ .INVALID

/-- A handle is free where its slot is `INVALID`.
SOURCE: network/socketSystem.cc:383-403 -/
theorem free_iff (s : Table) (handle : ℤ) :
    s.Free handle ↔ (s.m_sockGroup (place MAX_SOCKET handle)).m_state = .INVALID := by
  unfold Table.Free Table.slot
  rw [SOCKET_GET_eq]

/-- There are handles. -/
theorem handles_pos : 0 < HANDLES := by norm_num [HANDLES]

/-- A call that finds a slot returns the handle of the first.
SOURCE: network/socketSystem.cc:383-403 -/
theorem getReserve_found {s : Table} (h : s.Int32) (hret : s.getReserve.ret ≠ -1) :
    ∃ n, First s.Free HANDLES s.m_sockSequence n ∧ n ≤ MAX_SOCKET ∧
      s.getReserve.ret = value HANDLES s.m_sockSequence n ∧ s.getReserve.steps = n := by
  have hscans := reserveLoop_scans MAX_SOCKET h
  cases hprobe : probe s.Free HANDLES MAX_SOCKET s.m_sockSequence with
  | none => exact absurd (hscans.full hprobe) hret
  | some n =>
    obtain ⟨hfirst, hle⟩ := probe_eq_some hprobe
    obtain ⟨hvalue, hsteps⟩ := hscans.found n hprobe
    exact ⟨n, hfirst, hle, hvalue, hsteps⟩

/-- From every `int32_t` a call gives out the next free handle.
SOURCE: network/socketSystem.cc:383-403 -/
theorem callRight_of_int32 {s : Table} (h : s.Int32) : CallRight s := by
  have hscans := reserveLoop_scans MAX_SOCKET h
  refine ⟨?_, fun hret => ?_, fun hret => ?_⟩
  · rw [← probe_table slots_dvd_handles (free_iff s) (a := s.m_sockSequence)]
    constructor
    · intro hret
      cases hprobe : probe s.Free HANDLES MAX_SOCKET s.m_sockSequence with
      | none => rfl
      | some n =>
        have hnonneg := value_nonneg handles_pos s.m_sockSequence n
        rw [← (hscans.found n hprobe).1] at hnonneg
        exact absurd (hret ▸ hnonneg) (by decide)
    · exact hscans.full
  · obtain ⟨n, -, -, hvalue, -⟩ := getReserve_found h hret
    rw [hvalue]
    exact ⟨value_nonneg handles_pos _ n, value_lt handles_pos _ n⟩
  · obtain ⟨n, hfirst, hle, hvalue, -⟩ := getReserve_found h hret
    refine ⟨n, hfirst.pos, hle, ?_, ?_, fun i hi hin => ?_⟩
    · rw [hvalue, SOCKET_GET_eq, place_value slots_dvd_handles]
    · rw [hvalue, SOCKET_GET_eq]
      exact (free_iff s _).mp hfirst.passes
    · have hbusy := hfirst.before i hi hin
      rw [free_iff, place_value slots_dvd_handles] at hbusy
      exact hbusy

/-! ## The handles of a run -/

/-- `m_sockSequence` is the value after the increments so far, from the value `a` it started with, and
each handle is the value at its increment. -/
structure Counted (a : ℤ) (s : State) : Prop where
  int32 : s.table.Int32
  sequence : value HANDLES s.table.m_sockSequence 0 = value HANDLES a s.steps
  returned : ∀ e ∈ s.returned, e.1 ≤ s.steps ∧ e.2 = value HANDLES a e.1
  order : s.returned.Pairwise fun e f => f.1 < e.1

/-- A step moves the sequence on.
SOURCE: network/socketSystem.cc:383-403 -/
theorem counted_step {a : ℤ} {s s' : State} {e : Event} (h : Counted a s)
    (hs : step s e = some s') : Counted a s' := by
  cases e with
  | write k c =>
    cases hs
    exact ⟨⟨h.int32.low, h.int32.high⟩, h.sequence, h.returned, h.order⟩
  | getReserve =>
    cases hs
    have hscans : Scans s.table MAX_SOCKET s.table.getReserve :=
      reserveLoop_scans MAX_SOCKET h.int32
    have hsteps : ∀ n, value HANDLES s.table.m_sockSequence n = value HANDLES a (s.steps + n) := by
      intro n
      have hstart := value_value HANDLES s.table.m_sockSequence 0 n
      rw [h.sequence, value_value, Nat.zero_add] at hstart
      exact hstart.symm
    have hold : ∀ e ∈ s.returned,
        e.1 ≤ s.steps + s.table.getReserve.steps ∧ e.2 = value HANDLES a e.1 := by
      intro e he
      have hle := (h.returned e he).1
      exact ⟨by omega, (h.returned e he).2⟩
    refine ⟨hscans.int32, hscans.sequence.trans (hsteps _), ?_, ?_⟩
    · show ∀ e ∈ (if s.table.getReserve.ret = -1 then s.returned
        else (s.steps + s.table.getReserve.steps, s.table.getReserve.ret) :: s.returned), _
      split
      · exact hold
      · next hret =>
        obtain ⟨n, -, -, hvalue, hn⟩ := getReserve_found h.int32 hret
        refine List.forall_mem_cons.mpr ⟨⟨le_refl _, ?_⟩, hold⟩
        show s.table.getReserve.ret = value HANDLES a (s.steps + s.table.getReserve.steps)
        rw [hvalue, hn, hsteps]
    · show (if s.table.getReserve.ret = -1 then s.returned
        else (s.steps + s.table.getReserve.steps, s.table.getReserve.ret) :: s.returned).Pairwise _
      split
      · exact h.order
      · next hret =>
        obtain ⟨n, hfirst, -, -, hn⟩ := getReserve_found h.int32 hret
        refine List.pairwise_cons.mpr ⟨fun e he => ?_, h.order⟩
        have hle := (h.returned e he).1
        have hpos := hfirst.pos
        show e.1 < s.steps + s.table.getReserve.steps
        omega

/-- The sequence of a reachable table has been counted from some value. -/
theorem reachable_counted {s : State} (h : system.Reachable s) : ∃ a, Counted a s := by
  refine System.Via.invariant (I := fun s => ∃ a, Counted a s) (fun s h0 => ?_)
    (fun s e s' hs _ hstep => ?_) h
  · refine ⟨s.table.m_sockSequence, ⟨h0.low, h0.high⟩, by rw [h0.steps], ?_, ?_⟩
    · rw [h0.returned]
      exact nofun
    · rw [h0.returned]
      exact List.Pairwise.nil
  · obtain ⟨a, ha⟩ := hs
    exact ⟨a, counted_step ha hstep⟩

/-- **The arithmetic of the handles**, after any calls and any writes to the slots, from any value of
`m_sockSequence`: the next call returns -1 exactly when no slot is `INVALID`, and otherwise a handle
of the first such slot after the sequence; and of the handles returned, two less than `2 ^ 31`
increments apart are different.
SOURCE: network/socketSystem.cc:383-403, network/socketWrap.h:28-34 -/
theorem handle_arithmetic {s : State} (h : system.Reachable s) : CallRight s.table ∧
    s.returned.Pairwise fun e f => e.1 < f.1 + 2 ^ 31 → e.2 ≠ f.2 := by
  obtain ⟨a, ha⟩ := reachable_counted h
  refine ⟨callRight_of_int32 ha.int32, ?_⟩
  refine ha.order.imp_of_mem fun {e f} he hf hlt hwindow => ?_
  rw [(ha.returned e he).2, (ha.returned f hf).2]
  exact (value_ne hlt hwindow).symm

/-! ## A call among the threads -/

section Alone

variable {s : Reserve.State} {t i : ℕ}

/-- The table of the many threads. -/
def tableOf (s : Reserve.State) : Table :=
  { m_sockGroup := s.m_sockGroup, m_sockSequence := s.m_sockSequence }

/-- The increment, and the mask if the value is negative. -/
theorem next_alone (hlive : s.aborted = false) (hpc : s.pc t = .next i) (hi : i < MAX_SOCKET) :
    ∃ es s', Reserve.system.run s es = some s' ∧
      s'.pc t = .test i (nextHandle s.m_sockSequence) ∧
      tableOf s' = { tableOf s with m_sockSequence := nextHandle s.m_sockSequence } ∧
      s'.aborted = false := by
  by_cases hneg : toInt32 (s.m_sockSequence + 1) < 0
  · have hnext : nextHandle s.m_sockSequence = toInt32 (s.m_sockSequence + 1) % 2 ^ 31 := if_pos hneg
    refine ⟨[.increment t, .mask t],
      { { s with m_sockSequence := toInt32 (s.m_sockSequence + 1) }.setPc t (.mask i) with
        m_sockSequence := nextHandle s.m_sockSequence }.setPc t
          (.test i (nextHandle s.m_sockSequence)), ?_, Reserve.setPc_self .., rfl, hlive⟩
    simp [System.run_cons, Reserve.step, Reserve.act, hlive, hpc, hi, hneg, hnext,
      Reserve.State.setPc]
  · have hnext : nextHandle s.m_sockSequence = toInt32 (s.m_sockSequence + 1) := if_neg hneg
    refine ⟨[.increment t],
      { s with m_sockSequence := nextHandle s.m_sockSequence }.setPc t
        (.test i (nextHandle s.m_sockSequence)), ?_, Reserve.setPc_self .., rfl, hlive⟩
    simp [Reserve.step, Reserve.act, hlive, hpc, hi, hneg, hnext]

/-- The steps of the winner of a slot. -/
theorem win_alone {handle : ℤ} (hlive : s.aborted = false) (hpc : s.pc t = .test i handle)
    (hfree : (s.slot handle).m_state = .INVALID) :
    ∃ es s', Reserve.system.run s es = some s' ∧ s'.pc t = .returned handle ∧
      tableOf s' = (tableOf s).reserve handle := by
  let s₁ := s.setPc t (.cas i handle)
  let s₂ := (s₁.setSlot (SOCKET_GET handle) ((s₁.slot handle).setState .RESERVE)).setPc t
    (.doRest handle)
  let s₃ := (s₂.setSlot (SOCKET_GET handle) (s₂.slot handle).doRest).setPc t (.setHandle handle)
  let s₄ : Reserve.State :=
    { (s₃.setSlot (SOCKET_GET handle) ((s₃.slot handle).setHandle handle)).setPc t
        (.returned handle) with
      taken := handle :: s₃.taken
      owned := handle :: s₃.owned }
  have htest : Reserve.step s (.test t) = some s₁ := by
    simp [Reserve.step, Reserve.act, hlive, hpc, hfree, s₁]
  have hcas : Reserve.step s₁ (.cas t) = some s₂ := by
    have hfree₁ : (s₁.slot handle).m_state = .INVALID := hfree
    have hlive₁ : s₁.aborted = false := hlive
    have hpc₁ : s₁.pc t = .cas i handle := Reserve.setPc_self ..
    simp [Reserve.step, Reserve.act, hlive₁, hpc₁, hfree₁, s₂]
  have hrest : Reserve.step s₂ (.doRest t) = some s₃ := by
    have hlive₂ : s₂.aborted = false := hlive
    have hpc₂ : s₂.pc t = .doRest handle := Reserve.setPc_self ..
    simp [Reserve.step, Reserve.act, hlive₂, hpc₂, s₃]
  have hset : Reserve.step s₃ (.setHandle t) = some s₄ := by
    have hlive₃ : s₃.aborted = false := hlive
    have hpc₃ : s₃.pc t = .setHandle handle := Reserve.setPc_self ..
    simp [Reserve.step, Reserve.act, hlive₃, hpc₃, s₄]
  refine ⟨[.test t, .cas t, .doRest t, .setHandle t], s₄, ?_, Reserve.setPc_self .., ?_⟩
  · simp only [System.run_cons, System.run_nil, Reserve.system_step, htest, hcas, hrest, hset,
      Option.bind_some]
  · simp [tableOf, Table.reserve, Table.slot, Reserve.State.slot, Reserve.State.setSlot,
      Reserve.State.setPc, s₁, s₂, s₃, s₄]

/-- The loop of a thread that is alone. -/
theorem loop_alone (n : ℕ) (hlive : s.aborted = false) (hpc : s.pc t = .next i)
    (hi : i + n = MAX_SOCKET) :
    ∃ es s', Reserve.system.run s es = some s' ∧
      s'.pc t = .returned ((tableOf s).reserveLoop n).ret ∧
      tableOf s' = ((tableOf s).reserveLoop n).table := by
  induction n generalizing s i with
  | zero =>
    have hlast : ¬ i < MAX_SOCKET := by omega
    refine ⟨[.increment t], s.setPc t (.returned (-1)), ?_, Reserve.setPc_self .., rfl⟩
    simp [Reserve.step, Reserve.act, hlive, hpc, hlast]
  | succ n ih =>
    obtain ⟨es, s₁, hrun, hpc₁, htable, hlive₁⟩ := next_alone hlive hpc (by omega)
    have hslot : s₁.slot (nextHandle s.m_sockSequence) =
        (tableOf s).slot (nextHandle s.m_sockSequence) :=
      congrArg (Table.slot · (nextHandle s.m_sockSequence)) htable
    unfold Table.reserveLoop
    simp only
    split
    · next hfree =>
      obtain ⟨fs, s₂, hrun₂, hpc₂, htable₂⟩ := win_alone hlive₁ hpc₁ (hslot ▸ hfree)
      refine ⟨es ++ fs, s₂, ?_, hpc₂, htable₂.trans (by rw [htable]; rfl)⟩
      rw [System.run_append, hrun]
      exact hrun₂
    · next hbusy =>
      have htest : Reserve.step s₁ (.test t) = some (s₁.setPc t (.next (i + 1))) := by
        have hbusy₁ : (s₁.slot (nextHandle s.m_sockSequence)).m_state ≠ .INVALID := hslot ▸ hbusy
        simp [Reserve.step, Reserve.act, hlive₁, hpc₁, hbusy₁]
      obtain ⟨fs, s₂, hrun₂, hpc₂, htable₂⟩ :=
        ih (s := s₁.setPc t (.next (i + 1))) hlive₁ (Reserve.setPc_self ..) (by omega)
      have hnext : tableOf (s₁.setPc t (.next (i + 1))) =
          { tableOf s with m_sockSequence := nextHandle s.m_sockSequence } := htable
      rw [hnext] at hpc₂ htable₂
      refine ⟨es ++ .test t :: fs, s₂, ?_, hpc₂, htable₂⟩
      rw [System.run_append, hrun, Option.bind_some, System.run_cons, Reserve.system_step, htest]
      exact hrun₂

/-- **A call of `getReserve` with no other thread in it** is a run of that thread among the threads
of `Model.Reserve`.
SOURCE: network/socketSystem.cc:383-403 -/
theorem getReserve_alone (hlive : s.aborted = false) (hpc : s.pc t = .idle) :
    ∃ es s', Reserve.system.run s es = some s' ∧
      s'.pc t = .returned (tableOf s).getReserve.ret ∧
      tableOf s' = (tableOf s).getReserve.table := by
  have hcall : Reserve.step s (.call t) = some (s.setPc t (.next 0)) := by
    simp [Reserve.step, Reserve.act, hlive, hpc]
  obtain ⟨es, s', hrun, hret, htable⟩ := loop_alone (s := s.setPc t (.next 0)) MAX_SOCKET hlive
    (Reserve.setPc_self ..) (Nat.zero_add _)
  refine ⟨.call t :: es, s', ?_, hret, htable⟩
  rw [System.run_cons, Reserve.system_step, hcall]
  exact hrun

end Alone

/-- A table of closed slots, with the last handle but one taken. -/
def lastButOne : State where
  table :=
    { m_sockGroup := fun _ => SlotLife.start.c.s
      m_sockSequence := 2 ^ 31 - 2 }
  steps := 0
  returned := []

/-- The second handle is behind the wrap.
SOURCE: network/socketSystem.cc:383-403 -/
theorem handle_arithmetic_wrap : ∃ s, system.run lastButOne [.getReserve, .getReserve] = some s ∧
    s.returned.map Prod.snd = [0, 2 ^ 31 - 1] ∧ CallRight s.table := by
  refine ⟨_, rfl, by decide, ?_⟩
  have hstarts : system.init lastButOne := ⟨by decide, by decide, rfl, rfl⟩
  exact (handle_arithmetic (System.reachable_of_run hstarts
    (show system.run lastButOne [.getReserve, .getReserve] = some _ from rfl))).1

end MagicNet.ReserveCall
