import MagicNet.Model.LuaMemory

/-!
# What `m_mem` counts

The bytes that a call asks for are counted before they are given.  Where the test against the limit
refuses them `m_mem` is set back, and where `lalloc` has none it is not; from then on it is not what
the blocks have.

SOURCE: lualib/manual/luaStack.cc:11-37, util/memory.cc:94-101
-/

set_option autoImplicit false

namespace MagicNet.LuaMemory

open MagicNet.Foundation

variable {s s' : LuaStack} {e : Call}

structure Inv (s : LuaStack) : Prop where
  exact : s.m_mem = total s.blocks
  fits : s.m_mem < WORD

/-! ## The blocks -/

/-- The bytes of a block more. -/
theorem total_cons (block : ℕ × ℕ) (blocks : List (ℕ × ℕ)) :
    total (block :: blocks) = block.2 + total blocks := by
  rw [total, List.map_cons, List.sum_cons, total]

/-- The bytes of a block less. -/
theorem total_erase {block : ℕ × ℕ} {blocks : List (ℕ × ℕ)} (h : block ∈ blocks) :
    total (blocks.erase block) + block.2 = total blocks := by
  have hperm := (List.perm_cons_erase h).map Prod.snd
  rw [total.eq_1 blocks, hperm.sum_eq, List.map_cons, List.sum_cons, add_comm, total]

/-- What the call gives back, and the rest. -/
theorem total_others (h : s.Contract e) : total (e.others s.blocks) + e.released = total s.blocks := by
  rw [Call.others, Call.released]
  cases hptr : e.ptr with
  | none => rfl
  | some ptr => exact total_erase (h.2.2 ptr hptr)

/-! ## The counter -/

/-- What a call releases is less than the word.
SOURCE: lualib/manual/luaStack.cc:11-37 -/
theorem released_lt (h : s.Contract e) : e.released < WORD := by
  rw [Call.released]
  split
  · decide
  · exact h.1

/-- What a call counts is the bytes it leaves, modulo the word.
SOURCE: lualib/manual/luaStack.cc:11-37 -/
theorem counted_eq_mod (hexact : s.m_mem = total s.blocks) (h : s.Contract e) :
    s.counted e = (e.nsize + total (e.others s.blocks)) % WORD := by
  have hothers := total_others h
  have hosize := h.1
  rw [LuaStack.counted, hexact, ← hothers, Call.released]
  simp only [WORD] at *
  cases e.ptr with
  | none =>
    simp only
    omega
  | some ptr =>
    simp only
    omega

/-- Where no bytes are given nothing may be counted. -/
theorem counted_eq_iff (hI : Inv s) (h : s.Contract e) :
    s.counted e = s.m_mem ↔ e.nsize = e.released := by
  have hothers := total_others h
  have hfits := hI.fits
  have hnsize := h.2.1
  have hreleased := released_lt h
  rw [counted_eq_mod hI.exact h, hI.exact, ← hothers]
  rw [hI.exact, ← hothers] at hfits
  simp only [WORD] at *
  omega

/-! ## A call -/

/-- A call that is refused changes nothing.
SOURCE: lualib/manual/luaStack.cc:11-37 -/
theorem alloc_refused (h : s.Refused e) : s.alloc e = (s, none) := if_pos h

/-- A call for no bytes frees.
SOURCE: lualib/manual/luaStack.cc:11-37 -/
theorem alloc_freed (h : ¬ s.Refused e) (hzero : e.nsize = 0) :
    (s.alloc e).1.m_mem = s.counted e ∧ (s.alloc e).1.blocks = e.others s.blocks ∧
      (s.alloc e).2 = none := by
  rw [LuaStack.alloc, if_neg h, LuaStack.lalloc, if_pos hzero]
  exact ⟨rfl, rfl, rfl⟩

/-- A call that gets no block counts it all the same.
SOURCE: lualib/manual/luaStack.cc:11-37 -/
theorem alloc_failed (h : ¬ s.Refused e) (hpos : e.nsize ≠ 0) (hgiven : e.given = none) :
    (s.alloc e).1.m_mem = s.counted e ∧ (s.alloc e).1.blocks = s.blocks ∧
      (s.alloc e).2 = none := by
  rw [LuaStack.alloc, if_neg h, LuaStack.lalloc, if_neg hpos, hgiven]
  exact ⟨rfl, rfl, rfl⟩

/-- A call that gets one has it.
SOURCE: lualib/manual/luaStack.cc:11-37 -/
theorem alloc_given {ptr : ℕ} (h : ¬ s.Refused e) (hpos : e.nsize ≠ 0)
    (hgiven : e.given = some ptr) :
    (s.alloc e).1.m_mem = s.counted e ∧
      (s.alloc e).1.blocks = (ptr, e.nsize) :: e.others s.blocks ∧
      (s.alloc e).2 = some ptr := by
  rw [LuaStack.alloc, if_neg h, LuaStack.lalloc, if_neg hpos, hgiven]
  exact ⟨rfl, rfl, rfl⟩

/-- A step is a call that keeps to its contract.
SOURCE: lualib/manual/luaStack.cc:11-37 -/
theorem step_eq (hs : LuaStack.step s e = some s') :
    s.Contract e ∧ s.Fresh e ∧ s' = (s.alloc e).1 := by
  obtain ⟨⟨hcontract, hfresh⟩, heq⟩ := Option.ite_none_right_eq_some.mp hs
  exact ⟨hcontract, hfresh, (Option.some.inj heq).symm⟩

/-! ## The condition -/

/-- A step that meets the condition counts right.
SOURCE: lualib/manual/luaStack.cc:11-37 -/
theorem counts_of_cond (hI : Inv s) (hcond : Cond s e) (hs : LuaStack.step s e = some s') :
    Counts s e s' ∧ Inv s' := by
  obtain ⟨hcontract, hfresh, rfl⟩ := step_eq hs
  have hothers := total_others hcontract
  have hexact := hI.exact
  have hfits := hI.fits
  have hmod := counted_eq_mod hexact hcontract
  by_cases hrefused : s.Refused e
  · rw [alloc_refused hrefused]
    refine ⟨⟨hexact, fun _ _ => rfl, fun _ hnone => ?_⟩, hI⟩
    rw [alloc_refused hrefused] at hnone
    exact absurd rfl hnone
  · by_cases hzero : e.nsize = 0
    · obtain ⟨hmem, hblocks, hnone⟩ := alloc_freed hrefused hzero
      rw [hzero, Nat.zero_add, Nat.mod_eq_of_lt (by omega)] at hmod
      refine ⟨⟨?_, fun _ hpos => by omega, fun _ hsome => absurd hnone hsome⟩, ?_, ?_⟩
      · rw [hmem, hblocks, hmod]
      · rw [hmem, hblocks, hmod]
      · rw [hmem, hmod]
        omega
    · cases hgiven : e.given with
      | none =>
        obtain ⟨hmem, hblocks, hnone⟩ := alloc_failed hrefused hzero hgiven
        have hsame : e.nsize = e.released := by
          rcases hcond with h | h | h | h
          · exact absurd h hrefused
          · exact absurd h hzero
          · exact absurd hgiven h
          · exact h
        rw [(counted_eq_iff hI hcontract).mpr hsame] at hmem
        refine ⟨⟨?_, fun _ _ => hmem, fun _ hsome => absurd hnone hsome⟩, ?_, ?_⟩
        · rw [hmem, hblocks, hexact]
        · rw [hmem, hblocks, hexact]
        · rw [hmem]
          exact hfits
      | some ptr =>
        obtain ⟨hmem, hblocks, hsome⟩ := alloc_given hrefused hzero hgiven
        have hroom := (hfresh ptr hgiven).2
        rw [Nat.mod_eq_of_lt hroom] at hmod
        refine ⟨⟨?_, ?_, ?_⟩, ?_, ?_⟩
        · rw [hmem, hblocks, total_cons, hmod]
        · intro hnone
          rw [hsome] at hnone
          cases hnone
        · intro hlimit _ hgrows
          by_contra hover
          refine hrefused ⟨hlimit, by omega, ?_⟩
          cases hptr : e.ptr with
          | none => exact .inl rfl
          | some p =>
            rw [Call.released, hptr] at hgrows
            exact .inr hgrows
        · rw [hmem, hblocks, total_cons, hmod]
        · rw [hmem, hmod]
          exact hroom

/-- One that does not counts wrong.
SOURCE: lualib/manual/luaStack.cc:11-37 -/
theorem not_counts (hI : Inv s) (hcond : ¬ Cond s e) (hs : LuaStack.step s e = some s') :
    ¬ Counts s e s' := by
  obtain ⟨hcontract, -, rfl⟩ := step_eq hs
  obtain ⟨hrefused, hcond⟩ := not_or.mp hcond
  obtain ⟨hzero, hcond⟩ := not_or.mp hcond
  obtain ⟨hgiven, hsize⟩ := not_or.mp hcond
  obtain ⟨hmem, -, hnone⟩ := alloc_failed hrefused hzero (not_not.mp hgiven)
  intro hcounts
  have hsame := hcounts.unchanged hnone (Nat.pos_of_ne_zero hzero)
  exact hsize ((counted_eq_iff hI hcontract).mp (hmem.symm.trans hsame))

/-- **The accounting is right along a run** whose calls all meet the condition, and only there.
SOURCE: lualib/manual/luaStack.cc:11-37, util/memory.cc:94-101 -/
theorem accounting {s₀ s : LuaStack} {es : List Call} (h0 : system.init s₀)
    (hrun : system.run s₀ es = some s) :
    system.Always Counts s₀ es ↔ system.Meets Cond s₀ es := by
  obtain ⟨hmem, -, hblocks⟩ := h0
  have hI : Inv s₀ := ⟨by rw [hmem, hblocks]; rfl, by rw [hmem]; decide⟩
  apply System.always_iff_meets (I := Inv) _ _ hI hrun
  · intro s e s' hI hcond hs
    exact counts_of_cond hI hcond hs
  · intro s e s' hI hcond hs
    exact not_counts hI hcond hs

/-- A new state with a limit of 100 bytes. -/
def limited : LuaStack := ⟨0, LUA_MEMORY_WARNING_REPORT, 100, []⟩

/-- A block is given, grown, refused more, and freed. -/
theorem accounting_grown :
    system.Always Counts limited
      [⟨none, 5, 60, some 1⟩, ⟨some 1, 60, 90, some 2⟩, ⟨some 2, 90, 120, none⟩,
        ⟨some 2, 90, 0, none⟩] :=
  (accounting (s := limited) ⟨rfl, rfl, rfl⟩ (by decide +kernel)).mpr (by decide +kernel)

/-- A first block that `lalloc` does not give is counted.
SOURCE: util/memory.cc:94-101 -/
theorem accounting_failed : ¬ system.Always Counts limited [⟨none, 5, 60, none⟩] := by
  intro h
  have hexact := (h ⟨60, LUA_MEMORY_WARNING_REPORT, 100, []⟩ (by decide)).1.exact
  exact absurd hexact (by decide)

end MagicNet.LuaMemory
