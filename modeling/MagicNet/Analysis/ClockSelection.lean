import MagicNet.Analysis.ClockCascade

/-!
# Which bucket is moved

In base 64, with a first digit of 8 bits, the masks of the loop of `local_shift` ask for one digit
more in every round, and the loop goes on while the digits are 0.  A time that is not 0 has a digit
on one of the four levels, so that `mask` is not shifted further than to the highest of them.
-/

set_option autoImplicit false

namespace MagicNet.Clock

variable {ct : BitVec 32} {i : ℕ}

/-! ## Masks and digits -/

/-- The test of a round asks for the bits below the level. -/
theorem and_mask_eq_zero (hlevel : i ≤ 3) :
    ct &&& BitVec.ofInt 32 (256 * 2 ^ (i * 6) - 1) = 0 ↔
      ct.toNat % 2 ^ (8 + i * 6) = 0 := by
  have hmask : ∀ l ≤ 3, (BitVec.ofInt 32 (256 * 2 ^ (l * 6) - 1)).toNat = 2 ^ (8 + l * 6) - 1 := by
    decide
  rw [← BitVec.toNat_inj, BitVec.toNat_and, hmask i hlevel, Nat.and_two_pow_sub_one_eq_mod]
  rfl

/-- The index of a level's bucket is a digit of the time to the base 64.
SOURCE: operation/clock.h:90-109 -/
theorem level_digit (time : BitVec 32) (i : ℕ) :
    ((time >>> (8 + i * 6)) &&& CLOCK_LEVEL_MASK).toNat = digit time i := by
  rw [BitVec.toNat_and, BitVec.toNat_ushiftRight, Nat.shiftRight_eq_div_pow]
  exact Nat.and_two_pow_sub_one_eq_mod _ 6

/-- The next level has 64 times as many times. -/
theorem two_pow_next (i : ℕ) : 2 ^ (8 + (i + 1) * 6) = 2 ^ (8 + i * 6) * 64 := by
  rw [Nat.succ_mul, ← Nat.add_assoc, Nat.pow_add]

/-- With the digit of a level all bits below the next one are 0. -/
theorem mod_next (hmod : ct.toNat % 2 ^ (8 + i * 6) = 0) (hdigit : digit ct i = 0) :
    ct.toNat % 2 ^ (8 + (i + 1) * 6) = 0 := by
  unfold digit at hdigit
  rw [two_pow_next, Nat.mod_mul, hmod, hdigit, Nat.mul_zero]

/-! ## The rounds -/

/-- The round in which the digit of the level is looked at. -/
theorem shiftLoop_succ {n : ℕ} (hlevel : i ≤ 3) (hmod : ct.toNat % 2 ^ (8 + i * 6) = 0) :
    shiftLoop ct (n + 1) (256 * 2 ^ (i * 6)) (ct >>> (8 + i * 6)) i =
      if digit ct i ≠ 0 then some ⟨256 * 2 ^ (i * 6), [(i, digit ct i)]⟩
      else if 256 * 2 ^ ((i + 1) * 6) < (2 ^ 31 : ℤ) then
        shiftLoop ct n (256 * 2 ^ ((i + 1) * 6)) (ct >>> (8 + (i + 1) * 6)) (i + 1)
      else none := by
  have hdigit := level_digit ct i
  have hidx : (ct >>> (8 + i * 6)) &&& CLOCK_LEVEL_MASK ≠ 0 ↔ digit ct i ≠ 0 := by
    rw [← hdigit, Ne, ← BitVec.toNat_inj]
    rfl
  have hshift : ct >>> (8 + i * 6) >>> 6 = ct >>> (8 + (i + 1) * 6) := by
    rw [← BitVec.shiftRight_add, Nat.succ_mul, Nat.add_assoc]
  have hmask : 256 * 2 ^ (i * 6) * 2 ^ 6 = (256 * 2 ^ ((i + 1) * 6) : ℤ) := by
    rw [Nat.succ_mul, pow_add, mul_assoc]
  rw [shiftLoop, if_pos ((and_mask_eq_zero hlevel).mpr hmod)]
  dsimp only
  rw [hshift, hmask, hdigit]
  exact if_congr hidx rfl rfl

/-- **The loop** comes to the lowest level that has a digit. -/
theorem shiftLoop_finds (hct : ct ≠ 0) (k : ℕ) (hlevel : i + k = 3)
    (hmod : ct.toNat % 2 ^ (8 + i * 6) = 0) :
    ∃ found ≤ 3, digit ct found ≠ 0 ∧ (∀ j, i ≤ j → j < found → digit ct j = 0) ∧
      ct.toNat % 2 ^ (8 + found * 6) = 0 ∧
      ∀ n, k < n → shiftLoop ct n (256 * 2 ^ (i * 6)) (ct >>> (8 + i * 6)) i =
        some ⟨256 * 2 ^ (found * 6), [(found, digit ct found)]⟩ := by
  induction k generalizing i with
  | zero =>
    obtain rfl : i = 3 := hlevel
    have hdigit : digit ct 3 ≠ 0 := by
      intro hzero
      have hall := mod_next hmod hzero
      rw [Nat.mod_eq_of_lt ct.isLt] at hall
      exact hct (BitVec.eq_of_toNat_eq hall)
    refine ⟨3, le_rfl, hdigit, fun j hj hlt => absurd hlt (by omega), hmod, fun n hn => ?_⟩
    obtain ⟨n, rfl⟩ := Nat.exists_eq_succ_of_ne_zero (by omega : n ≠ 0)
    rw [shiftLoop_succ le_rfl hmod, if_pos hdigit]
  | succ k ih =>
    by_cases hdigit : digit ct i = 0
    · obtain ⟨found, hfound, hne, hbefore, hzeros, heq⟩ :=
        ih (i := i + 1) (by omega) (mod_next hmod hdigit)
      have hfits : ∀ l ≤ 2, 256 * 2 ^ ((l + 1) * 6) < (2 ^ 31 : ℤ) := by decide
      refine ⟨found, hfound, hne, fun j hj hlt => ?_, hzeros, fun n hn => ?_⟩
      · by_cases hsame : j = i
        · rw [hsame, hdigit]
        · exact hbefore j (by omega) hlt
      · obtain ⟨n, rfl⟩ := Nat.exists_eq_succ_of_ne_zero (by omega : n ≠ 0)
        rw [shiftLoop_succ (by omega) hmod, if_neg (not_not.mpr hdigit),
          if_pos (hfits i (by omega)), heq n (by omega)]
    · refine ⟨i, by omega, hdigit, fun j hj hlt => absurd hlt (by omega), hmod,
        fun n hn => ?_⟩
      obtain ⟨n, rfl⟩ := Nat.exists_eq_succ_of_ne_zero (by omega : n ≠ 0)
      rw [shiftLoop_succ (by omega) hmod, if_pos hdigit]

/-- What the loop with an `int` comes to, the loop of the model comes to. -/
theorem selectLoop_eq {n : ℕ} {time : BitVec 32} {r : Shifted} (hlevel : i ≤ 3)
    (h : shiftLoop ct n (256 * 2 ^ (i * 6)) time i = some r) :
    selectLoop ct n (CLOCK_SLOT <<< (i * 6)) time i = some r.moves.head? := by
  induction n generalizing i time with
  | zero => cases h
  | succ n ih =>
    have hmask : ∀ l ≤ 3, BitVec.ofInt 32 (256 * 2 ^ (l * 6) - 1) = CLOCK_SLOT <<< (l * 6) - 1 := by
      decide
    rw [shiftLoop, hmask i hlevel] at h
    rw [selectLoop]
    dsimp only at h ⊢
    by_cases htest : ct &&& (CLOCK_SLOT <<< (i * 6) - 1) = 0
    · rw [if_pos htest] at h ⊢
      by_cases hidx : time &&& CLOCK_LEVEL_MASK = 0
      · rw [if_neg (not_not.mpr hidx)] at h ⊢
        have hnext : 256 * 2 ^ (i * 6) * 2 ^ 6 = (256 * 2 ^ ((i + 1) * 6) : ℤ) := by
          rw [Nat.succ_mul, pow_add, mul_assoc]
        -- The next shift fits in an `int`, so that the next level is one of the four.
        have hfits : ∀ l ≤ 3, 256 * 2 ^ ((l + 1) * 6) < (2 ^ 31 : ℤ) → l + 1 ≤ 3 := by decide
        rw [hnext] at h
        split at h
        · rename_i hlt
          have hshift : CLOCK_SLOT <<< (i * 6) <<< 6 = CLOCK_SLOT <<< ((i + 1) * 6) := by
            rw [← BitVec.shiftLeft_add, Nat.succ_mul]
          rw [hshift]
          exact ih (hfits i hlevel hlt) h
        · cases h
      · rw [if_pos hidx] at h ⊢
        rw [← Option.some.inj h]
        rfl
    · rw [if_neg htest] at h ⊢
      rw [← Option.some.inj h]
      rfl

/-! ## Blocks -/

/-- A time of the round has the digit of `ct` where it is in the part that begins with `ct`. -/
theorem digit_eq_iff {time : BitVec 32} (hmod : ct.toNat % 2 ^ (8 + i * 6) = 0)
    (hround : time >>> (8 + (i + 1) * 6) = ct >>> (8 + (i + 1) * 6)) :
    digit time i = digit ct i ↔
      ct.toNat ≤ time.toNat ∧ time.toNat < ct.toNat + 2 ^ (8 + i * 6) := by
  have hround := congrArg BitVec.toNat hround
  rw [BitVec.toNat_ushiftRight, BitVec.toNat_ushiftRight, Nat.shiftRight_eq_div_pow,
    Nat.shiftRight_eq_div_pow, two_pow_next, ← Nat.div_div_eq_div_mul,
    ← Nat.div_div_eq_div_mul] at hround
  have hpos : 0 < 2 ^ (8 + i * 6) := Nat.two_pow_pos _
  unfold digit
  generalize 2 ^ (8 + i * 6) = size at hmod hround hpos ⊢
  obtain ⟨part, hpart⟩ := Nat.dvd_of_mod_eq_zero hmod
  have hct : ct.toNat / size = part := by rw [hpart, Nat.mul_div_cancel_left _ hpos]
  rw [hct] at hround ⊢
  have hsame : time.toNat / size % 64 = part % 64 ↔ time.toNat / size = part := by omega
  rw [hsame, hpart, ← Nat.mul_succ]
  constructor
  · intro heq
    have hmul := Nat.mul_div_le time.toNat size
    have hlt := Nat.lt_mul_div_succ time.toNat hpos
    rw [heq] at hmul hlt
    exact ⟨hmul, hlt⟩
  · rintro ⟨hle, hlt⟩
    rw [mul_comm] at hle hlt
    exact Nat.div_eq_of_lt_le hle hlt

/-- The bucket of the lowest level with a digit. -/
theorem Selected.of_digit (hct : ct ≠ 0) (hlevel : i ≤ 3) (hdigit : digit ct i ≠ 0)
    (hbefore : ∀ j < i, digit ct j = 0) (hmod : ct.toNat % 2 ^ (8 + i * 6) = 0) :
    Selected ct (i, digit ct i) where
  level := hlevel
  idx := Nat.le_of_lt_succ (Nat.mod_lt _ (by decide))
  zero := fun hzero => absurd hzero hct
  lowest := fun _ => ⟨rfl, hdigit, hbefore⟩
  block := by
    intro time hround
    rw [level_digit]
    exact digit_eq_iff hmod hround

/-- When the time comes round to 0, the first part of the highest level begins. -/
theorem Selected.zero_time : Selected 0 (3, 0) where
  level := le_rfl
  idx := Nat.zero_le _
  zero := fun _ => rfl
  lowest := fun hne => absurd rfl hne
  block := by
    intro time hround
    rw [level_digit]
    exact digit_eq_iff (i := 3) rfl hround

/-! ## The selection -/

/-- A time that begins no part of the lowest level moves nothing.
SOURCE: operation/clock.h:90-110 -/
theorem local_shift_of_mod {n : ℕ} (hct : ct ≠ 0) (hmod : ct.toNat % 256 ≠ 0) (hn : 1 ≤ n) :
    local_shift ct n = some ⟨256, []⟩ := by
  obtain ⟨n, rfl⟩ := Nat.exists_eq_succ_of_ne_zero (by omega : n ≠ 0)
  have htest : ¬ ct &&& BitVec.ofInt 32 (256 * 2 ^ (0 * 6) - 1) = 0 :=
    (and_mask_eq_zero (by decide)).not.mpr hmod
  rw [local_shift, if_neg hct, shiftLoop]
  exact if_neg htest

/-- What the call of `local_shift` comes to, the model's `select` selects.
SOURCE: operation/clock.h:90-110 -/
theorem select_eq {r : Shifted} (h : local_shift ct 5 = some r) :
    select ct = some r.moves.head? := by
  unfold local_shift at h
  unfold select
  split at h
  · rename_i hct
    rw [if_pos hct, ← Option.some.inj h]
    rfl
  · rename_i hct
    rw [if_neg hct]
    exact selectLoop_eq (i := 0) (by decide) h

/-- **Cascade selection.**  At every time the loop of `local_shift` ends within four rounds, and
`mask` is at most 2^26; `local_move` is called at most once, it is called when the lowest eight bits
are 0, and with the bucket of the part that begins.
SOURCE: operation/clock.h:90-110 -/
theorem cascade_selection (ct : BitVec 32) :
    ∃ r, (∀ n, 4 ≤ n → local_shift ct n = some r) ∧ select ct = some r.moves.head? ∧
      r.mask ≤ 2 ^ 26 ∧ r.moves.length ≤ 1 ∧ (r.moves ≠ [] ↔ ct.toNat % 256 = 0) ∧
      ∀ bucket ∈ r.moves, Selected ct bucket := by
  by_cases hct : ct = 0
  · subst hct
    refine ⟨⟨256, [(3, 0)]⟩, fun n _ => rfl, rfl, by decide, le_rfl, by decide, ?_⟩
    intro bucket hbucket
    rw [List.mem_singleton.mp hbucket]
    exact Selected.zero_time
  · by_cases hmod : ct.toNat % 256 = 0
    · obtain ⟨found, hfound, hdigit, hbefore, hzeros, heq⟩ :=
        shiftLoop_finds (i := 0) hct 3 rfl hmod
      have hall : ∀ n, 4 ≤ n →
          local_shift ct n = some ⟨256 * 2 ^ (found * 6), [(found, digit ct found)]⟩ := by
        intro n hn
        rw [local_shift, if_neg hct]
        exact heq n hn
      have hmask : ∀ l ≤ 3, 256 * 2 ^ (l * 6) ≤ (2 ^ 26 : ℤ) := by decide
      refine ⟨_, hall, select_eq (hall 5 (by decide)), hmask found hfound, le_rfl,
        iff_of_true (List.cons_ne_nil _ _) hmod, ?_⟩
      intro bucket hbucket
      rw [List.mem_singleton.mp hbucket]
      exact Selected.of_digit hct hfound hdigit (fun j hj => hbefore j (Nat.zero_le j) hj) hzeros
    · have hall : ∀ n, 4 ≤ n → local_shift ct n = some ⟨256, []⟩ :=
        fun n hn => local_shift_of_mod hct hmod (by omega)
      refine ⟨_, hall, select_eq (hall 5 (by decide)), by decide, Nat.zero_le _,
        iff_of_false (not_not.mpr rfl) hmod, ?_⟩
      intro bucket hbucket
      cases hbucket

end MagicNet.Clock
