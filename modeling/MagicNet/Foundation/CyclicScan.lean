import Mathlib.Algebra.Order.Ring.Int
import Mathlib.Data.Int.ModEq
import Mathlib.Tactic.Ring

/-!
# Cyclic counters and the scans they drive

A counter runs through the residues modulo `m`.  The places of a table are the residues modulo a
divisor `d` of `m`, and the place of a value is its residue.

* `value_ne`: two values less than `m` steps apart are different.
* `exists_place`: any `d` consecutive values meet every place, also across the wrap of the counter.
* `probe`: the first of a number of consecutive values that passes a test; `probe_eq_some` says that it
  is the first, and `probe_table` that a scan of `d` values fails exactly when no place passes.
-/

set_option autoImplicit false

namespace MagicNet.Foundation.Cyclic

variable {m d : ℕ} {a : ℤ}

/-! ## The values of a counter -/

/-- The value of the counter `n` steps after `a`. -/
def value (m : ℕ) (a : ℤ) (n : ℕ) : ℤ := (a + n) % m

/-- The values of the scan are not negative. -/
theorem value_nonneg (hm : 0 < m) (a : ℤ) (n : ℕ) : 0 ≤ value m a n :=
  Int.emod_nonneg _ (by omega)

/-- They are below the modulus. -/
theorem value_lt (hm : 0 < m) (a : ℤ) (n : ℕ) : value m a n < m :=
  Int.emod_lt_of_pos _ (by omega)

/-- Steps from a value are steps from where it was counted. -/
theorem value_value (m : ℕ) (a : ℤ) (i j : ℕ) : value m (value m a i) j = value m a (i + j) := by
  unfold value
  rw [Int.emod_add_emod, Nat.cast_add, add_assoc]

/-- The place of a value in a table of `d` places. -/
def place (d : ℕ) (x : ℤ) : ℕ := (x % d).toNat

/-- A place is inside the table. -/
theorem place_lt (hd : 0 < d) (x : ℤ) : place d x < d := by
  have hlt := Int.emod_lt_of_pos x (show (0 : ℤ) < d by omega)
  unfold place
  omega

/-- The wrap of the counter does not show in the places. -/
theorem place_value (hdm : d ∣ m) (a : ℤ) (n : ℕ) : place d (value m a n) = place d (a + n) := by
  unfold place value
  rw [Int.emod_emod_of_dvd _ (Int.natCast_dvd_natCast.mpr hdm)]

/-- **Two values less than `m` steps apart** are different. -/
theorem value_ne {i j : ℕ} (hij : i < j) (hwindow : j < i + m) : value m a i ≠ value m a j := by
  intro heq
  have hdvd : (m : ℤ) ∣ (a + j) - (a + i) := Int.ModEq.dvd heq
  have hle := Int.le_of_dvd (by omega) hdvd
  omega

/-- **Any `d` consecutive values** meet every place. -/
theorem exists_place (hdm : d ∣ m) {k : ℕ} (hk : k < d) (a : ℤ) :
    ∃ n, 1 ≤ n ∧ n ≤ d ∧ place d (value m a n) = k := by
  have hd : (d : ℤ) ≠ 0 := by omega
  have hrest := Int.emod_nonneg (k - a - 1) hd
  have hlt := Int.emod_lt_of_pos (k - a - 1) (show (0 : ℤ) < d by omega)
  refine ⟨((k - a - 1) % d).toNat + 1, by omega, by omega, ?_⟩
  have hplace : (a + (((k - a - 1) % d).toNat + 1 : ℕ)) % d = k := by
    rw [Nat.cast_add, Int.toNat_of_nonneg hrest, Nat.cast_one]
    calc (a + ((k - a - 1) % d + 1)) % d = ((k - a - 1) % d + (a + 1)) % d := by ring_nf
      _ = (k - a - 1 + (a + 1)) % d := Int.emod_add_emod _ _ _
      _ = k % d := by ring_nf
      _ = k := Int.emod_eq_of_lt (by omega) (by omega)
  rw [place_value hdm, place, hplace, Int.toNat_natCast]

/-! ## Scans -/

section Scan

variable (p : ℤ → Prop) [DecidablePred p]

/-- The number of steps to the first of the next `limit` values that passes the test. -/
def probe (m : ℕ) : ℕ → ℤ → Option ℕ
  | 0, _ => none
  | limit + 1, a =>
    if p (value m a 1) then some 1 else (probe m limit (value m a 1)).map (· + 1)

/-- The value `n` steps after `a` is the first that passes the test. -/
structure First (m : ℕ) (a : ℤ) (n : ℕ) : Prop where
  pos : 1 ≤ n
  passes : p (value m a n)
  before : ∀ i, 1 ≤ i → i < n → ¬ p (value m a i)

variable {p} {limit n : ℕ}

/-- The scan finds nothing where no value up to the limit is good. -/
theorem probe_eq_none :
    probe p m limit a = none ↔ ∀ i, 1 ≤ i → i ≤ limit → ¬ p (value m a i) := by
  induction limit generalizing a with
  | zero =>
    constructor
    · intro _ i hi hle
      omega
    · intro _
      rfl
  | succ limit ih =>
    unfold probe
    split
    · next hfirst =>
      constructor
      · intro hnone
        cases hnone
      · intro hall
        exact absurd hfirst (hall 1 (le_refl 1) (by omega))
    · next hfirst =>
      rw [Option.map_eq_none_iff, ih]
      constructor
      · intro hall i hi hle
        obtain rfl | hlt := eq_or_lt_of_le hi
        · exact hfirst
        · have hi' := hall (i - 1) (by omega) (by omega)
          rwa [value_value, show 1 + (i - 1) = i by omega] at hi'
      · intro hall i hi hle
        rw [value_value]
        exact hall (1 + i) (by omega) (by omega)

/-- **A scan that succeeds** stops at the first value that passes. -/
theorem probe_eq_some (h : probe p m limit a = some n) : First p m a n ∧ n ≤ limit := by
  induction limit generalizing a n with
  | zero => cases h
  | succ limit ih =>
    unfold probe at h
    split at h
    · next hfirst =>
      cases h
      refine ⟨⟨le_refl 1, hfirst, fun i hi hlt => ?_⟩, by omega⟩
      omega
    · next hfirst =>
      obtain ⟨k, hk, rfl⟩ := Option.map_eq_some_iff.mp h
      obtain ⟨hkfirst, hle⟩ := ih hk
      have hpasses := hkfirst.passes
      rw [value_value, Nat.add_comm 1 k] at hpasses
      refine ⟨⟨by omega, hpasses, fun i hi hlt => ?_⟩, by omega⟩
      obtain rfl | hgt := eq_or_lt_of_le hi
      · exact hfirst
      · have hi' := hkfirst.before (i - 1) (by omega) (by omega)
        rwa [value_value, show 1 + (i - 1) = i by omega] at hi'

/-- **A scan of a whole table** fails exactly when no place passes the test. -/
theorem probe_table (hdm : d ∣ m) {q : ℕ → Prop} (hpq : ∀ x, p x ↔ q (place d x)) :
    probe p m d a = none ↔ ∀ k < d, ¬ q k := by
  rw [probe_eq_none]
  constructor
  · intro hall k hk hq
    obtain ⟨n, hn, hle, hplace⟩ := exists_place hdm hk a
    exact hall n hn hle ((hpq _).mpr (hplace.symm ▸ hq))
  · intro hall i hi hle hp
    exact hall _ (place_lt (by omega) _) ((hpq _).mp hp)

end Scan

end MagicNet.Foundation.Cyclic
