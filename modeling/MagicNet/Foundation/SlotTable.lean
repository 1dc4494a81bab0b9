import Mathlib.Logic.Function.Basic
import Mathlib.Data.Nat.ModEq
import Mathlib.Tactic

/-!
# Tables with one slot for each key

A table of `cap` slots in which the entry of key `k` stands at slot `k % cap`, with no probing:
`lookup` reads that slot and compares the key.  Inserting at a free slot and clearing a slot act
on lookups as on a finite map (`lookup_insert`, `lookup_erase`).

Doubling the table in place is the harder operation.  `rehash` walks over the slots in order and
*copies* each entry to its new slot; entries left at their old slot stay there as copies.
`rehash_split` gives the condition under which the copies do no harm, `Settled`: each entry in
the table is the one found under its own key, or the one found there overwrites its copy.  No
lookup is then changed (`lookup_split`).  Without it, a doubled table can have no free slot left only
if all its entries have moved by the old capacity (`shifted_of_full`).
-/

set_option autoImplicit false

namespace MagicNet.Foundation.SlotTable

variable {α : Type*}

/-- The entry found under a key. -/
def lookup (slot : ℕ → Option α) (key : α → ℕ) (cap k : ℕ) : Option α :=
  (slot (k % cap)).filter fun x => key x = k

variable {slot slot' : ℕ → Option α} {key : α → ℕ} {cap k : ℕ} {x : α}

/-- A key is found in its own slot, or not at all. -/
theorem lookup_eq_some : lookup slot key cap k = some x ↔ slot (k % cap) = some x ∧ key x = k := by
  simp [lookup, Option.filter_eq_some_iff]

/-- Nothing is found at a free slot. -/
theorem lookup_of_free (hfree : slot (k % cap) = none) : lookup slot key cap k = none := by
  simp [lookup, hfree]

/-- Nothing is found at a slot that holds another key. -/
theorem lookup_of_other (hx : slot (k % cap) = some x) (hk : key x ≠ k) :
    lookup slot key cap k = none := by
  simp [lookup, hx, Option.filter, hk]

/-! ## Insertion and removal -/

section Update

variable [DecidableEq α]

/-- Putting a new entry at the free slot of its key binds the key and nothing else. -/
theorem lookup_insert (hfree : slot (k % cap) = none) (hnew : ∀ i, slot i ≠ some x) :
    lookup (Function.update slot (k % cap) (some x)) (Function.update key x k) cap =
      Function.update (lookup slot key cap) k (some x) := by
  funext k'
  by_cases hk : k' = k
  · subst hk
    rw [Function.update_self, lookup_eq_some]
    simp
  · rw [Function.update_of_ne hk]
    by_cases hslot : k' % cap = k % cap
    · have hold : lookup slot key cap k' = none := lookup_of_free (hslot ▸ hfree)
      rw [hold]
      refine lookup_of_other (x := x) (by rw [hslot, Function.update_self]) ?_
      simpa using Ne.symm hk
    · unfold lookup
      rw [Function.update_of_ne hslot]
      cases hy : slot (k' % cap) with
      | none => rfl
      | some y =>
        have hyx : y ≠ x := fun heq => hnew _ (heq ▸ hy)
        simp [Option.filter, Function.update_of_ne hyx]

end Update

/-- Clearing the slot of a key that is bound unbinds the key and nothing else. -/
theorem lookup_erase (hx : slot (k % cap) = some x) (hk : key x = k) :
    lookup (Function.update slot (k % cap) none) key cap =
      Function.update (lookup slot key cap) k none := by
  funext k'
  by_cases hkk : k' = k
  · subst hkk
    rw [Function.update_self]
    exact lookup_of_free (Function.update_self ..)
  · rw [Function.update_of_ne hkk]
    by_cases hslot : k' % cap = k % cap
    · rw [lookup_of_free (by rw [hslot, Function.update_self]),
        lookup_of_other (hslot ▸ hx) (by rw [hk]; exact Ne.symm hkk)]
    · unfold lookup
      rw [Function.update_of_ne hslot]

/-! ## Doubling -/

/-- A key's slot in the table of twice the size is its old slot or the one `cap` further on. -/
theorem mod_double (k cap : ℕ) :
    k % (2 * cap) = k % cap ∨ k % (2 * cap) = k % cap + cap := by
  rw [Nat.mul_comm, Nat.mod_mul]
  rcases Nat.mod_two_eq_zero_or_one (k / cap) with h | h <;> simp [h]

/-- The first half is the old table, the second holds the entries whose new slot is there. -/
def Split (slot slot' : ℕ → Option α) (key : α → ℕ) (cap : ℕ) : Prop :=
  ∀ j < cap, slot' j = slot j ∧
    slot' (j + cap) = (slot j).filter fun x => key x % (2 * cap) = j + cap

/-- A split table finds the same entries. -/
theorem lookup_split (hcap : 0 < cap) (h : Split slot slot' key cap) :
    lookup slot' key (2 * cap) = lookup slot key cap := by
  funext k
  obtain ⟨hlow, hhigh⟩ := h (k % cap) (Nat.mod_lt k hcap)
  rcases mod_double k cap with hk | hk
  · simp only [lookup, hk, hlow]
  · unfold lookup
    rw [hk, hhigh]
    cases slot (k % cap) with
    | none => rfl
    | some x =>
      by_cases hx : key x = k
      · simp [Option.filter, hx, hk]
      · by_cases hx' : key x % (2 * cap) = k % cap + cap <;> simp [Option.filter, hx, hx']

/-- Copy the entries of the first `n` slots, in order, to their slots in a table of size
`nwcap`. -/
def rehash (key : α → ℕ) (nwcap : ℕ) : ℕ → (ℕ → Option α) → ℕ → Option α
  | 0, slot => slot
  | n + 1, slot =>
    let done := rehash key nwcap n slot
    match done n with
    | none => done
    | some x => Function.update done (key x % nwcap) (some x)

/-- A free slot is passed over. -/
theorem rehash_succ_of_none {nwcap n : ℕ} (hn : rehash key nwcap n slot n = none) :
    rehash key nwcap (n + 1) slot = rehash key nwcap n slot := by
  simp only [rehash, hn]

/-- An entry is copied to its new slot. -/
theorem rehash_succ_of_some {nwcap n : ℕ} (hn : rehash key nwcap n slot n = some x) :
    rehash key nwcap (n + 1) slot =
      Function.update (rehash key nwcap n slot) (key x % nwcap) (some x) := by
  simp only [rehash, hn]

/-- An entry is where it was, or at its new slot. -/
theorem rehash_eq_some {nwcap n i : ℕ} (h : rehash key nwcap n slot i = some x) :
    slot i = some x ∨ key x % nwcap = i := by
  induction n with
  | zero => exact .inl h
  | succ n ih =>
    cases hn : rehash key nwcap n slot n with
    | none =>
      rw [rehash_succ_of_none hn] at h
      exact ih h
    | some y =>
      rw [rehash_succ_of_some hn] at h
      by_cases hi : i = key y % nwcap
      · rw [hi, Function.update_self] at h
        obtain rfl := Option.some.inj h
        exact .inr hi.symm
      · rw [Function.update_of_ne hi] at h
        exact ih h

/-- The walk brings no entry that was not in the table. -/
theorem rehash_mem {nwcap n i : ℕ} (h : rehash key nwcap n slot i = some x) :
    ∃ j, slot j = some x := by
  induction n generalizing i with
  | zero => exact ⟨i, h⟩
  | succ n ih =>
    cases hn : rehash key nwcap n slot n with
    | none =>
      rw [rehash_succ_of_none hn] at h
      exact ih h
    | some y =>
      rw [rehash_succ_of_some hn] at h
      by_cases hi : i = key y % nwcap
      · rw [hi, Function.update_self] at h
        obtain rfl := Option.some.inj h
        exact ih hn
      · rw [Function.update_of_ne hi] at h
        exact ih h

/-- A walk that finds each entry at its new slot changes nothing. -/
theorem rehash_of_still {nwcap n : ℕ}
    (h : ∀ i < n, ∀ x, rehash key nwcap i slot i = some x → key x % nwcap = i) :
    rehash key nwcap n slot = slot := by
  induction n with
  | zero => rfl
  | succ n ih =>
    have hsame := ih fun i hi => h i (by omega)
    cases hn : rehash key nwcap n slot n with
    | none => rw [rehash_succ_of_none hn, hsame]
    | some x =>
      rw [rehash_succ_of_some hn, h n (by omega) x hn, hsame, ← hn, hsame,
        Function.update_eq_self]

/-- An entry at a slot that was free has been copied there from another slot. -/
theorem rehash_copied {nwcap n i : ℕ} (hfree : slot i = none)
    (h : rehash key nwcap n slot i = some x) :
    ∃ j < n, j ≠ i ∧ rehash key nwcap j slot j = some x ∧ key x % nwcap = i := by
  induction n with
  | zero =>
    rw [rehash, hfree] at h
    cases h
  | succ n ih =>
    have hold (h : rehash key nwcap n slot i = some x) :
        ∃ j < n + 1, j ≠ i ∧ rehash key nwcap j slot j = some x ∧ key x % nwcap = i := by
      obtain ⟨j, hj, hrest⟩ := ih h
      exact ⟨j, by omega, hrest⟩
    cases hn : rehash key nwcap n slot n with
    | none =>
      rw [rehash_succ_of_none hn] at h
      exact hold h
    | some y =>
      rw [rehash_succ_of_some hn] at h
      by_cases hi : i = key y % nwcap
      · rw [hi, Function.update_self] at h
        obtain rfl := Option.some.inj h
        by_cases hin : n = i
        · exact hold (hin ▸ hn)
        · exact ⟨n, by omega, hin, hn, hi.symm⟩
      · rw [Function.update_of_ne hi] at h
        exact hold h

/-- **A doubled table with no free slot in its second half**: each entry of the old table has moved
by the old capacity.  No entry stands after its slot in the old table, so the first slot of the
second half can only have been filled from slot 0, the next one from slot 1, and so on. -/
theorem shifted_of_full (hle : ∀ i < cap, ∀ x, slot i = some x → i ≤ key x % cap)
    (hfree : ∀ j < cap, slot (j + cap) = none)
    (hfull : ∀ j < cap, ∃ x, rehash key (2 * cap) (2 * cap) slot (j + cap) = some x) :
    ∀ j < cap, ∃ x, slot j = some x ∧ key x % (2 * cap) = j + cap := by
  intro j
  induction j using Nat.strong_induction_on with
  | _ j ih =>
    intro hj
    obtain ⟨x, hx⟩ := hfull j hj
    obtain ⟨n, hn, hne, hxn, hkey⟩ := rehash_copied (hfree j hj) hx
    -- an entry found in the second half is at its new slot
    have hlow : n < cap := by
      by_contra hhigh
      have hnone := hfree (n - cap) (by omega)
      rw [Nat.sub_add_cancel (by omega)] at hnone
      rcases rehash_eq_some hxn with hold | hnew
      · rw [hnone] at hold
        cases hold
      · omega
    have hold : slot n = some x := (rehash_eq_some hxn).resolve_right (by omega)
    have hplace : key x % cap = j := by
      have hmod := mod_double (key x) cap
      have hlt := Nat.mod_lt (key x) (show 0 < cap by omega)
      omega
    have hnj := hle n hlow x hold
    rcases Nat.lt_or_eq_of_le (hplace ▸ hnj) with hlt | rfl
    · obtain ⟨y, hy, hykey⟩ := ih n hlt hlow
      obtain rfl : x = y := by simpa [hold] using hy
      omega
    · exact ⟨x, hold, hkey⟩

/-- Each entry is the one found under its own key; or it is a leftover copy, and the entry found
there goes to the same new slot after it. -/
def Settled (slot : ℕ → Option α) (key : α → ℕ) (cap : ℕ) : Prop :=
  ∀ i < cap, ∀ x, slot i = some x →
    slot (key x % cap) = some x ∨
      i < key x % cap ∧ key x % (2 * cap) = key x % cap + cap ∧
        ∃ y, slot (key x % cap) = some y ∧ key y % (2 * cap) = key x % (2 * cap)

/-- What the walk has done after `n` slots: the first half is untouched, a slot of the second
half holds only what belongs there, and has its entry once the slot it came from is passed. -/
structure Walked (slot slot' : ℕ → Option α) (key : α → ℕ) (cap n : ℕ) : Prop where
  low : ∀ j < cap, slot' j = slot j
  high : ∀ j < cap, ∀ x, slot' (j + cap) = some x →
    key x % (2 * cap) = j + cap ∧ ∃ y, slot j = some y ∧ key y % (2 * cap) = j + cap
  moved : ∀ j < cap, j < n → ∀ y, slot j = some y → key y % (2 * cap) = j + cap →
    slot' (j + cap) = some y

/-- A slot whose entry stays where it is. -/
theorem Walked.skip {n : ℕ} (h : Walked slot slot' key cap n)
    (hstay : n < cap → ∀ y, slot n = some y → key y % (2 * cap) ≠ n + cap) :
    Walked slot slot' key cap (n + 1) := by
  refine ⟨h.low, h.high, fun j hj hjn y hy hyp => ?_⟩
  rcases Nat.lt_succ_iff_lt_or_eq.mp hjn with hlt | rfl
  · exact h.moved j hj hlt y hy hyp
  · exact absurd hyp (hstay hj y hy)

/-- A slot whose entry `x` is copied to the second half, where the entry `y` found under its key
belongs too; `y` has been copied before only if it is `x`. -/
theorem Walked.copy {n : ℕ} {y : α} (h : Walked slot slot' key cap n) (hcap : 0 < cap)
    (hx : slot n = some x) (hp : key x % (2 * cap) = key x % cap + cap)
    (hy : slot (key x % cap) = some y) (hyp : key y % (2 * cap) = key x % cap + cap)
    (hsame : key x % cap ≤ n → y = x) :
    Walked slot (Function.update slot' (key x % (2 * cap)) (some x)) key cap (n + 1) := by
  have hmod := Nat.mod_lt (key x) hcap
  refine ⟨fun j hj => ?_, fun j hj z hz => ?_, fun j hj hjn z hz hzp => ?_⟩
  · rw [Function.update_of_ne (by omega)]
    exact h.low j hj
  · by_cases hjx : j = key x % cap
    · subst hjx
      rw [hp, Function.update_self] at hz
      obtain rfl : x = z := by simpa using hz
      exact ⟨hp, y, hy, hyp⟩
    · rw [Function.update_of_ne (by omega)] at hz
      exact h.high j hj z hz
  · by_cases hjx : j = key x % cap
    · subst hjx
      obtain rfl : z = y := by simpa [hz] using hy
      rw [hp, Function.update_self, hsame (by omega)]
    · rw [Function.update_of_ne (by omega)]
      rcases Nat.lt_succ_iff_lt_or_eq.mp hjn with hlt | rfl
      · exact h.moved j hj hlt z hz hzp
      · obtain rfl : x = z := by simpa [hx] using hz
        omega

/-- One slot of the walk over a settled table. -/
theorem walked_succ {n : ℕ} (hS : Settled slot key cap) (hcap : 0 < cap)
    (h : Walked slot slot' key cap n) (hn : n < 2 * cap) (hx : slot' n = some x) :
    Walked slot (Function.update slot' (key x % (2 * cap)) (some x)) key cap (n + 1) := by
  by_cases hlow : n < cap
  · rw [h.low n hlow] at hx
    rcases mod_double (key x) cap with hp | hp
    · -- the entry stays in the first half, so it is the one found there and nothing changes
      have hmod := Nat.mod_lt (key x) hcap
      have hfound : slot' (key x % (2 * cap)) = some x := by
        rw [hp, h.low _ hmod]
        rcases hS n hlow x hx with hf | ⟨-, hq, -⟩
        · exact hf
        · omega
      rw [← hfound, Function.update_eq_self]
      refine h.skip fun _ y hy => ?_
      obtain rfl : x = y := by simpa [hx] using hy
      omega
    · rcases hS n hlow x hx with hf | ⟨hlt, -, y, hy, hyp⟩
      · exact h.copy hcap hx hp hf hp fun _ => rfl
      · exact h.copy hcap hx hp hy (hyp.trans hp) fun hle => absurd hle (by omega)
  · -- an entry of the second half is at its new slot already
    obtain ⟨j, rfl⟩ : ∃ j, n = j + cap := ⟨n - cap, by omega⟩
    have hp := (h.high j (by omega) x hx).1
    rw [hp, ← hx, Function.update_eq_self]
    exact h.skip fun hlt => absurd hlt hlow

/-- The walk over the first `n` slots. -/
theorem rehash_walked (hS : Settled slot key cap) (hcap : 0 < cap)
    (hfree : ∀ j < cap, slot (j + cap) = none) {n : ℕ} (hn : n ≤ 2 * cap) :
    Walked slot (rehash key (2 * cap) n slot) key cap n := by
  induction n with
  | zero =>
    refine ⟨fun _ _ => rfl, fun j hj x hx => ?_, fun j _ hj => absurd hj (Nat.not_lt_zero j)⟩
    exact absurd hx (by simp [rehash, hfree j hj])
  | succ n ih =>
    have hw := ih (by omega)
    cases hx : rehash key (2 * cap) n slot n with
    | some x =>
      rw [rehash_succ_of_some hx]
      exact walked_succ hS hcap hw (by omega) hx
    | none =>
      rw [rehash_succ_of_none hx]
      refine hw.skip fun hlow y hy => ?_
      rw [hw.low n hlow, hy] at hx
      cases hx

/-- The walk splits a settled table whose second half is free. -/
theorem rehash_split (hS : Settled slot key cap) (hcap : 0 < cap)
    (hfree : ∀ j < cap, slot (j + cap) = none) :
    Split slot (rehash key (2 * cap) (2 * cap) slot) key cap := by
  have hw := rehash_walked hS hcap hfree le_rfl
  refine fun j hj => ⟨hw.low j hj, ?_⟩
  cases hx : rehash key (2 * cap) (2 * cap) slot (j + cap) with
  | some x =>
    obtain ⟨-, y, hy, hyp⟩ := hw.high j hj x hx
    have hmoved := hw.moved j hj (by omega) y hy hyp
    obtain rfl : x = y := by simpa [hx] using hmoved
    simp [hy, Option.filter, hyp]
  | none =>
    cases hy : slot j with
    | none => rfl
    | some y =>
      by_cases hyp : key y % (2 * cap) = j + cap
      · have hmoved := hw.moved j hj (by omega) y hy hyp
        rw [hx] at hmoved
        cases hmoved
      · simp [Option.filter, hyp]

end MagicNet.Foundation.SlotTable
