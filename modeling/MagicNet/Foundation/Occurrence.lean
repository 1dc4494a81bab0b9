import Mathlib.Tactic
import Mathlib.Data.List.Basic
import Mathlib.Data.List.Infix

/-!
# The first occurrence of a pattern in a list

`scan pat bound u i` looks for the pattern from position `i` of a longer list on, of which `u` is
what is left, and stops after position `bound`.  Where what is left is a proper beginning of the
pattern the comparison runs out of the list, and the scan gives `none`.

* `scan_eq_of_le`: with the bound that lets the pattern end with the list, the scan gives the first
  occurrence, if there is one;
* `scan_eq_of_lt`: with no bound, and a pattern that is longer than the list, it gives nothing,
  unless an end of the list is a beginning of the pattern.
-/

set_option autoImplicit false

namespace MagicNet.Foundation

variable {α : Type*} {pat u : List α} {i k bound : ℕ}

/-- The pattern stands at position `k` of the list, and at none before it. -/
structure FirstAt (pat u : List α) (k : ℕ) : Prop where
  here : pat <+: u.drop k
  before : ∀ j, j < k → ¬ pat <+: u.drop j

/-- Something that the list ends in, and not nothing, is what the pattern begins with. -/
def Overhangs (pat u : List α) : Prop := ∃ v, v ≠ [] ∧ v <:+ u ∧ v <+: pat

/-- The positions from `i` on, with what is left of the list at `i`. -/
def scan [DecidableEq α] (pat : List α) (bound : ℕ) : List α → ℕ → Option (Option ℕ)
  | [], _ => some none
  | x :: u, i =>
    if bound < i then some none
    else if pat <+: x :: u then some (some i)
    else if x :: u <+: pat then none
    else scan pat bound u (i + 1)

/-! ## Occurrences -/

/-- A pattern that a list begins with is first found there. -/
theorem firstAt_zero (h : pat <+: u) : FirstAt pat u 0 :=
  ⟨h, fun _ hj => absurd hj (Nat.not_lt_zero _)⟩

/-- Where a pattern stands somewhere, it stands somewhere first. -/
theorem exists_firstAt (h : ∃ k, pat <+: u.drop k) : ∃ k, FirstAt pat u k := by
  classical
  exact ⟨Nat.find h, Nat.find_spec h, fun j hj => Nat.find_min h hj⟩

/-- There is one first occurrence. -/
theorem FirstAt.unique {j : ℕ} (h : FirstAt pat u k) (h' : FirstAt pat u j) : k = j := by
  rcases Nat.lt_trichotomy k j with hlt | heq | hgt
  · exact absurd h.here (h'.before k hlt)
  · exact heq
  · exact absurd h'.here (h.before j hgt)

/-- What stands in the list ends in it. -/
theorem FirstAt.le_length (h : FirstAt pat u k) (hpat : pat ≠ []) : k + pat.length ≤ u.length := by
  have hlen := h.here.length_le
  have hpos := List.length_pos_iff.mpr hpat
  rw [List.length_drop] at hlen
  omega

/-- A pattern longer than the list does not stand in it. -/
theorem not_standing (h : u.length < pat.length) (j : ℕ) : ¬ pat <+: u.drop j := by
  intro hpre
  have hlen := hpre.length_le
  rw [List.length_drop] at hlen
  omega

/-- Nothing overhangs an empty list. -/
theorem not_overhangs_nil : ¬ Overhangs pat ([] : List α) := by
  rintro ⟨v, hne, hsuf, -⟩
  exact hne (List.suffix_nil.mp hsuf)

/-- The ends of a list are itself and the ends of its tail. -/
theorem overhangs_cons {x : α} :
    Overhangs pat (x :: u) ↔ x :: u <+: pat ∨ Overhangs pat u := by
  constructor
  · rintro ⟨v, hne, hsuf, hpre⟩
    rcases List.suffix_cons_iff.mp hsuf with heq | hsuf
    · exact .inl (heq ▸ hpre)
    · exact .inr ⟨v, hne, hsuf, hpre⟩
  · rintro (hpre | ⟨v, hne, hsuf, hpre⟩)
    · exact ⟨x :: u, List.cons_ne_nil x u, List.suffix_rfl, hpre⟩
    · exact ⟨v, hne, hsuf.trans (List.suffix_cons x u), hpre⟩

/-! ## The scan -/

variable [DecidableEq α]

/-- After the bound nothing is looked at. -/
theorem scan_past (h : bound < i) : scan pat bound u i = some none := by
  cases u with
  | nil => rfl
  | cons x u => rw [scan, if_pos h]

/-- What the scan finds is there. -/
theorem standing_of_scan (h : scan pat bound u i = some (some k)) :
    i ≤ k ∧ pat <+: u.drop (k - i) := by
  induction u generalizing i with
  | nil => simp [scan] at h
  | cons x u ih =>
    rw [scan] at h
    split at h
    · simp at h
    · split at h
      · next hhere =>
        obtain rfl : i = k := by simpa using h
        rw [Nat.sub_self]
        exact ⟨le_rfl, hhere⟩
      · split at h
        · simp at h
        · obtain ⟨hle, hthere⟩ := ih h
          refine ⟨by omega, ?_⟩
          rwa [show k - i = (k - (i + 1)) + 1 by omega, List.drop_succ_cons]

/-- **The scan with its bound**, the last position at which the pattern can stand: it gives the
first occurrence, or that there is none. -/
theorem scan_eq_of_le (hpat : pat ≠ []) (hbound : bound + pat.length = i + u.length) :
    (∀ k, FirstAt pat u k → scan pat bound u i = some (some (i + k))) ∧
      ((∀ k, ¬ pat <+: u.drop k) → scan pat bound u i = some none) := by
  have hpos := List.length_pos_iff.mpr hpat
  induction u generalizing i with
  | nil =>
    refine ⟨fun k hk => ?_, fun _ => rfl⟩
    have := hk.le_length hpat
    rw [List.length_nil] at this
    omega
  | cons x u ih =>
    rw [List.length_cons] at hbound
    obtain ⟨hfound, hnone⟩ := ih (i := i + 1) (by omega)
    by_cases hpast : bound < i
    · rw [scan_past hpast]
      refine ⟨fun k hk => ?_, fun _ => rfl⟩
      have := hk.le_length hpat
      rw [List.length_cons] at this
      omega
    · rw [scan, if_neg hpast]
      by_cases hhere : pat <+: x :: u
      · rw [if_pos hhere]
        refine ⟨fun k hk => ?_, fun hall => absurd hhere (hall 0)⟩
        rw [hk.unique (firstAt_zero hhere), Nat.add_zero]
      · -- what is left is no shorter than the pattern, so it is no proper beginning of it
        have hlong : ¬ x :: u <+: pat := by
          intro hpre
          have hle := hpre.length_le
          rw [List.length_cons] at hle
          exact hhere (hpre.eq_of_length (by rw [List.length_cons]; omega) ▸ List.prefix_rfl)
        rw [if_neg hhere, if_neg hlong]
        refine ⟨fun k hk => ?_, fun hall => hnone fun k => hall (k + 1)⟩
        cases k with
        | zero => exact absurd hk.here hhere
        | succ k =>
          have hk' : FirstAt pat u k := ⟨hk.here, fun j hj => hk.before (j + 1) (by omega)⟩
          rw [hfound k hk']
          congr 2
          omega

/-- **The scan for a pattern longer than the list**, with no bound before the end. -/
theorem scan_eq_of_lt (hlt : u.length < pat.length) (hbound : i + u.length ≤ bound) :
    (Overhangs pat u → scan pat bound u i = none) ∧
      (¬ Overhangs pat u → scan pat bound u i = some none) := by
  induction u generalizing i with
  | nil => exact ⟨fun h => absurd h not_overhangs_nil, fun _ => rfl⟩
  | cons x u ih =>
    rw [List.length_cons] at hlt hbound
    obtain ⟨hover, hnone⟩ := ih (i := i + 1) (by omega) (by omega)
    have hhere : ¬ pat <+: x :: u := not_standing (by rw [List.length_cons]; omega) 0
    rw [scan, if_neg (by omega), if_neg hhere, overhangs_cons]
    by_cases hpre : x :: u <+: pat
    · rw [if_pos hpre]
      exact ⟨fun _ => rfl, fun h => absurd (.inl hpre) h⟩
    · rw [if_neg hpre]
      exact ⟨fun h => hover (h.resolve_left hpre), fun h => hnone fun hu => h (.inr hu)⟩

end MagicNet.Foundation
