import MagicNet.Foundation.Occurrence

/-!
# A list cut at the occurrences of a pattern

`find pat u` is the position of the first occurrence of the pattern.  `pieces pat 0 u` are the parts
of the list between the occurrences that a search from the left meets, each search going on behind
the occurrence before; the number is how many items are left of the occurrence met last.

* `find_eq_some`, `find_eq_none`: the position found is that of `FirstAt`;
* `pieces_of_find`, `pieces_of_find_none`: the search goes on behind an occurrence;
* `intercalate_pieces`: with the pattern between them the pieces are the list again.
-/

set_option autoImplicit false

namespace MagicNet.Foundation

variable {α : Type*} [DecidableEq α] {pat u : List α} {k : ℕ}

def find (pat : List α) : List α → Option ℕ
  | [] => if pat = [] then some 0 else none
  | x :: u => if pat <+: x :: u then some 0 else (find pat u).map (· + 1)

/-- The position of the last occurrence. -/
def rfind (pat : List α) : List α → Option ℕ
  | [] => if pat = [] then some 0 else none
  | x :: u =>
    match rfind pat u with
    | some k => some (k + 1)
    | none => if pat <+: x :: u then some 0 else none

def pieces (pat : List α) : ℕ → List α → List (List α)
  | _, [] => [[]]
  | k + 1, _ :: u => pieces pat k u
  | 0, x :: u =>
    if pat <+: x :: u then [] :: pieces pat (pat.length - 1) u
    else (pieces pat 0 u).modifyHead (x :: ·)

/-! ## The first occurrence -/

/-- `find` gives the first place where the pattern stands. -/
theorem find_eq_some : find pat u = some k ↔ FirstAt pat u k := by
  induction u generalizing k with
  | nil =>
    rw [find]
    constructor
    · intro h
      obtain ⟨rfl, hk⟩ := Option.ite_none_right_eq_some.mp h
      obtain rfl := Option.some.inj hk
      exact firstAt_zero List.prefix_rfl
    · intro h
      have hpat : pat = [] := List.prefix_nil.mp (List.drop_nil ▸ h.here)
      rw [if_pos hpat]
      exact congrArg some ((firstAt_zero (hpat ▸ List.prefix_rfl)).unique h)
  | cons x u ih =>
    rw [find]
    by_cases hhere : pat <+: x :: u
    · rw [if_pos hhere]
      constructor
      · intro h
        exact Option.some.inj h ▸ firstAt_zero hhere
      · intro h
        exact congrArg some ((firstAt_zero hhere).unique h)
    · rw [if_neg hhere, Option.map_eq_some_iff]
      constructor
      · rintro ⟨j, hj, rfl⟩
        have hfirst := ih.mp hj
        refine ⟨hfirst.here, fun i hi => ?_⟩
        cases i with
        | zero => exact hhere
        | succ i => exact hfirst.before i (by omega)
      · intro h
        cases k with
        | zero => exact absurd h.here hhere
        | succ k => exact ⟨k, ih.mpr ⟨h.here, fun j hj => h.before (j + 1) (by omega)⟩, rfl⟩

/-- It gives none where the pattern stands nowhere. -/
theorem find_eq_none : find pat u = none ↔ ∀ k, ¬ pat <+: u.drop k := by
  constructor
  · intro h k hk
    obtain ⟨j, hj⟩ := exists_firstAt ⟨k, hk⟩
    cases h.symm.trans (find_eq_some.mpr hj)
  · intro h
    rw [Option.eq_none_iff_forall_not_mem]
    intro k hk
    exact h k (find_eq_some.mp hk).here

/-- What is found is found first, whatever comes after. -/
theorem find_append {v : List α} (hpat : pat ≠ []) (h : find pat u = some k) :
    find pat (u ++ v) = some k := by
  have hfirst := find_eq_some.mp h
  have hle := hfirst.le_length hpat
  refine find_eq_some.mpr ⟨?_, fun j hj hhere => hfirst.before j hj ?_⟩
  · rw [List.drop_append_of_le_length (by omega)]
    exact hfirst.here.trans (List.prefix_append _ _)
  · rw [List.drop_append_of_le_length (by omega)] at hhere
    refine List.prefix_of_prefix_length_le hhere (List.prefix_append _ v) ?_
    rw [List.length_drop]
    omega

/-- Behind something that is not in the pattern nothing is found that reaches before it. -/
theorem find_append_cons {v : List α} {x : α} (hx : x ∉ pat) (h : find pat u = none)
    (hfound : find pat (u ++ x :: v) = some k) : u.length < k := by
  have hhere := (find_eq_some.mp hfound).here
  have hnot := find_eq_none.mp h k
  by_contra hle
  rw [List.drop_append_of_le_length (by omega)] at hhere
  rcases Nat.lt_or_ge (u.drop k).length pat.length with hlong | hshort
  · have hbegin : u.drop k ++ [x] <+: u.drop k ++ x :: v := ⟨v, by simp⟩
    have hover : u.drop k ++ [x] <+: pat := by
      refine List.prefix_of_prefix_length_le hbegin hhere ?_
      rw [List.length_append, List.length_singleton]
      omega
    exact hx (hover.subset (List.mem_append_right _ (List.mem_singleton.mpr rfl)))
  · exact hnot (List.prefix_of_prefix_length_le hhere (List.prefix_append _ _) hshort)

/-! ## The last occurrence -/

/-- Where `rfind` points the pattern stands. -/
theorem rfind_standing (h : rfind pat u = some k) : pat <+: u.drop k := by
  induction u generalizing k with
  | nil =>
    obtain ⟨rfl, hk⟩ := Option.ite_none_right_eq_some.mp h
    exact List.nil_prefix
  | cons x u ih =>
    rw [rfind] at h
    split at h
    · next j hj =>
      obtain rfl := Option.some.inj h
      exact ih hj
    · obtain ⟨hhere, hk⟩ := Option.ite_none_right_eq_some.mp h
      exact Option.some.inj hk ▸ hhere

/-- What the list ends with is found last. -/
theorem rfind_suffix (hpat : pat ≠ []) (h : pat <:+ u) :
    rfind pat u = some (u.length - pat.length) := by
  induction u with
  | nil => exact absurd (List.suffix_nil.mp h) hpat
  | cons x u ih =>
    rw [rfind]
    rcases List.suffix_cons_iff.mp h with heq | hsuffix
    · have hnone : rfind pat u = none := by
        rw [Option.eq_none_iff_forall_not_mem]
        intro k hk
        exact not_standing (heq ▸ Nat.lt_succ_self u.length) k (rfind_standing hk)
      rw [hnone, if_pos (heq ▸ List.prefix_rfl), heq, Nat.sub_self]
    · have hle := hsuffix.length_le
      rw [ih hsuffix, List.length_cons, Nat.sub_add_comm hle]

/-- What is found last and has nothing behind it is what the list ends with. -/
theorem suffix_of_rfind (h : rfind pat u = some (u.length - pat.length))
    (hle : pat.length ≤ u.length) : pat <:+ u := by
  have hhere := rfind_standing h
  have heq := hhere.eq_of_length (by rw [List.length_drop]; omega)
  exact heq ▸ List.drop_suffix _ _

/-- There it lies inside the text. -/
theorem rfind_le_length (hpat : pat ≠ []) (h : rfind pat u = some k) :
    k + pat.length ≤ u.length := by
  have hlen := (rfind_standing h).length_le
  have hpos := List.length_pos_iff.mpr hpat
  rw [List.length_drop] at hlen
  omega

omit [DecidableEq α] in
/-- What stands before an occurrence, the occurrence, and what comes after it. -/
theorem FirstAt.split (h : FirstAt pat u k) :
    u = u.take k ++ pat ++ u.drop (k + pat.length) := by
  obtain ⟨v, hv⟩ := h.here
  have hdrop : u.drop (k + pat.length) = v := by
    rw [← List.drop_drop, ← hv, List.drop_left]
  rw [hdrop, List.append_assoc, hv, List.take_append_drop]

omit [DecidableEq α] in
/-- Of two lists of which neither is the beginning of the other, what comes before the first
difference. -/
theorem exists_differ {l m : List α} (hl : ¬ l <+: m) (hm : ¬ m <+: l) :
    ∃ same x y u v, x ≠ y ∧ l = same ++ x :: u ∧ m = same ++ y :: v := by
  induction l generalizing m with
  | nil => exact absurd List.nil_prefix hl
  | cons a l ih =>
    cases m with
    | nil => exact absurd List.nil_prefix hm
    | cons b m =>
      by_cases hab : a = b
      · subst hab
        rw [List.prefix_cons_inj] at hl hm
        obtain ⟨same, x, y, u, v, hxy, rfl, rfl⟩ := ih hl hm
        exact ⟨a :: same, x, y, u, v, hxy, rfl, rfl⟩
      · exact ⟨[], a, b, l, m, hab, rfl, rfl⟩

/-! ## The pieces -/

/-- The pieces from a place on are those of the rest of the text. -/
theorem pieces_drop : pieces pat k u = pieces pat 0 (u.drop k) := by
  induction u generalizing k with
  | nil =>
    rw [List.drop_nil]
    cases k <;> rfl
  | cons x u ih =>
    cases k with
    | zero => rfl
    | succ k =>
      rw [List.drop_succ_cons]
      exact ih

/-- The first piece ends where the pattern is found, and the others come behind it. -/
theorem pieces_of_find (hpat : pat ≠ []) (h : find pat u = some k) :
    pieces pat 0 u = u.take k :: pieces pat 0 (u.drop (k + pat.length)) := by
  induction u generalizing k with
  | nil => simp [find, hpat] at h
  | cons x u ih =>
    rw [find] at h
    by_cases hhere : pat <+: x :: u
    · rw [if_pos hhere] at h
      obtain rfl := Option.some.inj h
      obtain ⟨n, hn⟩ := Nat.exists_eq_succ_of_ne_zero (List.length_pos_iff.mpr hpat).ne'
      rw [pieces, if_pos hhere, pieces_drop, Nat.zero_add, hn]
      rfl
    · rw [if_neg hhere] at h
      obtain ⟨j, hj, rfl⟩ := Option.map_eq_some_iff.mp h
      rw [pieces, if_neg hhere, ih hj, Nat.add_right_comm]
      rfl

/-- A text without the pattern is one piece. -/
theorem pieces_of_find_none (h : find pat u = none) : pieces pat 0 u = [u] := by
  induction u with
  | nil => rfl
  | cons x u ih =>
    rw [find] at h
    split at h
    · cases h
    · next hhere =>
      rw [pieces, if_neg hhere, ih (Option.map_eq_none_iff.mp h)]
      rfl

/-- There is at least one piece. -/
theorem pieces_ne_nil : pieces pat k u ≠ [] := by
  induction u generalizing k with
  | nil => cases k <;> exact List.cons_ne_nil _ _
  | cons x u ih =>
    cases k with
    | succ k => exact ih
    | zero =>
      rw [pieces]
      split
      · exact List.cons_ne_nil _ _
      · rw [Ne, List.modifyHead_eq_nil_iff]
        exact ih

omit [DecidableEq α] in
/-- A list of pieces with something between them. -/
theorem intercalate_cons {sep x : List α} {xs : List (List α)} (h : xs ≠ []) :
    sep.intercalate (x :: xs) = x ++ sep ++ sep.intercalate xs := by
  cases xs with
  | nil => exact absurd rfl h
  | cons y xs => simp [List.intercalate]

/-- **The pieces with the pattern between them** are the list. -/
theorem intercalate_pieces (hpat : pat ≠ []) (u : List α) :
    pat.intercalate (pieces pat 0 u) = u := by
  induction hlen : u.length using Nat.strong_induction_on generalizing u with
  | _ n ih =>
    cases h : find pat u with
    | none =>
      rw [pieces_of_find_none h]
      simp [List.intercalate]
    | some k =>
      have hsplit := (find_eq_some.mp h).split
      have hless : (u.drop (k + pat.length)).length < n := by
        have hpos := List.length_pos_iff.mpr hpat
        have hle := (find_eq_some.mp h).le_length hpat
        rw [List.length_drop]
        omega
      rw [pieces_of_find hpat h, intercalate_cons pieces_ne_nil, ih _ hless _ rfl]
      exact hsplit.symm

end MagicNet.Foundation
