import MagicNet.Model.StringUtil

/-!
# When `replace` is the replacement from left to right

The loop starts again at the beginning of the string, so an occurrence that reaches into what has been
put in is replaced as well.  Where the new value is not the beginning of the old one, nothing that
comes after makes that good: at the first char in which the two values differ the string has a char
of the new value and the result that was meant one of the old, and so it stays, at this place or at one
further to the left.

SOURCE: util/stringUtil.cc:19-31
-/

set_option autoImplicit false

namespace MagicNet.Util.StringUtil

open MagicNet.Foundation

variable {old_value new_value str str' str_src result : List Char}

/-! ## Rounds -/

/-- The loop ends where the old value is not found.
SOURCE: util/stringUtil.cc:19-31 -/
theorem round_eq_none : round old_value new_value str = none ↔ find old_value str = none :=
  Option.map_eq_none_iff

/-- A round replaces the first occurrence. -/
theorem round_split (h : round old_value new_value str = some str') :
    ∃ a b, str = a ++ old_value ++ b ∧ str' = a ++ new_value ++ b ∧
      ∀ p r, str = p ++ old_value ++ r → a.length ≤ p.length := by
  obtain ⟨pos, hpos, rfl⟩ := Option.map_eq_some_iff.mp h
  have hfirst := find_eq_some.mp hpos
  refine ⟨str.take pos, str.drop (pos + old_value.length), hfirst.split, rfl, fun p r hsplit => ?_⟩
  rw [List.length_take]
  by_contra hlt
  refine hfirst.before p.length (by omega) ?_
  rw [hsplit, List.append_assoc, List.drop_left]
  exact List.prefix_append _ _

/-- Then the text is the result.
SOURCE: util/stringUtil.cc:19-31 -/
theorem replaces_of_none (h : round old_value new_value str = none) :
    Replaces old_value new_value str str := by
  refine ⟨1, ?_⟩
  rw [replaceLoop, h]

/-- Otherwise it goes on with the text of the round.
SOURCE: util/stringUtil.cc:19-31 -/
theorem replaces_of_some (h : round old_value new_value str = some str') :
    Replaces old_value new_value str result ↔ Replaces old_value new_value str' result := by
  constructor
  · rintro ⟨n, hn⟩
    cases n with
    | zero => cases hn
    | succ n =>
      rw [replaceLoop, h] at hn
      exact ⟨n, hn⟩
  · rintro ⟨n, hn⟩
    refine ⟨n + 1, ?_⟩
    rw [replaceLoop, h]
    exact hn

/-- The loop ends with a string in which the old value is not found. -/
theorem round_result (h : Replaces old_value new_value str result) :
    round old_value new_value result = none := by
  obtain ⟨n, hn⟩ := h
  induction n generalizing str with
  | zero => cases hn
  | succ n ih =>
    rw [replaceLoop] at hn
    split at hn
    · next hnone => exact Option.some.inj hn ▸ hnone
    · exact ih hn

/-- In which it does not stand, then. -/
theorem not_standing_result {p r : List Char} (h : Replaces old_value new_value str result) :
    result ≠ p ++ old_value ++ r := by
  intro hsplit
  refine find_eq_none.mp (round_eq_none.mp (round_result h)) p.length ?_
  rw [hsplit, List.append_assoc, List.drop_left]
  exact List.prefix_append _ _

/-- A new value that has the old one in it keeps the loop going. -/
theorem not_replaces_of_containing (hnew : old_value <:+: new_value) (hstr : old_value <:+: str) :
    ¬ Replaces old_value new_value str result := by
  rintro ⟨n, hn⟩
  induction n generalizing str with
  | zero => cases hn
  | succ n ih =>
    rw [replaceLoop] at hn
    split at hn
    · next hnone =>
      obtain ⟨p, r, hsplit⟩ := hstr
      exact not_standing_result (replaces_of_none hnone) hsplit.symm
    · next hround =>
      obtain ⟨a, b, -, rfl, -⟩ := round_split hround
      exact ih (hnew.trans ⟨a, b, rfl⟩) hn

/-! ## The condition is enough -/

/-- Where every round comes to the next piece, all occurrences are replaced from left to right. -/
theorem replaces_of_keeps {done : List Char} {ps : List (List Char)} (hne : ps ≠ [])
    (h : Keeps old_value new_value done ps) :
    Replaces old_value new_value (done ++ old_value.intercalate ps)
      (done ++ new_value.intercalate ps) := by
  induction ps generalizing done with
  | nil => exact absurd rfl hne
  | cons piece ps ih =>
    cases ps with
    | nil =>
      rw [List.intercalate_singleton, List.intercalate_singleton]
      exact replaces_of_none h
    | cons next ps =>
      obtain ⟨hround, hrest⟩ := h
      have hreplaces := ih (List.cons_ne_nil next ps) hrest
      rw [← replaces_of_some hround] at hreplaces
      rw [intercalate_cons (List.cons_ne_nil next ps), intercalate_cons (List.cons_ne_nil next ps)]
      simpa only [List.append_assoc] using hreplaces

/-! ## What goes wrong stays wrong -/

/-- At the first char in which they differ, one has a char `x` and the other a char `y`. -/
def Apart (x y : Char) (str result : List Char) : Prop :=
  ∃ common u v, str = common ++ x :: u ∧ result = common ++ y :: v

/-- A text is not apart from itself. -/
theorem not_apart_self {x y : Char} (hxy : x ≠ y) : ¬ Apart x y str str := by
  rintro ⟨common, u, v, hu, hv⟩
  have heq := List.append_cancel_left (hu.symm.trans hv)
  exact hxy (List.cons.inj heq).1

section Differ

variable {same u v : List Char} {x y : Char}

/-- The step lemma. -/
theorem apart_round (hxy : x ≠ y) (hnew : new_value = same ++ x :: u)
    (hold : old_value = same ++ y :: v) (h : Apart x y str result)
    (hround : round old_value new_value str = some str') : Apart x y str' result := by
  obtain ⟨a, b, hstr, rfl, -⟩ := round_split hround
  obtain ⟨common, s, t, hs, rfl⟩ := h
  subst hnew hold
  have hsame : (a ++ same) ++ y :: (v ++ b) = common ++ x :: s := by
    rw [← hs, hstr]
    simp
  rcases List.append_eq_append_iff.mp hsame with ⟨c, rfl, hc⟩ | ⟨c, hc', hc⟩
  · -- the string is changed within what it has in common with the result
    cases c with
    | nil => exact absurd (List.cons.inj hc).1.symm hxy
    | cons z c =>
      obtain ⟨rfl, -⟩ := List.cons.inj hc
      exact ⟨a ++ same, u ++ b, c ++ y :: t, by simp, by simp⟩
  · -- or behind it
    cases c with
    | nil => exact absurd (List.cons.inj hc).1 hxy
    | cons z c =>
      obtain ⟨rfl, -⟩ := List.cons.inj hc
      refine ⟨common, c ++ x :: (u ++ b), t, ?_, rfl⟩
      have hgoal : (a ++ same) ++ x :: (u ++ b) = common ++ x :: (c ++ x :: (u ++ b)) := by
        rw [hc']
        simp
      simpa using hgoal

/-- Texts that differ as the values do stay apart in every round. -/
theorem not_replaces_of_apart (hxy : x ≠ y) (hnew : new_value = same ++ x :: u)
    (hold : old_value = same ++ y :: v) (h : Apart x y str result) :
    ¬ Replaces old_value new_value str result := by
  rintro ⟨n, hn⟩
  induction n generalizing str with
  | zero => cases hn
  | succ n ih =>
    rw [replaceLoop] at hn
    split at hn
    · obtain rfl := Option.some.inj hn
      exact not_apart_self hxy h
    · next hround => exact ih (apart_round hxy hnew hold h hround) hn

end Differ

/-! ## The condition is needed -/

/-- The round replaces an occurrence before the one whose turn it is. -/
theorem not_replaces_of_early {a b p r r' : List Char} (hold : ¬ old_value <+: new_value)
    (hnew : ¬ new_value <+: old_value) (hsplit : a ++ old_value ++ b = p ++ old_value ++ r)
    (hearly : a.length < p.length) :
    ¬ Replaces old_value new_value (a ++ new_value ++ b) (p ++ new_value ++ r') := by
  obtain ⟨same, x, y, u, v, hxy, hx, hy⟩ := exists_differ hnew hold
  refine not_replaces_of_apart hxy hx hy ?_
  have hfirst : a ++ same ++ [y] <+: p ++ old_value ++ r := by
    rw [← hsplit, hy]
    exact ⟨v ++ b, by simp⟩
  have hsecond : p ++ same <+: p ++ old_value ++ r := by
    rw [hy]
    exact ⟨y :: (v ++ r), by simp⟩
  have hcommon : a ++ same ++ [y] <+: p ++ same := by
    refine List.prefix_of_prefix_length_le hfirst hsecond ?_
    simp only [List.length_append, List.length_singleton]
    omega
  obtain ⟨t, ht⟩ := hcommon
  refine ⟨a ++ same, u ++ b, t ++ x :: (u ++ r'), by simp [hx], ?_⟩
  calc p ++ new_value ++ r' = (p ++ same) ++ x :: (u ++ r') := by simp [hx]
    _ = (a ++ same ++ [y] ++ t) ++ x :: (u ++ r') := by rw [ht]
    _ = (a ++ same) ++ y :: (t ++ x :: (u ++ r')) := by simp

/-- The other way, where the new value does not begin the old one. -/
theorem keeps_of_replaces {done : List Char} {ps : List (List Char)}
    (hbegins : ¬ (new_value <+: old_value ∧ new_value ≠ old_value))
    (h : Replaces old_value new_value (done ++ old_value.intercalate ps)
      (done ++ new_value.intercalate ps)) :
    Keeps old_value new_value done ps := by
  induction ps generalizing done with
  | nil => trivial
  | cons piece ps ih =>
    cases ps with
    | nil =>
      rw [List.intercalate_singleton, List.intercalate_singleton] at h
      exact round_result h
    | cons next ps =>
      rw [intercalate_cons (List.cons_ne_nil next ps),
        intercalate_cons (List.cons_ne_nil next ps), ← List.append_assoc, ← List.append_assoc,
        ← List.append_assoc, ← List.append_assoc] at h
      have hold : ¬ old_value <+: new_value := by
        -- the result would have the old value in the new one
        rintro ⟨t, ht⟩
        refine not_standing_result (p := done ++ piece)
          (r := t ++ new_value.intercalate (next :: ps)) h ?_
        nth_rewrite 1 [← ht]
        simp
      have hnew : ¬ new_value <+: old_value := by
        intro hbegin
        exact hbegins ⟨hbegin, fun heq => hold (heq ▸ List.prefix_rfl)⟩
      cases hround : round old_value new_value
          (done ++ piece ++ old_value ++ old_value.intercalate (next :: ps)) with
      | none =>
        refine absurd rfl (not_standing_result (replaces_of_none hround) (p := done ++ piece)
          (r := old_value.intercalate (next :: ps)))
      | some str' =>
        rw [replaces_of_some hround] at h
        obtain ⟨a, b, hsplit, rfl, hfirst⟩ := round_split hround
        have hle := hfirst _ _ rfl
        have hlen : a.length = (done ++ piece).length := by
          by_contra hne
          exact not_replaces_of_early hold hnew hsplit.symm (by omega) h
        rw [List.append_assoc, List.append_assoc a] at hsplit
        obtain ⟨rfl, hrest⟩ := List.append_inj hsplit hlen.symm
        obtain rfl := List.append_cancel_left hrest
        exact ⟨hround, ih h⟩

/-- **The replacement from left to right.**  Where the condition holds the loop ends with each
occurrence replaced once; and where the new value is not a proper beginning of the old one, only
there.
SOURCE: util/stringUtil.cc:19-31 -/
theorem replace_left_to_right {old_value : List Char} (hold : old_value ≠ [])
    (new_value str_src : List Char) :
    (Cond old_value new_value str_src →
      Replaces old_value new_value str_src (replaced old_value new_value str_src)) ∧
    (¬ (new_value <+: old_value ∧ new_value ≠ old_value) →
      Replaces old_value new_value str_src (replaced old_value new_value str_src) →
      Cond old_value new_value str_src) := by
  constructor
  · intro hcond
    have hreplaces := replaces_of_keeps pieces_ne_nil hcond
    rwa [intercalate_pieces hold] at hreplaces
  · intro hbegins h
    refine keeps_of_replaces hbegins ?_
    rwa [intercalate_pieces hold]

/-- The dots of a module's name. -/
theorem replace_dots :
    Replaces ['.'] ['/'] ['a', '.', 'b', '.', 'c'] ['a', '/', 'b', '/', 'c'] :=
  (replace_left_to_right (by decide) ['/'] ['a', '.', 'b', '.', 'c']).1 (by decide)

/-- The new value has the old one in it. -/
theorem replace_by_containing : ¬ ∃ result, Replaces ['a'] ['a', 'a'] ['a'] result := by
  rintro ⟨result, h⟩
  exact not_replaces_of_containing ⟨['a'], [], rfl⟩ ⟨[], [], rfl⟩ h

end MagicNet.Util.StringUtil
