import MagicNet.Model.StringSplit

/-!
# Splitting and connecting

The loop of `split` is `List.splitOnP`: it ends, does not throw, and gives one part more than there
are separators, each of them free of separators.  `connect` is `List.intercalate`.  With one char to
separate them, connecting the parts of a string gives the string; splitting what was connected gives the
strings back exactly where they have no char of the delimiter and either there is only one of them or
the delimiter has one char, since each of its chars separates.

SOURCE: util/stringUtil.cc:5-17, util/stringUtil.h:36-67
-/

set_option autoImplicit false

namespace MagicNet.Util.StringUtil

variable {val spl delim : List Char}

/-! ## Parts -/

/-- There is one part more than separators. -/
theorem length_splitOnP (p : Char → Bool) (val : List Char) :
    (val.splitOnP p).length = val.countP p + 1 := by
  induction val with
  | nil => rfl
  | cons c val ih =>
    rw [List.splitOnP_cons_eq_if_modifyHead, List.countP_cons]
    split <;> simp [ih]

/-- No part has a separator in it. -/
theorem splitOnP_free (p : Char → Bool) (val : List Char) :
    ∀ part ∈ val.splitOnP p, ∀ c ∈ part, p c = false := by
  induction val with
  | nil => simp
  | cons c val ih =>
    rw [List.splitOnP_cons_eq_if_modifyHead]
    split
    · rename_i hc
      intro part hpart
      rcases List.mem_cons.mp hpart with rfl | hpart
      · simp
      · exact ih part hpart
    · rename_i hc
      obtain ⟨first, rest, hsplit⟩ := List.exists_cons_of_ne_nil (List.splitOnP_ne_nil p val)
      rw [hsplit] at ih ⊢
      intro part hpart
      rcases List.mem_cons.mp hpart with rfl | hpart
      · intro d hd
        rcases List.mem_cons.mp hd with rfl | hd
        · simpa using hc
        · exact ih first List.mem_cons_self d hd
      · exact ih part (List.mem_cons_of_mem _ hpart)

/-- A list up to the first separator, and behind it. -/
theorem splitOnP_of_findIdx {p : Char → Bool} {l : List Char} {i : ℕ}
    (h : l.findIdx? p = some i) : l.splitOnP p = l.take i :: (l.drop (i + 1)).splitOnP p := by
  obtain ⟨hi, hp, hbefore⟩ := List.findIdx?_eq_some_iff_getElem.mp h
  have hfree : ∀ x ∈ l.take i, p x = false := by
    intro x hx
    obtain ⟨j, hj, rfl⟩ := List.mem_take_iff_getElem.mp hx
    simpa using hbefore j (by omega)
  conv_lhs => rw [← List.take_append_drop i l, List.drop_eq_getElem_cons hi]
  exact List.splitOnP_append_cons_of_forall_mem hfree _ hp _

/-- One separator is a set of one. -/
theorem splitOnP_mem_singleton (val : List Char) (c : Char) :
    val.splitOnP (· ∈ [c]) = val.splitOn c := by
  rw [List.splitOn_eq_splitOnP]
  congr 1
  funext x
  rw [Bool.eq_iff_iff]
  simp

/-! ## The loops -/

/-- The loop goes on with the parts of what is left. -/
theorem splitLoop_eq (ppos : ℕ) (rv : List (List Char)) (hle : ppos ≤ val.length) :
    splitLoop val spl ppos rv = some (rv ++ (val.drop ppos).splitOnP (· ∈ spl)) := by
  fun_induction splitLoop val spl ppos rv with
  | case1 ppos rv pos hfind ih =>
    obtain ⟨hlo, hhi⟩ := findFirstOf_bounds hfind
    obtain ⟨i, hi, rfl⟩ := Option.map_eq_some_iff.mp hfind
    have hpart : substr val ppos (i + ppos - ppos) = some ((val.drop ppos).take i) := by
      rw [substr, if_pos hle, Nat.add_sub_cancel]
    have hnext : i + ppos + 1 = ppos + (i + 1) := by omega
    rw [hpart, Option.bind_eq_bind, Option.bind_some, ih _ hhi, splitOnP_of_findIdx hi,
      List.drop_drop, hnext]
    simp
  | case2 ppos rv hfind =>
    have hnone : (val.drop ppos).findIdx? (· ∈ spl) = none := by
      simpa [findFirstOf] using hfind
    have hfree : ∀ x ∈ val.drop ppos, decide (x ∈ spl) = false := by
      simpa using List.findIdx?_eq_none_iff.mp hnone
    have hpart : substr val ppos val.length = some (val.drop ppos) := by
      rw [substr, if_pos hle, List.take_of_length_le (by simp)]
    rw [hpart, List.splitOnP_eq_singleton hfree]
    rfl

/-- `split` splits at every character of `spl`.
SOURCE: util/stringUtil.cc:5-17 -/
theorem split_eq (val spl : List Char) : split val spl = some (val.splitOnP (· ∈ spl)) :=
  splitLoop_eq 0 [] (Nat.zero_le _)

/-- `connect` puts the separator between the items.
SOURCE: util/stringUtil.h:37-50 -/
theorem connect_eq (value : List (List Char)) (delim : List Char) :
    connect value delim = delim.intercalate value := by
  cases value with
  | nil => rfl
  | cons first value =>
    induction value generalizing first with
    | nil => simp [connect]
    | cons second value ih =>
      have hstep : connect (first :: second :: value) delim =
          connect ((first ++ delim ++ second) :: value) delim := rfl
      rw [hstep, ih]
      cases value <;> simp [List.intercalate_cons_cons]

/-- And with the text around them each item is that text and the item.
SOURCE: util/stringUtil.h:52-67 -/
theorem connectBetween_eq (value : List (List Char)) (delim before after : List Char) :
    connectBetween value delim before after =
      connect (value.map fun iter => before ++ iter ++ after) delim := by
  cases value with
  | nil => rfl
  | cons first value => simp [connectBetween, connect, List.foldl_map]

/-- The separators of strings that have none in them are those of the delimiters.
SOURCE: util/stringUtil.h:37-50, 52-67 -/
theorem countP_connect {value : List (List Char)} (hvalue : value ≠ [])
    (hfree : ∀ part ∈ value, ∀ c ∈ part, c ∉ delim) :
    (connect value delim).countP (· ∈ delim) = (value.length - 1) * delim.length := by
  have hpart {part : List Char} (h : ∀ c ∈ part, c ∉ delim) : part.countP (· ∈ delim) = 0 :=
    List.countP_eq_zero.mpr (by simpa using h)
  have hdelim : delim.countP (· ∈ delim) = delim.length :=
    List.countP_eq_length.mpr (by simp)
  rw [connect_eq]
  induction value with
  | nil => exact absurd rfl hvalue
  | cons first value ih =>
    have hfirst := hpart (hfree first List.mem_cons_self)
    cases value with
    | nil => simpa using hfirst
    | cons second value =>
      have hrest := ih (List.cons_ne_nil _ _) fun part hp => hfree part (List.mem_cons_of_mem _ hp)
      rw [List.intercalate_cons_cons, List.countP_append, List.countP_append, hfirst, hdelim, hrest]
      simp [Nat.succ_mul, Nat.add_comm]

/-- What `connect` has put together comes back exactly where nothing in it separates and there is one
string, or one char between them.
SOURCE: util/stringUtil.cc:5-17, util/stringUtil.h:36-49 -/
theorem split_connect_iff (value : List (List Char)) (delim : List Char) :
    split (connect value delim) delim = some value ↔
      (value.length = 1 ∨ value ≠ [] ∧ delim.length = 1) ∧
        ∀ iter ∈ value, ∀ c ∈ iter, c ∉ delim := by
  rw [split_eq, Option.some.injEq]
  constructor
  · intro heq
    have hfree : ∀ iter ∈ value, ∀ c ∈ iter, c ∉ delim := by
      intro iter hiter c hc
      rw [← heq] at hiter
      simpa using splitOnP_free _ _ iter hiter c hc
    have hne : value ≠ [] := heq ▸ List.splitOnP_ne_nil _ _
    have hcount := length_splitOnP (· ∈ delim) (connect value delim)
    rw [heq, countP_connect hne hfree] at hcount
    have hpos := List.length_pos_of_ne_nil hne
    refine ⟨?_, hfree⟩
    by_cases hone : value.length = 1
    · exact .inl hone
    · right
      refine ⟨hne, ?_⟩
      have hmul : (value.length - 1) * delim.length = (value.length - 1) * 1 := by omega
      exact Nat.eq_of_mul_eq_mul_left (by omega) hmul
  · rintro ⟨hone | ⟨hne, hchar⟩, hfree⟩
    · obtain ⟨iter, rfl⟩ := List.length_eq_one_iff.mp hone
      rw [connect_eq, List.intercalate_singleton]
      exact List.splitOnP_eq_singleton (by simpa using hfree)
    · obtain ⟨c, rfl⟩ := List.length_eq_one_iff.mp hchar
      rw [splitOnP_mem_singleton, connect_eq]
      exact List.splitOn_intercalate c (fun iter hi hc => hfree iter hi c hc (by simp)) hne

/-- For every string and all separators `split` returns one part more than there are separators,
none of which has one; with one separator, connecting the parts gives the string; and splitting what
`connect` has put together, with or without something around the strings, gives what was put together
exactly where nothing in it separates and there is one string, or one char between them.
SOURCE: util/stringUtil.cc:5-17, util/stringUtil.h:36-67 -/
theorem split_connect :
    (∀ val spl, ∃ rv, split val spl = some rv ∧ rv.length = val.countP (· ∈ spl) + 1 ∧
      ∀ part ∈ rv, ∀ c ∈ part, c ∉ spl) ∧
    (∀ val c, ∃ rv, split val [c] = some rv ∧ connect rv [c] = val) ∧
    (∀ value delim, split (connect value delim) delim = some value ↔
      (value.length = 1 ∨ value ≠ [] ∧ delim.length = 1) ∧
        ∀ iter ∈ value, ∀ c ∈ iter, c ∉ delim) ∧
    (∀ value delim before after,
      split (connectBetween value delim before after) delim =
          some (value.map fun iter => before ++ iter ++ after) ↔
        (value.length = 1 ∨ value ≠ [] ∧ delim.length = 1) ∧
          ∀ iter ∈ value, ∀ c ∈ before ++ iter ++ after, c ∉ delim) := by
  refine ⟨fun val spl => ?_, fun val c => ?_, split_connect_iff, fun value delim before after => ?_⟩
  · refine ⟨_, split_eq val spl, length_splitOnP _ val, fun part hpart c hc => ?_⟩
    simpa using splitOnP_free _ val part hpart c hc
  · refine ⟨_, split_eq val [c], ?_⟩
    rw [connect_eq, splitOnP_mem_singleton, List.intercalate_splitOn]
  · rw [connectBetween_eq, split_connect_iff]
    simp

end MagicNet.Util.StringUtil
