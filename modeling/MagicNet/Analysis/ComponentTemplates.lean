import MagicNet.Model.ComponentPath

/-!
# The templates `tryOpen` goes through

Without its `?` a template and the name are together shorter than `tmp`, which leaves room for the
zero at the end.

SOURCE: module/componentGroup.cc:92-139
-/

set_option autoImplicit false

namespace MagicNet.ComponentGroup

open MagicNet.Foundation MagicNet.Network

variable {H : Type*} {name path l tmp : List Char} {i left : ℕ}

/-! ## The templates of a path -/

/-- A separator before the templates does not count.
SOURCE: module/componentGroup.cc:92-139 -/
theorem templates_cons_sep (path : List Char) : templates (';' :: path) = templates path := by
  rw [templates, List.splitOn_cons_eq_if_modifyHead, if_pos (beq_self_eq_true _)]
  rfl

/-- Nor do several.
SOURCE: module/componentGroup.cc:92-139 -/
theorem templates_dropWhile (path : List Char) :
    templates (path.dropWhile (· = ';')) = templates path := by
  induction path with
  | nil => rfl
  | cons x path ih =>
    by_cases hx : x = ';'
    · subst hx
      rw [templates_cons_sep]
      exact ih
    · have hstays : (x :: path).dropWhile (· = ';') = x :: path := by
        simp [hx]
      rw [hstays]

/-- A template and what comes behind it. -/
theorem templates_split {template : List Char} (hne : template ≠ []) (hsep : ';' ∉ template)
    (hl : l = [] ∨ ∃ rest, l = ';' :: rest) :
    templates (template ++ l) = template :: templates l := by
  rcases hl with rfl | ⟨rest, rfl⟩
  · rw [List.append_nil, templates, List.splitOn_eq_singleton hsep]
    simp [hne, templates]
  · rw [templates_cons_sep, templates, List.splitOn_append_cons_self_of_not_mem hsep]
    simp [hne, templates]

/-! ## A string is put together -/

/-- An array of zeros is one up to any place and one behind it. -/
theorem zeros_split {sz n : ℕ} (h : n ≤ sz) :
    List.replicate sz '\x00' = List.replicate n '\x00' ++ List.replicate (sz - n) '\x00' := by
  rw [List.replicate_append_replicate, Nat.add_sub_cancel' h]

/-- The chars before a `?` are stored one after another. -/
theorem copyPrefix_chars {chars middle : List Char} (left : ℕ) (before rest after : List Char)
    (hmark : '?' ∉ chars) (hlen : middle.length = chars.length) :
    copyPrefix (before ++ chars ++ rest) (chars.length + left) before.length
        (before ++ middle ++ after) =
      copyPrefix (before ++ chars ++ rest) left (before ++ chars).length
        (before ++ chars ++ after) := by
  induction chars generalizing before middle with
  | nil =>
    obtain rfl := List.length_eq_zero_iff.mp hlen
    simp
  | cons x chars ih =>
    cases middle with
    | nil => cases hlen
    | cons y middle =>
      rw [List.mem_cons, not_or] at hmark
      obtain ⟨hx, hchars⟩ := hmark
      have hrest := ih (before ++ [x]) hchars (Nat.succ.inj hlen)
      have hchar : charAt (before ++ x :: chars ++ rest) before.length = x := by
        simp [charAt]
      rw [List.length_cons, Nat.add_right_comm, copyPrefix, hchar, if_neg (Ne.symm hx),
        List.append_assoc, List.cons_append, store_between, Option.bind_some]
      simpa using hrest

/-- Of a string that is long enough, so many chars. -/
theorem strncpy_left (str after : List Char) :
    strncpy tmp i (str ++ after) str.length = storeAll tmp i str := by
  have hfill : str.length - (str ++ after).length = 0 := by
    simp
  rw [strncpy, if_pos (Int.natCast_nonneg _), Int.toNat_natCast, List.take_left, hfill,
    List.replicate_zero, List.append_nil]

/-- The copy of a template stops at the mark.
SOURCE: module/componentGroup.cc:92-139 -/
theorem copyPrefix_mark (h : charAt path i = '?') :
    copyPrefix path left i tmp = some (i, tmp) := by
  cases left with
  | zero => rfl
  | succ left => rw [copyPrefix, if_pos h]

section Build

variable {sz : ℕ} {chars rest : List Char}

/-- The `for` loop stands behind the chars before the first `?`. -/
theorem copyPrefix_zeros {len : ℕ} (hmark : '?' ∉ chars) (hlen : chars.length ≤ len)
    (hsz : chars.length ≤ sz)
    (hstop : len = chars.length ∨ charAt (chars ++ rest) chars.length = '?') :
    copyPrefix (chars ++ rest) len 0 (List.replicate sz '\x00') =
      some (chars.length, chars ++ List.replicate (sz - chars.length) '\x00') := by
  have hzeros : (List.replicate chars.length '\x00').length = chars.length := List.length_replicate
  have hcopy := copyPrefix_chars (len - chars.length) [] rest
    (List.replicate (sz - chars.length) '\x00') hmark hzeros
  rw [Nat.add_sub_cancel' hlen] at hcopy
  simp only [List.nil_append, List.length_nil] at hcopy
  rw [zeros_split hsz, hcopy]
  rcases hstop with heq | hchar
  · rw [heq, Nat.sub_self, copyPrefix]
  · exact copyPrefix_mark hchar

/-- Chars are stored at the end of those that are there, and the rest stays zero. -/
theorem storeAll_zeros {xs : List Char} (hsz : chars.length + xs.length ≤ sz) :
    storeAll (chars ++ List.replicate (sz - chars.length) '\x00') chars.length xs =
      some (chars ++ xs ++ List.replicate (sz - (chars ++ xs).length) '\x00') := by
  rw [zeros_split (n := xs.length) (by omega), ← List.append_assoc,
    storeAll_between _ _ List.length_replicate, Nat.sub_sub, List.length_append]

/-- A template with a `?`. -/
theorem build_mark (hchars : '?' ∉ chars) (hnul : '\x00' ∉ chars ++ name ++ rest)
    (hsz : chars.length + name.length + rest.length < sz) :
    build (H := H) name (chars ++ '?' :: rest ++ l) (List.replicate sz '\x00')
      (chars ++ '?' :: rest).length = .ok (chars ++ name ++ rest) := by
  have hmark : charAt (chars ++ '?' :: (rest ++ l)) chars.length = '?' := by
    simp [charAt]
  have hlen : chars.length ≤ (chars ++ '?' :: rest).length := by
    simp
  have hroom : chars.length ≤ sz := by
    omega
  have hcopy := copyPrefix_zeros hchars hlen hroom (.inr hmark)
  have hcount : ((chars ++ '?' :: rest).length : ℤ) - chars.length - 1 = rest.length := by
    simp
  have hbehind : (chars ++ '?' :: (rest ++ l)).drop (chars.length + 1) = rest ++ l := by
    simp
  have hstr : storeAll (chars ++ name ++ List.replicate (sz - (chars ++ name).length) '\x00')
      (chars ++ name).length rest =
      some (chars ++ name ++ rest ++ '\x00' ::
        List.replicate (sz - (chars ++ name ++ rest).length - 1) '\x00') := by
    rw [storeAll_zeros (by rw [List.length_append]; omega), ← List.replicate_succ,
      Nat.sub_add_cancel (by simp only [List.length_append]; omega)]
  rw [build, List.append_assoc, List.cons_append, Int.toNat_natCast, hcopy]
  simp only [inside, bind, Except.bind]
  rw [storeAll_zeros (by omega)]
  simp only [if_pos hmark, hcount, hbehind]
  rw [strncpy_left, ← List.length_append, hstr]
  simp only [cstring_append hnul]

/-- A template without one. -/
theorem build_no_mark (hchars : '?' ∉ chars) (hl : charAt (chars ++ l) chars.length ≠ '?')
    (hsz : chars.length + name.length ≤ sz) :
    build (H := H) name (chars ++ l) (List.replicate sz '\x00') chars.length = .error .exit := by
  rw [build, Int.toNat_natCast, copyPrefix_zeros hchars le_rfl (by omega) (.inl rfl)]
  simp only [inside, bind, Except.bind]
  rw [storeAll_zeros hsz]
  simp only [if_neg hl]

end Build

/-! ## The loop -/

/-- Nothing but separators is left. -/
theorem pass_nil {sz : ℤ} (hsz : 0 ≤ sz) (h : path.dropWhile (· = ';') = []) :
    pass (H := H) name sz path = .error (.returns none) := by
  rw [pass, cleared, if_pos hsz]
  simp only [inside, bind, Except.bind, h, if_true]

/-- A pass tries the first template and goes on behind it.
SOURCE: module/componentGroup.cc:92-139 -/
theorem pass_template {sz : ℤ} {template : List Char} (hsz : 0 ≤ sz)
    (hne : template ≠ []) (hsep : ';' ∉ template) (hl : l = [] ∨ ∃ rest, l = ';' :: rest)
    (hlen : template.length < 2 ^ 31)
    (h : path.dropWhile (· = ';') = template ++ l) :
    pass (H := H) name sz path =
      (build name (template ++ l) (List.replicate sz.toNat '\x00') template.length).map
        fun str => (str, l) := by
  have hbehind : (template ++ l).dropWhile (· ≠ ';') = l := by
    rw [List.dropWhile_append_of_pos]
    swap
    · intro x hx
      exact decide_eq_true (ne_of_mem_of_not_mem hx hsep)
    rcases hl with rfl | ⟨rest, rfl⟩
    · rfl
    · simp
  have hcount : toInt32 ((template ++ l).length - l.length : ℤ) = template.length := by
    rw [List.length_append, Nat.cast_add, add_sub_cancel_right]
    exact Int.bmod_eq_of_le (by omega) (by omega)
  rw [pass, cleared, if_pos hsz]
  simp only [inside, bind, Except.bind, h, hbehind, hcount]
  rw [if_neg (by simp [hne])]
  cases build (H := H) name (template ++ l) (List.replicate sz.toNat '\x00') template.length <;> rfl

/-- What is left behind the separators begins with a template. -/
theorem exists_template {x : Char} {rest : List Char}
    (h : path.dropWhile (· = ';') = x :: rest) :
    ∃ template l, x :: rest = template ++ l ∧ template ≠ [] ∧ ';' ∉ template ∧
      (l = [] ∨ ∃ rest, l = ';' :: rest) := by
  have hx : x ≠ ';' := by
    have hhead := List.head?_dropWhile_not (· = ';') path
    rw [h] at hhead
    simpa using hhead
  refine ⟨(x :: rest).takeWhile (· ≠ ';'), (x :: rest).dropWhile (· ≠ ';'), ?_, ?_, ?_, ?_⟩
  · exact List.takeWhile_append_dropWhile.symm
  · simp [hx]
  · intro hmem
    simpa using List.mem_takeWhile_imp hmem
  · cases hl : (x :: rest).dropWhile (· ≠ ';') with
    | nil => exact .inl rfl
    | cons y l =>
      right
      have hhead := List.head?_dropWhile_not (· ≠ ';') (x :: rest)
      rw [hl] at hhead
      have hy : y = ';' := by simpa using hhead
      exact ⟨l, by rw [hy]⟩

/-- The name stands where the mark was. -/
theorem substituted_mark {chars rest : List Char} (h : '?' ∉ chars) :
    substituted name (chars ++ '?' :: rest) = chars ++ name ++ rest := by
  have hbefore : (chars ++ '?' :: rest).takeWhile (· ≠ '?') = chars := by
    rw [List.takeWhile_append_of_pos]
    · simp
    · intro x hx
      exact decide_eq_true (ne_of_mem_of_not_mem hx h)
  have hbehind : (chars ++ '?' :: rest).dropWhile (· ≠ '?') = '?' :: rest := by
    rw [List.dropWhile_append_of_pos]
    · simp
    · intro x hx
      exact decide_eq_true (ne_of_mem_of_not_mem hx h)
  rw [substituted, hbefore, hbehind, List.tail_cons]

/-- The loop tries the templates one after the other.
SOURCE: module/componentGroup.cc:92-139 -/
theorem loop_search (dlopen : List Char → Option H) {n : ℕ} {sz : ℤ} (hname : '\x00' ∉ name)
    (hpath : '\x00' ∉ path) (hlt : path.length < n)
    (hsz : (path.length + name.length : ℤ) ≤ sz) (hmax : sz < 2 ^ 31) :
    loop dlopen name sz n path = some (search dlopen name (templates path)) := by
  induction n generalizing path with
  | zero => omega
  | succ n ih =>
    have hpos : 0 ≤ sz := by omega
    have hsuffix := List.dropWhile_suffix (l := path) (· = ';')
    rw [← templates_dropWhile path, loop]
    cases hdrop : path.dropWhile (· = ';') with
    | nil =>
      rw [pass_nil hpos hdrop]
      rfl
    | cons x rest =>
      obtain ⟨template, l, hsplit, hne, hsep, hl⟩ := exists_template hdrop
      rw [hsplit] at hdrop
      rw [hdrop] at hsuffix
      have hnul : '\x00' ∉ template ++ l := fun hmem => hpath (hsuffix.subset hmem)
      rw [List.mem_append, not_or] at hnul
      have hle := hsuffix.length_le
      rw [List.length_append] at hle
      have htpos := List.length_pos_iff.mpr hne
      rw [hsplit, templates_split hne hsep hl, search,
        pass_template hpos hne hsep hl (by omega) hdrop]
      by_cases hmark : '?' ∈ template
      · obtain ⟨chars, rest, rfl, hchars⟩ := List.eq_append_cons_of_mem hmark
        simp only [List.length_append, List.length_cons] at hle
        have hstr : '\x00' ∉ chars ++ name ++ rest := by
          intro hmem
          simp only [List.mem_append, List.mem_cons] at hmem hnul
          tauto
        rw [build_mark hchars hstr (by omega), if_pos hmark, substituted_mark hchars]
        simp only [Except.map]
        cases dlopen (chars ++ name ++ rest) with
        | some dl => rfl
        | none =>
          simp only
          rw [ih hnul.2 (by omega) (by omega)]
          rfl
      · have hchar : charAt (template ++ l) template.length ≠ '?' := by
          rcases hl with rfl | ⟨rest, rfl⟩ <;> simp [charAt]
        rw [build_no_mark hmark hchar (by omega), if_neg hmark]
        rfl

/-- **The path is searched.**  A path that is not too long is gone through, and the call ends:
`dlopen` is given the name in the place of the first `?` of one template after another, up to a
library it opens or a template without `?`, and nothing is stored outside of `tmp`.
SOURCE: module/componentGroup.cc:92-139 -/
theorem tryOpen_search (dlopen : List Char → Option H) (m_path name : CString)
    (hmax : m_path.chars.length + name.chars.length < 2 ^ 31) (n : ℕ)
    (hn : m_path.chars.length < n) :
    tryOpen dlopen m_path name n = some (search dlopen name.chars (templates m_path.chars)) := by
  have hsz : toInt32 (m_path.chars.length + name.chars.length : ℤ) =
      m_path.chars.length + name.chars.length :=
    Int.bmod_eq_of_le (by omega) (by omega)
  rw [tryOpen, hsz]
  exact loop_search dlopen name.noNul m_path.noNul hn le_rfl (by omega)

/-- The second of three templates is opened.
SOURCE: module/componentGroup.cc:92-139 -/
theorem tryOpen_second :
    tryOpen (fun str => if str = ['b', 'x'] then some 7 else none)
        ⟨['a', '?', ';', ';', 'b', '?', ';', '?'], by decide⟩ ⟨['x'], by decide⟩ 9 =
      some ([['a', 'x'], ['b', 'x']], .returns (some 7)) := by
  rw [tryOpen_search _ _ _ (by decide) 9 (by decide)]
  decide

/-- The templates behind one without `?` are not tried.
SOURCE: module/componentGroup.cc:92-139 -/
theorem tryOpen_invalid :
    ¬ ∃ n ended,
      tryOpen (H := Unit) (fun _ => none) ⟨['a', ';', '?'], by decide⟩ ⟨['x'], by decide⟩ n =
        some (((templates ['a', ';', '?']).filter ('?' ∈ ·)).map (substituted ['x']), ended) := by
  rintro ⟨n, ended, h⟩
  cases n with
  | zero => cases h
  | succ n =>
    have hexit : tryOpen (H := Unit) (fun _ => none) ⟨['a', ';', '?'], by decide⟩
        ⟨['x'], by decide⟩ (n + 1) = some ([], .exit) := rfl
    rw [hexit] at h
    cases h

end MagicNet.ComponentGroup
