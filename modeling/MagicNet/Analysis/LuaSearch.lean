import MagicNet.Model.LuaLoader

/-!
# Where the search for a Lua module goes wrong

Of an entry that is not the first `substr` takes more than there is up to the separator.  What is left
of that is cut off at `?.lua`, and where the entry has none the prefix is too long; the first name that
is asked for shows it.

SOURCE: lualib/manual/luaLoader.cc:9-96
-/

set_option autoImplicit false

namespace MagicNet.LuaLoader

open MagicNet.Foundation MagicNet.Network

variable {str filename entry tail : List Char}

/-! ## The file name -/

/-- All dots become slashes.
SOURCE: lualib/manual/luaLoader.cc:9-96 -/
theorem slashes_eq {n : ℕ} (h : filename.count '.' ≤ n) :
    slashes n filename = filename.map fun x => if x = '.' then '/' else x := by
  induction n generalizing filename with
  | zero =>
    have hnone := List.count_eq_zero.mp (Nat.le_zero.mp h)
    rw [slashes, List.map_congr_left fun x hx => if_neg (ne_of_mem_of_not_mem hx hnone)]
    exact (List.map_id' filename).symm
  | succ n ih =>
    rw [slashes]
    cases hfind : find ['.'] filename with
    | none =>
      have hnone : '.' ∉ filename := by
        intro hmem
        obtain ⟨a, b, rfl⟩ := List.append_of_mem hmem
        refine find_eq_none.mp hfind a.length ?_
        rw [List.drop_left]
        exact ⟨b, rfl⟩
      rw [List.map_congr_left fun x hx => if_neg (ne_of_mem_of_not_mem hx hnone)]
      exact (List.map_id' filename).symm
    | some pos =>
      have hsplit := (find_eq_some.mp hfind).split
      simp only
      rw [List.length_singleton] at hsplit
      rw [ih]
      · conv_rhs => rw [hsplit]
        simp
      · rw [hsplit] at h
        simp only [List.count_append, List.count_cons, List.count_nil] at h ⊢
        simp at h ⊢
        omega

/-- A file's name is the module's without its extension, with slashes.
SOURCE: lualib/manual/luaLoader.cc:9-96 -/
theorem fileName_eq : fileName filename = (strip filename).map fun x => if x = '.' then '/' else x :=
  slashes_eq List.count_le_length

/-- A length below the word is itself. -/
theorem toSize_natCast {n : ℕ} (h : n < 2 ^ 64) : toSize n = n := by
  rw [toSize, Int.emod_eq_of_lt (Int.natCast_nonneg n) (by exact_mod_cast h), Int.toNat_natCast]

/-- The beginning up to a place.
SOURCE: lualib/manual/luaLoader.cc:9-96 -/
theorem substr0_some (pos : ℕ) : substr0 str (some pos) = str.take pos := rfl

/-- Or all of it. -/
theorem substr0_none (hfits : str.length < 2 ^ 63) : substr0 str none = str := by
  refine List.take_of_length_le (le_trans hfits.le ?_)
  decide

/-- A length from which an extension is taken does not go below zero where it stands at the end. -/
theorem toSize_sub {n m : ℕ} (hfits : n < 2 ^ 63) (hle : m ≤ n) : toSize (n - m : ℤ) = n - m := by
  rw [← Nat.cast_sub hle]
  exact toSize_natCast (by omega)

/-- `.lua` is cut off where it stands at the end. -/
theorem strip_lua (hfits : filename.length < 2 ^ 63)
    (h : rfind BYTECODE_FILE_EXT filename = none) :
    strip filename =
      if NOT_BYTECODE_FILE_EXT <:+ filename then
        filename.take (filename.length - NOT_BYTECODE_FILE_EXT.length)
      else filename := by
  have hext : NOT_BYTECODE_FILE_EXT ≠ [] := List.cons_ne_nil _ _
  rw [strip, h]
  simp only
  by_cases hsuffix : NOT_BYTECODE_FILE_EXT <:+ filename
  · rw [if_pos hsuffix, rfind_suffix hext hsuffix, toSize_sub hfits hsuffix.length_le]
    exact if_pos rfl
  · rw [if_neg hsuffix]
    cases hfind : rfind NOT_BYTECODE_FILE_EXT filename with
    | none => rw [substr0_none hfits, ite_self]
    | some pos =>
      have hle := rfind_le_length hext hfind
      refine if_neg fun heq => hsuffix ?_
      rw [toSize_sub hfits (by omega)] at heq
      exact suffix_of_rfind (heq ▸ hfind) (by omega)

/-- Where `.luac` stands last at the end, or nowhere, the name is that of the module. -/
theorem fileName_of_cond (hfits : filename.length < 2 ^ 63)
    (h : rfind BYTECODE_FILE_EXT filename = none ∨ BYTECODE_FILE_EXT <:+ filename) :
    fileName filename = moduleName filename := by
  have hext : BYTECODE_FILE_EXT ≠ [] := List.cons_ne_nil _ _
  rw [fileName_eq, moduleName]
  by_cases hsuffix : BYTECODE_FILE_EXT <:+ filename
  · rw [if_pos hsuffix, strip, rfind_suffix hext hsuffix]
    rfl
  · rw [if_neg hsuffix, strip_lua hfits (h.resolve_right hsuffix)]

/-- And elsewhere it is too short. -/
theorem fileName_short
    (h : ¬ (rfind BYTECODE_FILE_EXT filename = none ∨ BYTECODE_FILE_EXT <:+ filename)) :
    (fileName filename).length < (moduleName filename).length := by
  have hext : BYTECODE_FILE_EXT ≠ [] := List.cons_ne_nil _ _
  obtain ⟨hfound, hsuffix⟩ := not_or.mp h
  obtain ⟨pos, hpos⟩ := Option.ne_none_iff_exists'.mp hfound
  have hle := rfind_le_length hext hpos
  have hne : pos ≠ filename.length - BYTECODE_FILE_EXT.length := by
    intro heq
    exact hsuffix (suffix_of_rfind (heq ▸ hpos) (by omega))
  have hlong : filename.length - NOT_BYTECODE_FILE_EXT.length ≤ (moduleName filename).length := by
    rw [moduleName, if_neg hsuffix, List.length_map]
    split <;> simp
  have hshort : (fileName filename).length ≤ pos := by
    rw [fileName_eq, List.length_map, strip, hpos]
    exact List.length_take_le _ _
  simp only [BYTECODE_FILE_EXT, NOT_BYTECODE_FILE_EXT, List.length_cons, List.length_nil] at *
  omega

/-! ## The prefix of an entry -/

/-- The `./` at the beginning ends before a separator. -/
theorem dropDot_append_sep : dropDot (entry ++ ';' :: tail) = dropDot entry ++ ';' :: tail := by
  match entry with
  | [] => rfl
  | [x] =>
    simp [dropDot]
  | x :: y :: entry =>
    by_cases h : x = '.' ∧ y = '/'
    · obtain ⟨rfl, rfl⟩ := h
      rfl
    · simp only [dropDot, List.cons_append, List.getD_cons_zero, List.getD_cons_succ, if_neg h]

/-- Without the dot in front it is no longer.
SOURCE: lualib/manual/luaLoader.cc:9-96 -/
theorem dropDot_length_le (str : List Char) : (dropDot str).length ≤ str.length := by
  rw [dropDot]
  split <;> simp

/-- With a `?.lua` in it the entry may go on. -/
theorem beforeMark_append (h : find mark (dropDot entry) ≠ none) :
    beforeMark (entry ++ ';' :: tail) = beforeMark entry := by
  obtain ⟨pos, hpos⟩ := Option.ne_none_iff_exists'.mp h
  have hmark : mark ≠ [] := List.cons_ne_nil _ _
  have hle := (find_eq_some.mp hpos).le_length hmark
  rw [beforeMark, beforeMark, dropDot_append_sep, hpos, find_append hmark hpos, substr0_some,
    substr0_some, List.take_append_of_le_length (by omega)]

/-- Without, the prefix is too long. -/
theorem beforeMark_long (hfits : (entry ++ ';' :: tail).length < 2 ^ 63)
    (h : find mark (dropDot entry) = none) :
    (beforeMark entry).length < (beforeMark (entry ++ ';' :: tail)).length := by
  have hshort : (beforeMark entry).length ≤ (dropDot entry).length := List.length_take_le' _ _
  rw [beforeMark.eq_1 (entry ++ ';' :: tail), dropDot_append_sep]
  cases hfind : find mark (dropDot entry ++ ';' :: tail) with
  | none =>
    have hle := dropDot_length_le (entry ++ ';' :: tail)
    rw [dropDot_append_sep] at hle
    rw [substr0_none (by omega)]
    simp only [List.length_append, List.length_cons]
    omega
  | some pos =>
    have hlt := find_append_cons (by decide) h hfind
    rw [substr0_some, List.length_take]
    simp only [List.length_append, List.length_cons]
    omega

/-! ## What is asked for first -/

/-- The first file asked for is the bytecode.
SOURCE: lualib/manual/luaLoader.cc:9-96 -/
theorem tryPrefix_head (files : Files) (base : List Char) :
    (tryPrefix files base).1.head? = some (base ++ BYTECODE_FILE_EXT) := by
  rw [tryPrefix]
  split <;> rfl

/-- So it is under the first entry of the path.
SOURCE: lualib/manual/luaLoader.cc:9-96 -/
theorem search_head (files : Files) (entries : List (List Char)) :
    (search files filename (entry :: entries)).1.head? =
      some (beforeMark entry ++ filename ++ BYTECODE_FILE_EXT) := by
  have hhead := tryPrefix_head files (beforeMark entry ++ filename)
  rw [search]
  split
  · next heq =>
    rw [heq] at hhead
    exact hhead
  · next heq =>
    rw [heq] at hhead
    simp only [Prod.map, List.head?_append, hhead]
    rfl

/-! ## The loop -/

section Loop

variable {files : Files} {done rest searchpath : List Char} {n begin : ℕ}

/-- The last entry ends where the path does.
SOURCE: lualib/manual/luaLoader.cc:9-96 -/
theorem nextSeparator_last (done : List Char) (h : ';' ∉ entry) :
    nextSeparator (done ++ entry) done.length = (done ++ entry).length := by
  have hnone : find [';'] entry = none := by
    refine find_eq_none.mpr fun k hk => h ?_
    exact (List.drop_subset k entry) (hk.subset (List.mem_singleton.mpr rfl))
  rw [nextSeparator, List.drop_left, hnone]
  rfl

/-- The others end at their separators.
SOURCE: lualib/manual/luaLoader.cc:9-96 -/
theorem nextSeparator_sep (done tail : List Char) (h : ';' ∉ entry) :
    nextSeparator (done ++ (entry ++ ';' :: tail)) done.length = done.length + entry.length := by
  have hfirst : find [';'] (entry ++ ';' :: tail) = some entry.length := by
    refine find_eq_some.mpr ⟨?_, fun j hj hk => h ?_⟩
    · rw [List.drop_left]
      exact ⟨tail, rfl⟩
    · rw [List.drop_append_of_le_length hj.le] at hk
      have hmem : ';' ∈ (entry.drop j).take 1 := by
        obtain ⟨x, xs, hx⟩ := List.exists_cons_of_ne_nil
          (List.ne_nil_of_length_pos (by rw [List.length_drop]; omega : 0 < (entry.drop j).length))
        rw [hx] at hk ⊢
        obtain ⟨rfl, -⟩ := List.cons_prefix_cons.mp hk
        exact List.mem_cons_self
      exact List.drop_subset j entry (List.take_subset 1 _ hmem)
  rw [nextSeparator, List.drop_left, hfirst]
  rfl

/-- A path is an entry, or an entry and what comes behind a separator. -/
theorem splitOn_cases (rest : List Char) :
    (';' ∉ rest ∧ rest.splitOn ';' = [rest]) ∨
      ∃ entry tail, rest = entry ++ ';' :: tail ∧ ';' ∉ entry ∧
        rest.splitOn ';' = entry :: tail.splitOn ';' := by
  by_cases h : ';' ∈ rest
  · obtain ⟨entry, tail, rfl, hsep⟩ := List.eq_append_cons_of_mem h
    exact .inr ⟨entry, tail, rfl, hsep, List.splitOn_append_cons_self_of_not_mem hsep tail⟩
  · exact .inl ⟨h, List.splitOn_eq_singleton h⟩

/-- The loop first asks for the bytecode under the entry it is at.
SOURCE: lualib/manual/luaLoader.cc:9-96 -/
theorem loop_head {result : List (List Char) × Ended} (hle : begin ≤ searchpath.length)
    (h : loop files filename searchpath n begin = some result) :
    result.1.head? = some (beforeMark ((searchpath.drop begin).take (nextSeparator searchpath begin))
      ++ filename ++ BYTECODE_FILE_EXT) := by
  cases n with
  | zero => cases h
  | succ n =>
    have hhead := tryPrefix_head files
      (beforeMark ((searchpath.drop begin).take (nextSeparator searchpath begin)) ++ filename)
    rw [loop, if_neg (by omega)] at h
    simp only at h
    split at h
    · next heq =>
      rw [heq] at hhead
      exact Option.some.inj h ▸ hhead
    · next heq =>
      rw [heq] at hhead
      split at h
      · obtain ⟨later, -, rfl⟩ := Option.map_eq_some_iff.mp h
        simp only [Prod.map, List.head?_append, hhead]
        rfl
      · exact Option.some.inj h ▸ hhead

/-- Something is loaded, then, or the call fails. -/
theorem search_ended (files : Files) (filename : List Char) (entries : List (List Char)) :
    (search files filename entries).2 ≠ .throws ∧ (search files filename entries).2 ≠ .unset := by
  induction entries with
  | nil => exact ⟨nofun, nofun⟩
  | cons entry entries ih =>
    rw [search]
    split
    · exact ⟨nofun, nofun⟩
    · exact ih

/-- A chunk is loaded where the file has bytes.
SOURCE: lualib/manual/luaLoader.cc:9-96 -/
theorem load_eq_loads {chunkName : List Char} {data : Option (List UInt8)} :
    load chunkName data = .loads chunkName (data.getD []) ↔ data.getD [] ≠ [] := by
  rcases data with _ | _ | ⟨x, bytes⟩ <;> simp [load]

section Round

variable {result : List (List Char) × Ended} {asked : List (List Char)} {base chunkName : List Char}

/-- The loop ends with a file that is found.
SOURCE: lualib/manual/luaLoader.cc:9-96 -/
theorem exists_loop_found (hle : begin ≤ searchpath.length)
    (hbase : beforeMark ((searchpath.drop begin).take (nextSeparator searchpath begin)) = base)
    (htry : tryPrefix files (base ++ filename) = (asked, some chunkName)) :
    (∃ n, loop files filename searchpath n begin = some result) ↔
      (asked, load chunkName (files.getDataFromFile chunkName)) = result := by
  have hloop : ∀ n, loop files filename searchpath (n + 1) begin =
      some (asked, load chunkName (files.getDataFromFile chunkName)) := by
    intro n
    rw [loop, if_neg (by omega)]
    simp only [hbase, htry]
  constructor
  · rintro ⟨n, h⟩
    cases n with
    | zero => cases h
    | succ n => exact Option.some.inj ((hloop n).symm.trans h)
  · rintro rfl
    exact ⟨1, hloop 0⟩

/-- It goes on behind an entry with none, as long as its test lets it.
SOURCE: lualib/manual/luaLoader.cc:9-96 -/
theorem exists_loop_missed (hle : begin ≤ searchpath.length)
    (hbase : beforeMark ((searchpath.drop begin).take (nextSeparator searchpath begin)) = base)
    (htry : tryPrefix files (base ++ filename) = (asked, none)) :
    (∃ n, loop files filename searchpath n begin = some result) ↔
      if nextSeparator searchpath begin + 1 < toSize (toInt32 searchpath.length) then
        ∃ n later, loop files filename searchpath n (nextSeparator searchpath begin + 1) =
          some later ∧ (asked ++ later.1, later.2) = result
      else (asked, .unset) = result := by
  have hloop : ∀ n, loop files filename searchpath (n + 1) begin =
      if nextSeparator searchpath begin + 1 < toSize (toInt32 searchpath.length) then
        (loop files filename searchpath n (nextSeparator searchpath begin + 1)).map
          (Prod.map (asked ++ ·) id)
      else some (asked, .unset) := by
    intro n
    rw [loop, if_neg (by omega)]
    simp only [hbase, htry]
  generalize toSize (toInt32 searchpath.length) = bound at hloop ⊢
  constructor
  · rintro ⟨n, h⟩
    cases n with
    | zero => cases h
    | succ n =>
      rw [hloop n] at h
      split at h
      · next hgoes =>
        rw [if_pos hgoes]
        obtain ⟨later, hlater, heq⟩ := Option.map_eq_some_iff.mp h
        exact ⟨n, later, hlater, heq⟩
      · next hstays =>
        rw [if_neg hstays]
        exact Option.some.inj h
  · intro h
    split at h
    · next hgoes =>
      obtain ⟨n, later, hlater, rfl⟩ := h
      refine ⟨n + 1, ?_⟩
      rw [hloop n, if_pos hgoes, hlater]
      rfl
    · next hstays =>
      refine ⟨1, ?_⟩
      rw [hloop 0, if_neg hstays, h]

end Round

/-- Behind the end of the path `substr` throws. -/
theorem loop_past {result : List (List Char) × Ended} (hlt : searchpath.length < begin)
    (h : loop files filename searchpath n begin = some result) : result.2 = .throws := by
  cases n with
  | zero => cases h
  | succ n =>
    rw [loop, if_pos hlt] at h
    exact Option.some.inj h ▸ rfl

/-- The last entry. -/
theorem loop_last (h : ';' ∉ entry) (bound : ℕ) :
    (∃ n, loop files filename (done ++ entry) n done.length =
        some (search files filename [entry])) ↔
      Reaches files filename bound done.length [entry] := by
  have hle : done.length ≤ (done ++ entry).length := by
    simp
  have hbase : beforeMark (((done ++ entry).drop done.length).take
      (nextSeparator (done ++ entry) done.length)) = beforeMark entry := by
    rw [nextSeparator_last done h, List.drop_left, List.take_of_length_le]
    simp
  cases htry : tryPrefix files (beforeMark entry ++ filename) with
  | mk asked found =>
    rw [search, Reaches, htry]
    cases found with
    | some chunkName =>
      rw [exists_loop_found hle hbase htry]
      simp [load_eq_loads]
    | none =>
      rw [exists_loop_missed hle hbase htry, nextSeparator_last done h]
      generalize toSize (toInt32 (done ++ entry).length) = size
      simp only [search, Reaches, and_false, iff_false]
      intro hends
      split at hends
      · obtain ⟨n, later, hlater, heq⟩ := hends
        have hthrows := loop_past (Nat.lt_succ_self _) hlater
        exact absurd (hthrows.symm.trans (Prod.mk.inj heq).2) nofun
      · exact absurd (congrArg Prod.snd hends) nofun

/-- The text that is cut off for an entry is the entry, where the entry is the first. -/
theorem base_of_sep (tail : List Char) (h : ';' ∉ entry)
    (hgood : done.length = 0 ∨ find mark (dropDot entry) ≠ none) :
    beforeMark (((done ++ (entry ++ ';' :: tail)).drop done.length).take
      (nextSeparator (done ++ (entry ++ ';' :: tail)) done.length)) = beforeMark entry := by
  rw [nextSeparator_sep done tail h, List.drop_left]
  rcases Nat.eq_zero_or_pos done.length with hzero | hpos
  · rw [hzero, Nat.zero_add, List.take_left]
  · obtain ⟨m, hm⟩ := Nat.exists_eq_add_of_lt hpos
    have htext : (entry ++ ';' :: tail).take (done.length + entry.length) =
        entry ++ ';' :: tail.take m := by
      rw [hm, Nat.zero_add, Nat.add_comm, List.take_length_add_append]
      rfl
    rw [htext, beforeMark_append (hgood.resolve_left hpos.ne')]

/-- An entry without a mark is tried with all the rest of the path.
SOURCE: lualib/manual/luaLoader.cc:9-96 -/
theorem base_long (hfits : (done ++ (entry ++ ';' :: tail)).length < 2 ^ 63) (h : ';' ∉ entry)
    (hbegin : done.length ≠ 0) (hmark : find mark (dropDot entry) = none) :
    (beforeMark entry).length <
      (beforeMark (((done ++ (entry ++ ';' :: tail)).drop done.length).take
        (nextSeparator (done ++ (entry ++ ';' :: tail)) done.length))).length := by
  obtain ⟨m, hm⟩ := Nat.exists_eq_add_of_lt (Nat.pos_of_ne_zero hbegin)
  have htext : (entry ++ ';' :: tail).take (done.length + entry.length) =
      entry ++ ';' :: tail.take m := by
    rw [hm, Nat.zero_add, Nat.add_comm, List.take_length_add_append]
    rfl
  rw [nextSeparator_sep done tail h, List.drop_left, htext]
  refine beforeMark_long ?_ hmark
  simp only [List.length_append, List.length_cons, List.length_take] at hfits ⊢
  omega

/-- The loop is the search over the entries exactly as long as it reaches them.
SOURCE: lualib/manual/luaLoader.cc:9-96 -/
theorem loop_iff (files : Files) (filename done rest : List Char)
    (hfits : (done ++ rest).length < 2 ^ 63) :
    (∃ n, loop files filename (done ++ rest) n done.length =
        some (search files filename (rest.splitOn ';'))) ↔
      Reaches files filename (toSize (toInt32 (done ++ rest).length)) done.length
        (rest.splitOn ';') := by
  induction hlen : rest.length using Nat.strong_induction_on generalizing done rest with
  | _ len ih =>
    rcases splitOn_cases rest with ⟨hsep, hsplit⟩ | ⟨entry, tail, rfl, hsep, hsplit⟩
    · rw [hsplit]
      exact loop_last hsep _
    · have hle : done.length ≤ (done ++ (entry ++ ';' :: tail)).length := by
        simp
      have hbehind : done ++ (entry ++ ';' :: tail) = (done ++ entry ++ [';']) ++ tail := by
        simp
      have hnext : (done ++ entry ++ [';']).length = done.length + entry.length + 1 := by
        rw [List.length_append, List.length_append, List.length_singleton]
      have hrest := ih tail.length (by simp at hlen; omega) (done ++ entry ++ [';']) tail
        (hbehind ▸ hfits) rfl
      rw [← hbehind, hnext] at hrest
      rw [hsplit]
      by_cases hgood : done.length = 0 ∨ find mark (dropDot entry) ≠ none
      · have hbase := base_of_sep tail hsep hgood
        cases htry : tryPrefix files (beforeMark entry ++ filename) with
        | mk asked found =>
          rw [search, Reaches, htry, or_iff_right (List.splitOn_ne_nil ';' tail),
            and_iff_right hgood]
          cases found with
          | some chunkName =>
            rw [exists_loop_found hle hbase htry]
            simp [load_eq_loads]
          | none =>
            rw [exists_loop_missed hle hbase htry, nextSeparator_sep done tail hsep]
            simp only
            rw [← hrest]
            have hended := search_ended files filename (tail.splitOn ';')
            generalize toSize (toInt32 (done ++ (entry ++ ';' :: tail)).length) = size
            constructor
            · intro h
              split at h
              · next hlt =>
                obtain ⟨n, later, hlater, heq⟩ := h
                have hasked := List.append_cancel_left (Prod.mk.inj heq).1
                exact ⟨hlt, n, by rw [hlater, Prod.ext hasked (Prod.mk.inj heq).2]⟩
              · exact absurd (Prod.mk.inj h).2.symm hended.2
            · rintro ⟨hlt, n, hn⟩
              rw [if_pos hlt]
              exact ⟨n, _, hn, rfl⟩
      · -- the first name that is asked for is too long
        have hmark := of_not_not (not_or.mp hgood).2
        have hlong := base_long hfits hsep (not_or.mp hgood).1 hmark
        have hentries := List.splitOn_ne_nil ';' tail
        refine iff_of_false ?_ ?_
        · rintro ⟨n, hn⟩
          have hhead := (loop_head hle hn).symm.trans (search_head files _)
          have hlength := congrArg List.length (Option.some.inj hhead)
          simp only [List.length_append] at hlength hlong
          omega
        · rintro ⟨hentry, -⟩
          rcases hentry with hzero | hnil | hfound
          · exact hgood (.inl hzero)
          · exact hentries hnil
          · exact hfound hmark

/-- **The entries are searched in order** where the condition holds, and only there.
SOURCE: lualib/manual/luaLoader.cc:9-96 -/
theorem lua_loader_searches (files : Files) (filename searchpath : StdString) :
    Searches files filename searchpath ↔ Cond files filename searchpath := by
  have hloop := loop_iff files (moduleName filename.chars) []
    searchpath.chars searchpath.fits
  rw [List.nil_append, List.length_nil] at hloop
  by_cases hname : rfind BYTECODE_FILE_EXT filename.chars = none ∨
      BYTECODE_FILE_EXT <:+ filename.chars
  · rw [Cond, and_iff_right hname, ← hloop, Searches]
    simp only [lua_loader, fileName_of_cond filename.fits hname]
  · -- the first name that is asked for is too short
    refine iff_of_false ?_ fun hcond => hname hcond.1
    rintro ⟨n, hn⟩
    have hshort := fileName_short hname
    have hfirst := loop_head (Nat.zero_le _) hn
    rw [List.drop_zero] at hfirst
    rcases splitOn_cases searchpath.chars with ⟨hsep, hsplit⟩ | ⟨entry, tail, heq, hsep, hsplit⟩
    · have hnext := nextSeparator_last [] hsep
      rw [List.nil_append, List.length_nil] at hnext
      rw [hnext, List.take_length, hsplit, search_head] at hfirst
      have hlength := congrArg List.length (Option.some.inj hfirst)
      simp only [List.length_append] at hlength
      omega
    · have hnext := nextSeparator_sep [] tail hsep
      rw [List.nil_append, List.length_nil, Nat.zero_add, ← heq] at hnext
      rw [hnext, hsplit, search_head, heq, List.take_left] at hfirst
      have hlength := congrArg List.length (Option.some.inj hfirst)
      simp only [List.length_append] at hlength
      omega

end Loop

/-- No file is found, and the chunk that was not set is read. -/
theorem lua_loader_unset :
    ¬ Searches ⟨fun _ => false, fun _ => none⟩ ⟨['m'], by decide⟩
      ⟨['?', '.', 'l', 'u', 'a'], by decide⟩ := by
  rintro ⟨n, hn⟩
  cases n with
  | zero => cases hn
  | succ n =>
    have hunset : lua_loader ⟨fun _ => false, fun _ => none⟩ ⟨['m'], by decide⟩
        ⟨['?', '.', 'l', 'u', 'a'], by decide⟩ (n + 1) =
          some ([['m', '.', 'l', 'u', 'a', 'c'], ['m', '.', 'l', 'u', 'a']], .unset) := rfl
    exact absurd (hunset.symm.trans hn) (by decide)

/-- The second of two entries has the file. -/
example :
    Cond ⟨fun name => name = ['b', '/', 'm', '.', 'l', 'u', 'a'], fun _ => some [0]⟩
      ⟨['m'], by decide⟩
      ⟨['a', '/', '?', '.', 'l', 'u', 'a', ';', '.', '/', 'b', '/', '?', '.', 'l', 'u', 'a'],
        by decide⟩ := by
  decide

end MagicNet.LuaLoader
