import MagicNet.Foundation.Occurrence
import MagicNet.Analysis.ReceiveStream

/-!
# What `doReadLine` reads

As long as a buffer holds less than `2 ^ 31` bytes, the search of `doReadLine` is a scan of its
stream (`findSep_eq`).  The bound of the search, `m_buffer._size - (int)seplen`, is unsigned: for a
separator longer than the stream it wraps, so every byte is looked at, and where the stream ends in
the beginning of the separator `checkSep` goes on past the last node.

A call does what it has to do exactly where that does not happen, and where the length of the
separator is an `int` (`readLine_right`).

SOURCE: api/socket.cc:161-192, 259-320
-/

set_option autoImplicit false

namespace MagicNet.Receive

open MagicNet.Foundation MagicNet.Network

/-- What `doReadLine` has to do with a separator: the bytes before its first occurrence are returned
and leave the stream with it, or nothing happens; and with `check` it only says which. -/
structure LineRight (b : Buffer) (sep : List UInt8) : Prop where
  line : ∀ i, FirstAt sep b.stream i → ∃ b', b.doReadLine false sep =
      some (.line (b.stream.take i), b') ∧
    b'.stream = b.stream.drop (i + sep.length) ∧ b'._size = b'.stream.length
  empty : (∀ i, ¬ sep <+: b.stream.drop i) → b.doReadLine false sep = some (.empty, b)
  check : ∃ seen, b.doReadLine true sep = some (seen, b) ∧
    (seen ≠ .empty ↔ ∃ bytes b', b.doReadLine false sep = some (.line bytes, b'))

/-- The beginning of the separator that has the length `(int)seplen`, where that is not negative. -/
def readSep (sep : List UInt8) : List UInt8 := sep.take (sep.length % 2 ^ 32)

/-- Where there is something to read: the length of the separator is not negative as an `int`; what
that length cuts off a separator of `2 ^ 32` bytes or more does not stand in the stream; and a
separator longer than the stream does not begin with an end of the stream. -/
structure LineFits (b : Buffer) (sep : List UInt8) : Prop where
  length : sep.length % 2 ^ 32 < 2 ^ 31
  whole : readSep sep = sep ∨ ∀ i, ¬ readSep sep <+: b.stream.drop i
  inside : (readSep sep).length ≤ b.stream.length ∨ ¬ Overhangs (readSep sep) b.stream

/-- The buffer holds less than `2 ^ 31` bytes after a block is put in. -/
def Fits (b : Buffer) : Event → Prop
  | .pushData data => b.stream.length + data.length < 2 ^ 31
  | _ => True

/-- The invariant of a buffer that holds less than `2 ^ 31` bytes. -/
structure Small (b : Buffer) : Prop where
  inv : Inv b
  length : b.stream.length < 2 ^ 31

variable {b b' : Buffer} {c : List UInt8} {nodes : List (List UInt8)} {offset n : ℕ}
  {sep : List UInt8}

/-! ## The conversions -/

/-- The length of the separator is stored on 32 bits. -/
theorem readSep_length : (readSep sep).length = sep.length % 2 ^ 32 := by
  rw [readSep, List.length_take]
  have := Nat.mod_le sep.length (2 ^ 32)
  omega

/-- The separator that is searched for. -/
theorem sepOf_eq (h : sep.length % 2 ^ 32 < 2 ^ 31) : Buffer.sepOf sep = some (readSep sep) := by
  have hlen : toInt32 sep.length = (sep.length % 2 ^ 32 : ℕ) := by
    unfold toInt32
    rw [Int.bmod_def]
    split <;> omega
  unfold Buffer.sepOf readSep
  rw [hlen, if_neg (by omega), Int.toNat_natCast]

/-- A separator of `2 ^ 31` bytes or more does not make a string.
SOURCE: api/socket.cc:632-653 -/
theorem sepOf_none (h : 2 ^ 31 ≤ sep.length % 2 ^ 32) : Buffer.sepOf sep = none := by
  have hlen : toInt32 sep.length < 0 := by
    unfold toInt32
    rw [Int.bmod_def]
    split <;> omega
  unfold Buffer.sepOf
  rw [if_pos hlen]

/-- A length to which the separator counts is the one to which what is read of it counts. -/
theorem toInt32_readSep {i : ℕ} (h : i + (readSep sep).length < 2 ^ 31) :
    toInt32 (i + sep.length) = (i + (readSep sep).length : ℕ) := by
  rw [readSep_length] at h ⊢
  unfold toInt32
  rw [Int.bmod_def]
  split <;> omega

/-- The size of a small buffer is exact. -/
theorem Small.size (h : Small b) : b._size = b.stream.length := by
  rw [h.inv.size, Nat.mod_eq_of_lt]
  have := h.length
  omega

/-- Without bytes there are no nodes. -/
theorem stream_ne_nil (h : Inv b) (hnodes : b.nodes ≠ []) : b.stream ≠ [] := by
  cases hb : b.nodes with
  | nil => exact absurd hb hnodes
  | cons c nodes =>
    have hoff := (head_lt h hb).1
    apply List.ne_nil_of_length_pos
    rw [Buffer.stream, hb, flatten_drop_cons hoff.le, List.length_append, List.length_drop]
    omega

/-- Where less than `2 ^ 31` bytes are left, so are of each node. -/
theorem reached_of_small (hin : InHead nodes offset)
    (hlen : (nodes.flatten.drop offset).length < 2 ^ 31) : Reached nodes offset n := by
  induction nodes generalizing offset n with
  | nil => trivial
  | cons c nodes ih =>
    have hoff : offset ≤ c.length := hin
    rw [flatten_drop_cons hoff, List.length_append, List.length_drop] at hlen
    refine ⟨by omega, fun _ => ih (inHead_zero nodes) ?_⟩
    rw [List.drop_zero]
    omega

/-! ## The search is a scan of the stream -/

/-- **The comparison**: it finds the separator at the front of what is left, or it does not, or it
runs past the last node.
SOURCE: api/socket.cc:259-276 -/
theorem checkSep_eq (hblocks : Blocks nodes) (hin : InHead nodes offset)
    (hlen : (nodes.flatten.drop offset).length < 2 ^ 31) (hsome : sep = [] → nodes ≠ []) :
    checkSep nodes offset sep =
      if sep <+: nodes.flatten.drop offset then some true
      else if nodes.flatten.drop offset <+: sep then none
      else some false := by
  induction nodes generalizing offset sep with
  | nil =>
    have hsep : ¬ sep <+: [] := fun h => hsome (List.prefix_nil.mp h) rfl
    simp [checkSep, hsep]
  | cons c nodes ih =>
    have hoff : offset ≤ c.length := hin
    have hc := hblocks c List.mem_cons_self
    have hdrop : (c.drop offset).length = c.length - offset := List.length_drop
    rw [flatten_drop_cons hoff] at hlen ⊢
    rw [List.length_append, hdrop] at hlen
    rw [checkSep, restOf_eq hc.2 hoff, toInt32_natCast (by omega)]
    simp only [Nat.cast_le, if_neg (show ¬ ((c.length - offset : ℕ) : ℤ) < 0 by omega),
      Int.toNat_natCast]
    by_cases hle : sep.length ≤ c.length - offset
    · have hpre : sep <+: c.drop offset ++ nodes.flatten ↔ (c.drop offset).take sep.length = sep := by
        rw [List.prefix_iff_eq_take, List.take_append_of_le_length (by omega), eq_comm]
      rw [if_pos hle, bytesAt_eq (by omega), Option.map_some]
      simp only [hpre]
      by_cases heq : (c.drop offset).take sep.length = sep
      · simp [heq]
      · -- what is left is no shorter than the separator
        have hlong : ¬ c.drop offset ++ nodes.flatten <+: sep := by
          intro h
          have hall := h.eq_of_length_le (by rw [List.length_append]; omega)
          exact heq (hpre.mp (hall ▸ List.prefix_rfl))
        simp [heq, hlong]
    · have hread : (c.drop offset).take (c.length - offset) = c.drop offset :=
        List.take_of_length_le hdrop.le
      rw [if_neg hle, bytesAt_eq (by omega), Option.bind_some, hread]
      by_cases heq : c.drop offset = sep.take (c.length - offset)
      · have hne : sep.drop (c.length - offset) ≠ [] := by
          apply List.ne_nil_of_length_pos
          rw [List.length_drop]
          omega
        have hsplit : sep = c.drop offset ++ sep.drop (c.length - offset) := by
          rw [heq, List.take_append_drop]
        rw [if_pos heq, ih hblocks.tail (inHead_zero nodes) (by rw [List.drop_zero]; omega)
          (fun h => absurd h hne), List.drop_zero]
        conv_rhs => rw [hsplit]
        simp only [List.prefix_append_right_inj]
      · -- the separator and what is left differ in the node
        have hpre : ¬ sep <+: c.drop offset ++ nodes.flatten := by
          intro h
          refine heq ?_
          obtain ⟨v, hv⟩ := h
          have htake := congrArg (List.take (c.length - offset)) hv
          rw [List.take_append_of_le_length (by omega), List.take_append_of_le_length hdrop.ge,
            hread] at htake
          exact htake.symm
        have hpre' : ¬ c.drop offset ++ nodes.flatten <+: sep := by
          rintro ⟨v, hv⟩
          refine heq ?_
          rw [← hv, List.append_assoc, List.take_left' hdrop]
        rw [if_neg heq, if_neg hpre, if_neg hpre']

/-- **The search**, from a byte of a node on, is the scan of what is left. -/
theorem searchSep_eq {size left i : ℕ} (hblocks : Blocks nodes) (hfront : Front nodes offset)
    (hnodes : nodes ≠ []) (hlen : (nodes.flatten.drop offset).length < 2 ^ 31)
    (hleft : (nodes.flatten.drop offset).length ≤ left) :
    searchSep size sep left nodes offset i =
      scan sep (toUint32 (size - sep.length)) (nodes.flatten.drop offset) i := by
  induction left generalizing nodes offset i with
  | zero =>
    cases nodes with
    | nil => exact absurd rfl hnodes
    | cons node nodes =>
      have hoff : offset < node.length := hfront
      rw [flatten_drop_cons hoff.le, List.length_append, List.length_drop] at hleft
      omega
  | succ left ih =>
    cases nodes with
    | nil => exact absurd rfl hnodes
    | cons node nodes =>
      have hoff : offset < node.length := hfront
      have hbyte : (node :: nodes).flatten.drop offset =
          node[offset] :: (node :: nodes).flatten.drop (offset + 1) := by
        rw [flatten_drop_cons hoff.le, flatten_drop_cons hoff, List.drop_eq_getElem_cons hoff,
          List.cons_append]
      have hcheck := checkSep_eq hblocks hfront.inHead hlen
        fun _ : sep = [] => List.cons_ne_nil node nodes
      rw [hbyte, List.length_cons] at hlen hleft
      rw [searchSep, hcheck, hbyte, scan]
      split
      · rfl
      · split
        · rfl
        · split
          · rfl
          · simp only [Option.bind_some, Bool.false_eq_true, if_false]
            by_cases hlast : offset + 1 = node.length
            · have hnext : (node :: nodes).flatten.drop (offset + 1) = nodes.flatten.drop 0 := by
                rw [flatten_drop_cons hlast.le, hlast, List.drop_length, List.nil_append,
                  List.drop_zero]
              rw [if_pos hlast, hnext]
              by_cases hnil : nodes = []
              · simp [hnil, scan]
              · rw [hnext] at hlen hleft
                rw [if_neg hnil]
                exact ih hblocks.tail (front_of_blocks hblocks.tail) hnil (by omega) (by omega)
            · have hfront' : Front (node :: nodes) (offset + 1) := by
                show offset + 1 < node.length
                omega
              rw [if_neg hlast]
              exact ih hblocks hfront' hnodes (by omega) (by omega)

/-- The search of a call. -/
theorem findSep_eq (h : Small b) (hnodes : b.nodes ≠ []) (hsep : sep.length % 2 ^ 32 < 2 ^ 31) :
    b.findSep sep =
      scan (readSep sep) (toUint32 (b.stream.length - (readSep sep).length)) b.stream 0 := by
  have hlen := h.length
  rw [Buffer.findSep, sepOf_eq hsep, Option.bind_some, h.size]
  exact searchSep_eq h.inv.blocks h.inv.front hnodes hlen hlen.le

/-- A separator no longer than the stream is found where it stands first. -/
theorem findSep_short (h : Small b) (hnodes : b.nodes ≠ []) (hsep : sep.length % 2 ^ 32 < 2 ^ 31)
    (hne : readSep sep ≠ []) (hle : (readSep sep).length ≤ b.stream.length) :
    (∀ i, FirstAt (readSep sep) b.stream i → b.findSep sep = some (some i)) ∧
      ((∀ i, ¬ readSep sep <+: b.stream.drop i) → b.findSep sep = some none) := by
  have hlen := h.length
  have hbound : toUint32 (b.stream.length - (readSep sep).length) + (readSep sep).length =
      0 + b.stream.length := by
    unfold toUint32
    omega
  obtain ⟨hfirst, hnone⟩ := scan_eq_of_le hne hbound
  rw [findSep_eq h hnodes hsep]
  refine ⟨fun i hi => ?_, hnone⟩
  rw [hfirst i hi, Nat.zero_add]

/-- With a longer one the search runs past the last node, or it finds nothing: the bound has
wrapped. -/
theorem findSep_long (h : Small b) (hnodes : b.nodes ≠ []) (hsep : sep.length % 2 ^ 32 < 2 ^ 31)
    (hlt : b.stream.length < (readSep sep).length) :
    (Overhangs (readSep sep) b.stream → b.findSep sep = none) ∧
      (¬ Overhangs (readSep sep) b.stream → b.findSep sep = some none) := by
  have hlen := h.length
  have hread : (readSep sep).length = sep.length % 2 ^ 32 := readSep_length
  rw [findSep_eq h hnodes hsep]
  apply scan_eq_of_lt hlt
  unfold toUint32
  omega

/-- What is found is in the stream. -/
theorem findSep_found {i : ℕ} (h : Small b) (hnodes : b.nodes ≠ [])
    (hfind : b.findSep sep = some (some i)) : i + (readSep sep).length ≤ b.stream.length := by
  have hsep : sep.length % 2 ^ 32 < 2 ^ 31 := by
    by_contra hlong
    rw [Buffer.findSep, sepOf_none (by omega)] at hfind
    simp at hfind
  rw [findSep_eq h hnodes hsep] at hfind
  have hlen := (standing_of_scan hfind).2.length_le
  rw [Nat.sub_zero, List.length_drop] at hlen
  by_contra hlt
  -- only nothing stands past the end, and that stands at the front as well
  have hnil : readSep sep = [] := List.length_eq_zero_iff.mp (by omega)
  have hne := stream_ne_nil h.inv hnodes
  rw [hnil] at hfind hlt
  cases hs : b.stream with
  | nil => exact hne hs
  | cons x u =>
    rw [hs, scan] at hfind
    simp only [Nat.not_lt_zero, if_false, List.nil_prefix, if_true, Option.some.injEq] at hfind
    rw [← hfind] at hlt
    simp at hlt

/-! ## The string that is popped -/

/-- The loop appends the bytes it takes, less the last `skip`. -/
theorem popNodes_appendTo {skip : ℕ} {x : List UInt8} (hblocks : Blocks nodes)
    (hin : InHead nodes offset) (hreach : Reached nodes offset n) (hpos : 0 < n)
    (hle : n ≤ (nodes.flatten.drop offset).length) :
    ∃ left, popNodes (appendTo skip) nodes offset n x =
      some (x ++ (nodes.flatten.drop offset).take (n - skip), left) := by
  induction nodes generalizing offset n x with
  | nil =>
    rw [List.flatten_nil, List.drop_nil, List.length_nil] at hle
    omega
  | cons c nodes ih =>
    have hoff : offset ≤ c.length := hin
    have hc := hblocks c List.mem_cons_self
    have hdrop : (c.drop offset).length = c.length - offset := List.length_drop
    have happend : appendTo skip c offset n ((c.length - offset : ℕ) : ℤ) x =
        some (x ++ (c.drop offset).take (n - skip)) := by
      unfold appendTo
      by_cases hskip : skip < n
      · have hmin : min ((n : ℤ) - skip) ((c.length - offset : ℕ) : ℤ) =
            (min (n - skip) (c.length - offset) : ℕ) := by omega
        rw [if_pos (by omega), hmin, bytesAt_eq (by omega), Option.map_some, ← hdrop,
          ← List.take_eq_take_min]
      · rw [if_neg (by omega), show n - skip = 0 by omega, List.take_zero, List.append_nil]
    rw [popNodes_cons hc.2 hoff hreach.1, happend, Option.bind_some]
    rw [flatten_drop_cons hoff, List.length_append, hdrop] at hle
    rw [flatten_drop_cons hoff]
    by_cases hrest : n ≤ c.length - offset
    · rw [if_pos hrest, List.take_append_of_le_length (by omega)]
      by_cases heq : c.length - offset = n
      · exact ⟨_, if_pos heq⟩
      · exact ⟨_, if_neg heq⟩
    · rw [if_neg hrest]
      obtain ⟨left, hleft⟩ := ih (x := x ++ (c.drop offset).take (n - skip)) hblocks.tail
        (inHead_zero nodes) (hreach.2 (by omega)) (by omega) (by rw [List.drop_zero]; omega)
      refine ⟨left, ?_⟩
      rw [hleft, List.drop_zero, List.append_assoc, List.take_append, hdrop]
      congr 5
      omega

/-- **The line that is popped**: the bytes before the separator, which leave the stream with it.
SOURCE: api/socket.cc:278-320 -/
theorem popString_line {i s : ℕ} (h : Small b) (hpos : 0 < i + s)
    (hle : i + s ≤ b.stream.length) :
    ∃ b', b.popString ((i + s : ℕ) : ℤ) s = some (b.stream.take i, b') ∧ Taken b b' (i + s) := by
  have hsmall := h.length
  have hreach : Reached b.nodes b._offset (i + s) := reached_of_small h.inv.front.inHead hsmall
  suffices hpop : ∃ b', b.popString ((i + s : ℕ) : ℤ) s = some (b.stream.take i, b') by
    obtain ⟨b', hb'⟩ := hpop
    exact ⟨b', hb', popString_taken h.inv (by omega) hreach hb'⟩
  unfold Buffer.popString
  cases hnodes : b.nodes with
  | nil =>
    rw [Buffer.stream, hnodes, List.flatten_nil, List.drop_nil, List.length_nil] at hle
    omega
  | cons c nodes =>
    obtain ⟨hoff, hc⟩ := head_lt h.inv hnodes
    have hstream : b.stream = c.drop b._offset ++ nodes.flatten := by
      rw [Buffer.stream, hnodes, flatten_drop_cons hoff.le]
    have hcast : ((i + s : ℕ) : ℤ) - s = i := by omega
    simp only [restOf_eq hc hoff.le, toUint32_natCast (show i + s < 2 ^ 32 by omega)]
    by_cases hlt : i + s < c.length - b._offset
    · rw [if_pos hlt, hcast, bytesAt_eq (by omega), hstream,
        List.take_append_of_le_length (by rw [List.length_drop]; omega)]
      exact ⟨_, rfl⟩
    · rw [if_neg hlt]
      by_cases heq : i + s = c.length - b._offset
      · rw [if_pos heq, hcast, bytesAt_eq (by omega), hstream,
          List.take_append_of_le_length (by rw [List.length_drop]; omega)]
        exact ⟨_, rfl⟩
      · obtain ⟨left, hleft⟩ : ∃ left, popNodes (appendTo s) b.nodes b._offset (i + s : ℕ) [] =
            some ([] ++ b.stream.take (i + s - s), left) :=
          popNodes_appendTo h.inv.blocks h.inv.front.inHead hreach hpos hle
        rw [if_neg heq, ← hnodes, hleft, Option.map_some, Nat.add_sub_cancel, List.nil_append]
        exact ⟨_, rfl⟩

/-! ## Every run -/

/-- A buffer starts small. -/
theorem small_start : Small start := ⟨inv_start, by decide⟩

/-- A buffer of which something has been taken off is no larger. -/
theorem small_of_taken (h : Small b) (ht : Taken b b' n) :
    Small { b' with _size := toUint32 (b'._size - n) } := by
  refine ⟨inv_of_taken h.inv ht, ?_⟩
  show b'.stream.length < 2 ^ 31
  have hlen := h.length
  rw [ht.stream, List.length_drop]
  omega

/-- A read leaves it small.
SOURCE: api/socket.cc:152-159, 608-630 -/
theorem small_doRead {outBuffer : List UInt8} {outLen : ℤ} {r : ℤ × List UInt8 × Buffer}
    (h : Small b) (hint : outLen < 2 ^ 31) (hr : b.doRead outBuffer outLen = some r) :
    Small r.2.2 := by
  refine ⟨inv_doRead h.inv hint hr, ?_⟩
  have hlen := h.length
  unfold Buffer.doRead at hr
  split at hr
  · obtain rfl := Option.some.inj hr
    exact hlen
  · obtain ⟨r', hr', rfl⟩ := Option.map_eq_some_iff.mp hr
    show r'.2.stream.length < 2 ^ 31
    rw [(popBuffer_taken h.inv hint hr').stream, List.length_drop]
    omega

/-- A line that is read is taken off the front, with a separator of any length.
SOURCE: api/socket.cc:161-192, 632-653 -/
theorem small_doReadLine {check : Bool} {r : Line × Buffer} (h : Small b)
    (hr : b.doReadLine check sep = some r) : Small r.2 := by
  unfold Buffer.doReadLine at hr
  split at hr
  · obtain rfl := Option.some.inj hr
    exact h
  · next hnodes =>
    obtain ⟨found, hfound, hr⟩ := Option.bind_eq_some_iff.mp hr
    cases found with
    | none =>
      obtain rfl := Option.some.inj hr
      exact h
    | some i =>
      simp only at hr
      split at hr
      · obtain rfl := Option.some.inj hr
        exact h
      · obtain ⟨r', hr', rfl⟩ := Option.map_eq_some_iff.mp hr
        have hle := findSep_found h hnodes hfound
        have hlen := h.length
        have hlast : i + (readSep sep).length < 2 ^ 31 := by omega
        rw [toInt32_readSep hlast] at hr'
        have hreach : Reached b.nodes b._offset (i + (readSep sep).length) :=
          reached_of_small h.inv.front.inHead hlen
        have hsame : toUint32 (r'.2._size - (i + sep.length)) =
            toUint32 (r'.2._size - (i + (readSep sep).length : ℕ)) := by
          rw [readSep_length]
          unfold toUint32
          omega
        show Small { r'.2 with _size := toUint32 (r'.2._size - (i + sep.length)) }
        rw [hsame]
        exact small_of_taken h (popString_taken h.inv hlast hreach hr')

/-- **One operation** keeps less than `2 ^ 31` bytes in the buffer, if a block that is put in does. -/
theorem small_step {e : Event} (h : Small b) (hfits : Fits b e) (hs : step b e = some b') :
    Small b' := by
  cases e with
  | pushData data =>
    simp only [step] at hs
    split at hs
    · next hsize =>
      obtain rfl := Option.some.inj hs
      refine ⟨inv_pushData h.inv hsize.1 hsize.2, ?_⟩
      rw [pushData_stream h.inv, List.length_append]
      exact hfits
    · simp at hs
  | doRead outBuffer outLen =>
    simp only [step] at hs
    split at hs
    · next hint =>
      obtain ⟨r, hr, rfl⟩ := Option.map_eq_some_iff.mp hs
      exact small_doRead h hint.2 hr
    · simp at hs
  | doReadLine check sep =>
    obtain ⟨r, hr, rfl⟩ := Option.map_eq_some_iff.mp hs
    exact small_doReadLine h hr
  | doReadAll =>
    obtain ⟨r, hr, rfl⟩ := Option.map_eq_some_iff.mp hs
    obtain ⟨read, -, rfl⟩ := Option.map_eq_some_iff.mp hr
    refine ⟨inv_freeNodes h.inv, ?_⟩
    simp [Buffer.stream, Buffer.freeNodes]
  | clearBuffer =>
    obtain rfl := Option.some.inj hs
    refine ⟨inv_freeNodes h.inv, ?_⟩
    simp [Buffer.stream, Buffer.clearBuffer, Buffer.freeNodes]

/-- **What every run keeps** whose blocks fit. -/
theorem small_of_via (h : system.Via Fits b) : Small b := by
  refine h.invariant ?_ ?_
  · rintro t rfl
    exact small_start
  · intro t e t' hsmall hfits hs
    exact small_step hsmall hfits hs

/-! ## Every call -/

/-- A call on a buffer without nodes.
SOURCE: api/socket.cc:161-192, 632-653 -/
theorem doReadLine_nil (check : Bool) (hnodes : b.nodes = []) :
    b.doReadLine check sep = some (.empty, b) := by
  rw [Buffer.doReadLine, if_pos hnodes]

/-- A call that finds nothing.
SOURCE: api/socket.cc:161-192, 632-653 -/
theorem doReadLine_none (check : Bool) (hfind : b.findSep sep = some none) :
    b.doReadLine check sep = some (.empty, b) := by
  unfold Buffer.doReadLine
  split
  · rfl
  · rw [hfind]
    rfl

/-- A check that finds the separator.
SOURCE: api/socket.cc:161-192, 632-653 -/
theorem doReadLine_found {i : ℕ} (hnodes : b.nodes ≠ []) (hfind : b.findSep sep = some (some i)) :
    b.doReadLine true sep = some (.found, b) := by
  rw [Buffer.doReadLine, if_neg hnodes, hfind]
  rfl

/-- Nothing is found, and there is nothing to find.
SOURCE: api/socket.cc:161-192, 632-653 -/
theorem lineRight_none (hcall : ∀ check, b.doReadLine check sep = some (.empty, b))
    (hno : ∀ i, ¬ sep <+: b.stream.drop i) : LineRight b sep := by
  refine ⟨fun i hi => absurd hi.here (hno i), fun _ => hcall false, .empty, hcall true, ?_⟩
  simp [hcall false]

/-- **A call on a separator that fits** does what it has to do. -/
theorem lineRight_of_fits (h : Small b) (hsep : sep ≠ []) (hnodes : b.nodes ≠ [])
    (hfits : LineFits b sep) : LineRight b sep := by
  have hlen := h.length
  have hno (hnone : ∀ i, ¬ sep <+: b.stream.drop i) (hfind : b.findSep sep = some none) :
      LineRight b sep :=
    lineRight_none (fun check => doReadLine_none check hfind) hnone
  by_cases hlong : b.stream.length < (readSep sep).length
  · have hover := hfits.inside.resolve_left (by omega)
    refine hno (not_standing ?_) ((findSep_long h hnodes hfits.length hlong).2 hover)
    have hle := Nat.mod_le sep.length (2 ^ 32)
    rw [readSep_length] at hlong
    omega
  · have hle : (readSep sep).length ≤ b.stream.length := by omega
    by_cases hstands : ∃ i, readSep sep <+: b.stream.drop i
    · -- what is read of the separator is the separator
      have hwhole : readSep sep = sep :=
        hfits.whole.resolve_right fun hnone => hstands.elim hnone
      obtain ⟨i, hi⟩ := exists_firstAt hstands
      have hne : readSep sep ≠ [] := by
        rw [hwhole]
        exact hsep
      have hfind := (findSep_short h hnodes hfits.length hne hle).1 i hi
      rw [hwhole] at hi
      have hlast := hi.le_length hsep
      have hpos := List.length_pos_iff.mpr hsep
      obtain ⟨b', hpop, htaken⟩ := popString_line h (show 0 < i + sep.length by omega) hlast
      have hsum : toInt32 (i + sep.length) = (i + sep.length : ℕ) := by
        rw [← Int.natCast_add, toInt32_natCast (by omega)]
      have hline : b.doReadLine false sep = some (.line (b.stream.take i),
          { b' with _size := toUint32 (b'._size - (i + sep.length)) }) := by
        rw [Buffer.doReadLine, if_neg hnodes, hfind, Option.bind_some]
        show (b.popString (toInt32 (i + sep.length)) (toInt32 sep.length)).map _ = _
        rw [hsum, toInt32_natCast (by omega), hpop]
        rfl
      refine ⟨fun j hj => ?_, fun hnone => absurd hi.here (hnone i), .found,
        doReadLine_found hnodes hfind, ?_⟩
      · obtain rfl := hj.unique hi
        refine ⟨_, hline, htaken.stream, ?_⟩
        show toUint32 (b'._size - (j + sep.length)) = b'.stream.length
        rw [htaken.size, h.size, htaken.stream, List.length_drop]
        unfold toUint32
        omega
      · exact ⟨fun _ => ⟨_, _, hline⟩, fun _ => by simp⟩
    · have hnone : ∀ i, ¬ readSep sep <+: b.stream.drop i := fun i hi => hstands ⟨i, hi⟩
      have hne : readSep sep ≠ [] := fun hnil => hnone 0 (hnil ▸ List.nil_prefix)
      refine hno (fun i hi => hnone i ?_) ((findSep_short h hnodes hfits.length hne hle).2 hnone)
      exact (List.take_prefix _ _).trans hi

/-- **A call that does what it has to do** is on a separator that fits. -/
theorem fits_of_lineRight (h : Small b) (hnodes : b.nodes ≠ []) (hright : LineRight b sep) :
    LineFits b sep := by
  have hlen := h.length
  have hread : (readSep sep).length = sep.length % 2 ^ 32 := readSep_length
  obtain ⟨seen, hcheck, hseen⟩ := hright.check
  -- the call returns, so the search does
  have hfind : b.findSep sep ≠ none := by
    intro hnone
    rw [Buffer.doReadLine, if_neg hnodes, hnone] at hcheck
    simp at hcheck
  have hlength : sep.length % 2 ^ 32 < 2 ^ 31 := by
    by_contra hlong
    rw [Buffer.findSep, sepOf_none (by omega)] at hfind
    exact hfind rfl
  refine ⟨hlength, ?_, ?_⟩
  · by_contra hcut
    push Not at hcut
    obtain ⟨hne, hstands⟩ := hcut
    -- a separator that is cut off has `2 ^ 32` bytes or more, and does not stand in the stream
    have hlarge : 2 ^ 32 ≤ sep.length := by
      by_contra hsmall
      rw [readSep, Nat.mod_eq_of_lt (by omega), List.take_length] at hne
      exact hne rfl
    have hempty := hright.empty (not_standing (by omega))
    have hfound : ∃ i, b.findSep sep = some (some i) := by
      by_cases hnil : readSep sep = []
      · cases hb : b.stream with
        | nil => exact absurd hb (stream_ne_nil h.inv hnodes)
        | cons x u =>
          refine ⟨0, ?_⟩
          rw [findSep_eq h hnodes hlength, hb, scan, if_neg (Nat.not_lt_zero _), hnil,
            if_pos List.nil_prefix]
      · obtain ⟨i, hi⟩ := exists_firstAt hstands
        have hle : (readSep sep).length ≤ b.stream.length := by
          have := hi.le_length hnil
          omega
        exact ⟨i, (findSep_short h hnodes hlength hnil hle).1 i hi⟩
    obtain ⟨i, hi⟩ := hfound
    rw [doReadLine_found hnodes hi, Option.some.injEq, Prod.mk.injEq] at hcheck
    rw [← hcheck.1, hempty] at hseen
    simp at hseen
  · by_contra hinside
    push Not at hinside
    exact hfind ((findSep_long h hnodes hlength hinside.1).1 hinside.2)

/-- **`doReadLine`.**  In every state that the operations lead to without ever putting `2 ^ 31` bytes
into the buffer, a call does what it has to do exactly when there are no bytes at all, or the
separator fits: the call looks at all of it, and where it is longer than the stream, the stream does
not end in a beginning of it.
SOURCE: api/socket.cc:161-192, 259-320 -/
theorem readLine_right (b : Buffer) (h : system.Via Fits b) (sep : List UInt8) (hsep : sep ≠ []) :
    LineRight b sep ↔ (b.stream ≠ [] → LineFits b sep) := by
  have hsmall := small_of_via h
  by_cases hnodes : b.nodes = []
  · have hstream : b.stream = [] := by
      rw [Buffer.stream, hnodes, List.flatten_nil, List.drop_nil]
    have hright : LineRight b sep := by
      refine lineRight_none (fun check => doReadLine_nil check hnodes) fun i hi => hsep ?_
      rw [hstream, List.drop_nil] at hi
      exact List.prefix_nil.mp hi
    exact iff_of_true hright fun hne => absurd hstream hne
  · have hne := stream_ne_nil hsmall.inv hnodes
    constructor
    · intro hright _
      exact fits_of_lineRight hsmall hnodes hright
    · intro hfits
      exact lineRight_of_fits hsmall hsep hnodes (hfits hne)

/-- A separator of two bytes in two blocks, with the head's first byte read. -/
theorem readLine_right_across :
    LineRight { _size := 3, _offset := 1, nodes := [[1, 2], [3, 4]] } [2, 3] := by
  have hfirst : Fits start (.pushData [1, 2]) := show start.stream.length + 2 < 2 ^ 31 by decide
  have hsecond : Fits (start.pushData [1, 2]) (.pushData [3, 4]) :=
    show (start.pushData [1, 2]).stream.length + 2 < 2 ^ 31 by decide
  have hread : Fits ((start.pushData [1, 2]).pushData [3, 4]) (.doRead [0] 1) := trivial
  have hvia : system.Via Fits { _size := 3, _offset := 1, nodes := [[1, 2], [3, 4]] } :=
    .step (.step (.step (.init rfl) hfirst rfl) hsecond rfl) hread rfl
  refine (readLine_right _ hvia [2, 3] (by decide)).mpr fun _ => ?_
  exact ⟨by decide, .inl (by decide), .inl (by decide)⟩

/-- One byte, which the separator of two begins with: the comparison goes on past the last node. -/
theorem readLine_past_end : ¬ ∀ (b : Buffer), system.Reachable b → ∀ sep : List UInt8, sep ≠ [] →
    LineRight b sep := by
  intro hall
  have hrun : system.run start [.pushData [1]] =
      some { _size := 1, _offset := 0, nodes := [[1]] } := rfl
  have hreach := System.reachable_of_run (show system.init start from rfl) hrun
  obtain ⟨seen, hcheck, -⟩ := (hall _ hreach [1, 2] (by decide)).check
  have hnone : Buffer.doReadLine { _size := 1, _offset := 0, nodes := [[1]] } true [1, 2] = none := by
    decide
  rw [hnone] at hcheck
  simp at hcheck

end MagicNet.Receive
