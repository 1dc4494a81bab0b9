import MagicNet.Analysis.ReceiveStream

/-!
# What `doRead` reads

`doRead` copies its bytes on two of its three paths: inside the head, and in the loop across the
blocks.  On the third, where the bytes asked for are exactly the rest of the head, it frees the node
without a copy, and the caller's buffer keeps what was in it; `popString`, the same function for
`doReadLine`, copies there.

The loop breaks off, with a `memcpy` of a negative length, at a block of which `2 ^ 31` bytes or more
are left.  Everywhere else the call does what it is to do (`doRead_right`).

SOURCE: api/socket.cc:86-98, 152-159, 322-361
-/

set_option autoImplicit false

namespace MagicNet.Receive

open MagicNet.Foundation MagicNet.Network

/-- What is left of the head. -/
def Buffer.headRest (b : Buffer) : ℕ := (b.nodes.head?.getD []).length - b._offset

/-- What `doRead` has to do with an `outLen`: the bytes asked for are copied and leave the stream, or
the call is refused and nothing happens. -/
structure ReadsRight (b : Buffer) (outLen : ℤ) : Prop where
  read : 0 < outLen → outLen ≤ b._size → ∀ outBuffer : List UInt8, outLen ≤ outBuffer.length →
    ∃ b', b.doRead outBuffer outLen =
        some (outLen, b.stream.take outLen.toNat ++ outBuffer.drop outLen.toNat, b') ∧
      b'.stream = b.stream.drop outLen.toNat
  refused : outLen = 0 ∨ b._size < outLen → ∀ outBuffer : List UInt8,
    b.doRead outBuffer outLen = some (-1, outBuffer, b)

/-- The buffer has its `_offset` in the head and the bytes asked for in its stream; they are not
exactly the rest of the head; and where they are more, what is left of the blocks the loop gets to is
an `int`. -/
structure Copies (b : Buffer) (n : ℕ) : Prop where
  inHead : InHead b.nodes b._offset
  enough : n ≤ b.stream.length
  notRest : n ≠ b.headRest
  reached : b.headRest < n → Reached b.nodes b._offset n

variable {b : Buffer} {n : ℕ}

/-! ## The three paths -/

/-- A call that is not refused pops its bytes and takes them off `_size`.
SOURCE: api/socket.cc:152-159, 322-361, 608-630 -/
theorem doRead_accepted (outBuffer : List UInt8) (hpos : 0 < n) (hint : n < 2 ^ 31)
    (hle : n ≤ b._size) :
    b.doRead outBuffer n =
      (b.popBuffer outBuffer n).map fun r =>
        ((n : ℤ), r.1, { r.2 with _size := toUint32 (r.2._size - n) }) := by
  unfold Buffer.doRead
  rw [toUint32_natCast (by omega), if_neg (by omega)]

/-- A call for no bytes, or for more than there are, is refused.
SOURCE: api/socket.cc:152-159, 608-630 -/
theorem doRead_refused {outLen : ℤ} (outBuffer : List UInt8)
    (hint : -2 ^ 31 ≤ outLen ∧ outLen < 2 ^ 31) (h : outLen = 0 ∨ b._size < outLen) :
    b.doRead outBuffer outLen = some (-1, outBuffer, b) := by
  unfold Buffer.doRead
  rw [if_pos]
  rcases h with hzero | hmore
  · exact .inr hzero
  · left
    unfold toUint32
    omega

/-- What is left of a head. -/
theorem headRest_eq {c : List UInt8} {nodes : List (List UInt8)} (hnodes : b.nodes = c :: nodes) :
    b.headRest = c.length - b._offset := by
  rw [Buffer.headRest, hnodes]
  rfl

/-- What is written from the first byte on. -/
theorem overwrite_zero {out bytes : List UInt8} (h : bytes.length = n) :
    overwrite out 0 bytes = bytes ++ out.drop n := by
  simp [overwrite, h]

/-- The paths that copy, copy the first bytes of the stream.
SOURCE: api/socket.cc:322-361 -/
theorem popBuffer_copies (h : Blocks b.nodes) {outBuffer : List UInt8} (hpos : 0 < n)
    (hint : n < 2 ^ 31) (hout : n ≤ outBuffer.length) (hcopy : Copies b n) :
    ∃ b', b.popBuffer outBuffer n = some (b.stream.take n ++ outBuffer.drop n, b') ∧
      b'.stream = b.stream.drop n := by
  have henough := hcopy.enough
  have hin := hcopy.inHead
  have hbytes : (b.stream.take n).length = n := by
    rw [List.length_take]
    omega
  unfold Buffer.popBuffer
  cases hnodes : b.nodes with
  | nil =>
    rw [Buffer.stream, hnodes, List.flatten_nil, List.drop_nil, List.length_nil] at henough
    omega
  | cons c nodes =>
    rw [hnodes] at h hin
    have hoff : b._offset ≤ c.length := hin
    have hc := (h c List.mem_cons_self).2
    have hrest := headRest_eq hnodes
    simp only [restOf_eq hc hoff, toUint32_natCast (show n < 2 ^ 32 by omega)]
    by_cases hlt : n < c.length - b._offset
    · have htake : b.stream.take n = (c.drop b._offset).take n := by
        rw [Buffer.stream, hnodes, flatten_drop_cons hoff,
          List.take_append_of_le_length (by rw [List.length_drop]; omega)]
      rw [if_pos hlt, memcpy_eq (by omega) (by omega), ← htake, overwrite_zero hbytes,
        ← Int.natCast_add, toUint32_natCast (by omega)]
      exact ⟨_, rfl, hnodes ▸ (taken_head hnodes hlt).stream⟩
    · have hne : n ≠ c.length - b._offset := hrest ▸ hcopy.notRest
      have hreach := hcopy.reached (by omega)
      rw [if_neg hlt, if_neg hne, ← hnodes]
      rw [← hnodes] at h hin
      obtain ⟨left, hleft⟩ := popNodes_copyOut outBuffer 0 h hin hreach henough hpos
        (by omega)
      obtain ⟨-, -, hstream⟩ := popNodes_frame h hin hpos hreach hleft
      rw [hleft, Option.map_some, ← overwrite_zero hbytes]
      exact ⟨{ b with nodes := left.1, _offset := left.2 }, rfl, hstream⟩

/-- A call that returns copies what it has to, or it frees the node and leaves the caller's buffer
alone.
SOURCE: api/socket.cc:322-361 -/
theorem copies_of_popBuffer (h : Blocks b.nodes) {outBuffer : List UInt8}
    {r : List UInt8 × Buffer} (hpos : 0 < n) (hint : n < 2 ^ 31)
    (hr : b.popBuffer outBuffer n = some r) : Copies b n ∨ r.1 = outBuffer := by
  unfold Buffer.popBuffer at hr
  cases hnodes : b.nodes with
  | nil => simp [hnodes] at hr
  | cons c nodes =>
    have hc := (hnodes ▸ h : Blocks (c :: nodes)) c List.mem_cons_self
    have hrest := headRest_eq hnodes
    simp only [hnodes, toUint32_natCast (show n < 2 ^ 32 by omega)] at hr
    by_cases heq : n = restOf c b._offset
    · rw [if_neg (by omega), if_pos heq] at hr
      obtain rfl := Option.some.inj hr
      exact .inr rfl
    · left
      -- with `_offset` past the end of the head nothing can be copied
      have hoff : b._offset ≤ c.length := by
        by_contra hpast
        have hnone (m : ℤ) : bytesAt c b._offset m = none := by
          unfold bytesAt
          rw [if_neg]
          omega
        rw [if_neg heq, popNodes] at hr
        simp [memcpy, copyOut, hnone] at hr
      have hstream : b.stream = c.drop b._offset ++ nodes.flatten := by
        rw [Buffer.stream, hnodes, flatten_drop_cons hoff]
      rw [restOf_eq hc.2 hoff] at heq hr
      by_cases hlt : n < c.length - b._offset
      · refine ⟨hnodes ▸ hoff, ?_, by omega, fun hmore => by omega⟩
        rw [hstream, List.length_append, List.length_drop]
        omega
      · rw [if_neg hlt, if_neg heq, ← hnodes] at hr
        obtain ⟨r', hr', -⟩ := Option.map_eq_some_iff.mp hr
        have hin : InHead b.nodes b._offset := hnodes ▸ hoff
        have hreach := reached_of_copyOut h hin hr'
        exact ⟨hin, (popNodes_frame h hin hpos hreach hr').2.1, by omega, fun _ => hreach⟩

/-- There is a buffer of the caller with other bytes. -/
theorem exists_other (bytes : List UInt8) (hpos : 0 < n) :
    ∃ other : List UInt8, other.length = n ∧ other ≠ bytes := by
  by_cases hzero : bytes = List.replicate n 0
  · refine ⟨List.replicate n 1, List.length_replicate, ?_⟩
    rw [hzero, Ne, List.replicate_right_inj (by omega)]
    decide
  · exact ⟨List.replicate n 0, List.length_replicate, Ne.symm hzero⟩

/-! ## Every call -/

/-- **`doRead`.**  In every state the operations lead to, a call does what it has to do exactly when
the bytes of a request that is granted are copied: they are not exactly the rest of the head, the
loop that collects them gets to no block of `2 ^ 31` bytes or more, and the buffer has them, with its
`_offset` in the head.  The last is so after every run whose `doReadLine` calls find their separators
in the first `2 ^ 31 - 1` bytes.
SOURCE: api/socket.cc:152-159, 322-361 -/
theorem doRead_right (b : Buffer) (hreach : system.Reachable b) (outLen : ℤ)
    (hint : -2 ^ 31 ≤ outLen ∧ outLen < 2 ^ 31) :
    (ReadsRight b outLen ↔ (0 < outLen → outLen ≤ b._size → Copies b outLen.toNat)) ∧
      (system.Via ShortLine b → InHead b.nodes b._offset ∧ b._size ≤ b.stream.length) := by
  have h := blocks_of_reachable hreach
  refine ⟨⟨fun hright hpos hle => ?_, fun hcopies => ⟨?_, ?_⟩⟩, fun hvia => ?_⟩
  · obtain ⟨n, rfl⟩ := Int.eq_ofNat_of_zero_le hpos.le
    have hread := hright.read hpos hle
    simp only [Int.toNat_natCast] at hread ⊢
    obtain ⟨other, hother, hdiff⟩ := exists_other (n := n) (b.stream.take n) (by omega)
    obtain ⟨b', hdo, -⟩ := hread other (by omega)
    rw [doRead_accepted other (by omega) (by omega) (by omega)] at hdo
    obtain ⟨r, hr, heq⟩ := Option.map_eq_some_iff.mp hdo
    refine (copies_of_popBuffer h (by omega) (by omega) hr).resolve_right fun hsame => hdiff ?_
    rw [Prod.mk.injEq, Prod.mk.injEq, List.drop_eq_nil_of_le (by omega), List.append_nil] at heq
    exact hsame.symm.trans heq.2.1
  · intro hpos hle outBuffer hout
    have hcopy := hcopies hpos hle
    obtain ⟨n, rfl⟩ := Int.eq_ofNat_of_zero_le hpos.le
    simp only [Int.toNat_natCast] at hcopy ⊢
    obtain ⟨b', hpop, hstream⟩ := popBuffer_copies h (by omega) (by omega)
      (show n ≤ outBuffer.length by omega) hcopy
    refine ⟨{ b' with _size := toUint32 (b'._size - n) }, ?_, hstream⟩
    rw [doRead_accepted outBuffer (by omega) (by omega) (by omega), hpop]
    rfl
  · intro hno outBuffer
    exact doRead_refused outBuffer hint hno
  · have hinv := inv_of_via hvia
    refine ⟨hinv.front.inHead, ?_⟩
    rw [hinv.size]
    exact Nat.mod_le _ _

/-- Two blocks, from which a byte more than the first is read.
SOURCE: api/socket.cc:152-159, 608-630 -/
theorem doRead_right_across :
    ReadsRight { _size := 5, _offset := 1, nodes := [[1, 2, 3], [4, 5, 6]] } 3 := by
  have hrun : system.run start [.pushData [1, 2, 3], .pushData [4, 5, 6], .doRead [0] 1] =
      some { _size := 5, _offset := 1, nodes := [[1, 2, 3], [4, 5, 6]] } := rfl
  have hreach := System.reachable_of_run (show system.init start from rfl) hrun
  refine (doRead_right _ hreach 3 (by decide)).1.mpr fun _ _ => ?_
  exact ⟨by simp [InHead], by decide, by decide, fun _ => by simp [Reached]⟩

/-- A block of three bytes, of which all three are read: the caller's buffer is left as it was.
SOURCE: api/socket.cc:152-159, 608-630 -/
theorem doRead_skips_copy : ¬ ∀ (b : Buffer), system.Reachable b → ∀ outLen : ℤ,
    -2 ^ 31 ≤ outLen ∧ outLen < 2 ^ 31 → ReadsRight b outLen := by
  intro hall
  have hrun : system.run start [.pushData [1, 2, 3]] =
      some { _size := 3, _offset := 0, nodes := [[1, 2, 3]] } := rfl
  have hreach := System.reachable_of_run (show system.init start from rfl) hrun
  obtain ⟨b', hdo, -⟩ := (hall _ hreach 3 (by decide)).read (by decide) (by decide)
    [0, 0, 0] (by decide)
  have hout : (Buffer.doRead { _size := 3, _offset := 0, nodes := [[1, 2, 3]] } [0, 0, 0] 3).map
      (fun r => r.2.1) = some [1, 2, 3] := by
    rw [hdo]
    rfl
  revert hout
  decide

end MagicNet.Receive
