import MagicNet.Model.ReceiveBuffer

/-!
# The stream of a receive buffer

The stream of a receive buffer is the concatenation of its blocks less the first `_offset` bytes.
Every operation that takes bytes takes them off its front: inside the head, exactly the rest of the
head, or in a loop across the blocks.  `Taken` says what each of the three leaves, and `Inv` what all
operations keep.

The loop takes what is left of a block as an `int`; `Reached` says that it is one, for every block the
loop gets to.  After a search for a separator it is so up to the end of the separator
(`findSep_reached`).

SOURCE: api/socket.cc:86-98, 152-203, 231-361
-/

set_option autoImplicit false

namespace MagicNet.Receive

open MagicNet.Foundation MagicNet.Network

/-! ## The stream -/

/-- The bytes that have been received and not read. -/
def Buffer.stream (b : Buffer) : List UInt8 := b.nodes.flatten.drop b._offset

/-- `_offset` is inside the head, or 0 where there is none. -/
def Front : List (List UInt8) → ℕ → Prop
  | [], offset => offset = 0
  | c :: _, offset => offset < c.length

/-- No block is empty, and the size of each is a `uint32_t`. -/
def Blocks (nodes : List (List UInt8)) : Prop := ∀ c ∈ nodes, 0 < c.length ∧ c.length < 2 ^ 32

/-- `_offset` is not past the end of the head. -/
def InHead : List (List UInt8) → ℕ → Prop
  | [], _ => True
  | c :: _, offset => offset ≤ c.length

/-- What the operations keep: the blocks, `_offset` inside the head, and `_size` the length of the
stream on 32 bits. -/
structure Inv (b : Buffer) : Prop where
  blocks : Blocks b.nodes
  front : Front b.nodes b._offset
  size : b._size = b.stream.length % 2 ^ 32

/-- The blocks from which `sz` bytes are taken, the first from `offset` on, have each less than
`2 ^ 31` bytes left. -/
def Reached : List (List UInt8) → ℕ → ℕ → Prop
  | [], _, _ => True
  | c :: rest, offset, sz =>
    c.length - offset < 2 ^ 31 ∧
      (c.length - offset < sz → Reached rest 0 (sz - (c.length - offset)))

/-- A separator that `doReadLine` finds ends in the first `2 ^ 31 - 1` bytes. -/
def ShortLine (b : Buffer) : Event → Prop
  | .doReadLine _ sep => ∀ i, b.findSep sep = some (some i) → i + sep.length < 2 ^ 31
  | _ => True

variable {b b' : Buffer} {c : List UInt8} {nodes : List (List UInt8)} {offset sz : ℕ}

/-- What holds of all blocks holds of those after the first. -/
theorem Blocks.tail (h : Blocks (c :: nodes)) : Blocks nodes :=
  fun d hd => h d (List.mem_cons_of_mem c hd)

/-- An offset in front of the end of the head is in the head. -/
theorem Front.inHead (h : Front nodes offset) : InHead nodes offset := by
  cases nodes with
  | nil => trivial
  | cons c _ => exact Nat.le_of_lt h

/-- So is 0. -/
theorem inHead_zero (nodes : List (List UInt8)) : InHead nodes 0 := by
  cases nodes with
  | nil => trivial
  | cons c _ => exact Nat.zero_le _

/-- Without an offset the head need only not be empty. -/
theorem front_of_blocks (h : Blocks nodes) : Front nodes 0 := by
  cases nodes with
  | nil => rfl
  | cons d _ => exact (h d List.mem_cons_self).1

/-! ## Conversions -/

/-- A small number is kept on 32 bits. -/
theorem toUint32_natCast {n : ℕ} (h : n < 2 ^ 32) : toUint32 n = n := by
  unfold toUint32
  omega

/-- What the head has left.
SOURCE: api/socket.cc:321-361 -/
theorem restOf_eq (hc : c.length < 2 ^ 32) (hoff : offset ≤ c.length) :
    restOf c offset = c.length - offset := by
  unfold restOf toUint32
  omega

/-- A number below `2 ^ 31` keeps its value as a signed one. -/
theorem toInt32_natCast {n : ℕ} (h : n < 2 ^ 31) : toInt32 n = n := by
  unfold toInt32
  apply Int.bmod_eq_of_le <;> omega

/-- What does not fit into an `int` is negative. -/
theorem toInt32_neg {n : ℕ} (h : 2 ^ 31 ≤ n) (h' : n < 2 ^ 32) : toInt32 n < 0 := by
  unfold toInt32
  rw [Int.bmod_def]
  split <;> omega

/-! ## Blocks -/

/-- A copy inside a block reads the bytes there. -/
theorem bytesAt_eq {n : ℕ} (h : offset + n ≤ c.length) :
    bytesAt c offset n = some ((c.drop offset).take n) := by
  unfold bytesAt
  rw [if_pos ⟨Int.natCast_nonneg n, by omega⟩, Int.toNat_natCast]

/-- There is no copy of a negative number of bytes. -/
theorem bytesAt_neg {n : ℤ} (h : n < 0) : bytesAt c offset n = none := by
  unfold bytesAt
  rw [if_neg]
  omega

/-- A copy inside both blocks writes over the bytes at `start`.
SOURCE: api/socket.cc:321-361 -/
theorem memcpy_eq {out : List UInt8} {start n : ℕ} (h : offset + n ≤ c.length)
    (hout : start + n ≤ out.length) :
    memcpy out start c offset n = some (overwrite out start ((c.drop offset).take n)) := by
  have hlen : ((c.drop offset).take n).length = n := by
    rw [List.length_take, List.length_drop]
    omega
  unfold memcpy
  rw [bytesAt_eq h, Option.bind_some, hlen, if_pos hout]

/-- Writing over bytes keeps their number. -/
theorem overwrite_length {out : List UInt8} {start : ℕ} {u : List UInt8}
    (h : start + u.length ≤ out.length) : (overwrite out start u).length = out.length := by
  unfold overwrite
  rw [List.length_append, List.length_append, List.length_take, List.length_drop]
  omega

/-- Two writes, one after the other. -/
theorem overwrite_overwrite (u v out : List UInt8) (start : ℕ)
    (h : start + u.length ≤ out.length) :
    overwrite (overwrite out start u) (start + u.length) v = overwrite out start (u ++ v) := by
  have hlen : (out.take start ++ u).length = start + u.length := by
    rw [List.length_append, List.length_take]
    omega
  unfold overwrite
  rw [List.take_left' hlen, List.drop_append, hlen, List.drop_eq_nil_of_le (by rw [hlen]; omega),
    List.drop_drop, List.length_append, List.nil_append]
  simp only [List.append_assoc]
  congr 4
  omega

/-- The stream is what the head has left, then the other blocks. -/
theorem flatten_drop_cons (h : offset ≤ c.length) :
    (c :: nodes).flatten.drop offset = c.drop offset ++ nodes.flatten := by
  rw [List.flatten_cons, List.drop_append_of_le_length h]

/-! ## The loop across the blocks -/

section PopNodes

variable {β : Type} {copy : List UInt8 → ℕ → ℤ → ℤ → β → Option β} {x : β}

/-- One round of the loop, at a node whose rest is an `int`. -/
theorem popNodes_cons (hc : c.length < 2 ^ 32) (hoff : offset ≤ c.length)
    (hrest : c.length - offset < 2 ^ 31) :
    popNodes copy (c :: nodes) offset sz x =
      (copy c offset sz ((c.length - offset : ℕ) : ℤ) x).bind fun x =>
        if sz ≤ c.length - offset then
          if c.length - offset = sz then some (x, nodes, 0)
          else some (x, c :: nodes, offset + sz)
        else popNodes copy nodes 0 ((sz - (c.length - offset) : ℕ) : ℤ) x := by
  rw [popNodes, restOf_eq hc hoff, toInt32_natCast hrest]
  congr 1
  funext y
  by_cases hle : sz ≤ c.length - offset
  · rw [if_pos hle, if_pos (by omega)]
    by_cases heq : c.length - offset = sz
    · rw [if_pos heq, if_pos (by omega)]
    · rw [if_neg heq, if_neg (by omega), ← Int.natCast_add, toUint32_natCast (by omega)]
  · rw [if_neg hle, if_neg (by omega), if_neg (by omega)]
    congr 1
    omega

/-- The loop leaves no other nodes than it finds. -/
theorem popNodes_mem {n : ℤ} {r : β × List (List UInt8) × ℕ}
    (hr : popNodes copy nodes offset n x = some r) : ∀ d ∈ r.2.1, d ∈ nodes := by
  induction nodes generalizing offset n x with
  | nil => simp [popNodes] at hr
  | cons c nodes ih =>
    rw [popNodes] at hr
    obtain ⟨y, -, hr⟩ := Option.bind_eq_some_iff.mp hr
    have htail : ∀ d ∈ nodes, d ∈ c :: nodes := fun d hd => List.mem_cons_of_mem c hd
    split at hr
    · split at hr
      · obtain rfl := Option.some.inj hr
        exact htail
      · obtain rfl := Option.some.inj hr
        exact fun d hd => hd
    · split at hr
      · obtain rfl := Option.some.inj hr
        exact htail
      · exact fun d hd => htail d (ih hr d hd)

/-- **What the loop leaves**: it ends inside a node or at the start of one, and the stream is the
old one without the bytes taken. -/
theorem popNodes_frame {r : β × List (List UInt8) × ℕ}
    (hblocks : Blocks nodes) (hfront : InHead nodes offset)
    (hpos : 0 < sz) (hreach : Reached nodes offset sz)
    (hr : popNodes copy nodes offset sz x = some r) :
    Front r.2.1 r.2.2 ∧ sz ≤ (nodes.flatten.drop offset).length ∧
      r.2.1.flatten.drop r.2.2 = (nodes.flatten.drop offset).drop sz := by
  induction nodes generalizing offset sz x with
  | nil => simp [popNodes] at hr
  | cons c nodes ih =>
    have hoff : offset ≤ c.length := hfront
    have hc := hblocks c List.mem_cons_self
    have hrest : Blocks nodes := hblocks.tail
    have hnext : Front nodes 0 := front_of_blocks hrest
    have hdrop : (c.drop offset).length = c.length - offset := List.length_drop
    rw [popNodes_cons hc.2 hoff hreach.1] at hr
    obtain ⟨y, -, hr⟩ := Option.bind_eq_some_iff.mp hr
    rw [flatten_drop_cons hoff, List.length_append, hdrop]
    by_cases hle : sz ≤ c.length - offset
    · rw [if_pos hle] at hr
      by_cases heq : c.length - offset = sz
      · rw [if_pos heq] at hr
        obtain rfl := Option.some.inj hr
        refine ⟨hnext, by omega, ?_⟩
        rw [List.drop_left' (hdrop.trans heq)]
        rfl
      · rw [if_neg heq] at hr
        obtain rfl := Option.some.inj hr
        refine ⟨?_, by omega, ?_⟩
        · show offset + sz < c.length
          omega
        · show (c :: nodes).flatten.drop (offset + sz) = _
          rw [flatten_drop_cons (by omega), List.drop_append_of_le_length (by omega),
            List.drop_drop]
    · rw [if_neg hle] at hr
      obtain ⟨hfront', hlen, hstream⟩ :=
        ih hrest hnext.inHead (by omega) (hreach.2 (by omega)) hr
      rw [List.drop_zero] at hlen hstream
      refine ⟨hfront', by omega, ?_⟩
      have hnone : (c.drop offset).drop sz = [] := List.drop_eq_nil_of_le (by omega)
      rw [hstream, List.drop_append, hdrop, hnone, List.nil_append]

end PopNodes

/-- The loop of `popBuffer` stops at a node whose rest is no `int`.
SOURCE: api/socket.cc:322-361 -/
theorem reached_of_copyOut {out : List UInt8 × ℕ} {r : (List UInt8 × ℕ) × List (List UInt8) × ℕ}
    (hblocks : Blocks nodes) (hfront : InHead nodes offset)
    (hr : popNodes copyOut nodes offset sz out = some r) : Reached nodes offset sz := by
  induction nodes generalizing offset sz out with
  | nil => trivial
  | cons c nodes ih =>
    have hoff : offset ≤ c.length := hfront
    have hc := hblocks c List.mem_cons_self
    have hint : c.length - offset < 2 ^ 31 := by
      by_contra hbig
      have hneg := toInt32_neg (n := c.length - offset) (by omega) (by omega)
      rw [popNodes, restOf_eq hc.2 hoff] at hr
      simp only [copyOut, memcpy, bytesAt_neg (lt_of_le_of_lt (min_le_right _ _) hneg)] at hr
      simp at hr
    refine ⟨hint, fun hlt => ?_⟩
    rw [popNodes_cons hc.2 hoff hint] at hr
    obtain ⟨y, -, hr⟩ := Option.bind_eq_some_iff.mp hr
    rw [if_neg (by omega)] at hr
    have hrest : Blocks nodes := hblocks.tail
    exact ih hrest (inHead_zero nodes) hr

/-- **What the loop of `popBuffer` copies**: the first `sz` bytes of the stream.
SOURCE: api/socket.cc:322-361 -/
theorem popNodes_copyOut (out : List UInt8) (written : ℕ)
    (hblocks : Blocks nodes) (hfront : InHead nodes offset)
    (hreach : Reached nodes offset sz) (hsz : sz ≤ (nodes.flatten.drop offset).length)
    (hpos : 0 < sz) (hout : written + sz ≤ out.length) :
    ∃ left, popNodes copyOut nodes offset sz (out, written) =
      some ((overwrite out written ((nodes.flatten.drop offset).take sz), written + sz), left) := by
  induction nodes generalizing offset sz out written with
  | nil =>
    rw [List.flatten_nil, List.drop_nil, List.length_nil] at hsz
    omega
  | cons c nodes ih =>
    have hoff : offset ≤ c.length := hfront
    have hc := hblocks c List.mem_cons_self
    have hrest : Blocks nodes := hblocks.tail
    have hdrop : (c.drop offset).length = c.length - offset := List.length_drop
    rw [popNodes_cons hc.2 hoff hreach.1, flatten_drop_cons hoff]
    simp only [copyOut]
    rw [← Nat.cast_min, Int.toNat_natCast, memcpy_eq (by omega) (by omega)]
    simp only [Option.map_some, Option.bind_some]
    by_cases hle : sz ≤ c.length - offset
    · rw [if_pos hle, min_eq_left hle, List.take_append_of_le_length (by omega)]
      by_cases heq : c.length - offset = sz
      · exact ⟨_, if_pos heq⟩
      · exact ⟨_, if_neg heq⟩
    · rw [flatten_drop_cons hoff, List.length_append, hdrop] at hsz
      have hmin : min sz (c.length - offset) = c.length - offset := min_eq_right (by omega)
      have htake : (c.drop offset).take (c.length - offset) = c.drop offset :=
        List.take_of_length_le hdrop.le
      have hover : (overwrite out written (c.drop offset)).length = out.length :=
        overwrite_length (by omega)
      rw [if_neg hle, hmin, htake]
      obtain ⟨left, hleft⟩ := ih (overwrite out written (c.drop offset))
        (written + (c.length - offset)) hrest (inHead_zero nodes) (hreach.2 (by omega))
        (by rw [List.drop_zero]; omega) (by omega) (by omega)
      refine ⟨left, ?_⟩
      have hjoin := overwrite_overwrite (c.drop offset)
        (nodes.flatten.take (sz - (c.length - offset))) out written (by omega)
      rw [hdrop] at hjoin
      have hall : (c.drop offset).take sz = c.drop offset := List.take_of_length_le (by omega)
      rw [hleft, List.drop_zero, hjoin, List.take_append, hdrop, hall]
      congr 3
      omega

/-! ## The search -/

/-- Where the search answers, what is left of the node it looks at is an `int`.
SOURCE: api/socket.cc:259-276 -/
theorem checkSep_rest {sep : List UInt8} {found : Bool} (hc : c.length < 2 ^ 32)
    (hoff : offset < c.length) (h : checkSep (c :: nodes) offset sep = some found) :
    c.length - offset < 2 ^ 31 := by
  by_contra hbig
  have hneg := toInt32_neg (n := c.length - offset) (by omega) (by omega)
  rw [checkSep, restOf_eq hc hoff.le] at h
  simp only [if_neg (show ¬ (sep.length : ℤ) ≤ toInt32 (c.length - offset : ℕ) by omega),
    if_pos hneg] at h
  simp at h

/-- A separator that is found is found in nodes whose rests are an `int`.
SOURCE: api/socket.cc:259-276 -/
theorem checkSep_reached {sep : List UInt8}
    (hblocks : Blocks nodes) (hfront : Front nodes offset)
    (h : checkSep nodes offset sep = some true) : Reached nodes offset sep.length := by
  induction nodes generalizing offset sep with
  | nil => trivial
  | cons c nodes ih =>
    have hoff : offset < c.length := hfront
    have hc := hblocks c List.mem_cons_self
    have hint := checkSep_rest hc.2 hoff h
    refine ⟨hint, fun hlt => ?_⟩
    rw [checkSep, restOf_eq hc.2 hoff.le, toInt32_natCast hint] at h
    simp only [if_neg (show ¬ (sep.length : ℤ) ≤ (c.length - offset : ℕ) by omega),
      if_neg (show ¬ ((c.length - offset : ℕ) : ℤ) < 0 by omega)] at h
    obtain ⟨read, -, h⟩ := Option.bind_eq_some_iff.mp h
    split at h
    · rw [Int.toNat_natCast] at h
      have hrest : Blocks nodes := hblocks.tail
      have hreach := ih hrest (front_of_blocks hrest) h
      rwa [List.length_drop] at hreach
    · simp at h

/-- The search goes on byte by byte. -/
theorem searchSep_reached {size left i j : ℕ} {sep : List UInt8}
    (hblocks : Blocks nodes) (hfront : Front nodes offset)
    (h : searchSep size sep left nodes offset i = some (some j)) :
    i ≤ j ∧ Reached nodes offset (j - i + sep.length) := by
  induction left generalizing nodes offset i with
  | zero => simp [searchSep] at h
  | succ left ih =>
    cases nodes with
    | nil => simp [searchSep] at h
    | cons c nodes =>
      have hoff : offset < c.length := hfront
      have hc := hblocks c List.mem_cons_self
      rw [searchSep] at h
      split at h
      · simp at h
      · obtain ⟨found, hfound, h⟩ := Option.bind_eq_some_iff.mp h
        have hint := checkSep_rest hc.2 hoff hfound
        split at h
        · next hyes =>
          obtain rfl : i = j := by simpa using h
          rw [Nat.sub_self, Nat.zero_add]
          exact ⟨le_rfl, checkSep_reached hblocks hfront (hyes ▸ hfound)⟩
        · split at h
          · next hlast =>
            -- the next byte is the first of the next node
            split at h
            · simp at h
            · next hne =>
              have hrest : Blocks nodes := hblocks.tail
              have hnext : Front nodes 0 := front_of_blocks hrest
              obtain ⟨hle, hreach⟩ := ih hrest hnext h
              refine ⟨by omega, hint, fun _ => ?_⟩
              rwa [show j - i + sep.length - (c.length - offset) =
                j - (i + 1) + sep.length by omega]
          · next hmore =>
            have hfront' : Front (c :: nodes) (offset + 1) := by
              show offset + 1 < c.length
              omega
            obtain ⟨hle, -, hreach⟩ := ih hblocks hfront' h
            refine ⟨by omega, hint, fun hlt => ?_⟩
            have hrest := hreach (by omega)
            rwa [show j - (i + 1) + sep.length - (c.length - (offset + 1)) =
              j - i + sep.length - (c.length - offset) by omega] at hrest

/-- **The end of a separator is reached** through nodes whose rests are an `int`. -/
theorem findSep_reached {sep : List UInt8} {i : ℕ} (h : Inv b) (hsep : sep.length < 2 ^ 31)
    (hfind : b.findSep sep = some (some i)) :
    Reached b.nodes b._offset (i + sep.length) := by
  have hsame : Buffer.sepOf sep = some sep := by
    unfold Buffer.sepOf
    rw [toInt32_natCast hsep, if_neg (by omega), Int.toNat_natCast, List.take_length]
  rw [Buffer.findSep, hsame, Option.bind_some] at hfind
  have hreach := (searchSep_reached h.blocks h.front hfind).2
  rwa [Nat.sub_zero] at hreach

/-! ## Taking bytes off the front -/

/-- `n` bytes have been taken off the front of the stream; `_size` is not changed yet. -/
structure Taken (b b' : Buffer) (n : ℕ) : Prop where
  blocks : ∀ c ∈ b'.nodes, c ∈ b.nodes
  front : Front b'.nodes b'._offset
  enough : n ≤ b.stream.length
  stream : b'.stream = b.stream.drop n
  size : b'._size = b._size

/-- Bytes inside the head. -/
theorem taken_head {n : ℕ} (hnodes : b.nodes = c :: nodes) (hn : n < c.length - b._offset) :
    Taken b { b with _offset := b._offset + n } n := by
  have hstream : b.stream = c.drop b._offset ++ nodes.flatten := by
    rw [Buffer.stream, hnodes, flatten_drop_cons (by omega)]
  refine ⟨fun d hd => hd, ?_, ?_, ?_, rfl⟩
  · simp only [hnodes]
    show b._offset + n < c.length
    omega
  · rw [hstream, List.length_append, List.length_drop]
    omega
  · rw [hstream, List.drop_append_of_le_length (by rw [List.length_drop]; omega), List.drop_drop]
    show b.nodes.flatten.drop (b._offset + n) = _
    rw [hnodes, flatten_drop_cons (by omega)]

/-- The rest of the head. -/
theorem taken_node {n : ℕ} (h : Inv b) (hnodes : b.nodes = c :: nodes)
    (hn : n = c.length - b._offset) : Taken b b.freeBufferNode n := by
  have hfront := h.front
  have hblocks := h.blocks
  rw [hnodes] at hfront hblocks
  have hoff : b._offset < c.length := hfront
  have hstream : b.stream = c.drop b._offset ++ nodes.flatten := by
    rw [Buffer.stream, hnodes, flatten_drop_cons hoff.le]
  refine ⟨?_, ?_, ?_, ?_, rfl⟩
  · intro d hd
    exact List.mem_of_mem_tail hd
  · simp only [Buffer.freeBufferNode, hnodes, List.tail_cons]
    exact front_of_blocks hblocks.tail
  · rw [hstream, List.length_append, List.length_drop]
    omega
  · rw [hstream, List.drop_left' (by rw [List.length_drop]; omega)]
    simp only [Buffer.stream, Buffer.freeBufferNode, hnodes, List.tail_cons, List.drop_zero]

/-- The bytes a loop takes. -/
theorem taken_loop {β : Type} {copy : List UInt8 → ℕ → ℤ → ℤ → β → Option β} {x : β} {n : ℕ}
    {r : β × List (List UInt8) × ℕ} (h : Inv b) (hpos : 0 < n)
    (hreach : Reached b.nodes b._offset n)
    (hr : popNodes copy b.nodes b._offset n x = some r) :
    Taken b { b with nodes := r.2.1, _offset := r.2.2 } n := by
  obtain ⟨hfront, hlen, hstream⟩ := popNodes_frame h.blocks h.front.inHead hpos hreach hr
  exact ⟨popNodes_mem hr, hfront, hlen, hstream, rfl⟩

/-- A pop that `_size` follows keeps the invariant. -/
theorem inv_of_taken {n : ℕ} (h : Inv b) (ht : Taken b b' n) :
    Inv { b' with _size := toUint32 (b'._size - n) } := by
  refine ⟨fun d hd => h.blocks d (ht.blocks d hd), ht.front, ?_⟩
  have hlen : b'.stream.length = b.stream.length - n := by rw [ht.stream, List.length_drop]
  have henough := ht.enough
  have hsize := h.size
  have hsame := ht.size
  show toUint32 (b'._size - n) = b'.stream.length % 2 ^ 32
  unfold toUint32
  omega

/-! ## The operations -/

/-- The offset is inside the head, whose size fits 32 bits. -/
theorem head_lt (h : Inv b) (hnodes : b.nodes = c :: nodes) :
    b._offset < c.length ∧ c.length < 2 ^ 32 := by
  have hfront := h.front
  have hblocks := h.blocks
  rw [hnodes] at hfront hblocks
  exact ⟨hfront, (hblocks c List.mem_cons_self).2⟩

/-- What `popBuffer` returns with has been taken off the front.
SOURCE: api/socket.cc:322-361 -/
theorem popBuffer_taken {out : List UInt8} {outLen : ℤ} {r : List UInt8 × Buffer} (h : Inv b)
    (hint : outLen < 2 ^ 31) (hr : b.popBuffer out outLen = some r) :
    Taken b r.2 (toUint32 outLen) := by
  unfold Buffer.popBuffer at hr
  cases hnodes : b.nodes with
  | nil => simp [hnodes] at hr
  | cons c nodes =>
    obtain ⟨hoff, hc⟩ := head_lt h hnodes
    simp only [hnodes, restOf_eq hc hoff.le] at hr
    -- a negative length is only taken where nothing is copied
    have hneg (copied : outLen < 0 → False) : ((toUint32 outLen : ℕ) : ℤ) = outLen := by
      have hpos : 0 ≤ outLen := not_lt.mp copied
      unfold toUint32
      omega
    split at hr
    · next hlt =>
      obtain ⟨out', hout, rfl⟩ := Option.map_eq_some_iff.mp hr
      have hcast := hneg fun hn => by
        rw [memcpy, bytesAt_neg hn] at hout
        simp at hout
      have hsum : toUint32 (b._offset + outLen) = b._offset + toUint32 outLen := by
        rw [← hcast, ← Int.natCast_add, toUint32_natCast (by omega), hcast]
      simp only [hsum]
      exact hnodes ▸ taken_head hnodes hlt
    · split at hr
      · next heq =>
        obtain rfl := Option.some.inj hr
        exact taken_node h hnodes heq
      · next hne hgt =>
        obtain ⟨r', hr', rfl⟩ := Option.map_eq_some_iff.mp hr
        rw [← hnodes] at hr'
        have hcast := hneg fun hn => by
          rw [hnodes, popNodes] at hr'
          simp only [copyOut, memcpy, bytesAt_neg (lt_of_le_of_lt (min_le_left _ _) hn)] at hr'
          simp at hr'
        rw [← hcast] at hr'
        exact taken_loop h (by omega) (reached_of_copyOut h.blocks h.front.inHead hr') hr'

/-- What `popString` returns with has been taken off the front.
SOURCE: api/socket.cc:278-320 -/
theorem popString_taken {n : ℕ} {skip : ℤ} {r : List UInt8 × Buffer} (h : Inv b)
    (hint : n < 2 ^ 31) (hreach : Reached b.nodes b._offset n)
    (hr : b.popString n skip = some r) : Taken b r.2 n := by
  unfold Buffer.popString at hr
  cases hnodes : b.nodes with
  | nil => simp [hnodes] at hr
  | cons c nodes =>
    obtain ⟨hoff, hc⟩ := head_lt h hnodes
    simp only [hnodes, restOf_eq hc hoff.le] at hr
    rw [toUint32_natCast (by omega)] at hr
    split at hr
    · next hlt =>
      obtain ⟨read, -, rfl⟩ := Option.map_eq_some_iff.mp hr
      rw [← Int.natCast_add, toUint32_natCast (by omega)]
      exact hnodes ▸ taken_head hnodes hlt
    · split at hr
      · next heq =>
        obtain ⟨read, -, rfl⟩ := Option.map_eq_some_iff.mp hr
        exact taken_node h hnodes heq
      · next hne hgt =>
        obtain ⟨r', hr', rfl⟩ := Option.map_eq_some_iff.mp hr
        rw [← hnodes] at hr'
        exact taken_loop h (by omega) hreach hr'

/-- An empty buffer has the invariant. -/
theorem inv_start : Inv start := ⟨by simp [start, Blocks], rfl, rfl⟩

/-- A buffer from which all nodes have been freed. -/
theorem inv_freeNodes (h : Inv b) : Inv { b.freeNodes with _size := 0 } := by
  have hfree : { b.freeNodes with _size := 0 } = start := by
    unfold Buffer.freeNodes start
    split
    · next hnil =>
      have hfront := h.front
      rw [hnil] at hfront
      rw [show b._offset = 0 from hfront]
    · rfl
  rw [hfree]
  exact inv_start

/-- A block at the end of the chain is a block at the end of the stream.
SOURCE: api/socket.cc:230-248 -/
theorem pushData_stream {data : List UInt8} (h : Inv b) :
    (b.pushData data).stream = b.stream ++ data := by
  have hoff : b._offset ≤ b.nodes.flatten.length := by
    have hfront := h.front
    cases hnodes : b.nodes with
    | nil =>
      rw [hnodes] at hfront
      exact (show b._offset = 0 from hfront).le
    | cons c nodes =>
      have := (head_lt h hnodes).1
      rw [List.flatten_cons, List.length_append]
      omega
  simp only [Buffer.stream, Buffer.pushData, List.flatten_append, List.flatten_singleton]
  rw [List.drop_append_of_le_length hoff]

/-- A block at the end keeps it.
SOURCE: api/socket.cc:230-248 -/
theorem inv_pushData {data : List UInt8} (h : Inv b) (hpos : 0 < data.length)
    (hlt : data.length < 2 ^ 32) : Inv (b.pushData data) := by
  refine ⟨?_, ?_, ?_⟩
  · intro c hc
    rcases List.mem_append.mp hc with hc | hc
    · exact h.blocks c hc
    · rw [List.mem_singleton.mp hc]
      exact ⟨hpos, hlt⟩
  · have hfront := h.front
    show Front (b.nodes ++ [data]) b._offset
    cases hnodes : b.nodes with
    | nil =>
      rw [hnodes] at hfront
      rw [show b._offset = 0 from hfront]
      exact hpos
    | cons c nodes => exact (head_lt h hnodes).1
  · have hsize := h.size
    rw [pushData_stream h, List.length_append]
    show toUint32 (b._size + data.length) = _
    unfold toUint32
    omega

/-- So does a read.
SOURCE: api/socket.cc:152-159, 608-630 -/
theorem inv_doRead {outBuffer : List UInt8} {outLen : ℤ} {r : ℤ × List UInt8 × Buffer} (h : Inv b)
    (hint : outLen < 2 ^ 31) (hr : b.doRead outBuffer outLen = some r) : Inv r.2.2 := by
  unfold Buffer.doRead at hr
  split at hr
  · obtain rfl := Option.some.inj hr
    exact h
  · obtain ⟨r', hr', rfl⟩ := Option.map_eq_some_iff.mp hr
    have htaken := inv_of_taken h (popBuffer_taken h hint hr')
    have hsame : toUint32 (r'.2._size - (toUint32 outLen : ℕ)) = toUint32 (r'.2._size - outLen) := by
      unfold toUint32
      omega
    rwa [hsame] at htaken

/-- And the reading of a line.
SOURCE: api/socket.cc:161-192, 632-653 -/
theorem inv_doReadLine {check : Bool} {sep : List UInt8} {r : Line × Buffer} (h : Inv b)
    (hshort : ShortLine b (.doReadLine check sep)) (hr : b.doReadLine check sep = some r) :
    Inv r.2 := by
  unfold Buffer.doReadLine at hr
  split at hr
  · obtain rfl := Option.some.inj hr
    exact h
  · obtain ⟨found, hfound, hr⟩ := Option.bind_eq_some_iff.mp hr
    cases found with
    | none =>
      obtain rfl := Option.some.inj hr
      exact h
    | some i =>
      simp only at hr
      split at hr
      · obtain rfl := Option.some.inj hr
        exact h
      · obtain ⟨r', hr', rfl⟩ := Option.map_eq_some_iff.mp hr
        have hlt := hshort i hfound
        rw [← Int.natCast_add, toInt32_natCast hlt] at hr'
        have hreach := findSep_reached h (by omega) hfound
        have htaken := inv_of_taken h (popString_taken h hlt hreach hr')
        rwa [Int.natCast_add] at htaken

/-- **One operation** keeps the invariant. -/
theorem inv_step {e : Event} (h : Inv b) (hshort : ShortLine b e) (hs : step b e = some b') :
    Inv b' := by
  cases e with
  | pushData data =>
    simp only [step] at hs
    split at hs
    · next hsize =>
      obtain rfl := Option.some.inj hs
      exact inv_pushData h hsize.1 hsize.2
    · simp at hs
  | doRead outBuffer outLen =>
    simp only [step] at hs
    split at hs
    · next hint =>
      obtain ⟨r, hr, rfl⟩ := Option.map_eq_some_iff.mp hs
      exact inv_doRead h hint.2 hr
    · simp at hs
  | doReadLine check sep =>
    obtain ⟨r, hr, rfl⟩ := Option.map_eq_some_iff.mp hs
    exact inv_doReadLine h hshort hr
  | doReadAll =>
    obtain ⟨r, hr, rfl⟩ := Option.map_eq_some_iff.mp hs
    obtain ⟨read, -, rfl⟩ := Option.map_eq_some_iff.mp hr
    exact inv_freeNodes h
  | clearBuffer =>
    obtain rfl := Option.some.inj hs
    exact inv_freeNodes h

/-! ## Every run keeps the blocks -/

/-- `popBuffer` makes no new blocks.
SOURCE: api/socket.cc:322-361 -/
theorem popBuffer_nodes {out : List UInt8} {outLen : ℤ} {r : List UInt8 × Buffer}
    (hr : b.popBuffer out outLen = some r) : ∀ d ∈ r.2.nodes, d ∈ b.nodes := by
  unfold Buffer.popBuffer at hr
  split at hr
  · simp at hr
  · next c nodes hnodes =>
    split at hr
    · obtain ⟨out', -, rfl⟩ := Option.map_eq_some_iff.mp hr
      exact fun d hd => hd
    · split at hr
      · obtain rfl := Option.some.inj hr
        exact fun d hd => List.mem_of_mem_tail hd
      · obtain ⟨r', hr', rfl⟩ := Option.map_eq_some_iff.mp hr
        exact popNodes_mem hr'

/-- Nor does `popString`.
SOURCE: api/socket.cc:278-320 -/
theorem popString_nodes {sz skip : ℤ} {r : List UInt8 × Buffer}
    (hr : b.popString sz skip = some r) : ∀ d ∈ r.2.nodes, d ∈ b.nodes := by
  unfold Buffer.popString at hr
  split at hr
  · simp at hr
  · next c nodes hnodes =>
    split at hr
    · obtain ⟨read, -, rfl⟩ := Option.map_eq_some_iff.mp hr
      exact fun d hd => hd
    · split at hr
      · obtain ⟨read, -, rfl⟩ := Option.map_eq_some_iff.mp hr
        exact fun d hd => List.mem_of_mem_tail hd
      · obtain ⟨r', hr', rfl⟩ := Option.map_eq_some_iff.mp hr
        exact popNodes_mem hr'

/-- The nodes after an operation are nodes of before, or a new one. -/
theorem blocks_step {e : Event} (h : Blocks b.nodes) (hs : step b e = some b') :
    Blocks b'.nodes := by
  cases e with
  | pushData data =>
    simp only [step] at hs
    split at hs
    · next hsize =>
      obtain rfl := Option.some.inj hs
      intro c hc
      rcases List.mem_append.mp hc with hc | hc
      · exact h c hc
      · rw [List.mem_singleton.mp hc]
        exact hsize
    · simp at hs
  | doRead outBuffer outLen =>
    simp only [step] at hs
    split at hs
    · obtain ⟨r, hr, rfl⟩ := Option.map_eq_some_iff.mp hs
      unfold Buffer.doRead at hr
      split at hr
      · obtain rfl := Option.some.inj hr
        exact h
      · obtain ⟨r', hr', rfl⟩ := Option.map_eq_some_iff.mp hr
        exact fun d hd => h d (popBuffer_nodes hr' d hd)
    · simp at hs
  | doReadLine check sep =>
    obtain ⟨r, hr, rfl⟩ := Option.map_eq_some_iff.mp hs
    unfold Buffer.doReadLine at hr
    split at hr
    · obtain rfl := Option.some.inj hr
      exact h
    · obtain ⟨found, -, hr⟩ := Option.bind_eq_some_iff.mp hr
      cases found with
      | none =>
        obtain rfl := Option.some.inj hr
        exact h
      | some i =>
        simp only at hr
        split at hr
        · obtain rfl := Option.some.inj hr
          exact h
        · obtain ⟨r', hr', rfl⟩ := Option.map_eq_some_iff.mp hr
          exact fun d hd => h d (popString_nodes hr' d hd)
  | doReadAll =>
    obtain ⟨r, hr, rfl⟩ := Option.map_eq_some_iff.mp hs
    obtain ⟨read, -, rfl⟩ := Option.map_eq_some_iff.mp hr
    simp [Blocks, Buffer.freeNodes]
  | clearBuffer =>
    obtain rfl := Option.some.inj hs
    simp [Blocks, Buffer.clearBuffer, Buffer.freeNodes]

/-- Every reachable buffer has only blocks of a size that fits. -/
theorem blocks_of_reachable (h : system.Reachable b) : Blocks b.nodes := by
  refine h.invariant (I := fun b => Blocks b.nodes) ?_ ?_
  · rintro t rfl
    exact inv_start.blocks
  · intro t e t' hblocks _ hs
    exact blocks_step hblocks hs

/-- **What every run keeps**, if the separators it finds are not too far away. -/
theorem inv_of_via (h : system.Via ShortLine b) : Inv b := by
  refine h.invariant ?_ ?_
  · rintro t rfl
    exact inv_start
  · intro t e t' hinv hshort hs
    exact inv_step hinv hshort hs

end MagicNet.Receive
