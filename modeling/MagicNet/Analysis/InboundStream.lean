import MagicNet.Analysis.DoRead
import MagicNet.Analysis.ReadLine
import MagicNet.Model.Inbound

/-!
# The stream from the descriptor to the caller

Every byte that `recv` returns for a connection is in one place: in a message that is in the mailbox,
in the socket's buffer, or in what has left it, unless the slot was half closed and it was freed at once;
and one after the other these are what has been received, in order.  What a call gives its caller is the front of the stream that it takes off, but
for the path of `popBuffer` that does not copy.

The messages of all sockets are in one mailbox, and each goes to its own socket: the steps of one
connection leave those of the others as they are.

SOURCE: network/socketSystem.cc:77-85, 720-768, api/socket.cc:152-203, 395-413, 446-528, 608-682, 714-721
-/

set_option autoImplicit false

namespace MagicNet.Inbound

open MagicNet.Foundation MagicNet.Network
open MagicNet.Receive (Buffer Line Small Taken readSep)
open MagicNet.Suspend (Request)

/-! ## What a call gives is what it takes -/

variable {b : Buffer} {out sep : List UInt8} {n : ℤ}

/-- A call of `doRead` that gets bytes has room for them and does not ask for exactly the rest of the
head. -/
def Copied (b : Buffer) (out : List UInt8) (n : ℤ) : Prop :=
  0 < n → n ≤ b._size → n ≤ out.length ∧ n ≠ b.headRest

/-- The request reads from the buffer what it takes: the bytes are copied, or the separator is no
longer than an `int`. -/
def Reads (b : Buffer) : Request → Prop
  | .doRead out n => (-2 ^ 31 ≤ n ∧ n < 2 ^ 31) ∧ Copied b out n
  | .doReadLine sep => sep ≠ [] ∧ sep.length < 2 ^ 31

/-- And where there is not enough, a call that has waited reads all there is. -/
def ReadsAfter (b : Buffer) : Request → Prop
  | .doRead out n => Reads b (.doRead out n) ∧ (n ≤ 0 ∨ b._size < n → Copied b out b._size)
  | .doReadLine sep => Reads b (.doReadLine sep)

instance (b : Buffer) : DecidablePred (Reads b)
  | .doRead out n => inferInstanceAs (Decidable (_ ∧ (0 < n → n ≤ b._size → n ≤ out.length ∧ _)))
  | .doReadLine _ => inferInstanceAs (Decidable (_ ∧ _))

instance (b : Buffer) : DecidablePred (ReadsAfter b)
  | .doRead out n =>
    inferInstanceAs (Decidable (Reads b (.doRead out n) ∧ (n ≤ 0 ∨ b._size < n →
      (0 : ℤ) < b._size → (b._size : ℤ) ≤ b._size → (b._size : ℤ) ≤ out.length ∧ _)))
  | .doReadLine sep => inferInstanceAs (Decidable (Reads b (.doReadLine sep)))

/-- `doRead` gives the front of the stream.
SOURCE: api/socket.cc:152-159 -/
theorem doRead_gives (h : Small b) (hcopied : Copied b out n) (hint : -2 ^ 31 ≤ n ∧ n < 2 ^ 31)
    {r : ℤ × List UInt8 × Buffer} (hr : b.doRead out n = some r) :
    readGives b out n ++ r.2.2.stream = b.stream := by
  have hsize := h.size
  have hlen := h.length
  by_cases hrefused : n = 0 ∨ b._size < n ∨ n < 0
  · have hcall : b.doRead out n = some (-1, out, b) := by
      rw [Buffer.doRead, if_pos]
      unfold toUint32
      omega
    obtain rfl := Option.some.inj (hcall.symm.trans hr)
    rw [readGives, hcall]
    rfl
  · have hcount : (n.toNat : ℤ) = n := by omega
    obtain ⟨hroom, hrest⟩ := hcopied (by omega) (by omega)
    have hcopies : Receive.Copies b n.toNat :=
      ⟨h.inv.front.inHead, by omega, by omega,
        fun _ => Receive.reached_of_small h.inv.front.inHead hlen⟩
    obtain ⟨b', hpop, hstream⟩ : ∃ b', b.popBuffer out n.toNat =
        some (b.stream.take n.toNat ++ out.drop n.toNat, b') ∧ b'.stream = b.stream.drop n.toNat :=
      Receive.popBuffer_copies h.inv.blocks (by omega) (by omega) (by omega) hcopies
    have hcall := Receive.doRead_accepted (b := b) (n := n.toNat) out (by omega) (by omega) (by omega)
    rw [hcount] at hpop hcall
    rw [hpop, Option.map_some] at hcall
    obtain rfl := Option.some.inj (hcall.symm.trans hr)
    have hbytes : (b.stream.take n.toNat).length = n.toNat := by
      rw [List.length_take]
      omega
    show readGives b out n ++ b'.stream = b.stream
    rw [readGives, hcall]
    simp only [if_neg (show ¬ n = -1 by omega)]
    rw [List.take_left' hbytes, hstream, List.take_append_drop]

/-- Only a call that is refused returns -1.
SOURCE: api/socket.cc:152-159, 608-630 -/
theorem doRead_neg (h : Small b) {r : ℤ × List UInt8 × Buffer} (hr : b.doRead out n = some r)
    (hneg : r.1 = -1) : r = (-1, out, b) ∧ (n = 0 ∨ b._size < toUint32 n) := by
  have hsize := h.size
  have hlen := h.length
  unfold Buffer.doRead at hr
  split at hr
  · next hrefused => exact ⟨(Option.some.inj hr).symm, hrefused.symm⟩
  · next haccepted =>
    obtain ⟨r', -, rfl⟩ := Option.map_eq_some_iff.mp hr
    have hn : n = -1 := hneg
    unfold toUint32 at haccepted
    omega

/-- **A line that is found** and its separator are the front of the stream; where none is found the
buffer is left as it is.
SOURCE: api/socket.cc:161-192, 632-653 -/
theorem doReadLine_gives (h : Small b) (hsep : sep ≠ [] ∧ sep.length < 2 ^ 31) {r : Line × Buffer}
    (hr : b.doReadLine false sep = some r) :
    (r = (.empty, b) ∨ ∃ line, r.1 = .line line) ∧ lineGives b sep ++ r.2.stream = b.stream := by
  have hgives : lineGives b sep = withSep sep r.1 := by
    rw [lineGives, hr]
    rfl
  unfold Buffer.doReadLine at hr
  by_cases hnodes : b.nodes = []
  · rw [if_pos hnodes] at hr
    obtain rfl := Option.some.inj hr
    exact ⟨.inl rfl, by rw [hgives]; rfl⟩
  · rw [if_neg hnodes] at hr
    obtain ⟨found, hfound, hr⟩ := Option.bind_eq_some_iff.mp hr
    cases found with
    | none =>
      obtain rfl := Option.some.inj hr
      exact ⟨.inl rfl, by rw [hgives]; rfl⟩
    | some i =>
      obtain ⟨r', hpop, rfl⟩ := Option.map_eq_some_iff.mp hr
      have hread : readSep sep = sep := by
        rw [readSep, Nat.mod_eq_of_lt (by omega), List.take_length]
      have hle := Receive.findSep_found h hnodes hfound
      rw [hread] at hle
      have hlen := h.length
      have hint : sep.length % 2 ^ 32 < 2 ^ 31 := by omega
      obtain ⟨hfirst, hnone⟩ := Receive.findSep_short h hnodes hint (by rw [hread]; exact hsep.1)
        (by rw [hread]; omega)
      rw [hread] at hfirst hnone
      have hstands : ∃ k, sep <+: b.stream.drop k := by
        by_contra hno
        push Not at hno
        cases (hnone hno).symm.trans hfound
      obtain ⟨k, hk⟩ := exists_firstAt hstands
      obtain rfl : k = i := Option.some.inj (Option.some.inj ((hfirst k hk).symm.trans hfound))
      have hpos := List.length_pos_iff.mpr hsep.1
      obtain ⟨b', hline, htaken⟩ :=
        Receive.popString_line h (show 0 < k + sep.length by omega) hle
      have hsum : toInt32 (k + sep.length) = (k + sep.length : ℕ) := by
        rw [← Int.natCast_add, Receive.toInt32_natCast (by omega)]
      rw [hsum, Receive.toInt32_natCast (by omega), hline] at hpop
      obtain rfl := Option.some.inj hpop
      refine ⟨.inr ⟨_, rfl⟩, ?_⟩
      obtain ⟨rest, hrest⟩ := hk.here
      rw [hgives]
      show (b.stream.take k ++ sep) ++ b'.stream = b.stream
      rw [htaken.stream, ← List.drop_drop, ← hrest, List.drop_left, List.append_assoc, hrest,
        List.take_append_drop]

/-- `doReadAll` gives the stream.
SOURCE: api/socket.cc:194-204 -/
theorem readNodes_eq {nodes : List (List UInt8)} {offset : ℕ} (hblocks : Receive.Blocks nodes)
    (hin : Receive.InHead nodes offset) :
    Buffer.readNodes nodes offset = some (nodes.flatten.drop offset) := by
  induction nodes generalizing offset with
  | nil => simp [Buffer.readNodes]
  | cons c nodes ih =>
    have hoff : offset ≤ c.length := hin
    have hc := (hblocks c List.mem_cons_self).2
    rw [Buffer.readNodes, Receive.restOf_eq hc hoff, Receive.bytesAt_eq (by omega),
      Option.bind_some, ih hblocks.tail (Receive.inHead_zero nodes), Option.map_some, List.drop_zero,
      Receive.flatten_drop_cons hoff, List.take_of_length_le (by rw [List.length_drop])]

/-- `doReadAll` gives it all.
SOURCE: api/socket.cc:194-204 -/
theorem doReadAll_gives (h : Small b) {r : List UInt8 × Buffer} (hr : b.doReadAll = some r) :
    allGives b = b.stream ∧ r.2.stream = [] := by
  have hnodes := readNodes_eq h.inv.blocks h.inv.front.inHead
  rw [Buffer.doReadAll, hnodes, Option.map_some] at hr
  obtain rfl := Option.some.inj hr
  refine ⟨?_, ?_⟩
  · rw [allGives, Buffer.doReadAll, hnodes]
    rfl
  · simp [Buffer.stream, Buffer.freeNodes]

/-- A buffer that is cleared has nothing.
SOURCE: api/socket.cc:250-256 -/
theorem clearBuffer_stream (b : Buffer) : b.clearBuffer.stream = [] := by
  simp [Buffer.stream, Buffer.clearBuffer, Buffer.freeNodes]

/-! ## What an event of a socket does with its buffer -/

variable {k k' : Suspend.State}

/-- A buffer that is left with the stream it has not given. -/
structure Leaves (b b' : Buffer) (given : List UInt8) : Prop where
  small : Small b'
  stream : given ++ b'.stream = b.stream

/-- Where nothing leaves, nothing changes. -/
theorem Leaves.refl (h : Small b) : Leaves b b [] := ⟨h, rfl⟩

/-- A buffer of which nothing is left. -/
theorem leaves_freeNodes (h : Small b) : Leaves b { b.freeNodes with _size := 0 } b.stream := by
  have hnil : Buffer.stream { b.freeNodes with _size := 0 } = [] := by
    simp [Buffer.stream, Buffer.freeNodes]
  refine ⟨⟨Receive.inv_freeNodes h.inv, ?_⟩, ?_⟩
  · rw [hnil]
    decide
  · rw [hnil, List.append_nil]

/-- What `doRead` gives leaves the buffer.
SOURCE: api/socket.cc:152-159 -/
theorem leaves_doRead (h : Small b) (hint : -2 ^ 31 ≤ n ∧ n < 2 ^ 31) (hcopied : Copied b out n)
    {r : ℤ × List UInt8 × Buffer} (hr : b.doRead out n = some r) :
    Leaves b r.2.2 (readGives b out n) :=
  ⟨Receive.small_doRead h hint.2 hr, doRead_gives h hcopied hint hr⟩

/-- So does what `doReadLine` gives.
SOURCE: api/socket.cc:161-192 -/
theorem leaves_doReadLine (h : Small b) (hsep : sep ≠ [] ∧ sep.length < 2 ^ 31) {r : Line × Buffer}
    (hr : b.doReadLine false sep = some r) : Leaves b r.2 (lineGives b sep) :=
  ⟨Receive.small_doReadLine h hr, (doReadLine_gives h hsep hr).2⟩

/-- So does what `doReadAll` gives.
SOURCE: api/socket.cc:194-204 -/
theorem leaves_doReadAll (h : Small b) {r : List UInt8 × Buffer} (hr : b.doReadAll = some r) :
    Leaves b r.2 (allGives b) := by
  rw [(doReadAll_gives h hr).1]
  obtain ⟨read, -, rfl⟩ := Option.map_eq_some_iff.mp hr
  exact leaves_freeNodes h

/-- A call before it waits. -/
theorem tryRead_leaves {q : Request} (h : Small k.m_buffer) (hreads : Reads k.m_buffer q)
    {r : Bool × Suspend.State} (hr : k.tryRead q = some r) :
    Leaves k.m_buffer r.2.m_buffer (tryGives k q) ∧ r.2.pooled = k.pooled := by
  cases q with
  | doRead out n =>
    obtain ⟨hint, hcopied⟩ := hreads
    obtain ⟨r', hr', rfl⟩ := Option.map_eq_some_iff.mp hr
    exact ⟨leaves_doRead h hint hcopied hr', rfl⟩
  | doReadLine sep =>
    obtain ⟨r', hr', hr⟩ := Option.bind_eq_some_iff.mp hr
    have hline := leaves_doReadLine h hreads hr'
    have hcases := (doReadLine_gives h hreads hr').1
    simp only [tryGives, hr', Option.map_some, Option.some.injEq]
    rcases hcases with rfl | ⟨line, hfound⟩
    · simp only [ne_eq, not_true_eq_false, if_false] at hr
      rw [if_pos rfl]
      split at hr
      · next hconnected =>
        obtain rfl := Option.some.inj hr
        rw [if_pos hconnected]
        exact ⟨.refl h, rfl⟩
      · next hconnected =>
        obtain ⟨r'', hr'', rfl⟩ := Option.map_eq_some_iff.mp hr
        rw [if_neg hconnected]
        exact ⟨leaves_doReadAll h hr'', rfl⟩
    · have hne : r'.1 ≠ .empty := by
        rw [hfound]
        nofun
      simp only [if_pos hne, Option.some.injEq] at hr
      rw [← hr, if_neg hne]
      exact ⟨hline, rfl⟩

/-- Waiting leaves the buffer. -/
@[simp] theorem wait_m_buffer (q : Request) : (k.wait q).m_buffer = k.m_buffer := by
  unfold Suspend.State.wait
  split_ifs <;> rfl

/-- It leaves the socket in the pool. -/
@[simp] theorem wait_pooled (q : Request) : (k.wait q).pooled = k.pooled := by
  unfold Suspend.State.wait
  split_ifs <;> rfl

/-- A call takes from the buffer what it gives.
SOURCE: api/socket.cc:608-655 -/
theorem read_leaves {q : Request} (h : Small k.m_buffer) (hreads : Reads k.m_buffer q)
    (hr : k.read q = some k') :
    Leaves k.m_buffer k'.m_buffer (tryGives k q) ∧ k'.pooled = k.pooled := by
  obtain ⟨r, htried, rfl⟩ := Option.map_eq_some_iff.mp hr
  have htry := tryRead_leaves h hreads htried
  split
  · rwa [wait_m_buffer, wait_pooled]
  · exact htry

/-- A call that has waited. -/
theorem afterRead_leaves {q : Request} (h : Small k.m_buffer) (hreads : ReadsAfter k.m_buffer q)
    (hr : k.afterRead q = some k') :
    Leaves k.m_buffer k'.m_buffer (afterGives k q) ∧ k'.pooled = k.pooled := by
  cases q with
  | doRead out n =>
    obtain ⟨⟨hint, hcopied⟩, hrest⟩ := hreads
    obtain ⟨r, hr', hr⟩ := Option.bind_eq_some_iff.mp hr
    have hread := leaves_doRead h hint hcopied hr'
    simp only [afterGives, hr', Option.map_some, Option.some.injEq]
    by_cases hrefused : r.1 = -1
    · obtain ⟨rfl, hmore⟩ := doRead_neg h hr' hrefused
      simp only [ne_eq, not_true_eq_false, if_false] at hr
      have hsize : toInt32 k.m_buffer._size = k.m_buffer._size := by
        rw [h.size, Receive.toInt32_natCast h.length]
      have hlen := h.length
      rw [← h.size] at hlen
      have hall : Copied k.m_buffer out k.m_buffer._size := by
        apply hrest
        unfold toUint32 at hmore
        omega
      rw [hsize] at hr
      obtain ⟨r, hr', rfl⟩ := Option.map_eq_some_iff.mp hr
      rw [if_pos rfl, hsize]
      exact ⟨leaves_doRead h (by omega) hall hr', rfl⟩
    · simp only [if_pos hrefused, Option.some.injEq] at hr
      rw [← hr, if_neg hrefused]
      exact ⟨hread, rfl⟩
  | doReadLine sep =>
    simp only [Suspend.State.afterRead] at hr
    simp only [afterGives]
    split at hr
    · next hconnected =>
      obtain ⟨r, hr', rfl⟩ := Option.map_eq_some_iff.mp hr
      rw [if_pos hconnected]
      exact ⟨leaves_doReadLine h hreads hr', rfl⟩
    · next hconnected =>
      obtain ⟨r, hr', rfl⟩ := Option.map_eq_some_iff.mp hr
      rw [if_neg hconnected]
      exact ⟨leaves_doReadAll h hr', rfl⟩

/-- Waking the one that closes leaves the buffer. -/
@[simp] theorem wakeClosing_m_buffer (k : Suspend.State) :
    k.wakeClosing.m_buffer = k.m_buffer := by
  unfold Suspend.State.wakeClosing
  split <;> rfl

/-- It leaves the pool. -/
@[simp] theorem wakeClosing_pooled (k : Suspend.State) : k.wakeClosing.pooled = k.pooled := by
  unfold Suspend.State.wakeClosing
  split <;> rfl

/-- It leaves the connection. -/
@[simp] theorem wakeClosing_m_connected (k : Suspend.State) :
    k.wakeClosing.m_connected = k.m_connected := by
  unfold Suspend.State.wakeClosing
  split <;> rfl

/-- Waking the reader leaves the buffer.
SOURCE: api/socket.cc:143-150 -/
@[simp] theorem doWakeup_m_buffer (k : Suspend.State) : k.doWakeup.m_buffer = k.m_buffer := by
  unfold Suspend.State.doWakeup
  split <;> rfl

/-- It leaves the pool.
SOURCE: api/socket.cc:143-150 -/
@[simp] theorem doWakeup_pooled (k : Suspend.State) : k.doWakeup.pooled = k.pooled := by
  unfold Suspend.State.doWakeup
  split <;> rfl

/-- The end of the connection leaves the buffer. -/
@[simp] theorem disconnect_m_buffer (k : Suspend.State) : k.disconnect.m_buffer = k.m_buffer := by
  unfold Suspend.State.disconnect
  split
  · exact doWakeup_m_buffer _
  · rfl

/-- It leaves the pool. -/
@[simp] theorem disconnect_pooled (k : Suspend.State) : k.disconnect.pooled = k.pooled := by
  unfold Suspend.State.disconnect
  split
  · exact doWakeup_pooled _
  · rfl

/-- A call that has waited and finds the buffer of `k`. -/
theorem afterRead_leaves_of {t : Suspend.State} {q : Request} (hbuffer : t.m_buffer = k.m_buffer)
    (hconnected : t.m_connected = k.m_connected) (h : Small k.m_buffer)
    (hreads : ReadsAfter k.m_buffer q) (hr : t.afterRead q = some k') :
    Leaves k.m_buffer k'.m_buffer (afterGives k q) ∧ k'.pooled = t.pooled := by
  have hsame : afterGives t q = afterGives k q := by
    cases q <;> simp only [afterGives, hbuffer, hconnected]
  rw [← hbuffer] at h hreads
  rw [← hbuffer, ← hsame]
  exact afterRead_leaves h hreads hr

/-- The bytes an event puts into the buffer. -/
def arrives : Suspend.Event → List UInt8
  | .onData data => data
  | _ => []

/-- What a step of a socket asks for: a call reads what it takes, the coroutine that has made the
connection finds it connected or is the last that has the socket, and the buffer stays below `2 ^ 31`
bytes. -/
def Fits (k : Suspend.State) : Suspend.Event → Prop
  | .read q => Reads k.m_buffer q
  | .resumeReader => ∀ r ∈ k.reader, ReadsAfter k.m_buffer r.request
  | .resumeConnector => k.m_connected = true ∨ k.reader = none ∧ k.closer = none
  | .onData data => k.m_buffer.stream.length + data.length < 2 ^ 31
  | _ => True

instance (k : Suspend.State) : DecidablePred (Fits k)
  | .read q => inferInstanceAs (Decidable (Reads k.m_buffer q))
  | .resumeReader => inferInstanceAs (Decidable (∀ r ∈ k.reader, ReadsAfter k.m_buffer r.request))
  | .resumeConnector =>
    inferInstanceAs (Decidable (k.m_connected = true ∨ k.reader = none ∧ k.closer = none))
  | .onData data => inferInstanceAs (Decidable (k.m_buffer.stream.length + data.length < 2 ^ 31))
  | .doClose | .resumeCloser | .doSetLimit _ | .onError | .onClose => isTrue trivial

/-- The buffer of a socket: of one that is not in the pool nothing is left. -/
structure Held (k : Suspend.State) : Prop where
  small : Small k.m_buffer
  empty : k.pooled = false → k.m_buffer.stream = []

/-- The bytes that leave a socket, given away and dropped. -/
def bytesOf (l : List (Fate × List UInt8)) : List UInt8 := (l.map Prod.snd).flatten

/-- What a step keeps of the stream: what arrives is at its end, and what leaves was at its front. -/
structure Passes (k : Suspend.State) (e : Suspend.Event) (k' : Suspend.State) : Prop where
  held : Held k'
  stream : bytesOf (leaves k e) ++ k'.m_buffer.stream = k.m_buffer.stream ++ arrives e

/-- A step that only takes bytes, from a socket that stays in the pool or that is not in it. -/
theorem Passes.of_leaves {e : Suspend.Event} {given : List UInt8} (h : Held k)
    (hleaves : Leaves k.m_buffer k'.m_buffer given) (hgiven : bytesOf (leaves k e) = given)
    (harrives : arrives e = []) (hpooled : k'.pooled = k.pooled) : Passes k e k' := by
  refine ⟨⟨hleaves.small, fun hout => ?_⟩, ?_⟩
  · have hnil := hleaves.stream
    rw [h.empty (hpooled ▸ hout)] at hnil
    exact (List.append_eq_nil_iff.mp hnil).2
  · rw [hgiven, harrives, List.append_nil, hleaves.stream]

/-- A step that leaves the buffer and the pool alone. -/
theorem Passes.of_eq {e : Suspend.Event} (h : Held k) (hbuffer : k'.m_buffer = k.m_buffer)
    (hpooled : k'.pooled = k.pooled) (hleaves : leaves k e = []) (harrives : arrives e = []) :
    Passes k e k' := by
  have hsame : Leaves k.m_buffer k'.m_buffer [] := by
    rw [hbuffer]
    exact .refl h.small
  exact .of_leaves h hsame (by rw [hleaves]; rfl) harrives hpooled

/-- A step that removes the socket. -/
theorem Passes.of_remove {e : Suspend.Event} {t : Suspend.State} (h : Held k)
    (ht : t.m_buffer = k.m_buffer) (hleaves : leaves k e = [(.dropped, cleared k.m_buffer)])
    (harrives : arrives e = []) : Passes k e t.remove := by
  have hall := leaves_freeNodes h.small
  rw [← ht] at hall
  refine ⟨⟨hall.small, fun _ => clearBuffer_stream _⟩, ?_⟩
  rw [hleaves, harrives]
  show cleared k.m_buffer ++ [] ++ t.m_buffer.clearBuffer.stream = k.m_buffer.stream ++ []
  rw [clearBuffer_stream, List.append_nil, List.append_nil, List.append_nil]
  rfl

/-- A message that comes.
SOURCE: api/socket.cc:499-529 -/
theorem onData_passes {data : List UInt8} (h : Held k) (hpos : 0 < data.length)
    (hfits : k.m_buffer.stream.length + data.length < 2 ^ 31) (hs : k.onData data = some k') :
    Passes k (.onData data) k' := by
  have hpush : Small (k.m_buffer.pushData data) := by
    refine ⟨Receive.inv_pushData h.small.inv hpos (by omega), ?_⟩
    rw [Receive.pushData_stream h.small.inv, List.length_append]
    exact hfits
  have hstream : (k.m_buffer.pushData data).stream = k.m_buffer.stream ++ data :=
    Receive.pushData_stream h.small.inv
  by_cases hpooled : k.pooled = true
  · -- the buffer is as `pushData` leaves it, or all of it is cleared
    suffices hbuffer : k'.pooled = true ∧
        (overflows k data = false ∧ k'.m_buffer = k.m_buffer.pushData data ∨
          overflows k data = true ∧ k'.m_buffer = (k.m_buffer.pushData data).clearBuffer) by
      obtain ⟨hpooled', hbuffer⟩ := hbuffer
      rcases hbuffer with ⟨hover, hbuffer⟩ | ⟨hover, hbuffer⟩
      · refine ⟨⟨hbuffer ▸ hpush, fun hout => absurd (hout.symm.trans hpooled') nofun⟩, ?_⟩
        simp only [leaves, hpooled, hover, arrives, hbuffer, hstream, not_true_eq_false, if_false,
          Bool.false_eq_true, bytesOf, List.map_nil, List.flatten_nil, List.nil_append]
      · have hall := leaves_freeNodes hpush
        refine ⟨⟨hbuffer ▸ hall.small, fun hout => absurd (hout.symm.trans hpooled') nofun⟩, ?_⟩
        simp only [leaves, hpooled, hover, arrives, hbuffer, clearBuffer_stream, not_true_eq_false,
          if_false, if_true, bytesOf, List.map_cons, List.map_nil, List.flatten_cons,
          List.flatten_nil, List.append_nil]
        exact hstream
    unfold Suspend.State.onData at hs
    rw [if_neg (not_not.mpr hpooled)] at hs
    unfold overflows
    cases hrequired : k.m_readRequired with
    | int tmpsz =>
      simp only [hrequired, Option.some.injEq] at hs
      rw [← hs]
      split
      · simp [hpooled]
      · simp [hpooled]
    | empty =>
      simp only [hrequired, Option.some.injEq] at hs
      rw [← hs]
      split
      · next hover => simp [hpooled, hover]
      · next hover => simp [hpooled, hover]
    | string sep =>
      simp only [hrequired] at hs
      split at hs
      · next hover =>
        obtain rfl := Option.some.inj hs
        simp [hpooled, hover]
      · next hover =>
        obtain ⟨r, -, rfl⟩ := Option.map_eq_some_iff.mp hs
        split
        · simp [hpooled, hover]
        · simp [hpooled, hover]
  · rw [Suspend.State.onData, if_pos hpooled] at hs
    obtain rfl := Option.some.inj hs
    have hnil := h.empty (Bool.eq_false_iff.mpr hpooled)
    refine ⟨h, ?_⟩
    simp [leaves, hpooled, arrives, bytesOf, hnil]

/-- The coroutine in `makeSocket` goes on: the socket is connected, or it goes with its buffer. -/
theorem resumeConnector_passes (h : Held k)
    (hfits : k.m_connected = true ∨ k.reader = none ∧ k.closer = none)
    (hs : Suspend.act k .resumeConnector = some k') :
    Passes k .resumeConnector (after k .resumeConnector k') := by
  simp only [Suspend.act, Option.ite_none_right_eq_some, Option.some.injEq,
    wakeClosing_m_connected] at hs
  obtain ⟨-, rfl⟩ := hs
  by_cases hconnected : k.m_connected = true
  · have hkept : destroys k .resumeConnector = false := by simp [destroys, hconnected]
    rw [after, hkept, if_pos hconnected]
    exact .of_eq h (wakeClosing_m_buffer k) (wakeClosing_pooled k) (by simp [leaves, hkept]) rfl
  · obtain ⟨hreader, hcloser⟩ := hfits.resolve_left hconnected
    have hgone : destroys k .resumeConnector = true := by
      simp [destroys, hconnected, hreader, hcloser]
    rw [after, hgone, if_pos rfl, if_neg hconnected]
    have hleaves : leaves k .resumeConnector = [(.dropped, cleared k.m_buffer)] := by
      simp [leaves, hgone]
    exact .of_remove (t := { k.wakeClosing with connector := false, m_connected := k.m_connected }) h
      (wakeClosing_m_buffer k) hleaves rfl

/-- **One step of a socket**: what arrives goes to the end of the stream, and what leaves comes off
its front. -/
theorem socket_step {e : Suspend.Event} (h : Held k) (hfits : Fits k e)
    (hs : Suspend.step k e = some k') : Passes k e (after k e k') := by
  simp only [Suspend.step, Option.ite_none_left_eq_some] at hs
  obtain ⟨-, hs⟩ := hs
  cases e with
  | read q =>
    simp only [Suspend.act, Option.ite_none_right_eq_some] at hs
    obtain ⟨hleaves, hpooled⟩ := read_leaves h.small hfits hs.2
    exact .of_leaves h hleaves (List.append_nil _) rfl hpooled
  | doClose =>
    simp only [Suspend.act, Option.ite_none_right_eq_some, Option.some.injEq] at hs
    obtain ⟨-, rfl⟩ := hs
    unfold Suspend.State.doClose
    by_cases hpooled : k.pooled = true
    · rw [if_neg (not_not.mpr hpooled)]
      by_cases hconnected : k.m_connected = true
      · have hnone : leaves k .doClose = [] := by simp [leaves, hconnected]
        rw [if_pos hconnected]
        split_ifs
        · exact .of_eq h rfl rfl hnone rfl
        · exact .of_eq h rfl rfl hnone rfl
        · exact .of_eq h rfl rfl hnone rfl
      · rw [if_neg hconnected]
        exact .of_remove h rfl (by simp [leaves, hpooled, hconnected]) rfl
    · rw [if_pos hpooled]
      exact .of_eq h rfl rfl (by simp [leaves, hpooled]) rfl
  | resumeReader =>
    obtain ⟨r, hr, hs⟩ := Option.bind_eq_some_iff.mp hs
    simp only [Option.ite_none_right_eq_some] at hs
    have hreads : ReadsAfter k.m_buffer r.request := hfits r hr
    obtain ⟨-, hs⟩ := hs
    obtain ⟨hleaves, hpooled⟩ := afterRead_leaves_of (t := { k.wakeClosing with reader := none })
      (wakeClosing_m_buffer k) (wakeClosing_m_connected k) h.small hreads hs
    refine .of_leaves h hleaves ?_ rfl (hpooled.trans (wakeClosing_pooled k))
    rw [leaves, hr]
    exact List.append_nil _
  | resumeCloser =>
    obtain ⟨c, -, hs⟩ := Option.bind_eq_some_iff.mp hs
    simp only [Option.ite_none_right_eq_some, Option.some.injEq] at hs
    obtain ⟨-, rfl⟩ := hs
    refine .of_remove h ?_ rfl rfl
    show (if c.place = .doSuspend then k.wakeClosing else k).m_buffer = k.m_buffer
    split
    · exact wakeClosing_m_buffer k
    · rfl
  | resumeConnector => exact resumeConnector_passes h hfits hs
  | doSetLimit limit =>
    simp only [Suspend.act, Option.ite_none_right_eq_some, Option.some.injEq] at hs
    obtain ⟨-, rfl⟩ := hs
    exact .of_eq h rfl rfl rfl rfl
  | onData data =>
    simp only [Suspend.act, Option.ite_none_right_eq_some] at hs
    exact onData_passes h hs.1.1 hfits hs.2
  | onError =>
    obtain rfl := Option.some.inj hs
    exact .of_eq h (disconnect_m_buffer k) (disconnect_pooled k) rfl rfl
  | onClose =>
    obtain rfl := Option.some.inj hs
    exact .of_eq h (disconnect_m_buffer k) (disconnect_pooled k) rfl rfl

/-! ## Every run -/

/-- What a step asks for: it fits its socket. -/
def Cond (s : State) : Event → Prop
  | .dispatch => ∀ m ∈ s.mailbox.head?, Fits (s.conns m.1).socket (.onData m.2)
  | .call id e => Fits (s.conns id).socket e
  | _ => True

instance (s : State) : DecidablePred (Cond s)
  | .dispatch =>
    inferInstanceAs (Decidable (∀ m ∈ s.mailbox.head?, Fits (s.conns m.1).socket (.onData m.2)))
  | .call id e => inferInstanceAs (Decidable (Fits (s.conns id).socket e))
  | .recv _ _ | .slot _ _ | .doShutdown _ => isTrue trivial

/-- What every run keeps: each socket has its buffer, and what has left it, what is in it and what is
on the way are together what has been forwarded, in order. -/
structure Inv (s : State) : Prop where
  held : ∀ id, Held (s.conns id).socket
  stream : ∀ id, bytesOf (s.conns id).out ++ (s.conns id).socket.m_buffer.stream ++ s.inFlight id =
    (s.conns id).forwarded

variable {s s' : State}

/-- The bytes of what leaves first, and of what leaves then. -/
theorem bytesOf_append (l m : List (Fate × List UInt8)) :
    bytesOf (l ++ m) = bytesOf l ++ bytesOf m := by
  simp [bytesOf]

/-- At the start nothing has been received. -/
theorem inv_of_starts (h : Starts s) : Inv s := by
  have hbuffer (id : ℤ) : (s.conns id).socket.m_buffer = Receive.start := by
    rcases h.sockets id with hknown | hunknown
    · exact hknown.m_buffer
    · exact hunknown.m_buffer
  have hnil (id : ℤ) : (s.conns id).socket.m_buffer.stream = [] := by rw [hbuffer]; rfl
  refine ⟨fun id => ⟨?_, fun _ => hnil id⟩, fun id => ?_⟩
  · rw [hbuffer]
    exact Receive.small_start
  · rw [h.out, Connection.forwarded, h.received, hnil, State.inFlight, h.mailbox]
    rfl

/-- **One event of a socket**, with the message it takes out of the mailbox, if any.
SOURCE: api/socket.cc:499-529 -/
theorem onSocket_inv {id : ℤ} {e : Suspend.Event} {mailbox : List (ℤ × List UInt8)} (h : Inv s)
    (hfits : Fits (s.conns id).socket e)
    (hmailbox : ∀ id', s.inFlight id' =
      (if id' = id then arrives e else []) ++ State.inFlight { s with mailbox := mailbox } id')
    (hs : State.onSocket { s with mailbox := mailbox } id e = some s') : Inv s' := by
  obtain ⟨k, hk, rfl⟩ := Option.map_eq_some_iff.mp hs
  have hpasses := socket_step (h.held id) hfits hk
  refine ⟨fun id' => ?_, fun id' => ?_⟩
  · by_cases hid : id' = id
    · subst hid
      simpa [State.update] using hpasses.held
    · simpa [State.update, hid] using h.held id'
  · have hstream := h.stream id'
    rw [hmailbox id'] at hstream
    by_cases hid : id' = id
    · subst hid
      simp only [State.update, Function.update_self, bytesOf_append, if_true,
        Connection.forwarded_mk] at hstream ⊢
      have hpass := hpasses.stream
      rw [← hstream]
      simp only [List.append_assoc] at hpass ⊢
      congr 1
      rw [← List.append_assoc, hpass, List.append_assoc]
      rfl
    · simp only [State.update, Function.update_of_ne hid, if_neg hid, List.nil_append] at hstream ⊢
      exact hstream

/-- The front message is on the way to its socket. -/
theorem inFlight_cons (id id' : ℤ) (data : List UInt8) (rest : List (ℤ × List UInt8)) :
    State.inFlight { s with mailbox := (id, data) :: rest } id' =
      (if id' = id then data else []) ++ State.inFlight { s with mailbox := rest } id' := by
  by_cases hid : id' = id
  · subst hid
    simp [State.inFlight]
  · have hne : id ≠ id' := fun h => hid h.symm
    simp [State.inFlight, hid, hne]

/-- A new message is behind the others. -/
theorem inFlight_append (id id' : ℤ) (data : List UInt8) :
    State.inFlight { s with mailbox := s.mailbox ++ [(id, data)] } id' =
      s.inFlight id' ++ (if id' = id then data else []) := by
  by_cases hid : id' = id
  · subst hid
    simp [State.inFlight]
  · have hne : id ≠ id' := fun h => hid h.symm
    simp [State.inFlight, hid, hne]

/-- A slot that the poll thread has changed. -/
theorem inv_slot (h : Inv s) (id : ℤ) (c : Slot) :
    Inv (s.update id { s.conns id with slot := c }) := by
  refine ⟨fun id' => ?_, fun id' => ?_⟩
  · by_cases hid : id' = id
    · subst hid
      simpa [State.update] using h.held id'
    · simpa [State.update, hid] using h.held id'
  · by_cases hid : id' = id
    · subst hid
      simpa [State.update, State.inFlight] using h.stream id'
    · simpa [State.update, State.inFlight, hid] using h.stream id'

/-- Bytes that come in are forwarded, or freed by a slot that is half closed. -/
theorem forwarded_append (c : Connection) (slot : Slot) (halfClosed : Bool) (data : List UInt8) :
    Connection.forwarded { c with slot := slot, received := c.received ++ [⟨halfClosed, data⟩] } =
      c.forwarded ++ if halfClosed then [] else data := by
  cases halfClosed <;> simp [Connection.forwarded]

/-- What is read while the slot is half closed is freed.
SOURCE: network/socketSystem.cc:720-772 -/
theorem freed_append (c : Connection) (slot : Slot) (halfClosed : Bool) (data : List UInt8) :
    Connection.freed { c with slot := slot, received := c.received ++ [⟨halfClosed, data⟩] } =
      c.freed ++ if halfClosed then data else [] := by
  cases halfClosed <;> simp [Connection.freed]

/-- Bytes that `doRecvProc` frees.
SOURCE: network/socketSystem.cc:720-772 -/
theorem inv_freed (h : Inv s) (id : ℤ) (c : Slot) (data : List UInt8) :
    Inv (s.update id { s.conns id with
      slot := c, received := (s.conns id).received ++ [⟨true, data⟩] }) := by
  refine ⟨fun id' => ?_, fun id' => ?_⟩
  · by_cases hid : id' = id
    · subst hid
      simpa [State.update] using h.held id'
    · simpa [State.update, hid] using h.held id'
  · by_cases hid : id' = id
    · subst hid
      have hsame := forwarded_append (s.conns id') c true data
      rw [if_pos rfl, List.append_nil] at hsame
      simp only [State.update, Function.update_self, State.inFlight]
      rw [hsame]
      exact h.stream id'
    · simpa [State.update, State.inFlight, hid] using h.stream id'

/-- Bytes that come in.
SOURCE: network/socketSystem.cc:77-85, 720-768 -/
theorem inv_recv (h : Inv s) (id : ℤ) (c : Slot) (data : List UInt8) :
    Inv { s.update id { s.conns id with
        slot := c, received := (s.conns id).received ++ [⟨false, data⟩] } with
      mailbox := s.mailbox ++ [(id, data)] } := by
  refine ⟨fun id' => ?_, fun id' => ?_⟩
  · by_cases hid : id' = id
    · subst hid
      simpa [State.update] using h.held id'
    · simpa [State.update, hid] using h.held id'
  · have hstream := h.stream id'
    have hflight := inFlight_append (s := s) id id' data
    by_cases hid : id' = id
    · subst hid
      have hnew := forwarded_append (s.conns id') c false data
      rw [if_neg Bool.false_ne_true] at hnew
      rw [if_pos rfl] at hflight
      simp only [State.inFlight, State.update, Function.update_self] at hstream hflight ⊢
      rw [hflight, ← List.append_assoc, hstream, hnew]
    · rw [if_neg hid, List.append_nil] at hflight
      simp only [State.inFlight, State.update, Function.update_of_ne hid] at hstream hflight ⊢
      rw [hflight, hstream]

/-- `doShutdown` throws away what is in the buffer.
SOURCE: api/socket.cc:714-721 -/
theorem inv_doShutdown {id : ℤ} (h : Inv s) (hs : s.doShutdown id = some s') : Inv s' := by
  simp only [State.doShutdown, Option.ite_none_left_eq_some] at hs
  obtain ⟨-, hs⟩ := hs
  by_cases hpooled : (s.conns id).socket.pooled = true
  · rw [if_pos hpooled, Option.some.injEq] at hs
    subst hs
    have hleaves := leaves_freeNodes (h.held id).small
    refine ⟨fun id' => ?_, fun id' => ?_⟩
    · by_cases hid : id' = id
      · subst hid
        simp only [State.update, Function.update_self]
        exact ⟨hleaves.small, fun _ => clearBuffer_stream _⟩
      · simpa [State.update, hid] using h.held id'
    · by_cases hid : id' = id
      · subst hid
        have hstream := h.stream id'
        have hall : bytesOf [(.dropped, cleared (s.conns id').socket.m_buffer)] =
            (s.conns id').socket.m_buffer.stream := List.append_nil _
        simp only [State.update, Function.update_self, bytesOf_append, clearBuffer_stream, hall,
          Connection.forwarded_mk]
        rw [List.append_nil]
        exact hstream
      · simpa [State.update, State.inFlight, hid] using h.stream id'
  · rw [if_neg hpooled, Option.some.injEq] at hs
    rw [← hs]
    exact h

/-- **One step** keeps every stream. -/
theorem step_inv {e : Event} (h : Inv s) (hc : Cond s e) (hs : step s e = some s') : Inv s' := by
  cases e with
  | recv id data =>
    simp only [step, State.recv, Option.ite_none_right_eq_some] at hs
    obtain ⟨-, hs⟩ := hs
    obtain ⟨r, -, rfl⟩ := Option.map_eq_some_iff.mp hs
    by_cases hhalf : (s.conns id).slot.s.m_state = .HALFCLOSE
    · simp only [hhalf, decide_true, if_true]
      exact inv_freed h id r.1 data
    · simp only [hhalf, decide_false, Bool.false_eq_true, if_false]
      exact inv_recv h id r.1 data
  | slot id c =>
    obtain rfl := Option.some.inj hs
    exact inv_slot h id c
  | dispatch =>
    simp only [step] at hs
    split at hs
    · cases hs
    · next id data rest hmailbox =>
      refine onSocket_inv h ?_ (fun id' => ?_) hs
      · exact hc (id, data) (by rw [hmailbox]; rfl)
      · have hfirst := inFlight_cons (s := s) id id' data rest
        rwa [← hmailbox] at hfirst
  | call id e =>
    have hsocket : s.onSocket id e = some s' ∧ arrives e = [] := by
      cases e with
      | onData data => cases hs
      | _ => exact ⟨hs, rfl⟩
    refine onSocket_inv h hc (fun id' => ?_) hsocket.1
    rw [hsocket.2, ite_self]
    rfl
  | doShutdown id => exact inv_doShutdown h hs

/-- What the calls have given before anything was thrown away. -/
def given (c : Connection) : List UInt8 := bytesOf (c.out.takeWhile fun p => p.1 = .returned)

/-- What calls have given is the beginning of what has left. -/
theorem given_starts (c : Connection) : given c <+: bytesOf c.out := by
  refine ⟨bytesOf (c.out.dropWhile fun p => p.1 = .returned), ?_⟩
  rw [given, ← bytesOf_append, List.takeWhile_append_dropWhile]

/-- **From `recv` to the caller.**  In every run of the poll thread and an actor with any number of
sockets, whose calls read what they take and whose buffers stay below `2 ^ 31` bytes: the bytes of a
connection that have left its buffer, those in the buffer and those in the messages on the way are
together, in this order, all that has been received for it but for what came while the slot was half
closed.  What the calls have given, until the first bytes are thrown away, is the beginning of it.
SOURCE: network/socketSystem.cc:77-85, 720-768, api/socket.cc:152-203, 395-413, 446-528, 608-682, 714-721
-/
theorem inbound_stream (s : State) (h : system.Via Cond s) (id : ℤ) :
    bytesOf (s.conns id).out ++ (s.conns id).socket.m_buffer.stream ++ s.inFlight id =
        (s.conns id).forwarded ∧
      given (s.conns id) <+: (s.conns id).forwarded := by
  have hinv : Inv s := h.invariant (fun t => inv_of_starts) fun t e t' ht hc hs => step_inv ht hc hs
  have hstream := hinv.stream id
  refine ⟨hstream, ?_⟩
  rw [← hstream, List.append_assoc]
  exact (given_starts _).trans (List.prefix_append _ _)

/-- Two connected sockets of an actor. -/
def twoSockets : State where
  conns id :=
    { slot := { s := { m_handle := id, m_opaque := 5, m_sock := id, m_curSender := none, m_sendIn := 0,
                       m_sendQs := [], m_sendBytes := 0, m_sendWarn := WARNING_SIZE,
                       m_recvBufferSize := 128, m_proto := .TCP, m_state := .CONNECTED }
                registered := true, toWrite := false, kernel := [], messages := [] }
      socket := { m_connected := true, m_readRequired := .empty, m_buffer := Receive.start,
                  m_bufferLimit := 0, m_co := none, m_closing := none, pooled := true, entries := 0,
                  reader := none, closer := none, connector := false, closed := false,
                  failed := false }
      received := []
      out := [] }
  mailbox := []

/-- Two sockets that are connected. -/
theorem twoSockets_starts : Starts twoSockets :=
  ⟨fun _ => .inl ⟨rfl, rfl, rfl, rfl, rfl, rfl, rfl, rfl, rfl, rfl, rfl⟩, fun _ => rfl, fun _ => rfl,
    rfl⟩

/-- A read that waits and a line across two blocks, with a message of another socket between; and the
rest is thrown away by a shutdown. -/
def twoReads : List Event :=
  [.recv 1 [1, 2, 3], .recv 2 [9], .recv 1 [4, 5, 10], .call 1 (.read (.doRead [0, 0] 2)), .dispatch,
    .dispatch, .call 1 .resumeReader, .dispatch, .call 1 (.read (.doReadLine [5])), .doShutdown 1]

/-- Two reads on one socket, with bytes left in its buffer. -/
theorem inbound_stream_two : ∃ s, system.Via Cond s ∧
    (s.conns 1).forwarded = [1, 2, 3, 4, 5, 10] ∧ given (s.conns 1) = [1, 2, 3, 4, 5] ∧
      given (s.conns 1) <+: (s.conns 1).forwarded := by
  have hmeets : system.Meets Cond twoSockets twoReads := by decide +kernel
  have hrun : (system.run twoSockets twoReads).any (fun s =>
      (s.conns 1).forwarded = [1, 2, 3, 4, 5, 10] ∧ given (s.conns 1) = [1, 2, 3, 4, 5]) = true := by
    decide +kernel
  obtain ⟨s, hvia, hs⟩ := System.exists_via twoReads _ twoSockets_starts hmeets hrun
  obtain ⟨hforwarded, hgiven⟩ := of_decide_eq_true hs
  exact ⟨s, hvia, hforwarded, hgiven, (inbound_stream s hvia 1).2⟩

end MagicNet.Inbound
