import MagicNet.Analysis.ReadLine
import MagicNet.Model.BufferChain

/-!
# The layout of a receive buffer

Every node is in one place: in the chain of the buffer, in the pool, or with another socket.  `Holds`
says so, and what the chain has; a node goes from one place to another by four moves, `take`,
`attach`, `detach` and `give`, of which `pushData` is the first two and `freeBufferNode` the last two.

The operations on the chain run in step with those of `Model.ReceiveBuffer` on the list of its blocks
(`oper_rep`), so that what is known of `_size` and `_offset` there holds here.

SOURCE: api/socket.cc:18-98, 152-203, 231-361
-/

set_option autoImplicit false

namespace MagicNet.BufferChain

open MagicNet.Foundation MagicNet.Network
open MagicNet.Receive (memcpy bytesAt popNodes copyOut appendTo Line Buffer restOf)

/-- The nodes of the buffer with their blocks are `l`, and those of the pool `free`. -/
structure Holds (s : State) (l : List (ℕ × Block)) (free : List ℕ) : Prop where
  chain : Chain s.next s.m_buffer._head (l.map Prod.fst)
  tail : s.m_buffer._tail = (l.map Prod.fst).getLast?
  data : ∀ p ∈ l, (s.node p.1)._data = some p.2 ∧ (s.node p.1)._sz = p.2.bytes.length
  pool : Chain s.next s.pool free
  nodup : (l.map Prod.fst ++ (free ++ s.others)).Nodup
  lt : ∀ a ∈ l.map Prod.fst ++ (free ++ s.others), a < s.count
  freed : s.freed ++ l.map (fun p => p.2.id) = List.range s.pushed

/-- The list of blocks that the nodes hold. -/
def blocksOf (s : State) (l : List (ℕ × Block)) : Buffer where
  _size := s.m_buffer._size
  _offset := s.m_buffer._offset
  nodes := l.map fun p => p.2.bytes

/-- The buffer `b` of `Model.ReceiveBuffer` is what the nodes represent. -/
def Rep (s : State) (b : Buffer) : Prop := ∃ l free, Holds s l free ∧ b = blocksOf s l

variable {s t : State} {l : List (ℕ × Block)} {free : List ℕ} {a : ℕ} {n : Node} {b : Buffer}

/-! ## The moves -/

/-- The links after a node has been written. -/
theorem next_setNode : (s.setNode a n).next = Function.update s.next a n._next :=
  funext (Function.apply_update (fun _ => Node._next) s.node a n)

namespace Holds

/-- A node of others is in neither chain. -/
theorem not_mem (h : Holds s l free) (ha : a ∈ s.others) : a ∉ l.map Prod.fst ∧ a ∉ free := by
  obtain ⟨-, hrest, hdisj⟩ := List.nodup_append'.mp h.nodup
  exact ⟨fun hmem => hdisj hmem (List.mem_append_right _ ha),
    fun hmem => (List.nodup_append'.mp hrest).2.2 hmem ha⟩

/-- A write to a node that another socket holds. -/
theorem write (h : Holds s l free) (ha : a ∈ s.others) : Holds (s.setNode a n) l free := by
  obtain ⟨hout, hfree⟩ := h.not_mem ha
  refine ⟨?_, h.tail, fun p hp => ?_, ?_, h.nodup, h.lt, h.freed⟩
  · rw [next_setNode]
    exact h.chain.frame hout
  · have hne : p.1 ≠ a := ne_of_mem_of_not_mem (List.mem_map_of_mem hp) hout
    show (Function.update s.node a n p.1)._data = _ ∧ (Function.update s.node a n p.1)._sz = _
    rw [Function.update_of_ne hne]
    exact h.data p hp
  · rw [next_setNode]
    exact h.pool.frame hfree

/-- A node that another socket gives back.
SOURCE: api/socket.cc:80-84 -/
theorem give (h : Holds s l free) (ha : a ∈ s.others) :
    Holds ({ s with others := s.others.erase a }.pushBufferNode a) l (a :: free) := by
  obtain ⟨-, hfree⟩ := h.not_mem ha
  have hw := h.write (n := { s.node a with _next := s.pool }) ha
  have hperm : (l.map Prod.fst ++ (a :: free ++ s.others.erase a)).Perm
      (l.map Prod.fst ++ (free ++ s.others)) := by
    apply List.Perm.append_left
    rw [List.cons_append]
    exact List.perm_middle.symm.trans ((List.perm_cons_erase ha).symm.append_left free)
  refine ⟨hw.chain, hw.tail, hw.data, ⟨rfl, ?_⟩, hperm.nodup_iff.mpr h.nodup,
    fun c hc => h.lt c (hperm.mem_iff.mp hc), hw.freed⟩
  show Chain (s.setNode a _).next ((s.setNode a _).next a) free
  have hnext : (s.setNode a { s.node a with _next := s.pool }).next a = s.pool := by
    rw [next_setNode, Function.update_self]
  rw [hnext]
  exact hw.pool

/-- The first node leaves the chain, and is held as those of the other sockets are. -/
theorem detach {p : ℕ × Block} (h : Holds s (p :: l) free) :
    Holds { s with
      m_buffer := { s.m_buffer with
        _offset := 0
        _head := s.next p.1
        _tail := if s.next p.1 = none then none else s.m_buffer._tail }
      freed := s.freed ++ ((s.node p.1)._data.map Block.id).toList
      others := p.1 :: s.others } l free := by
  have hrest : Chain s.next (s.next p.1) (l.map Prod.fst) := h.chain.2
  have hperm : (l.map Prod.fst ++ (free ++ p.1 :: s.others)).Perm
      ((p :: l).map Prod.fst ++ (free ++ s.others)) := by
    rw [List.map_cons, List.cons_append]
    exact (List.perm_middle.append_left _).trans List.perm_middle
  refine ⟨hrest, ?_, fun q hq => h.data q (List.mem_cons_of_mem p hq), h.pool,
    hperm.nodup_iff.mpr h.nodup, fun c hc => h.lt c (hperm.mem_iff.mp hc), ?_⟩
  · show (if s.next p.1 = none then none else s.m_buffer._tail) = _
    rw [hrest.head, h.tail]
    cases l with
    | nil => rfl
    | cons q l => simp [List.getLast?_cons_cons]
  · have hid : (s.node p.1)._data = some p.2 := (h.data p List.mem_cons_self).1
    show s.freed ++ ((s.node p.1)._data.map Block.id).toList ++ l.map (fun q => q.2.id) = _
    rw [hid, List.append_assoc]
    exact h.freed

end Holds

/-! ## The pool -/

/-- A row of nodes, each linked to the one that follows. -/
theorem chain_range' {next : ℕ → Option ℕ} {m c : ℕ} (hm : 0 < m)
    (hnext : ∀ a, c ≤ a → a < c + m → next a = if a + 1 < c + m then some (a + 1) else none) :
    Chain next (some c) (List.range' c m) := by
  induction m generalizing c with
  | zero => exact absurd hm (lt_irrefl 0)
  | succ m ih =>
    rw [List.range'_succ]
    refine ⟨rfl, ?_⟩
    rw [hnext c le_rfl (by omega)]
    cases m with
    | zero => simp
    | succ m =>
      rw [if_pos (by omega)]
      refine ih (Nat.succ_pos m) fun a hle hlt => ?_
      rw [hnext a (by omega) (by omega)]
      have harith : c + (m + 1 + 1) = c + 1 + (m + 1) := by omega
      rw [harith]

/-- The pool is given room for one node at least. -/
theorem poolSize_pos (ztb : ℕ) : 0 < State.poolSize ztb := by
  simp only [State.poolSize]
  split <;> positivity

namespace Holds

/-- The first node of the pool is taken. -/
theorem takeNode (h : Holds s l (a :: free)) :
    Holds { s.takeNode a with others := a :: s.others } l free := by
  have hperm : (l.map Prod.fst ++ (free ++ a :: s.others)).Perm
      (l.map Prod.fst ++ (a :: free ++ s.others)) := List.perm_middle.append_left _
  have hheld : Holds { s with pool := s.next a, others := a :: s.others } l free :=
    ⟨h.chain, h.tail, h.data, h.pool.2, hperm.nodup_iff.mpr h.nodup,
      fun c hc => h.lt c (hperm.mem_iff.mp hc), h.freed⟩
  exact hheld.write List.mem_cons_self

/-- The pool is filled when it is empty.
SOURCE: api/socket.cc:40-52 -/
theorem newBufferPool {num : ℕ} (h : Holds s l []) (hnum : 0 < num) (pools : ℕ) :
    Holds { s.newBufferPool num with pools := pools, pool := some s.count } l
      (List.range' s.count num) := by
  have hold : ∀ c < s.count, (s.newBufferPool num).node c = s.node c :=
    fun c hc => if_neg fun hle => absurd hc (Nat.not_lt.mpr hle.1)
  have hl : ∀ p ∈ l, p.1 < s.count := fun p hp =>
    h.lt p.1 (List.mem_append_left _ (List.mem_map_of_mem hp))
  refine ⟨h.chain.congr fun c hc => ?_, h.tail, fun p hp => ?_, chain_range' hnum fun c hle hlt => ?_,
    ?_, fun c hc => ?_, h.freed⟩
  · obtain ⟨p, hp, rfl⟩ := List.mem_map.mp hc
    exact congrArg Node._next (hold _ (hl p hp))
  · show ((s.newBufferPool num).node p.1)._data = _ ∧ ((s.newBufferPool num).node p.1)._sz = _
    rw [hold p.1 (hl p hp)]
    exact h.data p hp
  · show ((s.newBufferPool num).node c)._next = _
    simp only [State.newBufferPool]
    rw [if_pos ⟨hle, hlt⟩]
  · have hperm : (l.map Prod.fst ++ (List.range' s.count num ++ s.others)).Perm
        (List.range' s.count num ++ (l.map Prod.fst ++ s.others)) := by
      rw [← List.append_assoc, ← List.append_assoc]
      exact List.perm_append_comm.append_right _
    refine hperm.nodup_iff.mpr (List.nodup_append'.mpr ⟨List.nodup_range', h.nodup, ?_⟩)
    intro c hc hc'
    have hlt := h.lt c hc'
    have hle := (List.mem_range'_1.mp hc).1
    omega
  · show c < s.count + num
    rcases List.mem_append.mp hc with hc | hc
    · have hlt := h.lt c (List.mem_append_left _ hc)
      omega
    · rcases List.mem_append.mp hc with hc | hc
      · exact (List.mem_range'_1.mp hc).2
      · have hlt := h.lt c (List.mem_append_right _ hc)
        omega

/-- **A node is taken from the pool.**
SOURCE: api/socket.cc:55-78 -/
theorem take (h : Holds s l free) :
    ∃ free', Holds { s.popBufferPool.2 with others := s.popBufferPool.1 :: s.others } l free' := by
  unfold State.popBufferPool
  cases hpool : s.pool with
  | none =>
    obtain rfl : free = [] := (hpool ▸ h.pool).of_none
    have hnew := h.newBufferPool (poolSize_pos s.pools) (s.pools + 1)
    obtain ⟨m, hm⟩ : ∃ m, State.poolSize s.pools = m + 1 :=
      Nat.exists_eq_succ_of_ne_zero (poolSize_pos s.pools).ne'
    rw [hm, List.range'_succ] at hnew
    rw [hm]
    exact ⟨_, hnew.takeNode⟩
  | some a =>
    obtain ⟨free', rfl, -⟩ := (hpool ▸ h.pool).of_some
    exact ⟨free', h.takeNode⟩

/-- A node that is held becomes the last of the chain. -/
theorem attach {node' : ℕ → Node} {data : List UInt8} (h : Holds s l free) (size : ℕ)
    (ha : a ∈ s.others) (hnode : s.node a = ⟨some ⟨s.pushed, data⟩, data.length, none⟩)
    (hnext : (fun c => (node' c)._next) = setLink s.next s.m_buffer._tail (some a))
    (hkeep : ∀ c, (node' c)._data = (s.node c)._data ∧ (node' c)._sz = (s.node c)._sz) :
    Holds { s with
      node := node'
      others := s.others.erase a
      m_buffer := { s.m_buffer with
        _size := size, _head := s.m_buffer._head.or (some a), _tail := some a }
      pushed := s.pushed + 1 } (l ++ [(a, ⟨s.pushed, data⟩)]) free := by
  obtain ⟨hout, hfree⟩ := h.not_mem ha
  obtain ⟨hl, hrest, hdisj⟩ := List.nodup_append'.mp h.nodup
  have hfst : (l ++ [(a, (⟨s.pushed, data⟩ : Block))]).map Prod.fst = l.map Prod.fst ++ [a] := by
    rw [List.map_append]
    rfl
  have hperm : (l.map Prod.fst ++ [a] ++ (free ++ s.others.erase a)).Perm
      (l.map Prod.fst ++ (free ++ s.others)) := by
    rw [List.append_assoc]
    apply List.Perm.append_left
    have hfront : (a :: (free ++ s.others.erase a)).Perm (free ++ a :: s.others.erase a) :=
      List.perm_middle.symm
    exact hfront.trans ((List.perm_cons_erase ha).symm.append_left free)
  refine ⟨?_, ?_, fun p hp => ?_, ?_, ?_, ?_, ?_⟩
  · show Chain (fun c => (node' c)._next) (s.m_buffer._head.or (some a)) _
    rw [hnext, hfst, h.tail, h.chain.head]
    exact h.chain.snoc hl hout (congrArg Node._next hnode)
  · rw [hfst, List.getLast?_append]
    rfl
  · show (node' p.1)._data = _ ∧ (node' p.1)._sz = _
    rw [(hkeep p.1).1, (hkeep p.1).2]
    rcases List.mem_append.mp hp with hp | hp
    · exact h.data p hp
    · obtain rfl := List.mem_singleton.mp hp
      rw [hnode]
      exact ⟨rfl, rfl⟩
  · show Chain (fun c => (node' c)._next) s.pool free
    rw [hnext]
    refine h.pool.congr fun c hc => setLink_of_ne fun heq => ?_
    rw [h.tail] at heq
    exact hdisj (List.mem_of_getLast? heq) (List.mem_append_left _ hc)
  · rw [hfst]
    exact hperm.nodup_iff.mpr h.nodup
  · rw [hfst]
    exact fun c hc => h.lt c (hperm.mem_iff.mp hc)
  · rw [List.map_append, ← List.append_assoc, h.freed]
    exact List.range_succ.symm

end Holds

/-! ## The two ends -/

/-- **A node is freed.**
SOURCE: api/socket.cc:86-98 -/
theorem freeBufferNode_holds {p : ℕ × Block} (h : Holds s (p :: l) free) :
    ∃ t, s.freeBufferNode = some t ∧ Holds t l (p.1 :: free) ∧
      t.m_buffer._size = s.m_buffer._size ∧ t.m_buffer._offset = 0 := by
  have hhead : s.m_buffer._head = some p.1 := h.chain.1
  have hgive := (h.detach.write (n := { s.node p.1 with _data := none, _sz := 0 })
    List.mem_cons_self).give List.mem_cons_self
  simp only [State.setNode, List.erase_cons_head] at hgive
  refine ⟨_, ?_, hgive, rfl, rfl⟩
  rw [State.freeBufferNode, hhead]
  rfl

/-- A node that has been taken leads nowhere.
SOURCE: api/socket.cc:54-78 -/
theorem takeNode_next : (s.takeNode a).next a = none := by
  unfold State.takeNode
  rw [next_setNode]
  exact Function.update_self _ _ _

/-- The pool is what `popBufferPool` changes, and the node it takes has no link.
SOURCE: api/socket.cc:55-78 -/
theorem popBufferPool_eq (s : State) :
    (∃ node count pools pool, s.popBufferPool.2 =
      { s with node := node, count := count, pools := pools, pool := pool }) ∧
    s.popBufferPool.2.next s.popBufferPool.1 = none := by
  unfold State.popBufferPool
  split
  · exact ⟨⟨_, _, _, _, rfl⟩, takeNode_next⟩
  · exact ⟨⟨_, _, _, _, rfl⟩, takeNode_next⟩

/-- A write of a link leaves the blocks. -/
theorem setNode_data (v : Option ℕ) (c : ℕ) :
    ((s.setNode a { s.node a with _next := v }).node c)._data = (s.node c)._data ∧
      ((s.setNode a { s.node a with _next := v }).node c)._sz = (s.node c)._sz := by
  by_cases hc : c = a
  · subst hc
    simp [State.setNode]
  · simp [State.setNode, Function.update_of_ne hc]

/-- **A block is pushed.**
SOURCE: api/socket.cc:231-252 -/
theorem pushData_rep (data : List UInt8) (h : Rep s b) :
    ∃ t, s.pushData data = some t ∧ Rep t (b.pushData data) := by
  obtain ⟨l, free, hholds, rfl⟩ := h
  obtain ⟨free', htake⟩ := hholds.take
  obtain ⟨⟨node, count, pools, pool, hpop⟩, hnull⟩ := popBufferPool_eq s
  simp only [State.pushData]
  generalize s.popBufferPool.1 = a at htake hnull ⊢
  rw [hpop] at htake hnull ⊢
  have hw := htake.write (n := { node a with _data := some ⟨s.pushed, data⟩, _sz := data.length })
    List.mem_cons_self
  have hnode : Function.update node a
      { node a with _data := some ⟨s.pushed, data⟩, _sz := data.length } a =
      ⟨some ⟨s.pushed, data⟩, data.length, none⟩ :=
    (Function.update_self _ _ _).trans (congrArg (Node.mk _ _) hnull)
  have hblocks : (l ++ [(a, (⟨s.pushed, data⟩ : Block))]).map (fun p => p.2.bytes) =
      l.map (fun p => p.2.bytes) ++ [data] := by
    rw [List.map_append]
    rfl
  have hhead := hholds.chain.head
  have htail := hholds.tail
  cases hlast : (l.map Prod.fst).getLast? with
  | none =>
    have hnil : l.map Prod.fst = [] := List.getLast?_eq_none_iff.mp hlast
    rw [hnil] at hhead
    rw [hlast] at htail
    have hattach := hw.attach (toUint32 (s.m_buffer._size + data.length))
      List.mem_cons_self hnode (by
        show _ = setLink _ s.m_buffer._tail _
        rw [htail]
        rfl) fun _ => ⟨rfl, rfl⟩
    simp only [State.setNode, List.erase_cons_head] at hattach
    simp only [State.setNode, hhead, htail, List.head?_nil, Option.none_or] at hattach ⊢
    exact ⟨_, rfl, _, free', hattach, congrArg (Buffer.mk _ _) hblocks.symm⟩
  | some last =>
    have hmem : last ∈ l.map Prod.fst := List.mem_of_getLast? hlast
    obtain ⟨first, hfirst⟩ : ∃ first, (l.map Prod.fst).head? = some first :=
      Option.isSome_iff_exists.mp (by simpa using List.ne_nil_of_mem hmem)
    have hattach := hw.attach (toUint32 (s.m_buffer._size + data.length))
      List.mem_cons_self hnode (by
        show _ = setLink _ s.m_buffer._tail _
        rw [htail, hlast]
        exact next_setNode) (setNode_data (a := last) (some a))
    simp only [State.setNode, List.erase_cons_head] at hattach
    simp only [State.setNode, hhead, hfirst, htail, hlast, Option.some_or] at hattach ⊢
    exact ⟨_, rfl, _, free', hattach, congrArg (Buffer.mk _ _) hblocks.symm⟩

/-! ## What the operations read -/

namespace Holds

/-- The offset is not part of the chains. -/
theorem setOffset (h : Holds s l free) (offset : ℕ) : Holds (s.setOffset offset) l free :=
  ⟨h.chain, h.tail, h.data, h.pool, h.nodup, h.lt, h.freed⟩

/-- Nor is the size. -/
theorem setSize (h : Holds s l free) (size : ℕ) : Holds (s.setSize size) l free :=
  ⟨h.chain, h.tail, h.data, h.pool, h.nodup, h.lt, h.freed⟩

/-- There are no more nodes in the chain than there are. -/
theorem length_le (h : Holds s l free) : l.length ≤ s.count := by
  have hsub : l.map Prod.fst ⊆ List.range s.count := fun a ha =>
    List.mem_range.mpr (h.lt a (List.mem_append_left _ ha))
  have hlen := (List.subperm_of_subset (List.nodup_append'.mp h.nodup).1 hsub).length_le
  rwa [List.length_map, List.length_range] at hlen

/-- The bytes of a node are those of its block. -/
theorem bytes_eq (h : Holds s l free) {p : ℕ × Block} (hp : p ∈ l) : s.bytes p.1 = p.2.bytes := by
  rw [State.bytes, (h.data p hp).1]
  rfl

/-- And what is left of it after the offset. -/
theorem restOf_eq (h : Holds s l free) {p : ℕ × Block} (hp : p ∈ l) :
    s.restOf p.1 = restOf p.2.bytes s.m_buffer._offset := by
  rw [State.restOf, (h.data p hp).2]
  rfl

/-- The buffer as it is read. -/
theorem buffer_eq (h : Holds s l free) : s.buffer = blocksOf s l := by
  have hwalk : walk s.next s.m_buffer._head s.count = l.map Prod.fst :=
    h.chain.walk (by simpa using h.length_le)
  unfold State.buffer blocksOf
  rw [hwalk, List.map_map]
  congr 1
  exact List.map_congr_left fun p hp => h.bytes_eq hp

end Holds

/-- The size of the buffer follows `_size`. -/
theorem Rep.setSize (h : Rep s b) (size : ℕ) : Rep (s.setSize size) { b with _size := size } := by
  obtain ⟨l, free, hholds, rfl⟩ := h
  exact ⟨l, free, hholds.setSize size, rfl⟩

/-- The sizes agree. -/
theorem Rep.size (h : Rep s b) : b._size = s.m_buffer._size := by
  obtain ⟨l, free, -, rfl⟩ := h
  rfl

/-! ## The loops -/

/-- **The loop of the pops** runs in step with the one over the list.
SOURCE: api/socket.cc:292-318, 336-358 -/
theorem popLoop_rel {β : Type} (copy : List UInt8 → ℕ → ℤ → ℤ → β → Option β) {m : ℕ} (sz : ℤ)
    (x : β) (h : Holds s l free) (hm : l.length < m) :
    Option.Rel (fun r q => r.1 = q.1 ∧ Rep r.2 ⟨s.m_buffer._size, q.2.2, q.2.1⟩)
      (State.popLoop copy m s sz x)
      (popNodes copy (l.map fun p => p.2.bytes) s.m_buffer._offset sz x) := by
  induction l generalizing s free m sz x with
  | nil =>
    have hhead : s.m_buffer._head = none := h.chain
    cases m with
    | zero => exact .none
    | succ m =>
      rw [State.popLoop, hhead]
      exact .none
  | cons p l ih =>
    obtain ⟨m, rfl⟩ : ∃ m', m = m' + 1 := ⟨m - 1, by omega⟩
    have hhead : s.m_buffer._head = some p.1 := h.chain.1
    rw [State.popLoop, hhead, Option.bind_some, List.map_cons, popNodes,
      h.bytes_eq List.mem_cons_self, h.restOf_eq List.mem_cons_self]
    apply rel_self
    intro x
    by_cases hle : sz ≤ toInt32 (restOf p.2.bytes s.m_buffer._offset)
    · simp only [hle, if_true]
      by_cases heq : toInt32 (restOf p.2.bytes s.m_buffer._offset) = sz
      · obtain ⟨t, ht, hholds, hsize, hoffset⟩ := freeBufferNode_holds
          (h.setOffset (toUint32 (s.m_buffer._offset + sz)))
        simp only [heq, if_true, ht]
        refine .some ⟨rfl, l, _, hholds, ?_⟩
        rw [blocksOf, hsize, hoffset]
        rfl
      · simp only [heq, if_false]
        exact .some ⟨rfl, p :: l, free, h.setOffset _, rfl⟩
    · obtain ⟨t, ht, hholds, hsize, hoffset⟩ := freeBufferNode_holds h
      simp only [hle, if_false, ht, Option.bind_some]
      by_cases hzero : sz - toInt32 (restOf p.2.bytes s.m_buffer._offset) = 0
      · simp only [hzero, if_true]
        refine .some ⟨rfl, l, _, hholds, ?_⟩
        rw [blocksOf, hsize, hoffset]
      · simp only [hzero, if_false]
        have hrel := ih (sz - toInt32 (restOf p.2.bytes s.m_buffer._offset)) x hholds
          (Nat.lt_of_succ_lt_succ hm)
        rwa [hsize, hoffset] at hrel

/-- The loop of `doReadAll`.
SOURCE: api/socket.cc:194-204 -/
theorem readLoop_rel {m : ℕ} (out : List UInt8) (h : Holds s l free) (hm : l.length < m) :
    Option.Rel (fun r read => r.1 = out ++ read ∧
        Rep r.2 ⟨s.m_buffer._size, if l = [] then s.m_buffer._offset else 0, []⟩)
      (State.readLoop m s out)
      (Buffer.readNodes (l.map fun p => p.2.bytes) s.m_buffer._offset) := by
  induction l generalizing s free m out with
  | nil =>
    obtain ⟨m, rfl⟩ : ∃ m', m = m' + 1 := ⟨m - 1, by omega⟩
    have hhead : s.m_buffer._head = none := h.chain
    rw [State.readLoop, hhead]
    exact .some ⟨(List.append_nil out).symm, [], free, h, rfl⟩
  | cons p l ih =>
    obtain ⟨m, rfl⟩ : ∃ m', m = m' + 1 := ⟨m - 1, by omega⟩
    have hhead : s.m_buffer._head = some p.1 := h.chain.1
    obtain ⟨t, ht, hholds, hsize, hoffset⟩ := freeBufferNode_holds h
    rw [State.readLoop, hhead, List.map_cons, Buffer.readNodes]
    simp only [h.bytes_eq List.mem_cons_self, h.restOf_eq List.mem_cons_self, ht, Option.bind_some]
    apply rel_self
    intro read
    have hrel := ih (out ++ read) hholds (Nat.lt_of_succ_lt_succ hm)
    rw [hoffset] at hrel
    refine rel_map_right hrel ?_
    rintro r rest ⟨hr, hrep⟩
    refine ⟨by rw [hr, List.append_assoc], ?_⟩
    rw [hsize, ite_self] at hrep
    exact hrep

/-- The loop of `clearBuffer`.
SOURCE: api/socket.cc:250-256 -/
theorem clearLoop_rep {m : ℕ} (h : Holds s l free) (hm : l.length < m) :
    ∃ t, State.clearLoop m s = some t ∧
      Rep t ⟨s.m_buffer._size, if l = [] then s.m_buffer._offset else 0, []⟩ := by
  induction l generalizing s free m with
  | nil =>
    obtain ⟨m, rfl⟩ : ∃ m', m = m' + 1 := ⟨m - 1, by omega⟩
    have hhead : s.m_buffer._head = none := h.chain
    rw [State.clearLoop, hhead]
    exact ⟨s, rfl, [], free, h, rfl⟩
  | cons p l ih =>
    obtain ⟨m, rfl⟩ : ∃ m', m = m' + 1 := ⟨m - 1, by omega⟩
    have hhead : s.m_buffer._head = some p.1 := h.chain.1
    obtain ⟨t, ht, hholds, hsize, hoffset⟩ := freeBufferNode_holds h
    obtain ⟨u, hu, hrep⟩ := ih hholds (Nat.lt_of_succ_lt_succ hm)
    rw [State.clearLoop, hhead]
    simp only [ht, Option.bind_some]
    refine ⟨u, hu, ?_⟩
    rw [hsize, hoffset, ite_self] at hrep
    exact hrep

/-! ## The operations -/

/-- `popBuffer` does upon the nodes what it does upon the bytes.
SOURCE: api/socket.cc:322-361 -/
theorem popBuffer_rel (h : Rep s b) (outBuffer : List UInt8) (outLen : ℤ) :
    Option.Rel (fun r q => r.1 = q.1 ∧ Rep r.2 q.2) (s.popBuffer outBuffer outLen)
      (b.popBuffer outBuffer outLen) := by
  obtain ⟨l, free, hholds, rfl⟩ := h
  cases l with
  | nil =>
    have hhead : s.m_buffer._head = none := hholds.chain
    rw [State.popBuffer, hhead]
    exact .none
  | cons p l =>
    have hhead : s.m_buffer._head = some p.1 := hholds.chain.1
    obtain ⟨t, ht, hfreed, hsize, hoffset⟩ := freeBufferNode_holds hholds
    rw [State.popBuffer, hhead, Option.bind_some, hholds.bytes_eq List.mem_cons_self,
      hholds.restOf_eq List.mem_cons_self]
    simp only [Buffer.popBuffer, blocksOf, List.map_cons]
    split
    · exact rel_map rel_eq (by
        rintro out _ rfl
        exact ⟨rfl, p :: l, free, hholds.setOffset _, rfl⟩)
    · split
      · rw [ht]
        refine .some ⟨rfl, l, _, hfreed, ?_⟩
        rw [blocksOf, hsize, hoffset]
        rfl
      · have hrel := popLoop_rel copyOut outLen (outBuffer, 0) hholds
          (Nat.lt_succ_of_le hholds.length_le)
        refine rel_map hrel ?_
        rintro r q ⟨hr, hrep⟩
        exact ⟨by rw [hr], hrep⟩

/-- So does `doRead`.
SOURCE: api/socket.cc:152-159 -/
theorem doRead_rel (h : Rep s b) (outBuffer : List UInt8) (outLen : ℤ) :
    Option.Rel (fun r q => r.1 = q.1 ∧ r.2.1 = q.2.1 ∧ Rep r.2.2 q.2.2)
      (s.doRead outBuffer outLen) (b.doRead outBuffer outLen) := by
  unfold State.doRead Buffer.doRead
  rw [h.size]
  split
  · exact .some ⟨rfl, rfl, h⟩
  · refine rel_map (popBuffer_rel h outBuffer outLen) ?_
    rintro r q ⟨hr, hrep⟩
    refine ⟨rfl, hr, ?_⟩
    rw [hrep.size]
    exact hrep.setSize _

/-- So does `popString`.
SOURCE: api/socket.cc:278-320 -/
theorem popString_rel (h : Rep s b) (sz skip : ℤ) :
    Option.Rel (fun r q => r.1 = q.1 ∧ Rep r.2 q.2) (s.popString sz skip) (b.popString sz skip) := by
  obtain ⟨l, free, hholds, rfl⟩ := h
  cases l with
  | nil =>
    have hhead : s.m_buffer._head = none := hholds.chain
    rw [State.popString, hhead]
    exact .none
  | cons p l =>
    have hhead : s.m_buffer._head = some p.1 := hholds.chain.1
    obtain ⟨t, ht, hfreed, hsize, hoffset⟩ := freeBufferNode_holds hholds
    rw [State.popString, hhead, Option.bind_some, hholds.bytes_eq List.mem_cons_self,
      hholds.restOf_eq List.mem_cons_self]
    simp only [Buffer.popString, blocksOf, List.map_cons]
    split
    · exact rel_map rel_eq (by
        rintro out _ rfl
        exact ⟨rfl, p :: l, free, hholds.setOffset _, rfl⟩)
    · split
      · rw [Option.map_eq_bind, ht]
        apply rel_self
        intro read
        refine .some ⟨rfl, l, _, hfreed, ?_⟩
        rw [blocksOf, hsize, hoffset]
        rfl
      · refine rel_map_right (popLoop_rel (appendTo skip) sz [] hholds
          (Nat.lt_succ_of_le hholds.length_le)) ?_
        rintro r q ⟨hr, hrep⟩
        exact ⟨hr, hrep⟩

/-- So does `doReadLine`.
SOURCE: api/socket.cc:161-192 -/
theorem doReadLine_rel (h : Rep s b) (check : Bool) (sep : List UInt8) :
    Option.Rel (fun r q => r.1 = q.1 ∧ Rep r.2 q.2) (s.doReadLine check sep)
      (b.doReadLine check sep) := by
  have hrep := h
  obtain ⟨l, free, hholds, rfl⟩ := h
  have hempty : s.m_buffer._head = none ↔ (blocksOf s l).nodes = [] := by
    rw [hholds.chain.head, List.head?_eq_none_iff, List.map_eq_nil_iff, blocksOf,
      List.map_eq_nil_iff]
  unfold State.doReadLine Buffer.doReadLine
  rw [hholds.buffer_eq]
  by_cases hnil : s.m_buffer._head = none
  · rw [if_pos hnil, if_pos (hempty.mp hnil)]
    exact .some ⟨rfl, hrep⟩
  · rw [if_neg hnil, if_neg fun hnodes => hnil (hempty.mpr hnodes)]
    apply rel_self
    intro found
    cases found with
    | none => exact .some ⟨rfl, hrep⟩
    | some i =>
      cases check with
      | true => exact .some ⟨rfl, hrep⟩
      | false =>
        refine rel_map (popString_rel hrep _ _) ?_
        rintro r q ⟨hr, hq⟩
        refine ⟨by rw [hr], ?_⟩
        rw [hq.size]
        exact hq.setSize _

/-- What the free nodes leave of a buffer. -/
theorem freeNodes_eq : (blocksOf s l).freeNodes =
    ⟨s.m_buffer._size, if l = [] then s.m_buffer._offset else 0, []⟩ := by
  simp [Buffer.freeNodes, blocksOf]

/-- So does `doReadAll`.
SOURCE: api/socket.cc:194-204 -/
theorem doReadAll_rel (h : Rep s b) :
    Option.Rel (fun r q => r.1 = q.1 ∧ Rep r.2 q.2) s.doReadAll b.doReadAll := by
  obtain ⟨l, free, hholds, rfl⟩ := h
  unfold State.doReadAll Buffer.doReadAll
  refine rel_map (readLoop_rel [] hholds (Nat.lt_succ_of_le hholds.length_le)) ?_
  rintro r read ⟨hr, hrep⟩
  refine ⟨hr, ?_⟩
  rw [freeNodes_eq]
  exact hrep.setSize 0

/-- Clearing the nodes clears the buffer.
SOURCE: api/socket.cc:250-256 -/
theorem clearBuffer_rep (h : Rep s b) : ∃ t, s.clearBuffer = some t ∧ Rep t b.clearBuffer := by
  obtain ⟨l, free, hholds, rfl⟩ := h
  obtain ⟨t, ht, hrep⟩ := clearLoop_rep hholds (Nat.lt_succ_of_le hholds.length_le)
  unfold State.clearBuffer Buffer.clearBuffer
  rw [ht, freeNodes_eq]
  exact ⟨_, rfl, hrep.setSize 0⟩

/-- **Every operation** runs in step with that of `Model.ReceiveBuffer`. -/
theorem oper_rel (h : Rep s b) (e : Receive.Event) :
    Option.Rel Rep (oper s e) (Receive.step b e) := by
  cases e with
  | pushData data =>
    simp only [oper, Receive.step]
    split
    · obtain ⟨t, ht, hrep⟩ := pushData_rep data h
      rw [ht]
      exact .some hrep
    · exact .none
  | doRead outBuffer outLen =>
    simp only [oper, Receive.step]
    split
    · exact rel_map (doRead_rel h outBuffer outLen) fun _ _ hr => hr.2.2
    · exact .none
  | doReadLine check sep => exact rel_map (doReadLine_rel h check sep) fun _ _ hr => hr.2
  | doReadAll => exact rel_map (doReadAll_rel h) fun _ _ hr => hr.2
  | clearBuffer =>
    obtain ⟨t, ht, hrep⟩ := clearBuffer_rep h
    simp only [oper, Receive.step, ht]
    exact .some hrep

/-! ## Runs -/

/-- A buffer without nodes is an empty one. -/
theorem rep_of_starts (h : Starts s) : Rep s Receive.start := by
  refine ⟨[], [], ⟨?_, ?_, nofun, h.pool, ?_, ?_, ?_⟩, ?_⟩
  · exact congrArg SocketBuffer._head h.m_buffer
  · exact congrArg SocketBuffer._tail h.m_buffer
  · simp [h.others]
  · simp [h.others]
  · simp [h.freed, h.pushed]
  · rw [blocksOf, h.m_buffer]
    rfl

/-- What other sockets do leaves the buffer. -/
theorem rep_others {e : Event} (h : Rep s b) (hother : ∀ o, e ≠ .oper o) (hs : step s e = some t) :
    Rep t b := by
  obtain ⟨l, free, hholds, rfl⟩ := h
  cases e with
  | oper o => exact absurd rfl (hother o)
  | take =>
    obtain rfl := Option.some.inj hs
    obtain ⟨free', htake⟩ := hholds.take
    refine ⟨l, free', htake, ?_⟩
    obtain ⟨⟨node, count, pools, pool, hpop⟩, -⟩ := popBufferPool_eq s
    rw [hpop]
    rfl
  | write a n =>
    simp only [step, Option.ite_none_right_eq_some, Option.some.injEq] at hs
    obtain ⟨ha, rfl⟩ := hs
    exact ⟨l, free, hholds.write ha, rfl⟩
  | give a =>
    simp only [step, Option.ite_none_right_eq_some, Option.some.injEq] at hs
    obtain ⟨ha, rfl⟩ := hs
    exact ⟨l, a :: free, hholds.give ha, rfl⟩

/-- The buffer of a state that a run reaches, as long as each block fits. -/
theorem rep_of_via (h : system.Via Fits s) : ∃ b, Rep s b ∧ Receive.Small b := by
  refine h.invariant (I := fun s => ∃ b, Rep s b ∧ Receive.Small b) ?_ ?_
  · intro s hstarts
    exact ⟨_, rep_of_starts hstarts, Receive.small_start⟩
  · rintro s e t ⟨b, hrep, hsmall⟩ hfits hs
    cases e with
    | oper o =>
      obtain ⟨b', hb, hrep'⟩ := exists_of_rel (oper_rel hrep o) hs
      refine ⟨b', hrep', Receive.small_step hsmall ?_ hb⟩
      cases o with
      | pushData data =>
        show b.stream.length + data.length < 2 ^ 31
        rw [← hsmall.size, hrep.size]
        exact hfits
      | doRead | doReadLine | doReadAll | clearBuffer => trivial
    | take => exact ⟨b, rep_others (e := .take) hrep (fun _ => Event.noConfusion) hs, hsmall⟩
    | write a n =>
      exact ⟨b, rep_others (e := .write a n) hrep (fun _ => Event.noConfusion) hs, hsmall⟩
    | give a => exact ⟨b, rep_others (e := .give a) hrep (fun _ => Event.noConfusion) hs, hsmall⟩

/-- The blocks of the nodes are those of the list. -/
theorem ids_eq (h : Holds s l free) : s.ids (l.map Prod.fst) = l.map fun p => p.2.id := by
  unfold State.ids
  rw [List.filterMap_map, ← List.filterMap_eq_map]
  refine List.filterMap_congr fun p hp => ?_
  show (s.node p.1)._data.map Block.id = some p.2.id
  rw [(h.data p hp).1]
  rfl

/-- **The receive buffer is laid out** as it should be after every run that keeps less than `2 ^ 31`
bytes in it, whatever other sockets do with the nodes of the pool.
SOURCE: api/socket.cc:18-98, 152-203, 231-361 -/
theorem buffer_laid (s : State) (h : system.Via Fits s) : ∃ l, Laid s l := by
  obtain ⟨b, ⟨l, free, hholds, rfl⟩, hsmall⟩ := rep_of_via h
  have hfront := hsmall.inv.front
  have hsizes : (l.map Prod.fst).map (fun a => (s.node a)._sz) =
      l.map fun p => p.2.bytes.length := by
    rw [List.map_map]
    exact List.map_congr_left fun p hp => (hholds.data p hp).2
  have hhead : ∀ p ∈ l.head?, s.m_buffer._offset < p.2.bytes.length := by
    intro p hp
    obtain ⟨l', rfl⟩ := List.head?_eq_some_iff.mp hp
    exact hfront
  have hempty : l = [] → s.m_buffer._offset = 0 := by
    rintro rfl
    exact hfront
  refine ⟨l.map Prod.fst, hholds.chain, hholds.tail, ?_, ?_, ?_, ?_⟩
  · have hsize : s.m_buffer._size = (blocksOf s l).stream.length := hsmall.size
    have hlen : (blocksOf s l).stream.length =
        (l.map fun p => p.2.bytes.length).sum - s.m_buffer._offset := by
      simp only [Buffer.stream, blocksOf, List.length_drop, List.length_flatten, List.map_map]
      rfl
    have hle : s.m_buffer._offset ≤ (l.map fun p => p.2.bytes.length).sum := by
      cases l with
      | nil => exact (hempty rfl).le
      | cons p l =>
        have hlt := hhead p rfl
        rw [List.map_cons, List.sum_cons]
        omega
    rw [hsizes, hsize, hlen]
    omega
  · intro a ha
    rw [List.head?_map] at ha
    obtain ⟨p, hp, rfl⟩ := Option.map_eq_some_iff.mp ha
    rw [(hholds.data p (List.mem_of_head? hp)).2]
    exact hhead p hp
  · intro hnil
    exact hempty (List.map_eq_nil_iff.mp hnil)
  · rw [ids_eq hholds]
    exact hholds.freed

/-- A new socket, the first to use the pool. -/
def start : State where
  node := fun _ => ⟨none, 0, none⟩
  count := 0
  pools := 0
  pool := none
  others := []
  m_buffer := ⟨0, 0, none, none⟩
  pushed := 0
  freed := []

/-- A buffer and a pool that have just been made. -/
theorem start_starts : Starts start := ⟨rfl, rfl, rfl, rfl, rfl⟩

/-- Two blocks, with a node of another socket between, and a read that ends in the second. -/
theorem buffer_laid_across : ∃ s l, Laid s l ∧ s.freed = [0] ∧ s.m_buffer = ⟨1, 1, some 2, some 2⟩ := by
  obtain ⟨s, hvia, hs⟩ := System.exists_via (A := system) (g := Fits)
    [.oper (.pushData [1, 2]), .take, .oper (.pushData [3, 4]), .give 1,
      .oper (.doRead [0, 0, 0] 3)]
    (fun s => s.freed = [0] ∧ s.m_buffer = ⟨1, 1, some 2, some 2⟩) start_starts
    (by decide +kernel) (by decide +kernel)
  obtain ⟨l, hl⟩ := buffer_laid s hvia
  exact ⟨s, l, hl, of_decide_eq_true hs⟩

end MagicNet.BufferChain
