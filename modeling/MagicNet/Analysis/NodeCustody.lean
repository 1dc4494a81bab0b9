import MagicNet.Analysis.BufferLayout
import MagicNet.Foundation.Custody
import MagicNet.Model.NodePool

/-!
# Where the buffer nodes are

A node is in the pool, in the chain of a socket, or with the operation on a socket that has taken it and
not put it anywhere yet.  A table gives the nodes at each of these places.  The steps of the operations
move one node at a time: `popBufferPool` from the pool to the operation, `attach` from there to the chain,
`detach` from the chain to the operation and `pushBufferNode` back to the pool.  What a step writes to are
nodes that its own socket has and the one at the front of the pool, so that the other chains stay.
-/

set_option autoImplicit false

namespace MagicNet.NodePool

open MagicNet.Foundation MagicNet.Network
open MagicNet.BufferChain (Node next_setNode chain_range' poolSize_pos)

variable {ι : Type*}

/-! ## Places -/

inductive Place (ι : Type*) where
  | pool
  | chain (i : ι)
  | held (i : ι)
  deriving DecidableEq

/-- The place belongs to another socket. -/
def Place.Elsewhere (i : ι) : Place ι → Prop
  | .pool => False
  | .chain j | .held j => j ≠ i

/-- The node that the operation has. -/
def Pc.held : Pc → List ℕ
  | .attach _ freeNode | .pushBufferNode freeNode _ => [freeNode]
  | _ => []

/-- The socket has the nodes of `chain` and of `held`. -/
structure Owns (next : ℕ → Option ℕ) (k : Socket) (chain held : List ℕ) : Prop where
  head : Chain next k.m_buffer._head chain
  tail : k.m_buffer._tail = chain.getLast?
  held : held = k.pc.held
  null : ∀ data a, k.pc = .attach data a → next a = none

/-- A socket owns what it did where the links of its nodes stay. -/
theorem Owns.congr {next next' : ℕ → Option ℕ} {k : Socket} {chain held : List ℕ}
    (h : Owns next k chain held) (hchain : ∀ b ∈ chain, next' b = next b)
    (hheld : ∀ b ∈ held, next' b = next b) : Owns next' k chain held where
  head := h.head.congr hchain
  tail := h.tail
  held := h.held
  null := by
    intro data a hpc
    have ha : a ∈ held := by rw [h.held, hpc]; exact List.mem_singleton_self a
    rw [hheld a ha]
    exact h.null data a hpc

/-- The table says where the nodes are; as nodes are put to the front of the pool, its list begins with
the last one. -/
structure Inv (s : State ι) (t : Place ι → List ℕ) : Prop where
  exclusive : Exclusive t
  stored : ∀ a, Stored t a ↔ a < s.count
  pool : Chain s.next s.pool (t .pool).reverse
  socket : ∀ i, Owns s.next (s.socket i) (t (.chain i)) (t (.held i))

variable {s : State ι} {t t' : Place ι → List ℕ} {i : ι} {a : ℕ} {rest : List ℕ}
  {v w : BufferChain.State} {pc : Pc} {r : BufferChain.State × Pc} {k : Loop}

/-! ## What the steps write -/

/-- Only the last write of a socket counts. -/
theorem put_put [DecidableEq ι] (s : State ι) (i : ι) (r r' : BufferChain.State × Pc) :
    (s.put i r).put i r' = s.put i r' := by
  simp only [State.put, Function.update_idem]

/-- What a socket sees after it has been written. -/
theorem view_put [DecidableEq ι] (s : State ι) (i : ι) (r : BufferChain.State × Pc) :
    (s.put i r).view i = { r.1 with others := [] } := by
  simp only [State.put, State.view, Function.update_self]

/-- Where it stands then. -/
theorem put_pc [DecidableEq ι] (s : State ι) (i : ι) (r : BufferChain.State × Pc) :
    ((s.put i r).socket i).pc = r.2 := by
  simp only [State.put, Function.update_self]

/-- `attach` links the node after the last one.
SOURCE: api/socket.cc:232-251 -/
theorem attach_eq {data : List UInt8} (h : attach w data a = some v) :
    v.next = setLink w.next w.m_buffer._tail (some a) ∧ v.count = w.count ∧ v.pool = w.pool ∧
      v.m_buffer._head = w.m_buffer._head.or (some a) ∧ v.m_buffer._tail = some a := by
  have hdata : ∀ c, ((w.setNode a { w.node a with
      _data := some ⟨w.pushed, data⟩, _sz := data.length }).node c)._next = w.next c :=
    congrFun (next_setNode.trans (Function.update_eq_self a w.next))
  unfold attach at h
  cases hhead : w.m_buffer._head with
  | none =>
    cases htail : w.m_buffer._tail with
    | none =>
      simp only [hhead, htail, Option.some.injEq] at h
      subst h
      exact ⟨funext hdata, rfl, rfl, rfl, rfl⟩
    | some tail => simp only [hhead, htail, reduceCtorEq] at h
  | some head =>
    cases htail : w.m_buffer._tail with
    | none => simp only [hhead, htail, reduceCtorEq] at h
    | some tail =>
      simp only [hhead, htail, Option.some.injEq] at h
      subst h
      refine ⟨next_setNode.trans ?_, rfl, rfl, rfl, rfl⟩
      exact congrArg (fun next => Function.update next tail (some a)) (funext hdata)

/-- `detach` takes the first node, and leaves the links.
SOURCE: api/socket.cc:86-96 -/
theorem detach_eq (h : detach w = some (a, v)) : w.m_buffer._head = some a ∧ v.next = w.next ∧
    v.count = w.count ∧ v.pool = w.pool ∧ v.m_buffer._head = w.next a ∧
      v.m_buffer._tail = if w.next a = none then none else w.m_buffer._tail := by
  obtain ⟨head, hhead, heq⟩ := Option.map_eq_some_iff.mp h
  cases heq
  exact ⟨hhead, next_setNode.trans (Function.update_eq_self a w.next), rfl, rfl, rfl, rfl⟩

/-- A step that moves no node. -/
structure Plain (w : BufferChain.State) (r : BufferChain.State × Pc) : Prop where
  held : r.2.held = []
  next : r.1.next = w.next
  count : r.1.count = w.count
  pool : r.1.pool = w.pool
  head : r.1.m_buffer._head = w.m_buffer._head
  tail : r.1.m_buffer._tail = w.m_buffer._tail

/-- `_size` and `_offset` may change. -/
theorem Plain.of_sizes {size offset : ℕ} (hpc : pc.held = []) :
    Plain w ({ w with m_buffer := { w.m_buffer with _size := size, _offset := offset } }, pc) :=
  ⟨hpc, rfl, rfl, rfl, rfl, rfl⟩

/-- A round of the loop of the pops. -/
theorem popRound_plain {β : Type} {copy : List UInt8 → ℕ → ℤ → ℤ → β → Option β}
    {next : ℤ → β → Loop} {taken sz : ℤ} {x : β} (h : popRound copy next w taken sz x = some r) :
    Plain w r ∨ ∃ k, freeBufferNode w k = some r := by
  obtain ⟨current, -, h⟩ := Option.bind_eq_some_iff.mp h
  obtain ⟨y, -, h⟩ := Option.bind_eq_some_iff.mp h
  split at h
  · dsimp only at h
    split at h
    -- `freeBufferNode` sets `_offset` anew.
    · exact .inr ⟨_, h⟩
    · obtain rfl := Option.some.inj h
      exact .inl (.of_sizes rfl)
  · exact .inr ⟨_, h⟩

/-- A round of an operation leaves the links alone, or frees a node.
SOURCE: api/socket.cc:86-98 -/
theorem round_plain (h : round w k = some r) : Plain w r ∨ ∃ k', freeBufferNode w k' = some r := by
  cases k with
  | popBuffer taken sz out => exact popRound_plain h
  | popString taken skip sz b => exact popRound_plain h
  | doReadAll b =>
    simp only [round] at h
    split at h
    · obtain rfl := Option.some.inj h
      exact .inl (.of_sizes rfl)
    · obtain ⟨read, -, h⟩ := Option.bind_eq_some_iff.mp h
      exact .inr ⟨_, h⟩
  | clearBuffer =>
    simp only [round] at h
    split at h
    · obtain rfl := Option.some.inj h
      exact .inl (.of_sizes rfl)
    · exact .inr ⟨_, h⟩
  | finish taken =>
    obtain rfl := Option.some.inj h
    exact .inl (.of_sizes rfl)

/-- So does the beginning of `doRead`.
SOURCE: api/socket.cc:152-159 -/
theorem doRead_plain {outBuffer : List UInt8} {outLen : ℤ} (h : doRead w outBuffer outLen = some r) :
    Plain w r ∨ ∃ k, freeBufferNode w k = some r := by
  unfold doRead at h
  split at h
  · obtain rfl := Option.some.inj h
    exact .inl (.of_sizes rfl)
  · obtain ⟨current, -, h⟩ := Option.bind_eq_some_iff.mp h
    split at h
    · obtain ⟨_, -, rfl⟩ := Option.map_eq_some_iff.mp h
      exact .inl (.of_sizes rfl)
    · split at h
      · exact .inr ⟨_, h⟩
      · obtain rfl := Option.some.inj h
        exact .inl (.of_sizes rfl)

/-- So does that of `popString`.
SOURCE: api/socket.cc:278-320 -/
theorem popString_plain {taken sz skip : ℤ} (h : popString w taken sz skip = some r) :
    Plain w r ∨ ∃ k, freeBufferNode w k = some r := by
  obtain ⟨current, -, h⟩ := Option.bind_eq_some_iff.mp h
  split at h
  · obtain ⟨_, -, rfl⟩ := Option.map_eq_some_iff.mp h
    exact .inl (.of_sizes rfl)
  · split at h
    · obtain ⟨_, -, h⟩ := Option.bind_eq_some_iff.mp h
      exact .inr ⟨_, h⟩
    · obtain rfl := Option.some.inj h
      exact .inl (.of_sizes rfl)

/-- So does that of `doReadLine`.
SOURCE: api/socket.cc:161-192 -/
theorem doReadLine_plain {check : Bool} {sep : List UInt8} (h : doReadLine w check sep = some r) :
    Plain w r ∨ ∃ k, freeBufferNode w k = some r := by
  unfold doReadLine at h
  split at h
  · obtain rfl := Option.some.inj h
    exact .inl (.of_sizes rfl)
  · obtain ⟨found, -, h⟩ := Option.bind_eq_some_iff.mp h
    cases found with
    | none =>
      obtain rfl := Option.some.inj h
      exact .inl (.of_sizes rfl)
    | some at_ =>
      cases check with
      | true =>
        obtain rfl := Option.some.inj h
        exact .inl (.of_sizes rfl)
      | false => exact popString_plain h

/-- The first step of an operation moves no node, but for a first one that is used up at once. -/
theorem begin_plain {e : Receive.Event} (h : begin w e = some r) :
    Plain w r ∨ ∃ k, freeBufferNode w k = some r := by
  cases e with
  | pushData data =>
    simp only [begin, Option.ite_none_right_eq_some, Option.some.injEq] at h
    obtain ⟨-, rfl⟩ := h
    exact .inl (.of_sizes rfl)
  | doRead outBuffer outLen =>
    simp only [begin, Option.ite_none_right_eq_some] at h
    exact doRead_plain h.2
  | doReadLine check sep => exact doReadLine_plain h
  | doReadAll =>
    obtain rfl := Option.some.inj h
    exact .inl (.of_sizes rfl)
  | clearBuffer =>
    obtain rfl := Option.some.inj h
    exact .inl (.of_sizes rfl)

namespace Inv

/-- A node at one place is at no other. -/
theorem ne_of_mem {p q : Place ι} {b : ℕ} (h : Inv s t) (ha : a ∈ t p) (hb : b ∈ t q) (hpq : q ≠ p) :
    b ≠ a := by
  rintro rfl
  exact hpq (h.exclusive.unique hb ha)

/-- A node is in one place. -/
theorem not_mem {p q : Place ι} (h : Inv s t) (ha : a ∈ t p) (hpq : q ≠ p) : a ∉ t q :=
  fun hmem => h.ne_of_mem ha hmem hpq rfl

variable [DecidableEq ι]

/-- **A step of one socket** that leaves the places of the others, and the links there. -/
theorem put (h : Inv s t) (hexclusive : Exclusive t') (hstored : ∀ a, Stored t' a ↔ a < v.count)
    (hpool : Chain v.next v.pool (t' .pool).reverse)
    (hsocket : Owns v.next ⟨v.m_buffer, v.pushed, v.freed, pc⟩ (t' (.chain i)) (t' (.held i)))
    (helse : ∀ p, p.Elsewhere i → t' p = t p ∧ ∀ b ∈ t p, v.next b = s.next b) :
    Inv (s.put i (v, pc)) t' where
  exclusive := hexclusive
  stored := hstored
  pool := hpool
  socket := by
    intro j
    by_cases hj : j = i
    · subst hj
      have hsame : (s.put j (v, pc)).socket j = ⟨v.m_buffer, v.pushed, v.freed, pc⟩ :=
        Function.update_self _ _ _
      rw [hsame]
      exact hsocket
    · have hother : (s.put i (v, pc)).socket j = s.socket j := Function.update_of_ne hj _ _
      obtain ⟨hchain, hnext⟩ := helse (.chain j) hj
      obtain ⟨hheld, hnext'⟩ := helse (.held j) hj
      rw [hother, hchain, hheld]
      exact (h.socket j).congr hnext hnext'

/-- **A step that moves a node**, and writes only to nodes that its socket or the pool has. -/
theorem move (h : Inv s t) (p p' : Place ι) (hp : ¬ p.Elsewhere i) (hp' : ¬ p'.Elsewhere i)
    (hne : p ≠ p') (hperm : (t p).Perm ([a] ++ rest)) (hcount : v.count = s.count)
    (hwrites : ∀ b, v.next b ≠ s.next b → ∃ q : Place ι, ¬ q.Elsewhere i ∧ b ∈ t q)
    (hpool : Chain v.next v.pool (moveTable t p p' [a] rest .pool).reverse)
    (hsocket : Owns v.next ⟨v.m_buffer, v.pushed, v.freed, pc⟩
      (moveTable t p p' [a] rest (.chain i)) (moveTable t p p' [a] rest (.held i))) :
    Inv (s.put i (v, pc)) (moveTable t p p' [a] rest) := by
  refine h.put (h.exclusive.move hne hperm) (fun b => ?_) hpool hsocket fun q hq => ⟨?_, ?_⟩
  · rw [h.exclusive.stored_move hne hperm, hcount]
    exact h.stored b
  · exact moveTable_of_ne (fun heq => hp (heq ▸ hq)) fun heq => hp' (heq ▸ hq)
  · intro b hb
    by_contra hwrite
    obtain ⟨q', hq', hb'⟩ := hwrites b hwrite
    exact hq' (h.exclusive.unique hb hb' ▸ hq)

/-- A step that moves no node. -/
theorem stay (h : Inv s t) (hpc : pc.held = (s.socket i).pc.held) (hnone : pc.held = [])
    (hnext : v.next = s.next) (hcount : v.count = s.count) (hpool : v.pool = s.pool)
    (hhead : v.m_buffer._head = (s.socket i).m_buffer._head)
    (htail : v.m_buffer._tail = (s.socket i).m_buffer._tail) : Inv (s.put i (v, pc)) t := by
  refine h.put h.exclusive (fun a => hcount ▸ h.stored a) ?_ ?_ ?_
  · rw [hnext, hpool]
    exact h.pool
  · refine ⟨?_, htail.trans (h.socket i).tail, (h.socket i).held.trans hpc.symm, ?_⟩
    · rw [hnext, hhead]
      exact (h.socket i).head
    · rintro data a rfl
      cases hnone
  · intro p _
    rw [hnext]
    exact ⟨rfl, fun _ _ => rfl⟩

/-! ## The pool -/

/-- A node is taken from the pool. -/
theorem takeNode (h : Inv s t) {free : List ℕ} (hfree : (t .pool).reverse = a :: free)
    (hidle : (s.socket i).pc.held = []) (data : List UInt8) :
    ∃ t', Inv (s.put i ((s.view i).takeNode a, .attach data a)) t' := by
  have hpool : t .pool = free.reverse ++ [a] := by
    rw [← List.reverse_cons, ← hfree, List.reverse_reverse]
  have hperm : (t .pool).Perm ([a] ++ free.reverse) := by
    rw [hpool]
    exact List.perm_append_comm
  have hmem : a ∈ t .pool := hperm.mem_iff.mpr List.mem_cons_self
  have hnext : ((s.view i).takeNode a).next = Function.update s.next a none := next_setNode
  have hchain := h.pool
  rw [hfree] at hchain
  have hout : a ∉ free := by
    have hnodup := h.exclusive.nodup .pool
    rw [← List.nodup_reverse, hfree] at hnodup
    exact (List.nodup_cons.mp hnodup).1
  refine ⟨_, h.move .pool (.held i) id (fun hi => hi rfl) (by simp) hperm rfl ?_ ?_ ?_⟩
  · intro b hb
    rw [hnext] at hb
    by_cases hba : b = a
    · exact ⟨.pool, id, hba ▸ hmem⟩
    · exact absurd (Function.update_of_ne hba _ _) hb
  · rw [moveTable_source (by simp), List.reverse_reverse, hnext]
    exact hchain.2.frame hout
  · have hheld : t (.held i) = [] := (h.socket i).held.trans hidle
    rw [moveTable_of_ne (by simp) (by simp), moveTable_target, hheld, hnext]
    refine ⟨(h.socket i).head.frame (h.not_mem hmem (by simp)), (h.socket i).tail, rfl, ?_⟩
    intro data' a' hpc
    cases hpc
    exact Function.update_self _ _ _

/-- The pool is filled when it is empty.
SOURCE: api/socket.cc:40-52 -/
theorem newBufferPool (h : Inv s t) (hpool : s.pool = none) {num : ℕ} (hnum : 0 < num) :
    Inv (s.put i ({ (s.view i).newBufferPool num with
        pools := s.pools + 1, pool := some s.count }, (s.socket i).pc))
      (Function.update t .pool (t .pool ++ (List.range' s.count num).reverse)) := by
  have hempty : t .pool = [] := List.reverse_eq_nil_iff.mp (hpool ▸ h.pool).of_none
  have hold : ∀ p, ∀ b ∈ t p, ((s.view i).newBufferPool num).next b = s.next b := by
    intro p b hb
    have hlt : b < s.count := (h.stored b).mp ⟨p, hb⟩
    exact congrArg Node._next (if_neg fun hle => absurd hlt (Nat.not_lt.mpr hle.1))
  refine h.put ?_ (fun b => ?_) ?_ ?_ ?_
  · refine h.exclusive.puts (List.nodup_reverse.mpr List.nodup_range') fun b hb hstored => ?_
    have hle := (List.mem_range'_1.mp (List.mem_reverse.mp hb)).1
    exact absurd ((h.stored b).mp hstored) (Nat.not_lt.mpr hle)
  · show _ ↔ b < s.count + num
    rw [Exclusive.stored_puts, h.stored, List.mem_reverse, List.mem_range'_1]
    omega
  · rw [Function.update_self, hempty, List.nil_append, List.reverse_reverse]
    refine chain_range' hnum fun c hle hlt => ?_
    show (((s.view i).newBufferPool num).node c)._next = _
    simp only [BufferChain.State.newBufferPool]
    exact congrArg Node._next (if_pos ⟨hle, hlt⟩)
  · rw [Function.update_of_ne (by simp), Function.update_of_ne (by simp)]
    exact (h.socket i).congr (hold _) (hold _)
  · intro p hp
    refine ⟨Function.update_of_ne ?_ _ _, hold p⟩
    rintro rfl
    exact hp

/-- **`popBufferPool`** takes a node from the pool.
SOURCE: api/socket.cc:54-78 -/
theorem popBufferPool (h : Inv s t) (hidle : (s.socket i).pc.held = []) (data : List UInt8) :
    ∃ t', Inv (s.put i ((s.view i).popBufferPool.2, .attach data (s.view i).popBufferPool.1)) t' := by
  unfold BufferChain.State.popBufferPool
  split
  · next a hpool =>
    have hchain := h.pool
    rw [show s.pool = some a from hpool] at hchain
    obtain ⟨free, hfree, -⟩ := hchain.of_some
    exact h.takeNode hfree hidle data
  · next hpool =>
    have hpool' : s.pool = none := hpool
    have hempty : t .pool = [] := List.reverse_eq_nil_iff.mp (hpool' ▸ h.pool).of_none
    have hnew := h.newBufferPool (i := i) hpool' (poolSize_pos s.pools)
    obtain ⟨m, hm⟩ := Nat.exists_eq_succ_of_ne_zero (poolSize_pos s.pools).ne'
    have hfree : (Function.update t .pool (t .pool ++ (List.range' s.count
        (BufferChain.State.poolSize s.pools)).reverse) .pool).reverse =
        s.count :: List.range' (s.count + 1) m := by
      rw [Function.update_self, hempty, List.nil_append, List.reverse_reverse, hm,
        Nat.succ_eq_add_one, List.range'_succ]
    have htake := hnew.takeNode (i := i) hfree (by rw [put_pc]; exact hidle) data
    rw [put_put, view_put] at htake
    exact htake

/-! ## The chains -/

/-- The node that `pushData` has taken becomes the last of the chain.
SOURCE: api/socket.cc:230-251 -/
theorem attach (h : Inv s t) {data : List UInt8} (hpc : (s.socket i).pc = .attach data a)
    (hattach : NodePool.attach (s.view i) data a = some v) :
    ∃ t', Inv (s.put i (v, .idle)) t' := by
  obtain ⟨hnext, hcount, hpool, hhead, htail⟩ := attach_eq hattach
  have hheld : t (.held i) = [a] := by rw [(h.socket i).held, hpc]; rfl
  have hmem : a ∈ t (.held i) := hheld ▸ List.mem_singleton_self a
  have hperm : (t (.held i)).Perm ([a] ++ []) := by rw [hheld]; rfl
  have hlast : (s.view i).m_buffer._tail = (t (.chain i)).getLast? := (h.socket i).tail
  -- Only the link of the last node is written.
  have hwrite : ∀ b, b ∉ t (.chain i) → v.next b = s.next b := by
    intro b hb
    rw [hnext, hlast]
    exact setLink_of_ne fun heq => hb (List.mem_of_getLast? heq)
  refine ⟨_, h.move (.held i) (.chain i) (fun hi => hi rfl)
    (fun hi => hi rfl) (by simp) hperm hcount (fun b hb => ?_) ?_ ?_⟩
  · exact ⟨.chain i, fun hi => hi rfl, by_contra fun hout => hb (hwrite b hout)⟩
  · rw [moveTable_of_ne (by simp) (by simp), hpool]
    refine h.pool.congr fun b hb => hwrite b (h.not_mem (List.mem_reverse.mp hb) (by simp))
  · rw [moveTable_target, moveTable_source (by simp)]
    refine ⟨?_, ?_, rfl, nofun⟩
    · have hsnoc := (h.socket i).head.snoc (h.exclusive.nodup (.chain i))
        (h.not_mem hmem (by simp)) ((h.socket i).null data a hpc)
      rw [← (h.socket i).head.head] at hsnoc
      rw [hnext, hlast]
      show Chain _ v.m_buffer._head _
      rw [hhead]
      exact hsnoc
    · rw [List.getLast?_concat]
      exact htail

/-- The first node leaves the chain.
SOURCE: api/socket.cc:80-84, 86-96 -/
theorem detach (h : Inv s t) (hidle : (s.socket i).pc.held = [])
    (hdetach : NodePool.detach (s.view i) = some (a, v)) :
    ∃ t', Inv (s.put i (v, .pushBufferNode a k)) t' := by
  obtain ⟨hfirst, hnext, hcount, hpool, hhead, htail⟩ := detach_eq hdetach
  have hheld : t (.held i) = [] := (h.socket i).held.trans hidle
  have hchain := (h.socket i).head
  rw [show (s.socket i).m_buffer._head = some a from hfirst] at hchain
  obtain ⟨rest, hrest, hlinks⟩ := hchain.of_some
  have hperm : (t (.chain i)).Perm ([a] ++ rest) := by rw [hrest]; rfl
  refine ⟨_, h.move (.chain i) (.held i) (fun hi => hi rfl) (fun hi => hi rfl) (by simp) hperm hcount
    (fun b hb => absurd (congrFun hnext b) hb) ?_ ?_⟩
  · rw [moveTable_of_ne (by simp) (by simp), hnext, hpool]
    exact h.pool
  · rw [moveTable_source (by simp), moveTable_target, hheld, hnext]
    refine ⟨?_, ?_, rfl, nofun⟩
    · show Chain _ v.m_buffer._head _
      rw [hhead]
      exact hlinks
    · show v.m_buffer._tail = _
      have hlast : (s.view i).m_buffer._tail = (a :: rest).getLast? := hrest ▸ (h.socket i).tail
      have hsecond : (s.view i).next a = rest.head? := hlinks.head
      rw [htail, hlast, hsecond]
      cases rest with
      | nil => rfl
      | cons b rest => exact (if_neg nofun).trans List.getLast?_cons_cons

/-- **`pushBufferNode`** gives the node back.
SOURCE: api/socket.cc:80-84 -/
theorem pushBufferNode (h : Inv s t) (hpc : (s.socket i).pc = .pushBufferNode a k) :
    ∃ t', Inv (s.put i ((s.view i).pushBufferNode a, .loop k)) t' := by
  have hheld : t (.held i) = [a] := by rw [(h.socket i).held, hpc]; rfl
  have hmem : a ∈ t (.held i) := hheld ▸ List.mem_singleton_self a
  have hperm : (t (.held i)).Perm ([a] ++ []) := by rw [hheld]; rfl
  have hnext : ((s.view i).pushBufferNode a).next = Function.update s.next a s.pool := next_setNode
  refine ⟨_, h.move (.held i) .pool (fun hi => hi rfl) id (by simp) hperm rfl (fun b hb => ?_)
    ?_ ?_⟩
  · by_cases hba : b = a
    · exact ⟨.held i, fun hi => hi rfl, hba ▸ hmem⟩
    · rw [hnext] at hb
      exact absurd (Function.update_of_ne hba _ _) hb
  · rw [moveTable_target, List.reverse_append, hnext]
    refine ⟨rfl, ?_⟩
    rw [Function.update_self]
    exact h.pool.frame fun hin => h.not_mem hmem (by simp) (List.mem_reverse.mp hin)
  · rw [moveTable_of_ne (by simp) (by simp), moveTable_source (by simp), hnext]
    exact ⟨(h.socket i).head.frame (h.not_mem hmem (by simp)), (h.socket i).tail, rfl, nofun⟩

/-- A step that moves no node, or that takes the first one off the chain. -/
theorem local_step (h : Inv s t) (hidle : (s.socket i).pc.held = [])
    (hr : Plain (s.view i) r ∨ ∃ k, freeBufferNode (s.view i) k = some r) :
    ∃ t', Inv (s.put i r) t' := by
  rcases hr with hplain | ⟨k, hfree⟩
  · exact ⟨t, h.stay (hplain.held.trans hidle.symm) hplain.held hplain.next hplain.count
      hplain.pool hplain.head hplain.tail⟩
  · obtain ⟨⟨a, v⟩, hdetach, rfl⟩ := Option.map_eq_some_iff.mp hfree
    exact h.detach hidle hdetach

/-- **A step of an operation** moves at most one node. -/
theorem advance (h : Inv s t) (hr : NodePool.advance (s.view i) (s.socket i).pc = some r) :
    ∃ t', Inv (s.put i r) t' := by
  cases hpc : (s.socket i).pc with
  | idle =>
    rw [hpc] at hr
    cases hr
  | popBufferPool data =>
    rw [hpc] at hr
    obtain rfl := Option.some.inj hr
    exact h.popBufferPool (by rw [hpc]; rfl) data
  | attach data a =>
    rw [hpc] at hr
    obtain ⟨v, hattach, rfl⟩ := Option.map_eq_some_iff.mp hr
    exact h.attach hpc hattach
  | pushBufferNode a k =>
    rw [hpc] at hr
    obtain rfl := Option.some.inj hr
    exact h.pushBufferNode hpc
  | loop k =>
    rw [hpc] at hr
    exact h.local_step (by rw [hpc]; rfl) (round_plain hr)

/-- **One step** keeps the table. -/
theorem step {s' : State ι} {e : Event ι} (h : Inv s t) (hs : NodePool.step s e = some s') :
    ∃ t', Inv s' t' := by
  cases e with
  | call i e =>
    simp only [NodePool.step, Option.ite_none_right_eq_some, Option.map_eq_some_iff] at hs
    obtain ⟨hpc, r, hr, rfl⟩ := hs
    exact h.local_step (by rw [hpc]; rfl) (begin_plain hr)
  | run i =>
    obtain ⟨r, hr, rfl⟩ := Option.map_eq_some_iff.mp hs
    exact h.advance hr

omit [DecidableEq ι] in
/-- At the start there are no nodes. -/
theorem of_starts (h : Starts s) : Inv s fun _ => [] where
  exclusive := exclusive_of_empty fun _ => rfl
  stored := by
    intro a
    rw [h.count]
    exact iff_of_false (fun ⟨_, ha⟩ => List.not_mem_nil ha) (Nat.not_lt_zero a)
  pool := h.pool
  socket := by
    intro i
    rw [h.socket i]
    exact ⟨rfl, rfl, rfl, nofun⟩

omit [DecidableEq ι] in
/-- What `popBufferPool` returns stands in no chain.
SOURCE: api/socket.cc:54-78 -/
theorem popped (h : Inv s t) (i j : ι) : (s.view i).popBufferPool.1 ∉ t (.chain j) := by
  unfold BufferChain.State.popBufferPool
  split
  · next a hpool =>
    have hchain := h.pool
    rw [show s.pool = some a from hpool] at hchain
    obtain ⟨free, hfree, -⟩ := hchain.of_some
    have hmem : a ∈ t .pool := by
      rw [← List.mem_reverse, hfree]
      exact List.mem_cons_self
    exact h.not_mem hmem (by simp)
  · intro hmem
    exact lt_irrefl s.count ((h.stored _).mp ⟨_, hmem⟩)

omit [DecidableEq ι] in
/-- The places as the pool and the chains. -/
theorem pooled (h : Inv s t) : Pooled s (t .pool).reverse fun i => t (.chain i) where
  pool := h.pool
  head := fun i => (h.socket i).head
  tail := fun i => (h.socket i).tail
  free_once := List.nodup_reverse.mpr (h.exclusive.nodup .pool)
  chain_once := fun i => h.exclusive.nodup (.chain i)
  free_or_chain := by
    intro i a hfree hchain
    have hplace := h.exclusive.unique (List.mem_reverse.mp hfree) hchain
    cases hplace
  one_chain := by
    intro i j hij a hi hj
    have hplace := h.exclusive.unique hi hj
    cases hplace
    exact hij rfl
  allocated := by
    rintro a (hfree | ⟨i, hchain⟩)
    · exact (h.stored a).mp ⟨_, List.mem_reverse.mp hfree⟩
    · exact (h.stored a).mp ⟨_, hchain⟩
  everywhere := by
    intro hidle a ha
    obtain ⟨p, hp⟩ := (h.stored a).mpr ha
    cases p with
    | pool => exact .inl (List.mem_reverse.mpr hp)
    | chain i => exact .inr ⟨i, hp⟩
    | held i =>
      rw [(h.socket i).held, hidle i] at hp
      cases hp
  popped := h.popped

end Inv

/-- **Buffer node pool.**  After every run, in whatever order the sockets take their steps, the links of
the pool and of the chains end, no node stands in them twice, and while no operation is in progress all
nodes stand in them.
SOURCE: api/socket.cc:40-98, 152-203, 231-361 -/
theorem node_pool [DecidableEq ι] (h : system.Reachable s) : ∃ free chains, Pooled s free chains := by
  obtain ⟨t, ht⟩ : ∃ t, Inv s t :=
    h.invariant (I := fun s => ∃ t, Inv s t) (fun _ h0 => ⟨_, Inv.of_starts h0⟩)
      fun _ _ _ ⟨_, ht⟩ _ hs => ht.step hs
  exact ⟨_, _, ht.pooled⟩

/-- Sockets that have received nothing, and no node. -/
def start : State ℕ where
  node := fun _ => ⟨none, 0, none⟩
  count := 0
  pools := 0
  pool := none
  socket := fun _ => ⟨⟨0, 0, none, none⟩, 0, [], .idle⟩

/-- Two sockets in turn, one between the two halves of `freeBufferNode` while the other pushes. -/
theorem node_pool_two : ∃ (s : State ℕ) (free : List ℕ) (chains : ℕ → List ℕ),
    Pooled s free chains ∧ s.pool = some 1 ∧ (s.socket 1).m_buffer._head = some 2 := by
  have hstart : Starts start := ⟨rfl, rfl, rfl, fun _ => rfl⟩
  obtain ⟨s, hreach, hs⟩ := System.exists_reachable (A := system)
    [.call 0 (.pushData [1, 2]), .call 1 (.pushData [3]), .run 0, .run 1, .run 0, .call 0 .doReadAll,
      .run 0, .run 1, .call 1 (.pushData [4]), .run 1, .run 0, .run 0, .run 1, .call 1 (.doRead [0] 1),
      .run 1, .run 1]
    (fun s => s.pool = some 1 ∧ (s.socket 1).m_buffer._head = some 2) hstart
    (by decide +kernel)
  obtain ⟨free, chains, hpooled⟩ := node_pool hreach
  exact ⟨s, free, chains, hpooled, of_decide_eq_true hs⟩

end MagicNet.NodePool
