import MagicNet.Analysis.BufferLayout
import MagicNet.Model.NodePool

/-!
# The operations cut in steps

`Model.NodePool` has the operations of `Model.BufferChain` in steps.  Where no other socket comes
between, the steps come to an end and do what the operation does (`oper_runs`); so the two models are
of the same code.
-/

set_option autoImplicit false

namespace MagicNet.NodePool

open MagicNet.Foundation MagicNet.Network

variable {v w : BufferChain.State} {pc : Pc} {r : BufferChain.State × Pc} {k : Loop}

/-- The steps of one operation. -/
def Advances (x y : BufferChain.State × Pc) : Prop := advance x.1 x.2 = some y

/-- The operation comes to its end with `v`. -/
def Leads (x : BufferChain.State × Pc) (v : BufferChain.State) : Prop :=
  Relation.ReflTransGen Advances x (v, .idle)

/-- What an operation comes to after a step, it comes to. -/
theorem leads_step (hs : advance w pc = some r) (h : Leads r v) : Leads (w, pc) v :=
  .head hs h

/-- What it comes to after a round, it comes to. -/
theorem leads_loop (hr : round w k = some r) (h : Leads r v) : Leads (w, .loop k) v :=
  leads_step hr h

/-- At the end it takes the bytes off the size. -/
theorem leads_finish (w : BufferChain.State) (taken : ℤ) :
    Leads (w, .loop (.finish taken)) (w.setSize (toUint32 (w.m_buffer._size - taken))) :=
  leads_loop rfl .refl

/-- A node is taken off the chain and then pushed to the pool.
SOURCE: api/socket.cc:86-98 -/
theorem freeBufferNode_eq (w : BufferChain.State) :
    w.freeBufferNode = (detach w).map fun r => r.2.pushBufferNode r.1 := by
  unfold BufferChain.State.freeBufferNode detach
  cases w.m_buffer._head <;> rfl

/-- `freeBufferNode` in its two steps. -/
theorem leads_free {u : BufferChain.State} (hu : w.freeBufferNode = some u)
    (h : Leads (u, .loop k) v) : ∃ r, freeBufferNode w k = some r ∧ Leads r v := by
  rw [freeBufferNode_eq] at hu
  obtain ⟨⟨a, t⟩, ht, rfl⟩ := Option.map_eq_some_iff.mp hu
  refine ⟨(t, .pushBufferNode a k), ?_, leads_step rfl h⟩
  rw [freeBufferNode, ht]
  rfl

/-- The loop of the pops in its steps. -/
theorem leads_popLoop {β : Type} {copy : List UInt8 → ℕ → ℤ → ℤ → β → Option β}
    {next : ℤ → β → Loop} {taken : ℤ} {u : BufferChain.State} {y : β}
    (hround : ∀ v sz x, round v (next sz x) = popRound copy next v taken sz x) (n : ℕ) (sz : ℤ)
    (x : β) (h : BufferChain.State.popLoop copy n w sz x = some (y, u)) :
    Leads (w, .loop (next sz x)) (u.setSize (toUint32 (u.m_buffer._size - taken))) := by
  induction n generalizing w sz x with
  | zero => cases h
  | succ n ih =>
    rw [BufferChain.State.popLoop] at h
    obtain ⟨current, hhead, h⟩ := Option.bind_eq_some_iff.mp h
    obtain ⟨x', hcopy, h⟩ := Option.bind_eq_some_iff.mp h
    have hr : ∃ r, popRound copy next w taken sz x = some r ∧
        Leads r (u.setSize (toUint32 (u.m_buffer._size - taken))) := by
      rw [popRound, hhead, Option.bind_some]
      dsimp only at h ⊢
      rw [hcopy, Option.bind_some]
      split at h
      · rename_i hle
        rw [if_pos hle]
        split at h
        · rename_i heq
          rw [if_pos heq]
          obtain ⟨t, ht, hpair⟩ := Option.map_eq_some_iff.mp h
          cases hpair
          exact leads_free ht (leads_finish _ _)
        · rename_i hne
          rw [if_neg hne]
          cases Option.some.inj h
          exact ⟨_, rfl, leads_finish _ _⟩
      · rename_i hlt
        rw [if_neg hlt]
        obtain ⟨t, ht, h⟩ := Option.bind_eq_some_iff.mp h
        split at h
        · rename_i hzero
          rw [if_pos hzero]
          cases Option.some.inj h
          exact leads_free ht (leads_finish _ _)
        · rename_i hmore
          rw [if_neg hmore]
          exact leads_free ht (ih _ _ h)
    obtain ⟨r, hr, hleads⟩ := hr
    exact leads_loop ((hround _ _ _).trans hr) hleads

/-- The loop of `doReadAll` in its steps.
SOURCE: api/socket.cc:194-204 -/
theorem leads_readLoop {u : BufferChain.State} {out : List UInt8} (n : ℕ) (b : List UInt8)
    (h : BufferChain.State.readLoop n w b = some (out, u)) :
    Leads (w, .loop (.doReadAll b)) (u.setSize 0) := by
  induction n generalizing w b with
  | zero => cases h
  | succ n ih =>
    rw [BufferChain.State.readLoop] at h
    cases hhead : w.m_buffer._head with
    | none =>
      rw [hhead] at h
      cases Option.some.inj h
      refine leads_loop ?_ .refl
      rw [round, hhead]
    | some current =>
      rw [hhead] at h
      obtain ⟨read, hread, h⟩ := Option.bind_eq_some_iff.mp h
      obtain ⟨t, ht, h⟩ := Option.bind_eq_some_iff.mp h
      obtain ⟨r, hr, hleads⟩ := leads_free ht (ih _ h)
      refine leads_loop ?_ hleads
      rw [round, hhead]
      dsimp only
      rw [hread]
      exact hr

/-- The loop of `clearBuffer` in its steps.
SOURCE: api/socket.cc:250-256 -/
theorem leads_clearLoop {u : BufferChain.State} (n : ℕ)
    (h : BufferChain.State.clearLoop n w = some u) :
    Leads (w, .loop .clearBuffer) (u.setSize 0) := by
  induction n generalizing w with
  | zero => cases h
  | succ n ih =>
    rw [BufferChain.State.clearLoop] at h
    cases hhead : w.m_buffer._head with
    | none =>
      rw [hhead] at h
      cases Option.some.inj h
      refine leads_loop ?_ .refl
      rw [round, hhead]
    | some current =>
      rw [hhead] at h
      obtain ⟨t, ht, h⟩ := Option.bind_eq_some_iff.mp h
      obtain ⟨r, hr, hleads⟩ := leads_free ht (ih h)
      refine leads_loop ?_ hleads
      rw [round, hhead]
      exact hr

/-- `pushData` is its two halves.
SOURCE: api/socket.cc:54-78, 230-251 -/
theorem pushData_eq (w : BufferChain.State) (data : List UInt8) :
    w.pushData data = attach w.popBufferPool.2 data w.popBufferPool.1 := by
  unfold BufferChain.State.pushData attach
  obtain ⟨⟨node, count, pools, pool, hpop⟩, -⟩ := BufferChain.popBufferPool_eq w
  rewrite [hpop]
  cases w.m_buffer._head <;> cases w.m_buffer._tail <;> rfl

/-- Step by step `doRead` comes to what it does as a whole.
SOURCE: api/socket.cc:152-159, 322-361 -/
theorem leads_doRead {u : BufferChain.State} {outBuffer out : List UInt8} {outLen ret : ℤ}
    (h : w.doRead outBuffer outLen = some (ret, out, u)) :
    ∃ r, doRead w outBuffer outLen = some r ∧ Leads r u := by
  unfold BufferChain.State.doRead at h
  unfold doRead
  split at h
  · rename_i hshort
    rw [if_pos hshort]
    cases Option.some.inj h
    exact ⟨_, rfl, .refl⟩
  · rename_i henough
    rw [if_neg henough]
    obtain ⟨⟨out', t⟩, hpop, hpair⟩ := Option.map_eq_some_iff.mp h
    cases hpair
    obtain ⟨current, hhead, hpop⟩ := Option.bind_eq_some_iff.mp hpop
    rw [hhead, Option.bind_some]
    split at hpop
    · rename_i hless
      rw [if_pos hless]
      obtain ⟨read, hread, hpair⟩ := Option.map_eq_some_iff.mp hpop
      cases hpair
      rw [hread]
      exact ⟨_, rfl, leads_finish _ _⟩
    · rename_i hmore
      rw [if_neg hmore]
      split at hpop
      · rename_i heq
        rw [if_pos heq]
        obtain ⟨t', ht, hpair⟩ := Option.map_eq_some_iff.mp hpop
        cases hpair
        exact leads_free ht (leads_finish _ _)
      · rename_i hne
        rw [if_neg hne]
        obtain ⟨⟨⟨out'', written⟩, t'⟩, hloop, hpair⟩ := Option.map_eq_some_iff.mp hpop
        cases hpair
        exact ⟨_, rfl, leads_popLoop (fun _ _ _ => rfl) _ _ _ hloop⟩

/-- So does `popString`.
SOURCE: api/socket.cc:278-320 -/
theorem leads_popString {u : BufferChain.State} {taken sz skip : ℤ} {read : List UInt8}
    (h : w.popString sz skip = some (read, u)) :
    ∃ r, popString w taken sz skip = some r ∧
      Leads r (u.setSize (toUint32 (u.m_buffer._size - taken))) := by
  obtain ⟨current, hhead, h⟩ := Option.bind_eq_some_iff.mp h
  rw [popString, hhead, Option.bind_some]
  split at h
  · rename_i hless
    rw [if_pos hless]
    obtain ⟨read', hread, hpair⟩ := Option.map_eq_some_iff.mp h
    cases hpair
    rw [hread]
    exact ⟨_, rfl, leads_finish _ _⟩
  · rename_i hmore
    rw [if_neg hmore]
    split at h
    · rename_i heq
      rw [if_pos heq]
      obtain ⟨read', hread, h⟩ := Option.bind_eq_some_iff.mp h
      obtain ⟨t, ht, hpair⟩ := Option.map_eq_some_iff.mp h
      cases hpair
      rw [hread]
      exact leads_free ht (leads_finish _ _)
    · rename_i hne
      rw [if_neg hne]
      exact ⟨_, rfl, leads_popLoop (fun _ _ _ => rfl) _ _ _ h⟩

/-- So does `doReadLine`.
SOURCE: api/socket.cc:161-192 -/
theorem leads_doReadLine {u : BufferChain.State} {check : Bool} {sep : List UInt8}
    {line : Receive.Line} (h : w.doReadLine check sep = some (line, u)) :
    ∃ r, doReadLine w check sep = some r ∧ Leads r u := by
  unfold BufferChain.State.doReadLine at h
  unfold doReadLine
  split at h
  · rename_i hempty
    rw [if_pos hempty]
    cases Option.some.inj h
    exact ⟨_, rfl, .refl⟩
  · rename_i hsome
    rw [if_neg hsome]
    obtain ⟨found, hfound, h⟩ := Option.bind_eq_some_iff.mp h
    rw [hfound, Option.bind_some]
    cases found with
    | none =>
      cases Option.some.inj h
      exact ⟨_, rfl, .refl⟩
    | some start =>
      cases check with
      | true =>
        cases Option.some.inj h
        exact ⟨_, rfl, .refl⟩
      | false =>
        obtain ⟨⟨read, t⟩, hpop, hpair⟩ := Option.map_eq_some_iff.mp h
        cases hpair
        exact leads_popString hpop

/-- **An operation that runs alone** does what it does in `Model.BufferChain`. -/
theorem oper_runs {e : Receive.Event} (h : BufferChain.oper w e = some v) :
    ∃ r, begin w e = some r ∧ Leads r v := by
  cases e with
  | pushData data =>
    simp only [BufferChain.oper, Option.ite_none_right_eq_some] at h
    obtain ⟨⟨-, hlt⟩, hpush⟩ := h
    rw [pushData_eq] at hpush
    refine ⟨_, if_pos hlt, leads_step rfl (leads_step ?_ .refl)⟩
    exact Option.map_eq_some_iff.mpr ⟨v, hpush, rfl⟩
  | doRead outBuffer outLen =>
    simp only [BufferChain.oper, Option.ite_none_right_eq_some] at h
    obtain ⟨hint, h⟩ := h
    obtain ⟨⟨ret, out, u⟩, hread, rfl⟩ := Option.map_eq_some_iff.mp h
    rw [begin, if_pos hint]
    exact leads_doRead hread
  | doReadLine check sep =>
    obtain ⟨⟨line, u⟩, hread, rfl⟩ := Option.map_eq_some_iff.mp h
    exact leads_doReadLine hread
  | doReadAll =>
    obtain ⟨⟨b, u⟩, hread, rfl⟩ := Option.map_eq_some_iff.mp h
    obtain ⟨⟨b', u'⟩, hloop, hpair⟩ := Option.map_eq_some_iff.mp hread
    cases hpair
    exact ⟨_, rfl, leads_readLoop _ _ hloop⟩
  | clearBuffer =>
    obtain ⟨u, hloop, rfl⟩ := Option.map_eq_some_iff.mp h
    exact ⟨_, rfl, leads_clearLoop _ hloop⟩

end MagicNet.NodePool
