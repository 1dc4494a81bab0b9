import MagicNet.Model.RecvAdapt

/-!
# What becomes of the receive buffer

The test for a smaller buffer is the other way round: more than half used halves the buffer, and less
than half leaves it as it is.  The size is legal all the same.
-/

set_option autoImplicit false

namespace MagicNet.RecvAdapt

open MagicNet.Foundation MagicNet.Network
open MagicNet.Network.Slot (recvBufferSize)

variable {c c' : Slot} {n size : ℕ}

/-! ## The size after a read -/

/-- **A read** sets the size by the number of bytes, and is possible in the range only. -/
theorem step_eq (hs : step c n = some c') : 0 < n ∧ n ≤ c.s.m_recvBufferSize ∧ n < 2 ^ 30 ∧
    c'.s.m_recvBufferSize = recvBufferSize c.s.m_recvBufferSize n := by
  simp only [step, Option.ite_none_right_eq_some] at hs
  obtain ⟨⟨hpos, hle, hlt, hstate⟩, hs⟩ := hs
  refine ⟨hpos, hle, hlt, ?_⟩
  rw [Slot.doRecvProc, if_neg hstate] at hs
  cases hs
  rfl

/-- After a full read the buffer is doubled.
SOURCE: network/socketSystem.cc:720-772 -/
theorem full (hlt : size < 2 ^ 30) : recvBufferSize size size = 2 * size := by
  rw [recvBufferSize, if_pos rfl, toUint32]
  omega

/-- After another it is halved, where it is large and less than half of it was read.
SOURCE: network/socketSystem.cc:720-772 -/
theorem not_full (hn : n ≠ size) : recvBufferSize size n =
    if 128 < size ∧ size < n * 2 then size / 2 else size := if_neg hn

/-- **The size stays legal**, whichever way the test goes. -/
theorem legal_step (h : Legal size) (hle : n ≤ size) (hlt : n < 2 ^ 30) :
    Legal (recvBufferSize size n) := by
  obtain ⟨⟨k, hk⟩, hmax⟩ := h
  by_cases hn : n = size
  · subst hn
    rw [full hlt]
    refine ⟨⟨k + 1, ?_⟩, by omega⟩
    rw [hk, pow_succ]
    ring
  · rw [not_full hn]
    split
    · next hhalf =>
      refine ⟨?_, by omega⟩
      cases k with
      | zero =>
        rw [hk] at hhalf
        exact absurd hhalf.1 (by decide)
      | succ k =>
        refine ⟨k, ?_⟩
        rw [hk, pow_succ, ← Nat.mul_assoc, Nat.mul_div_cancel _ (by decide)]
    · exact ⟨⟨k, hk⟩, hmax⟩

/-- The size is at least the least one. -/
theorem minimum_le (h : Legal size) : minimum ≤ size := by
  obtain ⟨⟨k, hk⟩, -⟩ := h
  rw [hk]
  exact Nat.le_mul_of_pos_right _ (Nat.two_pow_pos k)

/-- **A read adapts the size as it should** exactly when it fills the buffer, or half of it, or the
buffer is the smallest. -/
theorem adapts_iff (h : Legal size) (hpos : 0 < n) (hle : n ≤ size) (hlt : n < 2 ^ 30) :
    Adapts size n (recvBufferSize size n) ↔ n = size ∨ 2 * n = size ∨ size = minimum := by
  have hlegal := legal_step h hle hlt
  have hmin := minimum_le h
  have hminimum : minimum = 128 := rfl
  by_cases hn : n = size
  · subst hn
    have hfull := full hlt
    refine iff_of_true ⟨hlegal, iff_of_true hfull rfl, fun hless => ?_, fun _ hless => ?_⟩
      (.inl rfl)
    · omega
    · omega
  · have hsize := not_full hn
    constructor
    · intro hadapts
      by_contra hnot
      have hlarge : size ≠ minimum := fun heq => hnot (.inr (.inr heq))
      rcases Nat.lt_or_gt_of_ne (fun heq => hnot (.inr (.inl heq)) : 2 * n ≠ size) with hless | hmore
      · -- less than half: the size stays
        have hsmaller := hadapts.shrinks hless
        rw [if_neg hlarge, hsize, if_neg (by omega)] at hsmaller
        exact Nat.lt_irrefl size hsmaller
      · -- more than half: the size is halved
        have hsame := hadapts.keeps hmore (by omega)
        rw [hsize, if_pos (by omega)] at hsame
        omega
    · rintro (heq | heq | heq)
      · exact absurd heq hn
      · rw [if_neg (by omega)] at hsize
        rw [hsize] at hlegal ⊢
        refine ⟨hlegal, ?_, fun hless => by omega, fun _ _ => rfl⟩
        omega
      · rw [if_neg (by omega)] at hsize
        rw [hsize] at hlegal ⊢
        refine ⟨hlegal, by omega, fun _ => ?_, fun _ _ => rfl⟩
        rw [if_pos heq]

/-! ## Runs -/

def Inv (c : Slot) : Prop := Legal c.s.m_recvBufferSize

/-- A new slot has the invariant. -/
theorem inv_of_init (h : system.init c) : Inv c := by
  have hsize : c.s.m_recvBufferSize = minimum := h
  rw [Inv, hsize]
  exact ⟨⟨0, rfl⟩, by decide⟩

/-- A read keeps it.
SOURCE: network/socketSystem.cc:720-772 -/
theorem step_inv (h : Inv c) (hs : step c n = some c') : Inv c' := by
  obtain ⟨-, hle, hlt, hsize⟩ := step_eq hs
  rw [Inv, hsize]
  exact legal_step h hle hlt

/-- A read adapts the size as it should if and only if the condition holds of it.
SOURCE: network/socketSystem.cc:720-772 -/
theorem right_iff (h : Inv c) (hs : step c n = some c') : Right c n c' ↔ Cond c n := by
  obtain ⟨hpos, hle, hlt, hsize⟩ := step_eq hs
  rw [Right, hsize]
  exact adapts_iff h hpos hle hlt

/-- So it is for all reads of a run. -/
theorem always_right_iff {c₀ : Slot} {ns : List ℕ} (h0 : Inv c₀)
    (hrun : system.run c₀ ns = some c) :
    system.Always Right c₀ ns ↔ system.Meets Cond c₀ ns := by
  apply System.always_iff_of_iff _ h0 hrun
  intro c n c' h hs
  exact ⟨right_iff h hs, step_inv h hs⟩

/-- **Small reads bring the buffer down**, where reads adapt the size. -/
theorem small_reads {c₀ : Slot} {ns : List ℕ} {k : ℕ} (h0 : Inv c₀)
    (hrun : system.run c₀ ns = some c) (hmeets : system.Meets Cond c₀ ns)
    (hsmall : system.Meets Small c₀ ns) (hk : c₀.s.m_recvBufferSize ≤ minimum * 2 ^ k) :
    c.s.m_recvBufferSize ≤ minimum * 2 ^ (k - ns.length) := by
  induction ns generalizing c₀ k with
  | nil =>
    obtain rfl : c₀ = c := Option.some.inj hrun
    exact hk
  | cons n ns ih =>
    obtain ⟨t, ht, hrest⟩ := Option.bind_eq_some_iff.mp hrun
    have hinv := step_inv h0 ht
    have hadapts : Adapts _ n t.s.m_recvBufferSize := (right_iff h0 ht).mpr hmeets.1
    have hshrinks := hadapts.shrinks hsmall.1
    have hnext : t.s.m_recvBufferSize ≤ minimum * 2 ^ (k - 1) := by
      split at hshrinks
      · next heq =>
        rw [hshrinks, heq]
        exact Nat.le_mul_of_pos_right _ (Nat.two_pow_pos _)
      · obtain ⟨⟨i, hi⟩, -⟩ := hinv
        rw [hi] at hshrinks ⊢
        have hlt : 2 ^ i < 2 ^ k := Nat.lt_of_mul_lt_mul_left (hshrinks.trans_le hk)
        have hik := (Nat.pow_lt_pow_iff_right (by decide)).mp hlt
        have hle : i ≤ k - 1 := by omega
        exact Nat.mul_le_mul_left _ (Nat.pow_le_pow_right (by decide) hle)
    have hgoal := ih hinv hrest (hmeets.2 t ht) (hsmall.2 t ht) hnext
    rw [List.length_cons, Nat.add_comm, ← Nat.sub_sub]
    exact hgoal

/-- A run keeps the invariant. -/
theorem inv_run {c₀ : Slot} {ns : List ℕ} (h0 : Inv c₀) (hrun : system.run c₀ ns = some c) :
    Inv c := by
  apply System.run_invariant (I := Inv) _ h0 hrun (System.meets_true c₀ ns)
  intro c n c' h _ hs
  exact step_inv h hs

/-- The rule for a whole run, from the one for every read. -/
theorem adaptsAlong_iff {c₀ : Slot} {ns : List ℕ} (h0 : Inv c₀)
    (hrun : system.run c₀ ns = some c) : AdaptsAlong c₀ ns ↔ system.Meets Cond c₀ ns := by
  have heach := always_right_iff h0 hrun
  constructor
  · intro h
    exact heach.mp h.each
  · intro hmeets
    refine ⟨heach.mpr hmeets, ?_⟩
    rintro before small after t u k rfl ht hu hsmall hk
    rw [List.append_assoc] at hmeets
    have hrest := (System.meets_append.mp hmeets).2 t ht
    exact small_reads (inv_run h0 ht) hu (System.meets_append.mp hrest).1 hsmall hk

/-- **The receive buffer adapts** to the reads of a slot, of any number, exactly when each of them
fills the buffer, or half of it, or comes while the buffer is the smallest.
SOURCE: network/socketSystem.cc:720-772, network/socketHandle.cc:26-36 -/
theorem recv_adapts {c₀ : Slot} {ns : List ℕ} (h0 : c₀.s.m_recvBufferSize = minimum)
    (hrun : system.run c₀ ns = some c) : AdaptsAlong c₀ ns ↔ system.Meets Cond c₀ ns :=
  adaptsAlong_iff (inv_of_init h0) hrun

/-- A connected slot, just initialised. -/
def start : Slot where
  s :=
    { m_handle := 1, m_opaque := 1, m_sock := 7, m_curSender := none, m_sendIn := 0,
      m_sendQs := [], m_sendBytes := 0, m_sendWarn := WARNING_SIZE,
      m_recvBufferSize := 128, m_proto := .TCP, m_state := .CONNECTED }
  registered := true
  toWrite := false
  kernel := []
  messages := []

/-- A short read, two full ones, and one of half the buffer. -/
theorem recv_adapts_full : AdaptsAlong start [5, 128, 256, 256] :=
  (recv_adapts rfl rfl).mpr (by decide)

/-- The buffer has been full once, and then one byte is read. -/
theorem recv_keeps_large : ¬ ∀ (c₀ c : Slot) (ns : List ℕ), c₀.s.m_recvBufferSize = minimum →
    system.run c₀ ns = some c → AdaptsAlong c₀ ns := by
  intro hall
  have hinit : system.init start := rfl
  have hmeets := (adaptsAlong_iff (inv_of_init hinit) rfl).mp (hall start _ [128, 1] rfl rfl)
  exact absurd hmeets (by decide)

end MagicNet.RecvAdapt
