import MagicNet.Model.SocketSystem

/-!
# What a flush sends

`doSend` hands the buffers of a slot to the kernel from the front and stops at the first buffer
the kernel does not take whole.  Whatever the kernel answers, the bytes it takes and the bytes
left are the bytes the slot had (`sendLoop_conserves`); with buffers whose pointer stands inside
them, nothing is left exactly when the answers let every buffer pass (`TakesAll`).
-/

set_option autoImplicit false

namespace MagicNet.Network

/-! ## Buffers -/

namespace SendData

variable {d : SendData}

/-- The pointer stands inside the buffer, and the buffer inside its block. -/
def WellFormed (d : SendData) : Prop := d._ptr ≤ d._sz ∧ d._sz ≤ d._data.length

/-- How many bytes a send still has to write. -/
theorem length_unsent (d : SendData) : d.unsent.length = min d._sz d._data.length - d._ptr := by
  simp [unsent]

/-- For a well-formed one these are the bytes past `_ptr`. -/
theorem WellFormed.length_unsent (h : d.WellFormed) : d.unsent.length = d._sz - d._ptr := by
  rw [SendData.length_unsent, Nat.min_eq_left h.2]

/-- Moving the pointer takes the first unsent bytes away. -/
theorem unsent_advance (d : SendData) (n : ℕ) :
    ({ d with _ptr := d._ptr + n } : SendData).unsent = d.unsent.drop n := by
  simp [unsent, List.drop_drop]

/-- A pointer at the end of the buffer leaves nothing. -/
theorem take_unsent_of_end {n : ℕ} (hn : d._ptr + n = d._sz) : d.unsent.take n = d.unsent := by
  apply List.take_of_length_le
  rw [length_unsent]
  omega

end SendData

namespace SocketHandle

variable {s : SocketHandle}

/-! ## Conservation -/

/-- The flush changes the queue and the byte count, and nothing else. -/
theorem sendLoop_frame (answers : List Answer) (s : SocketHandle) :
    ∃ m_sendQs m_sendBytes, (sendLoop answers s).handle =
      { s with m_sendQs := m_sendQs, m_sendBytes := m_sendBytes } := by
  induction answers generalizing s with
  | nil => exact ⟨_, _, rfl⟩
  | cons answer answers ih =>
    unfold sendLoop
    split
    · exact ⟨_, _, rfl⟩
    · cases answer with
      | EINTR => exact ih s
      | EAGAIN => exact ⟨_, _, rfl⟩
      | fails => exact ⟨_, _, rfl⟩
      | takes n =>
        simp only
        split
        · next rest _ _ => exact ih { s with m_sendQs := rest, m_sendBytes := _ }
        · exact ⟨_, _, rfl⟩

/-- **The flush conserves the queue's bytes**: those the kernel takes, then those left. -/
theorem sendLoop_conserves (answers : List Answer) (s : SocketHandle) :
    (sendLoop answers s).bytes ++ (sendLoop answers s).handle.m_sendQs.flatMap SendData.unsent =
      s.m_sendQs.flatMap SendData.unsent := by
  induction answers generalizing s with
  | nil => rfl
  | cons answer answers ih =>
    unfold sendLoop
    split
    · rfl
    · next tmp rest hq =>
      cases answer with
      | EINTR => exact ih s
      | EAGAIN => rfl
      | fails => rfl
      | takes n =>
        simp only
        split
        · next hend =>
          rw [List.append_assoc, ih, SendData.take_unsent_of_end hend, hq, List.flatMap_cons]
        · rw [List.flatMap_cons, SendData.unsent_advance, ← List.append_assoc,
            List.take_append_drop, hq, List.flatMap_cons]

/-- Only an error of the kernel closes. -/
theorem sendLoop_closed (answers : List Answer) (s : SocketHandle)
    (h : (sendLoop answers s).closed = true) : .fails ∈ answers := by
  induction answers generalizing s with
  | nil => simp [sendLoop] at h
  | cons answer answers ih =>
    unfold sendLoop at h
    split at h
    · simp at h
    · cases answer with
      | EINTR => exact List.mem_cons_of_mem _ (ih s h)
      | EAGAIN => simp at h
      | fails => exact List.mem_cons_self
      | takes n =>
        simp only at h
        split at h
        · exact List.mem_cons_of_mem _ (ih _ h)
        · simp at h

/-- `doSend` empties `m_curSender`.
SOURCE: network/socketHandle.cc:72-113 -/
theorem doSend_curSender (s : SocketHandle) (answers : List Answer) :
    (s.doSend answers).handle.m_curSender = none := by
  obtain ⟨m_sendQs, m_sendBytes, h⟩ := sendLoop_frame answers s.pushCurSender
  rw [doSend, h]
  unfold pushCurSender
  split <;> simp_all

/-- The bytes of the slot are those of the queue `doSend` begins with.
SOURCE: network/socketHandle.cc:72-113 -/
theorem pushCurSender_unsent (s : SocketHandle) :
    s.pushCurSender.m_sendQs.flatMap SendData.unsent = s.unsent := by
  unfold pushCurSender unsent
  cases s.m_curSender <;> rfl

/-- **`doSend` conserves the slot's bytes.**
SOURCE: network/socketHandle.cc:72-113 -/
theorem doSend_conserves (s : SocketHandle) (answers : List Answer) :
    (s.doSend answers).bytes ++ (s.doSend answers).handle.unsent = s.unsent := by
  rw [unsent, doSend_curSender, Option.toList_none, List.nil_append, ← pushCurSender_unsent s]
  exact sendLoop_conserves answers s.pushCurSender

/-- What `doSend` leaves as it was.
SOURCE: network/socketHandle.cc:72-113 -/
theorem doSend_frame (s : SocketHandle) (answers : List Answer) :
    (s.doSend answers).handle.m_state = s.m_state ∧
      (s.doSend answers).handle.m_handle = s.m_handle ∧
      (s.doSend answers).handle.m_opaque = s.m_opaque ∧
      (s.doSend answers).handle.m_sendIn = s.m_sendIn ∧
      (s.doSend answers).handle.m_proto = s.m_proto := by
  obtain ⟨m_sendQs, m_sendBytes, h⟩ := sendLoop_frame answers s.pushCurSender
  rw [doSend, h]
  unfold pushCurSender
  split
  · exact ⟨rfl, rfl, rfl, rfl, rfl⟩
  · exact ⟨rfl, rfl, rfl, rfl, rfl⟩

/-! ## Complete flushes -/

/-- The answers let buffers of these lengths pass whole, up to buffers with nothing unsent. -/
def TakesAll : List Answer → List ℕ → Prop
  | _, [] => True
  | [], lengths => lengths.sum = 0
  | .EINTR :: answers, lengths => TakesAll answers lengths
  | .EAGAIN :: _, lengths => lengths.sum = 0
  | .fails :: _, lengths => lengths.sum = 0
  | .takes n :: answers, length :: lengths => length ≤ n ∧ TakesAll answers lengths

/-- Every buffer of the slot is well formed. -/
def WellFormed (s : SocketHandle) : Prop :=
  ∀ d ∈ s.m_curSender.toList ++ s.m_sendQs, d.WellFormed

/-- Nothing is unsent when the unsent lengths add up to nothing. -/
theorem flatMap_unsent_eq_nil (q : List SendData) :
    q.flatMap SendData.unsent = [] ↔ (q.map fun d => d.unsent.length).sum = 0 := by
  rw [← List.length_eq_zero_iff, List.length_flatMap]

/-- **When a flush leaves nothing.** -/
theorem sendLoop_sends_all (answers : List Answer) (s : SocketHandle)
    (hq : ∀ d ∈ s.m_sendQs, d.WellFormed) :
    (sendLoop answers s).handle.m_sendQs.flatMap SendData.unsent = [] ↔
      TakesAll answers (s.m_sendQs.map fun d => d.unsent.length) := by
  induction answers generalizing s with
  | nil =>
    rw [sendLoop, flatMap_unsent_eq_nil]
    cases s.m_sendQs with
    | nil => simp [TakesAll]
    | cons tmp rest => simp only [TakesAll, List.map_cons]
  | cons answer answers ih =>
    cases hqs : s.m_sendQs with
    | nil => simp [sendLoop, hqs, TakesAll]
    | cons tmp rest =>
      simp only [hqs, List.mem_cons, forall_eq_or_imp] at hq
      simp only [sendLoop, hqs, List.map_cons]
      cases answer with
      | EINTR =>
        rw [TakesAll, ih s (by simpa [hqs] using hq), hqs, List.map_cons]
        simp
      | EAGAIN =>
        simp only [TakesAll]
        rw [hqs, flatMap_unsent_eq_nil, List.map_cons]
      | fails =>
        simp only [TakesAll]
        rw [hqs, flatMap_unsent_eq_nil, List.map_cons]
      | takes n =>
        have hlen := hq.1.length_unsent
        have hptr := hq.1.1
        simp only [TakesAll]
        split
        · next hend =>
          rw [ih _ hq.2]
          have hle : tmp.unsent.length ≤ n := by omega
          simp [hle]
        · next hend =>
          have hlt : ¬ tmp.unsent.length ≤ n := by omega
          have hleft : (tmp.unsent.drop (min n tmp.unsent.length)) ≠ [] := by
            apply List.ne_nil_of_length_pos
            rw [List.length_drop]
            omega
          rw [List.flatMap_cons, SendData.unsent_advance]
          simp only [hlt, false_and, iff_false]
          intro hnil
          exact hleft (List.append_eq_nil_iff.mp hnil).1

/-! ## One call -/

/-- The answers that the loops of `doSend` get, of those the kernel has. -/
def asked : List Answer → List SendData → List Answer
  | [], _ => []
  | _ :: _, [] => []
  | .EINTR :: answers, q => .EINTR :: asked answers q
  | .EAGAIN :: _, _ :: _ => [.EAGAIN]
  | .fails :: _, _ :: _ => [.fails]
  | .takes n :: answers, tmp :: rest =>
    .takes n ::
      if tmp._ptr + min n tmp.unsent.length = tmp._sz then asked answers rest else []

/-- What `doSend` has to do with the buffers `q`, where the kernel takes `bytes`: the first buffers
are sent whole and freed, and of the next one the kernel has taken some bytes and not the last; no
others are touched. -/
def Splits (q freed left : List SendData) (bytes : List UInt8) : Prop :=
  ∃ rest n, q = freed ++ rest ∧
    left = rest.modifyHead (fun d => { d with _ptr := d._ptr + n }) ∧
    bytes = freed.flatMap SendData.unsent ++ ((rest.head?.map SendData.unsent).getD []).take n ∧
    (∀ d ∈ rest.head?, n = 0 ∨ n < d.unsent.length)

/-- Nothing is sent. -/
theorem splits_nil (q : List SendData) : Splits q [] q [] := by
  refine ⟨q, 0, rfl, ?_, ?_, fun _ _ => .inl rfl⟩
  · cases q <;> rfl
  · simp

/-- A buffer is sent whole before the others. -/
theorem Splits.cons {q freed left : List SendData} {bytes : List UInt8}
    (h : Splits q freed left bytes) (d : SendData) :
    Splits (d :: q) (d :: freed) left (d.unsent ++ bytes) := by
  obtain ⟨rest, n, hq, hleft, hbytes, hn⟩ := h
  refine ⟨rest, n, by rw [hq, List.cons_append], hleft, ?_, hn⟩
  rw [hbytes, List.flatMap_cons, List.append_assoc]

/-- Some bytes of the first buffer are sent, and not the last. -/
theorem splits_part {d : SendData} {n : ℕ} (hn : n < d.unsent.length) (q : List SendData) :
    Splits (d :: q) [] ({ d with _ptr := d._ptr + n } :: q) (d.unsent.take n) := by
  refine ⟨d :: q, n, rfl, rfl, by simp, fun d' hd' => .inr ?_⟩
  obtain rfl : d = d' := by simpa using hd'
  exact hn

/-- **The loops** split the buffers, and close exactly on an error. -/
theorem sendLoop_splits (answers : List Answer) (s : SocketHandle)
    (hq : ∀ d ∈ s.m_sendQs, d.WellFormed) :
    Splits s.m_sendQs (sendLoop answers s).freed (sendLoop answers s).handle.m_sendQs
        (sendLoop answers s).bytes ∧
      ((sendLoop answers s).closed = true ↔ .fails ∈ asked answers s.m_sendQs) := by
  induction answers generalizing s with
  | nil => exact ⟨splits_nil _, by simp [sendLoop, asked]⟩
  | cons answer answers ih =>
    cases hqs : s.m_sendQs with
    | nil =>
      simp only [sendLoop, hqs, asked]
      exact ⟨splits_nil [], by simp⟩
    | cons tmp rest =>
      simp only [hqs, List.mem_cons, forall_eq_or_imp] at hq
      simp only [sendLoop, hqs]
      cases answer with
      | EINTR =>
        have hrest := ih s (by simpa [hqs] using hq)
        rw [hqs] at hrest
        exact ⟨hrest.1, by simpa [asked] using hrest.2⟩
      | EAGAIN =>
        rw [hqs]
        exact ⟨splits_nil _, by simp [asked]⟩
      | fails =>
        rw [hqs]
        exact ⟨splits_nil _, by simp [asked]⟩
      | takes n =>
        have hlen := hq.1.length_unsent
        have hptr := hq.1.1
        simp only [asked]
        split
        · next hend =>
          have hrest (m_sendBytes : ℕ) :=
            ih { s with m_sendQs := rest, m_sendBytes := m_sendBytes } hq.2
          rw [SendData.take_unsent_of_end hend]
          refine ⟨(hrest _).1.cons tmp, (hrest _).2.trans ?_⟩
          simp
        · next hend => exact ⟨splits_part (by omega) rest, by simp⟩

/-- What a call of `doSend` has to do. -/
structure SendsRight (s : SocketHandle) (answers : List Answer) : Prop where
  conserves : (s.doSend answers).bytes ++ (s.doSend answers).handle.unsent = s.unsent
  current : (s.doSend answers).handle.m_curSender = none
  splits : Splits (s.m_curSender.toList ++ s.m_sendQs) (s.doSend answers).freed
    (s.doSend answers).handle.m_sendQs (s.doSend answers).bytes
  closed : (s.doSend answers).closed = true ↔
    .fails ∈ asked answers (s.m_curSender.toList ++ s.m_sendQs)

/-- The buffers that `doSend` begins with.
SOURCE: network/socketHandle.cc:72-113 -/
theorem pushCurSender_queue (s : SocketHandle) :
    s.pushCurSender.m_sendQs = s.m_curSender.toList ++ s.m_sendQs := by
  unfold pushCurSender
  cases s.m_curSender <;> rfl

/-- **`doSend`.**  Whatever buffers a slot has, each with its pointer inside it, and whatever the
kernel answers: the bytes it takes and the bytes still queued are the bytes that were unsent, in
order; `m_curSender` is empty; the buffers sent to their last byte are freed, each once, and no
others; and the call closes exactly when the kernel has failed for another reason than `EINTR` or
`EAGAIN`.
SOURCE: network/socketHandle.cc:11-14, 72-113 -/
theorem send_conserves (s : SocketHandle) (h : s.WellFormed) (answers : List Answer) :
    SendsRight s answers := by
  have hq : ∀ d ∈ s.pushCurSender.m_sendQs, d.WellFormed := by
    rw [pushCurSender_queue]
    exact h
  have hsplits := sendLoop_splits answers s.pushCurSender hq
  rw [pushCurSender_queue] at hsplits
  exact ⟨doSend_conserves s answers, doSend_curSender s answers, hsplits.1, hsplits.2⟩

/-- A current buffer of which a byte has been sent, and one in the queue: the first is sent whole
after an interrupted call, of the second two bytes of three. -/
theorem send_conserves_part : SendsRight
    { m_handle := 1, m_opaque := 0, m_sock := 7, m_curSender := some ⟨[1, 2], 1, 2⟩, m_sendIn := 0,
      m_sendQs := [⟨[3, 4, 5], 0, 3⟩], m_sendBytes := 3, m_sendWarn := WARNING_SIZE,
      m_recvBufferSize := 128, m_proto := .TCP, m_state := .CONNECTED }
    [.EINTR, .takes 1, .takes 2] := by
  refine send_conserves _ (fun d hd => ?_) _
  rcases List.mem_cons.mp hd with rfl | hd
  · exact ⟨by decide, by decide⟩
  · obtain rfl := List.mem_singleton.mp hd
    exact ⟨by decide, by decide⟩

end SocketHandle

end MagicNet.Network
