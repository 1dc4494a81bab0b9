import MagicNet.Model.Payload

/-!
# Which payloads are released once

`actor::dispatch` frees `_data` after `doRun`, and `staticSocketDispatch` has freed it by then.  The
`_buffer` is only known to the socket dispatcher and to `forwardMessage`: nobody frees it where
the message ends elsewhere.  A copy that `doSendMessage` has made is only freed by `dispatch`.

The list of a `socketOper` is exact: what has been freed and what its nodes hold is what has been
pushed.
-/

set_option autoImplicit false

namespace MagicNet.Payload

open MagicNet.Foundation MagicNet.Network

/-! ## Blocks that are freed on a path -/

/-- The buffer of the socket message that is carried. -/
def Carried.buffer (c : Carried) : Option Block := c.message.bind SocketMessage._buffer

/-- The buffer of what the sender passes. -/
def Data.buffer : Data → Option Block
  | .socketMessage m => m._buffer
  | _ => none

/-- The block carried is freed once on the path, and so is the buffer, unless it has been stored. -/
structure Released (s : Send) (outcome : Outcome) : Prop where
  data : ∀ c, s.carried = some c → (s.path outcome).frees.count c.block = 1
  buffer : ∀ c b, s.carried = some c → c.buffer = some b →
    (s.path outcome).frees.count b = if (s.path outcome).stored then 0 else 1

/-- The message is run by the socket dispatcher. -/
def SocketRun (msgId : MessageId) (protocol : Option DispatchFunc) : Prop :=
  (msgId ≠ .M_ID_RESOUE ∧ msgId ≠ .M_ID_TIMEOUT ∧ msgId ≠ .M_ID_QUIT) ∧
    protocol = some .staticSocketDispatch

/-- The sender frees all that the message carries when it cannot be sent. -/
def FreesFailed : Send → Prop
  | .forwardMessage _ => True
  | .doSend _ data sz => sz ≠ 0 ∧ data.buffer = none
  | .direct _ _ _ => False

/-- The paths that release what the message carries. -/
def Releases (s : Send) (c : Carried) : Outcome → Prop
  | .missing => FreesFailed s
  | .dropped => False
  | .noComponent => c.buffer = none
  | .run protocol _ => c.buffer = none ∧ ¬ SocketRun s.msgId protocol

/-! ## Blocks -/

variable {s : Send} {c : Carried} {data : Data} {sz : ℕ}

/-- A message carries the block of its sender, or a copy of it that is no socket message. -/
theorem duplicate_some (h : duplicate data sz = some c) :
    data.block = some .data ∧ (sz = 0 ∧ c = ⟨.copy, none⟩ ∨
      sz ≠ 0 ∧ c.block = .data ∧ c.buffer = data.buffer) := by
  cases data with
  | null => cases h
  | socketMessage m =>
    refine ⟨rfl, ?_⟩
    simp only [duplicate, Option.some.injEq] at h
    by_cases hsz : sz = 0
    · exact .inl ⟨hsz, by rw [← h, if_pos hsz]⟩
    · rw [if_neg hsz] at h
      exact .inr ⟨hsz, by rw [← h], by rw [← h]; rfl⟩
  | other =>
    refine ⟨rfl, ?_⟩
    simp only [duplicate, Option.some.injEq] at h
    by_cases hsz : sz = 0
    · exact .inl ⟨hsz, by rw [← h, if_pos hsz]⟩
    · rw [if_neg hsz] at h
      exact .inr ⟨hsz, by rw [← h], by rw [← h]; rfl⟩

/-- What is carried is the data or a copy of it.
SOURCE: module/actorSystem.cc:114-123, 125-143 -/
theorem carried_block (h : s.carried = some c) : c.block = .data ∨ c.block = .copy := by
  have hdup : ∀ (data : Data) (sz : ℕ), duplicate data sz = some c →
      c.block = .data ∨ c.block = .copy := by
    intro data sz hd
    rcases (duplicate_some hd).2 with ⟨-, rfl⟩ | ⟨-, hblock, -⟩
    · exact .inr rfl
    · exact .inl hblock
  cases s with
  | forwardMessage m => exact hdup (.socketMessage m) 24 h
  | doSend msgId data sz => exact hdup data sz h
  | direct msgId data sz => exact hdup data sz h

/-- A buffer that is carried is that of the socket message. -/
theorem buffer_some {b : Block} (h : c.buffer = some b) : b = .buffer := by
  obtain ⟨m, -, hm⟩ := Option.bind_eq_some_iff.mp h
  unfold SocketMessage._buffer at hm
  split at hm
  · exact (Option.some.inj hm).symm
  · cases hm

/-! ## What a dispatch frees -/

/-- The socket dispatcher frees the message.
SOURCE: api/socket.cc:446-482 -/
theorem mem_staticSocketDispatch (c : Carried) (known : Bool) :
    c.block ∈ (staticSocketDispatch c known).frees := by
  unfold staticSocketDispatch
  split
  · simp
  · split <;> simp

/-- A socket message goes to the dispatch of sockets.
SOURCE: module/actorComponent.cc:210-295 -/
theorem dispatchMessage_socket {msgId : MessageId} {protocol : Option DispatchFunc} {known : Bool}
    (h : SocketRun msgId protocol) :
    dispatchMessage msgId protocol known (some c) = staticSocketDispatch c known := by
  obtain ⟨⟨hres, htime, hquit⟩, rfl⟩ := h
  cases msgId with
  | M_ID_RESOUE => exact absurd rfl hres
  | M_ID_TIMEOUT => exact absurd rfl htime
  | M_ID_QUIT => exact absurd rfl hquit
  | _ => rfl

/-- The other protocols free nothing.
SOURCE: module/actorComponent.cc:210-295 -/
theorem dispatchMessage_other {msgId : MessageId} {protocol : Option DispatchFunc} {known : Bool}
    (h : ¬ SocketRun msgId protocol) :
    dispatchMessage msgId protocol known (some c) = { frees := [], stored := false } := by
  unfold dispatchMessage
  split
  · rfl
  · rfl
  · rfl
  · next hres htime hquit =>
    split
    · exact absurd ⟨⟨hres, htime, hquit⟩, rfl⟩ h
    · rfl

/-! ## The outcomes -/

/-- On a path that frees the block carried and nothing else, there must be no buffer. -/
theorem released_alone {outcome : Outcome} (hc : s.carried = some c)
    (hpath : s.path outcome = { frees := [c.block], stored := false }) :
    Released s outcome ↔ c.buffer = none := by
  constructor
  · intro h
    by_contra hsome
    obtain ⟨b, hb⟩ := Option.ne_none_iff_exists'.mp hsome
    have hcount := h.buffer c b hc hb
    rw [hpath, buffer_some hb] at hcount
    rcases carried_block hc with hblock | hblock <;> simp [hblock] at hcount
  · intro hnone
    constructor
    · intro c' hc'
      obtain rfl : c = c' := Option.some.inj (hc.symm.trans hc')
      rw [hpath]
      simp
    · intro c' b hc' hb
      obtain rfl : c = c' := Option.some.inj (hc.symm.trans hc')
      rw [hnone] at hb
      cases hb

/-- A block that is not freed is not released. -/
theorem not_released {outcome : Outcome} (hc : s.carried = some c)
    (hnot : c.block ∉ (s.path outcome).frees) : ¬ Released s outcome := by
  intro h
  have hcount := h.data c hc
  rw [List.count_eq_zero.mpr hnot] at hcount
  cases hcount

/-- Where the receiver is missing, the data is freed exactly if the failed send frees it.
SOURCE: module/actorSystem.cc:114-123, 125-143 -/
theorem released_missing (hc : s.carried = some c) :
    Released s .missing ↔ FreesFailed s := by
  cases s with
  | forwardMessage m =>
    simp only [FreesFailed, iff_true]
    obtain rfl : (⟨.data, some m⟩ : Carried) = c := Option.some.inj hc
    constructor
    · intro c' hc'
      obtain rfl : (⟨.data, some m⟩ : Carried) = c' := Option.some.inj hc'
      cases hm : m.hasBuffer <;>
        simp [Send.path, Send.failed, SocketMessage._buffer, hm, free]
    · intro c' b hc' hb
      obtain rfl : (⟨.data, some m⟩ : Carried) = c' := Option.some.inj hc'
      obtain rfl := buffer_some hb
      have hm : m._buffer = some .buffer := hb
      simp [Send.path, Send.failed, free, hm]
  | doSend msgId data sz =>
    obtain ⟨hblock, ⟨hsz, rfl⟩ | ⟨hsz, hdata, hbuffer⟩⟩ := duplicate_some hc
    · have hnot : ¬ Released (.doSend msgId data sz) .missing := by
        apply not_released hc
        simp [Send.path, Send.failed, hblock, free]
      have hfrees : ¬ FreesFailed (.doSend msgId data sz) := fun h => h.1 hsz
      exact iff_of_false hnot hfrees
    · have hpath : (Send.doSend msgId data sz).path .missing =
          { frees := [c.block], stored := false } := by
        simp [Send.path, Send.failed, hblock, free, hdata]
      rw [released_alone hc hpath, hbuffer]
      simp [FreesFailed, hsz]
  | direct msgId data sz =>
    have hnot : ¬ Released (.direct msgId data sz) .missing := by
      apply not_released hc
      simp [Send.path, Send.failed]
    simp [hnot, FreesFailed]

/-- Where it runs, it is unless there is a buffer that nobody takes.
SOURCE: module/actor.cc:126-154 -/
theorem released_run {protocol : Option DispatchFunc} {known : Bool} (hc : s.carried = some c) :
    Released s (.run protocol known) ↔ c.buffer = none ∧ ¬ SocketRun s.msgId protocol := by
  have hpath : (s.path (.run protocol known)).frees =
      (dispatchMessage s.msgId protocol known (some c)).frees ++ [c.block] := by
    simp [Send.path, dispatch, hc, free]
  by_cases hsocket : SocketRun s.msgId protocol
  · -- the dispatcher and `actor::dispatch` both free the message
    have hnot : ¬ Released s (.run protocol known) := by
      intro h
      have hcount := h.data c hc
      have hmem := List.count_pos_iff.mpr (mem_staticSocketDispatch c known)
      rw [hpath, dispatchMessage_socket hsocket, List.count_append,
        List.count_singleton_self] at hcount
      omega
    simp [hnot, hsocket]
  · have hone : s.path (.run protocol known) = { frees := [c.block], stored := false } := by
      simp [Send.path, dispatch, hc, free, dispatchMessage_other hsocket]
    rw [released_alone hc hone]
    simp [hsocket]

/-- What a message carries is released exactly on these paths. -/
theorem released_iff (hc : s.carried = some c) (outcome : Outcome) :
    Released s outcome ↔ Releases s c outcome := by
  cases outcome with
  | missing => exact released_missing hc
  | dropped =>
    have hnot : ¬ Released s .dropped := by
      apply not_released hc
      simp [Send.path, dispatch]
    simp [hnot, Releases]
  | noComponent =>
    apply released_alone hc
    simp [Send.path, dispatch, hc, free]
  | run protocol known => exact released_run hc

/-! ## Stored buffers -/

/-- A step keeps that the blocks freed and those of the nodes are the blocks pushed. -/
theorem buffers_step {b b' : Buffers} {e : BufferEvent} (h : b.freed ++ b.nodes = b.pushed)
    (hs : bufferStep b e = some b') : b'.freed ++ b'.nodes = b'.pushed := by
  cases e with
  | pushData data =>
    cases hs
    simp [← h]
  | freeBufferNode =>
    simp only [bufferStep] at hs
    split at hs
    · cases hs
    · next freeNode rest hnodes =>
      cases hs
      rw [← h, hnodes]
      simp

/-- The buffers that have been freed and those in nodes are those that were pushed. -/
theorem buffers_exact {b : Buffers} (h : buffers.Reachable b) : b.freed ++ b.nodes = b.pushed := by
  apply h.invariant (I := fun b => b.freed ++ b.nodes = b.pushed)
  · rintro b ⟨hnodes, hpushed, hfreed⟩
    simp [hnodes, hpushed, hfreed]
  · intro b e b' hI _ hs
    exact buffers_step hI hs

/-! ## Payloads -/

/-- **When a payload is released once.**  What a message carries is released on its path exactly
when it carries nothing or the path `Releases` it; and a buffer stored in a `socketOper` is freed
as often as its nodes have been, in any run of pushes and frees.
SOURCE: network/socketSystem.cc:23-53, module/actorSystem.cc:114-143, module/actor.cc:126-154,
api/socket.cc:446-509 -/
theorem payload_released (s : Send) (outcome : Outcome) {b : Buffers} (hb : buffers.Reachable b) :
    (Released s outcome ↔ ∀ c, s.carried = some c → Releases s c outcome) ∧
      ∀ block, b.freed.count block + b.nodes.count block = b.pushed.count block := by
  constructor
  · cases hc : s.carried with
    | none =>
      constructor
      · intro _ c h
        cases h
      · intro _
        constructor
        · intro c h
          rw [hc] at h
          cases h
        · intro c b h
          rw [hc] at h
          cases h
    | some c =>
      rw [released_iff hc]
      constructor
      · intro h c' hc'
        obtain rfl : c = c' := Option.some.inj hc'
        exact h
      · intro h
        exact h c rfl
  · intro block
    rw [← buffers_exact hb, List.count_append]

/-- A text for which the component has no protocol; and two buffers of a socket, of which the
first has been freed. -/
theorem payload_released_text :
    Released (.direct .M_ID_TEXT .other 3) (.run none true) ∧
      [4].count 4 + [5].count 4 = [4, 5].count 4 := by
  have hinit : buffers.init ⟨[], [], []⟩ := ⟨rfl, rfl, rfl⟩
  have hrun : buffers.run ⟨[], [], []⟩ [.pushData 4, .pushData 5, .freeBufferNode] =
      some ⟨[5], [4, 5], [4]⟩ := rfl
  obtain ⟨hreleased, hexact⟩ := payload_released (.direct .M_ID_TEXT .other 3) (.run none true)
    (System.reachable_of_run hinit hrun)
  refine ⟨hreleased.mpr ?_, hexact 4⟩
  intro c hc
  obtain rfl : (⟨.data, none⟩ : Carried) = c := Option.some.inj hc
  exact ⟨rfl, by simp [SocketRun]⟩

/-- A `CLOSE` message without a buffer that reaches a component with the socket protocol: the
dispatcher frees the message, and `actor::dispatch` frees it again. -/
theorem payload_freed_twice : ¬ ∀ (s : Send) (outcome : Outcome), Released s outcome := by
  intro hall
  have hcount := (hall (.forwardMessage ⟨.M_SOCKET_CLOSE, false⟩)
    (.run (some .staticSocketDispatch) true)).data ⟨.data, some ⟨.M_SOCKET_CLOSE, false⟩⟩ rfl
  revert hcount
  decide

end MagicNet.Payload
