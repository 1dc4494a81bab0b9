import MagicNet.Analysis.MessageHeader
import MagicNet.Model.Protocols

/-!
# Which protocol a message comes to

The table is a finite map: an id has the protocol that was registered for it last.  But the map goes by
the numbers from -128 to 127, and the header by those from 0 to 255.  So a message whose id is below 0
can be packed and sent, and the receiver, which finds 128 and more in the header, has never a protocol
for it.

SOURCE: module/actorComponent.cc:183-295, module/actorComponent.h:122-152
-/

set_option autoImplicit false

namespace MagicNet.Protocols

open MagicNet.Foundation

variable {A B D : Type} {p proto : MessageProtocol A B D} {m_proto protos : List (MessageProtocol A B D)}
  {msgId : BitVec 32}

/-! ## The table -/

/-- Another protocol is for an id when it has the same number. -/
theorem is_of_is (h : p.is (proto._msgId.signExtend 32)) : p.is msgId = proto.is msgId := by
  have hsame : p._msgId.signExtend 32 = proto._msgId.signExtend 32 := eq_of_beq h
  rw [MessageProtocol.is, MessageProtocol.is, hsame]

/-- A registration changes what is found for one id.
SOURCE: module/actorComponent.cc:183-193, 195-208 -/
theorem getProtocol_doRegisterProtocol (proto : MessageProtocol A B D)
    (m_proto : List (MessageProtocol A B D)) (msgId : BitVec 32) :
    getProtocol (doRegisterProtocol proto m_proto) msgId =
      if proto.is msgId then some proto else getProtocol m_proto msgId := by
  unfold getProtocol
  induction m_proto with
  | nil =>
    rw [doRegisterProtocol, List.find?_cons]
    cases proto.is msgId <;> rfl
  | cons p m_proto ih =>
    rw [doRegisterProtocol]
    split
    · next hp =>
      rw [List.find?_cons, List.find?_cons, is_of_is hp]
      cases proto.is msgId <;> rfl
    · next hp =>
      rw [List.find?_cons, List.find?_cons, ih]
      cases hmsg : p.is msgId with
      | false => rfl
      | true =>
        have hother : proto.is msgId = false := by
          by_contra hproto
          refine hp ?_
          rw [Bool.not_eq_false] at hproto
          rwa [eq_of_beq hproto]
        rw [hother]
        rfl

/-- **The table as a finite map.**
SOURCE: module/actorComponent.cc:183-193 -/
theorem getProtocol_registered (protos : List (MessageProtocol A B D)) (msgId : BitVec 32) :
    getProtocol (registered protos) msgId = last protos msgId := by
  induction protos using List.reverseRecOn with
  | nil => rfl
  | append_singleton protos proto ih =>
    rw [registered, List.foldl_append, List.foldl_cons, List.foldl_nil,
      getProtocol_doRegisterProtocol, last, List.reverse_concat, List.find?_cons]
    cases proto.is msgId with
    | true => rfl
    | false => exact ih

/-! ## The numbers -/

/-- The numbers that a protocol can have. -/
theorem range_of_is (h : p.is msgId) : -128 ≤ msgId.toInt ∧ msgId.toInt < 128 := by
  rw [← eq_of_beq h, BitVec.toInt_signExtend_of_le (by decide)]
  have hlow := BitVec.le_toInt p._msgId
  have hhigh := BitVec.toInt_lt (x := p._msgId)
  omega

/-- The number in the header. -/
theorem toInt_header (msgId : BitVec 32) :
    ((msgId.setWidth 8).setWidth 32).toInt = msgId.toInt % 256 := by
  have hlt := msgId.isLt
  rw [BitVec.toInt_eq_toNat_cond, BitVec.toInt_eq_toNat_cond]
  simp only [BitVec.toNat_setWidth]
  split <;> split <;> omega

/-- An id below 0 is read as one that no protocol can have. -/
theorem last_header_of_neg (hneg : msgId.toInt < 0) (hlow : -128 ≤ msgId.toInt) :
    last protos ((msgId.setWidth 8).setWidth 32) = none := by
  rw [last, List.find?_eq_none]
  intro p _ hp
  have hrange := range_of_is hp
  rw [toInt_header] at hrange
  omega

/-- And one from 0 on is read as it was. -/
theorem header_of_nonneg (hpos : 0 ≤ msgId.toInt) (hhigh : msgId.toInt < 128) :
    (msgId.setWidth 8).setWidth 32 = msgId := by
  apply BitVec.eq_of_toInt_eq
  rw [toInt_header]
  omega

/-! ## From the sender to the receiver -/

/-- What the receiver reads in the message of a `doSend`.
SOURCE: module/actorComponent.cc:183-193, 210-295, module/actorSystem.cc:114-123, 125-143,
module/actorComponent.h:123-152 -/
theorem dispatchMessage_doSendMessage (w : Place) (src dst session : BitVec 32) (data sz : BitVec 64) :
    dispatchMessage m_proto (doSendMessage w src dst msgId session data sz) =
      let found := (msgId.setWidth 8).setWidth 32
      if found = M_ID_RESOUE then .resoue session
      else if found = M_ID_TIMEOUT then .timeout session
      else if found = M_ID_QUIT then .quit dst
      else
        dispatchProtocol found session src (carried w data sz).1
          (Header.packed (carried w data sz).2 >>> Header.MESSAGE_EXT_ID_BYTES)
          (getProtocol m_proto found) := by
  rw [dispatchMessage, Header.Call.decodedId_eq, Header.Call.decodedSize_eq]
  rfl

/-- What `doSend` needs, and the message it makes.
SOURCE: module/actorComponent.h:123-152, module/actorComponent.cc:183-193,
module/actorSystem.cc:114-123, 125-143 -/
theorem doSend_eq_some {w : Place} {handle dst session : BitVec 32} {parm : A} {k : Header.Call}
    (h : doSend w m_proto handle msgId dst session parm = some k) :
    ∃ proto pack, getProtocol m_proto msgId = some proto ∧ proto._pack = some pack ∧
      k = doSendMessage w handle dst msgId session (pack parm).1 (pack parm).2 := by
  unfold doSend at h
  split at h
  · cases h
  · next proto hproto =>
    obtain ⟨pack, hpack, rfl⟩ := Option.map_eq_some_iff.mp h
    exact ⟨proto, pack, hproto, hpack, rfl⟩

/-- **The protocol of a message.**  Whatever protocols the two components have registered, a message
that `doSend` makes has an id from -128 to 127.  If the id is not below 0, the receiver hands it to the
protocol that it registered last for the same id, with the sender's handle, the session, the data and
its size modulo `2 ^ 20`, unless it is one of the three ids that `dispatchMessage` keeps to itself; if it
is below 0, the receiver has no protocol for it: where there is a session it sends back an
`M_ID_ERROR`, and where there is none it logs the message as an unknown request.
SOURCE: module/actorComponent.cc:183-295, module/actorComponent.h:122-152 -/
theorem dispatch_sent (w : Place) (protos protos' : List (MessageProtocol A B D))
    (handle msgId dst session : BitVec 32) (parm : A) (k : Header.Call)
    (h : doSend w (registered protos) handle msgId dst session parm = some k) :
    (-128 ≤ msgId.toInt ∧ msgId.toInt < 128) ∧
      ∃ proto ∈ last protos msgId, ∃ pack ∈ proto._pack, ∃ sz : BitVec 32,
        sz.toNat = (carried w (pack parm).1 (pack parm).2).2.toNat % 2 ^ 20 ∧
          (0 ≤ msgId.toInt → msgId ≠ M_ID_RESOUE → msgId ≠ M_ID_TIMEOUT → msgId ≠ M_ID_QUIT →
            dispatchMessage (registered protos') k = dispatchProtocol msgId session handle
              (carried w (pack parm).1 (pack parm).2).1 sz (last protos' msgId)) ∧
          (msgId.toInt < 0 → dispatchMessage (registered protos') k =
            if session ≠ 0 then .error session handle
            else
              .unknownRequest ((msgId.setWidth 8).setWidth 32) session handle
                (carried w (pack parm).1 (pack parm).2).1 sz) := by
  obtain ⟨proto, pack, hproto, hpack, rfl⟩ := doSend_eq_some h
  rw [getProtocol_registered] at hproto
  have his : proto.is msgId = true :=
    List.find?_some (p := fun q : MessageProtocol A B D => q.is msgId) hproto
  have hrange := range_of_is his
  refine ⟨hrange, proto, hproto, pack, hpack,
    Header.packed (carried w (pack parm).1 (pack parm).2).2 >>> Header.MESSAGE_EXT_ID_BYTES,
    Header.unpacked _, ?_, ?_⟩
  · intro hpos hresoue htimeout hquit
    simp only [dispatchMessage_doSendMessage, header_of_nonneg hpos hrange.2, if_neg hresoue,
      if_neg htimeout, if_neg hquit, getProtocol_registered]
  · intro hneg
    have hkept : ∀ id : BitVec 32, 0 ≤ id.toInt → id.toInt < 128 →
        (msgId.setWidth 8).setWidth 32 ≠ id := by
      rintro id hpos hhigh rfl
      rw [toInt_header] at hpos hhigh
      omega
    simp only [dispatchMessage_doSendMessage,
      if_neg (hkept M_ID_RESOUE (by decide) (by decide)),
      if_neg (hkept M_ID_TIMEOUT (by decide) (by decide)),
      if_neg (hkept M_ID_QUIT (by decide) (by decide)), getProtocol_registered,
      last_header_of_neg hneg hrange.1]
    rfl

/-- Both ends have a protocol for 4 and one for 200, which is -56: the message of -56 is not received,
and is answered where it has a session.
SOURCE: module/actorComponent.cc:210-295, 306-313, module/actorComponent.h:123-152 -/
theorem dispatch_sent_text : ∃ (protos : List (MessageProtocol (BitVec 64 × BitVec 64)
      (BitVec 64 × BitVec 32) ℕ)) (w : Place) (k k' k'' : Header.Call),
    doSend w (registered protos) 1 4 2 7 (64, 5) = some k ∧
    doSend w (registered protos) 1 (-56) 2 7 (64, 5) = some k' ∧
    doSend w (registered protos) 1 (-56) 2 0 (64, 5) = some k'' ∧
    dispatchMessage (registered protos) k = .handled 10 7 1 (64, 5) ∧
    dispatchMessage (registered protos) k' = .error 7 1 ∧
    dispatchMessage (registered protos) k'' = .unknownRequest 200 0 1 64 5 := by
  let text : MessageProtocol (BitVec 64 × BitVec 64) (BitVec 64 × BitVec 32) ℕ :=
    ⟨4, some 10, some id, some fun data sz => (data, sz)⟩
  let protos := [text, { text with _msgId := 200, _dispatch := some 20 }]
  let w : Place := ⟨fun _ => 0, 0, fun _ => 0, 64, fun _ => 0, fun _ => 0, 64⟩
  have hk : doSend w (registered protos) 1 4 2 7 (64, 5) = some _ := rfl
  have hk' : doSend w (registered protos) 1 (-56) 2 7 (64, 5) = some _ := rfl
  have hk'' : doSend w (registered protos) 1 (-56) 2 0 (64, 5) = some _ := rfl
  refine ⟨protos, w, _, _, _, hk, hk', hk'', ?_, ?_, ?_⟩
  · obtain ⟨proto, hproto, pack, hpack, sz, hsz, heq, -⟩ :=
      (dispatch_sent w protos protos 1 4 2 7 (64, 5) _ hk).2
    obtain rfl : text = proto := Option.some.inj hproto
    obtain rfl : id = pack := Option.some.inj hpack
    obtain rfl : 5 = sz := BitVec.eq_of_toNat_eq hsz.symm
    exact heq (by decide) (by decide) (by decide) (by decide)
  · obtain ⟨proto, -, pack, -, sz, -, -, heq⟩ :=
      (dispatch_sent w protos protos 1 (-56) 2 7 (64, 5) _ hk').2
    exact heq (by decide)
  · obtain ⟨proto, hproto, pack, hpack, sz, hsz, -, heq⟩ :=
      (dispatch_sent w protos protos 1 (-56) 2 0 (64, 5) _ hk'').2
    obtain rfl : { text with _msgId := 200, _dispatch := some 20 } = proto :=
      Option.some.inj hproto
    obtain rfl : id = pack := Option.some.inj hpack
    obtain rfl : 5 = sz := BitVec.eq_of_toNat_eq hsz.symm
    exact heq (by decide)

end MagicNet.Protocols
