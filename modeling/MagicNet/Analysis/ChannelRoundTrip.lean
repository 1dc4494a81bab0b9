import MagicNet.Model.Channel

/-!
# When a request comes out of the command channel as it went in

The bytes that `doSend` writes start at the header, so the reader's array begins with the six
bytes of padding behind the header and has byte `k` of the union at `k + 6`.  A request is read
back exactly when each byte of its members happens to equal the byte six places before it in the
packet; and a start request is never handled, because `doStart` registers no handler for it.
The letter and the number of bytes taken are always right.
-/

set_option autoImplicit false

namespace MagicNet.Channel

open MagicNet.Foundation

/-! ## The layout of the requests -/

namespace Request

/-- The fields of a request do not overlap.
SOURCE: network/socketChannel.h:15-60 -/
theorem fields_apart (r : Request) : r.fields.Pairwise Field.Apart := by
  cases r with
  | connect r =>
    simp [fields, Field.Apart, int32, uintptr]
    omega
  | start r | send r | setopt r | close r | exit r =>
    simp [fields, Field.Apart, int32, uintptr]

/-- A request that is accepted has less than 256 bytes.
SOURCE: network/socketChannel.cc:54-58 -/
theorem len_lt {r : Request} (h : r.Accepted) : r.len < 256 := by
  cases r with
  | connect r =>
    obtain ⟨-, hlen⟩ := h
    simp only [len]
    omega
  | start r | send r | setopt r | close r | exit r => simp [len]

/-- The members lie in the part of the packet that `len` accounts for.
SOURCE: network/socketSystem.cc:162-335 -/
theorem lt_len_of_covers {r : Request} {k : ℕ} (h : ∃ f ∈ r.fields, f.Covers k) : k < r.len := by
  obtain ⟨f, hf, -, hlt⟩ := h
  have hend : ∀ g ∈ r.fields, g.offset + g.bytes.length ≤ r.len := by
    cases r with
    | connect r =>
      simp [fields, int32, uintptr, len]
      omega
    | start r | send r | setopt r | close r | exit r => simp [fields, int32, uintptr, len]
  exact hlt.trans_le (hend f hf)

/-- An `int32_t` is held where its four bytes are. -/
theorem heldBy_int32 {m : Memory} {offset : ℕ} {v : BitVec 32} :
    (int32 offset v).HeldBy m ↔ m.loadWord 4 offset = v := by
  unfold Field.HeldBy int32
  rw [bytesLE_length]
  exact Memory.loadWord_eq_iff.symm

/-- A `uintptr_t` where its eight are. -/
theorem heldBy_uintptr {m : Memory} {offset : ℕ} {v : BitVec 64} :
    (uintptr offset v).HeldBy m ↔ m.loadWord 8 offset = v := by
  unfold Field.HeldBy uintptr
  rw [bytesLE_length]
  exact Memory.loadWord_eq_iff.symm

/-- The string and its NUL are two members for the writer and one string for the reader. -/
theorem heldBy_addr {m : Memory} {addr : List UInt8} (hnul : 0 ∉ addr)
    (hlen : ¬ addr.length + 24 ≥ 256) :
    Field.HeldBy ⟨16, addr⟩ m ∧ Field.HeldBy ⟨16 + addr.length, [0]⟩ m ↔
      m.cstring 16 240 = some addr := by
  unfold Field.HeldBy
  rw [Memory.cstring_eq_some_iff, Memory.load_add]
  constructor
  · rintro ⟨haddr, hzero⟩
    exact ⟨by omega, hnul, by rw [haddr]; exact congrArg _ hzero⟩
  · rintro ⟨-, -, hbytes⟩
    exact List.append_inj hbytes (Memory.load_length _ _)

/-- **A request is read from an array exactly when the array holds its members.**
SOURCE: network/socketSystem.cc:162-335 -/
theorem read_eq_iff {r : Request} (h : r.Accepted) (data : Memory) :
    read r.letter data = some r ↔ ∀ f ∈ r.fields, f.HeldBy data := by
  cases r with
  | connect r =>
    obtain ⟨handle, port, opq, addr⟩ := r
    have haddr := heldBy_addr (m := data) h.1 h.2
    simp only [read, letter, fields, List.forall_mem_cons, Option.map_eq_some_iff, connect.injEq,
      RequestConnect.mk.injEq, heldBy_int32, heldBy_uintptr]
    constructor
    · rintro ⟨s, hs, hhandle, hport, hopq, rfl⟩
      exact ⟨hopq, hhandle, hport, (haddr.mpr hs).1, (haddr.mpr hs).2, by simp⟩
    · rintro ⟨hopq, hhandle, hport, hbytes, hzero, -⟩
      exact ⟨addr, haddr.mp ⟨hbytes, hzero⟩, hhandle, hport, hopq, rfl⟩
  | start r | send r | setopt r | close r | exit r =>
    cases r
    simp [read, letter, fields, heldBy_int32, heldBy_uintptr]

end Request

/-! ## One request through the pipe -/

namespace Call

variable (c : Call)

/-- What the reader's array holds after the read, `data` being what it held before. -/
def received (data : Memory) : Memory := data.store 0 (c.filled.memory.load 2 c.request.len)

/-- What the call becomes at the reader. -/
def delivery (data : Memory) : Delivery :=
  { command := c.request.letter, taken := c.wire.length, data := c.received data
    outcome := dispatch doStart c.request.letter (c.received data) }

/-- What goes into the pipe: the letter, the length and the bytes of the request.
SOURCE: network/socketChannel.cc:54-58 -/
theorem wire_eq : c.wire =
    UInt8.ofNat c.request.letter.toNat :: UInt8.ofNat c.request.len ::
      c.filled.memory.load 2 c.request.len := by
  unfold wire doSend
  rw [Memory.load_succ, Memory.load_succ]
  refine congrArg₂ _ rfl (congrArg₂ _ rfl ?_)
  apply (Memory.load_eq_load_iff _ _).mpr
  intro k _
  have hbody : 2 + k ≠ 0 ∧ 2 + k ≠ 1 := by omega
  simp [RequestPacket.memory, hbody]

/-- Two bytes more than the request has.
SOURCE: network/socketChannel.cc:54-58 -/
theorem wire_length : c.wire.length = 2 + c.request.len := by
  rw [wire_eq, List.length_cons, List.length_cons, Memory.load_length]
  omega

/-- That is never nothing. -/
theorem wire_ne_nil : c.wire ≠ [] := by
  rw [wire_eq]
  exact List.cons_ne_nil _ _

/-- The reader takes the call's bytes, and no others, and finds its letter.
SOURCE: network/socketChannel.cc:126-174, network/socketSystem.cc:135-147 -/
theorem doProccess_wire (data : Memory) (rest : List UInt8) :
    doProccess doStart data (c.wire ++ rest) = some (c.delivery data, rest) := by
  have hlen : (UInt8.ofNat c.request.len).toNat = c.request.len := by
    rw [UInt8.toNat_ofNat']
    exact Nat.mod_eq_of_lt (Request.len_lt c.accepted)
  have hletter : Char.ofNat (UInt8.ofNat c.request.letter.toNat).toNat = c.request.letter := by
    cases c.request <;> rfl
  have hload : (c.filled.memory.load 2 c.request.len).length = c.request.len :=
    Memory.load_length _ _
  have htake : (c.filled.memory.load 2 c.request.len ++ rest).take c.request.len =
      c.filled.memory.load 2 c.request.len := List.take_left' hload
  have hdrop : (c.filled.memory.load 2 c.request.len ++ rest).drop c.request.len = rest :=
    List.drop_left' hload
  have hle : c.request.len ≤ (c.filled.memory.load 2 c.request.len ++ rest).length := by
    rw [List.length_append, hload]
    exact Nat.le_add_right _ _
  rw [delivery, wire_length, wire_eq, List.cons_append, List.cons_append, doProccess]
  simp only [hlen, hletter, htake, hdrop, if_pos hle]
  rfl

/-- The reader's array is the packet without its header. -/
theorem received_eq {data : Memory} {k : ℕ} (hk : k < c.request.len) :
    c.received data k = if k < 6 then c.packet.padding k else c.filled.u (k - 6) := by
  have hin : 0 ≤ k ∧ k < 0 + (c.filled.memory.load 2 c.request.len).length := by
    rw [Memory.load_length]
    omega
  unfold received Memory.store
  rw [if_pos hin, Nat.sub_zero]
  simp only [Memory.load, List.getD_eq_getElem?_getD, List.getElem?_map, List.getElem?_range hk,
    Option.map_some, Option.getD_some]
  unfold RequestPacket.memory
  rw [if_neg (by omega), if_neg (by omega)]
  by_cases hpad : k < 6
  · rw [if_pos (by omega), if_pos hpad, Nat.add_sub_cancel_left]
    rfl
  · rw [if_neg (by omega), if_neg hpad]
    congr 1
    omega

/-- Each byte of the members equals the byte six places before it in the packet: a byte of the
padding behind the header, or an earlier byte of the union. -/
def RepeatsPadding : Prop :=
  ∀ k, (∃ f ∈ c.request.fields, f.Covers k) →
    c.filled.u k = if k < 6 then c.packet.padding k else c.filled.u (k - 6)

/-- The request is read back exactly when its bytes repeat the padding. -/
theorem read_received_iff (data : Memory) :
    Request.read c.request.letter (c.received data) = some c.request ↔ c.RepeatsPadding := by
  have hheld : ∀ f ∈ c.request.fields, f.HeldBy c.filled.u :=
    holds_fill _ c.request.fields_apart
  rw [Request.read_eq_iff c.accepted, holds_iff_agree hheld]
  apply forall_congr'
  intro k
  apply imp_congr_right
  intro hk
  rw [received_eq c (Request.lt_len_of_covers hk)]
  exact eq_comm

end Call

/-- The reader took the call's bytes and found its letter. -/
def Arrives (c : Call) (d : Option Delivery) : Prop :=
  ∃ d', d = some d' ∧ d'.command = c.request.letter ∧ d'.taken = c.wire.length

/-- The request came through: its bytes were taken, its letter and its members are the ones
sent, and it was handed to a registered handler; an exit request, which has none, makes the
reader exit. -/
def RoundTrips (c : Call) (d : Option Delivery) : Prop :=
  ∃ d', d = some d' ∧ d'.command = c.request.letter ∧ d'.taken = c.wire.length ∧
    Request.read d'.command d'.data = some c.request ∧
      (d'.outcome = .called (some c.request) ∨ c.request.letter = 'X' ∧ d'.outcome = .exit)

/-- A request comes through exactly when its bytes repeat the padding and it is no start
request. -/
theorem roundTrips_delivery_iff (c : Call) (data : Memory) :
    RoundTrips c (some (c.delivery data)) ↔ c.request.letter ≠ 'S' ∧ c.RepeatsPadding := by
  rw [← c.read_received_iff data]
  have houtcome : Request.read c.request.letter (c.received data) = some c.request →
      ((c.delivery data).outcome = .called (some c.request) ∨
        c.request.letter = 'X' ∧ (c.delivery data).outcome = .exit ↔ c.request.letter ≠ 'S') := by
    intro hread
    unfold Call.delivery dispatch
    rw [hread]
    cases c.request <;> simp [Request.letter, doStart]
  constructor
  · rintro ⟨_, ⟨⟩, -, -, hread, hout⟩
    exact ⟨(houtcome hread).mp hout, hread⟩
  · rintro ⟨hletter, hread⟩
    exact ⟨_, rfl, rfl, rfl, hread, (houtcome hread).mpr hletter⟩

/-- Calls that have been delivered come back right exactly where none is an `S` and the padding
repeats.
SOURCE: network/socketChannel.cc:126-188 -/
theorem roundTrips_iff_of_delivered {calls : List Call} {handled : List (Option Delivery)}
    (h : List.Forall₂ (fun c d => ∃ data, d = some (Call.delivery c data)) calls handled) :
    List.Forall₂ RoundTrips calls handled ↔
      ∀ c ∈ calls, c.request.letter ≠ 'S' ∧ c.RepeatsPadding := by
  induction h with
  | nil => simp
  | cons hd _ ih =>
    obtain ⟨data, rfl⟩ := hd
    rw [List.forall₂_cons, List.forall_mem_cons, roundTrips_delivery_iff]
    exact and_congr_right' ih

/-! ## Runs -/

/-- The pipe holds the calls that have not been handled, and the handled ones have become their
deliveries. -/
structure Inv (s : State) : Prop where
  count : s.handled.length ≤ s.sent.length
  pipe : s.pipe = (s.sent.drop s.handled.length).flatMap Call.wire
  handled : List.Forall₂ (fun c d => ∃ data, d = some (Call.delivery c data))
    (s.sent.take s.handled.length) s.handled

/-- A call keeps what is in the pipe.
SOURCE: network/socketChannel.cc:54-58 -/
theorem doSend_inv {s : State} (h : Inv s) (call : Call) :
    Inv { s with pipe := s.pipe ++ call.wire, sent := s.sent ++ [call] } := by
  refine ⟨?_, ?_, ?_⟩
  · rw [List.length_append]
    exact Nat.le_add_right_of_le h.count
  · simp only [List.drop_append_of_le_length h.count, List.flatMap_append, ← h.pipe]
    simp
  · simp only [List.take_append_of_le_length h.count]
    exact h.handled

/-- So does the reader, up to what it has read.
SOURCE: network/socketChannel.cc:126-188 -/
theorem doProccess_inv {s s' : State} (h : Inv s) {data : Memory}
    (hs : step s (.doProccess data) = some s') : Inv s' := by
  have hpipe : s.pipe ≠ [] := by
    intro hempty
    simp [step, hempty] at hs
  obtain ⟨c, rest, hdrop⟩ : ∃ c rest, s.sent.drop s.handled.length = c :: rest := by
    apply List.exists_cons_of_ne_nil
    intro hnil
    rw [h.pipe, hnil] at hpipe
    exact hpipe rfl
  have hread := c.doProccess_wire data (rest.flatMap Call.wire)
  rw [← List.flatMap_cons, ← hdrop, ← h.pipe] at hread
  simp only [step, if_neg hpipe, hread, Option.some.injEq] at hs
  have hlt : s.handled.length < s.sent.length := by
    have := congrArg List.length hdrop
    rw [List.length_drop, List.length_cons] at this
    omega
  have hcons := List.drop_eq_getElem_cons hlt
  rw [hdrop, List.cons.injEq] at hcons
  subst hs
  refine ⟨?_, ?_, ?_⟩
  · simpa using hlt
  · simp [hcons.2]
  · simp only [List.length_append, List.length_cons, List.length_nil, Nat.zero_add,
      List.take_succ_eq_append_getElem hlt, ← hcons.1]
    exact List.rel_append h.handled (.cons ⟨data, rfl⟩ .nil)

/-- The pipe has what has been sent and not yet read. -/
theorem inv_of_reachable {s : State} (h : system.Reachable s) : Inv s := by
  refine h.invariant (I := Inv) ?_ ?_
  · rintro s ⟨hpipe, hsent, hhandled⟩
    exact ⟨by simp [hhandled], by simp [hpipe, hsent], by simp [hhandled, hsent]⟩
  · intro s e s' hI _ hs
    cases e with
    | doSend call =>
      cases hs
      exact doSend_inv hI call
    | doProccess data => exact doProccess_inv hI hs

/-- **The command channel.**  In every reachable state the calls of `doProccess` have taken the
bytes of one request each and found its letter, and the pipe holds the bytes of the requests not
yet handled; and all the handled requests came through exactly when none is a start request and
the bytes of each repeat its padding.
SOURCE: network/socketChannel.cc:54-88, 126-174, network/socketSystem.cc:135-147 -/
theorem channel_round_trip (s : State) (h : system.Reachable s) :
    s.pipe = (s.sent.drop s.handled.length).flatMap Call.wire ∧
    List.Forall₂ Arrives (s.sent.take s.handled.length) s.handled ∧
    (List.Forall₂ RoundTrips (s.sent.take s.handled.length) s.handled ↔
      ∀ c ∈ s.sent.take s.handled.length, c.request.letter ≠ 'S' ∧ c.RepeatsPadding) := by
  have hI := inv_of_reachable h
  refine ⟨hI.pipe, hI.handled.imp ?_, roundTrips_iff_of_delivered hI.handled⟩
  rintro c d ⟨data, rfl⟩
  exact ⟨_, rfl, rfl, rfl⟩

/-- One request is sent and handled.
SOURCE: network/socketChannel.cc:54-58, 126-174 -/
theorem run_one (c : Call) (data : Memory) :
    system.run ⟨[], [], []⟩ [.doSend c, .doProccess data] =
      some ⟨[], [c], [some (c.delivery data)]⟩ := by
  have hread := c.doProccess_wire data []
  rw [List.append_nil] at hread
  simp [System.run_cons, system, step, hread, c.wire_ne_nil]

/-- A close request, with the bytes of its packet's padding behind the header. -/
def closeCall (request : RequestClose) (padding : List UInt8) : Call :=
  ⟨.close request, trivial, ⟨(0, 0), fun k => padding.getD k 0, fun _ => 0⟩⟩

/-- A close request whose bytes repeat the padding comes through.
SOURCE: network/socketChannel.cc:54-58, 126-174 -/
theorem channel_round_trip_repeated : ∃ s, system.run ⟨[], [], []⟩
    [.doSend (closeCall ⟨65536, 0, 281474976710657⟩ [0, 0, 1]), .doProccess fun _ => 255] =
      some s ∧ s.pipe = [] ∧
        List.Forall₂ RoundTrips [closeCall ⟨65536, 0, 281474976710657⟩ [0, 0, 1]] s.handled := by
  have hrun := run_one (closeCall ⟨65536, 0, 281474976710657⟩ [0, 0, 1]) fun _ => 255
  obtain ⟨hpipe, -, htrip⟩ := channel_round_trip _ (System.reachable_of_run ⟨rfl, rfl, rfl⟩ hrun)
  refine ⟨_, hrun, hpipe, htrip.mpr ?_⟩
  intro c hc
  rw [List.length_singleton, List.take_succ_cons, List.take_zero, List.mem_singleton] at hc
  subst hc
  refine ⟨by decide, fun k hk => ?_⟩
  have hbytes : ∀ k < 16, (closeCall ⟨65536, 0, 281474976710657⟩ [0, 0, 1]).filled.u k =
      if k < 6 then (closeCall ⟨65536, 0, 281474976710657⟩ [0, 0, 1]).packet.padding k
      else (closeCall ⟨65536, 0, 281474976710657⟩ [0, 0, 1]).filled.u (k - 6) := by decide
  exact hbytes k (Request.lt_len_of_covers hk)

/-- A close request for handle 1, with zeros behind the header: the reader finds handle 0. -/
theorem channel_garbles_close : ¬ ∀ s, system.Reachable s →
    List.Forall₂ RoundTrips (s.sent.take s.handled.length) s.handled := by
  intro hall
  have hrun := run_one (closeCall ⟨1, 0, 7⟩ []) fun _ => 0
  have htrip := hall _ (System.reachable_of_run ⟨rfl, rfl, rfl⟩ hrun)
  have hone := (List.forall₂_cons.mp htrip).1
  obtain ⟨_, ⟨⟩, -, -, hread, -⟩ := hone
  have hhandle : (((closeCall ⟨1, 0, 7⟩ []).received fun _ => 0).loadWord 4 0).toNat = 0 := by
    decide
  simp only [Request.read, Request.close.injEq, RequestClose.mk.injEq, closeCall, Call.delivery,
    Request.letter, Option.some.injEq] at hread
  have hone : (((closeCall ⟨1, 0, 7⟩ []).received fun _ => 0).loadWord 4 0) = 1 := hread.1
  rw [hone] at hhandle
  revert hhandle
  decide

end MagicNet.Channel
