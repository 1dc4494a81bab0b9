import MagicNet.Model.Dispatch

/-!
# Null pointers and empty functions in the handlers

The senders may pass no data, and the handlers look at what they get without asking.  A message of the
poll thread has always data; its `_buffer` is null for each `CLOSE` and `WARNING`, which nobody reads,
for a peer without an address, which is only passed on, and for the error of `doRequestStart` for a
handle that is not in use, of which `onError` makes a string when the socket is connecting.  A message
without data and without a size, as that of a timer, is logged as an empty string.

SOURCE: network/socketSystem.cc:23-128, 409-441, module/actorComponent.cc:210-372,
api/socket.cc:446-578
-/

set_option autoImplicit false

namespace MagicNet.Dispatch

open MagicNet.Foundation MagicNet.Network

variable {s s' : State}

/-! ## The handlers -/

/-- All that a handler has done was safe. -/
def Safe (uses : List Use) : Prop := ∀ u ∈ uses, u.safe = true

/-- Where nothing is used, nothing goes wrong. -/
@[simp] theorem safe_nil : Safe [] := nofun

/-- Uses are safe one by one. -/
@[simp] theorem safe_cons {u : Use} {us : List Use} :
    Safe (u :: us) ↔ u.safe = true ∧ Safe us := List.forall_mem_cons

/-- A message that is only logged is safe where it has data, or its size is 0.
SOURCE: module/actorComponent.cc:297-304, 306-313 -/
@[simp] theorem safe_unknown {msg : Message} :
    Safe (State.unknown msg) ↔ (msg._data = none → msg.msgSz = 0) := by
  cases hdata : msg._data <;> simp [State.unknown, Use.safe, hdata]

/-- `onAccept` is safe where the socket has a function.
SOURCE: api/socket.cc:489-497 -/
theorem safe_onAccept {id : ℤ} :
    Safe (s.onAccept id) ↔ ∀ k ∈ s.getSocket id, k.m_func = true := by
  unfold State.onAccept
  cases s.getSocket id <;> simp [Use.safe]

/-- `onError` is safe where there is a text, or nobody takes it.
SOURCE: api/socket.cc:541-556 -/
theorem safe_onError {id : ℤ} {err : Option String} : Safe (s.onError id err).1 ↔
    (err = none → ∀ k ∈ s.getSocket id, k.m_connected = true ∨ k.m_connecting = .empty) := by
  unfold State.onError
  cases s.getSocket id with
  | none => simp
  | some k =>
    by_cases hconn : k.m_connected = true
    · simp [hconn]
    · by_cases hempty : k.m_connecting = .empty
      · simp [hconn, SocketOper.isConnecting, hempty]
      · cases err <;> simp [hconn, SocketOper.isConnecting, hempty, Use.safe]

/-- The dispatch of a socket message is safe where there is one that its handler takes.
SOURCE: api/socket.cc:446-482 -/
theorem safe_staticSocketDispatch {data : Option SocketMessage} :
    Safe (s.staticSocketDispatch data).1 ↔ ∃ msg, data = some msg ∧ FitsSocket s msg := by
  cases data with
  | none => simp [State.staticSocketDispatch, Use.safe]
  | some msg =>
    have hsafe : Safe (s.staticSocketDispatch (some msg)).1 ↔ FitsSocket s msg := by
      obtain ⟨type, id, ext, buffer⟩ := msg
      cases type with
      | M_SOCKET_ACCEPT => exact safe_cons.trans ((and_iff_right rfl).trans safe_onAccept)
      | M_SOCKET_ERROR => exact safe_cons.trans ((and_iff_right rfl).trans safe_onError)
      | M_SOCKET_DATA | M_SOCKET_START | M_SOCKET_CLOSE | M_SOCKET_EXIT | M_SOCKET_UDP
      | M_SOCKET_WARNING => exact iff_of_true (safe_cons.mpr ⟨rfl, safe_nil⟩) trivial
    rw [hsafe]
    simp

/-- Without a dispatch, a message is logged, or answered.
SOURCE: module/actorComponent.cc:210-295 -/
theorem safe_noDispatch {msg : Message} :
    Safe (s.noDispatch msg).1 ↔ (msg._data = none → msg.msgSz = 0 ∨ msg._session ≠ 0) := by
  unfold State.noDispatch
  by_cases hsession : msg._session = 0 <;> simp [hsession]

/-- An error is safe where it has data, or its session is known.
SOURCE: module/actorComponent.cc:342-364 -/
theorem safe_errorDispatch {msg : Message} :
    Safe (s.errorDispatch msg).1 ↔ (msg._data = none → s.cpt.getSusped msg._session ≠ none) := by
  unfold State.errorDispatch
  cases s.cpt.getSusped msg._session <;> cases msg._data <;> simp [Use.safe]

/-! ## The dispatch -/

section Kinds

variable {msg : Message}

/-- A response is safe where it has data, or somebody waits for it, or its size is 0.
SOURCE: module/actorComponent.cc:210-295 -/
theorem safe_resoue (h : msg.msgId = M_ID_RESOUE) : Safe (s.dispatchMessage msg).1 ↔
    (msg._data = none → msg.msgSz = 0 ∨
      (s.cpt.getSusped msg._session).bind Component.CoEntry._entry ≠ none) := by
  rw [State.dispatchMessage, if_pos h]
  cases (s.cpt.getSusped msg._session).bind Component.CoEntry._entry <;> simp

/-- A timeout is safe where it has data, or its timer is known, or its size is 0.
SOURCE: module/actorComponent.cc:210-295 -/
theorem safe_timeout (h : msg.msgId = M_ID_TIMEOUT) : Safe (s.dispatchMessage msg).1 ↔
    (msg._data = none → msg.msgSz = 0 ∨
      ∃ co ∈ s.cpt.getSusped msg._session, co._func = true) := by
  have hresoue : msg.msgId ≠ M_ID_RESOUE := by
    rw [h]
    decide
  rw [State.dispatchMessage, if_neg hresoue, if_pos h]
  cases s.cpt.getSusped msg._session with
  | none => simp
  | some co => cases hfunc : co._func <;> simp [hfunc, Use.safe]

/-- A message to quit is safe.
SOURCE: module/actorComponent.cc:210-295 -/
theorem safe_quit (h : msg.msgId = M_ID_QUIT) : Safe (s.dispatchMessage msg).1 := by
  have hresoue : msg.msgId ≠ M_ID_RESOUE := by
    rw [h]
    decide
  have htimeout : msg.msgId ≠ M_ID_TIMEOUT := by
    rw [h]
    decide
  rw [State.dispatchMessage, if_neg hresoue, if_neg htimeout, if_pos h]
  exact safe_nil

/-- The message of a protocol.
SOURCE: module/actorComponent.cc:183-193, 210-295 -/
theorem safe_protocol (hresoue : msg.msgId ≠ M_ID_RESOUE) (htimeout : msg.msgId ≠ M_ID_TIMEOUT)
    (hquit : msg.msgId ≠ M_ID_QUIT) : Safe (s.dispatchMessage msg).1 ↔
      match s.getProtocol msg.msgId with
      | none | some .null => msg._data = none → msg.msgSz = 0 ∨ msg._session ≠ 0
      | some .staticErrorDispatch =>
        msg._data = none → s.cpt.getSusped msg._session ≠ none
      | some .staticSocketDispatch => ∃ m, msg._data = some m ∧ FitsSocket s m
      | some .other => True := by
  rw [State.dispatchMessage, if_neg hresoue, if_neg htimeout, if_neg hquit]
  cases s.getProtocol msg.msgId with
  | none => exact safe_noDispatch
  | some f =>
    cases f with
    | null => exact safe_noDispatch
    | staticErrorDispatch => exact safe_errorDispatch
    | staticSocketDispatch => exact safe_staticSocketDispatch
    | other => exact iff_of_true safe_nil trivial

/-- A message that has data needs a socket that fits, if it is for one.
SOURCE: module/actorComponent.cc:23-27, 210-295 -/
theorem safe_dispatch_some {m : SocketMessage} (hdata : msg._data = some m) :
    Safe (s.dispatchMessage msg).1 ↔ (ForSocket s msg.msgId → FitsSocket s m) := by
  have hsome : msg._data ≠ none := by simp [hdata]
  by_cases hresoue : msg.msgId = M_ID_RESOUE
  · exact iff_of_true ((safe_resoue hresoue).mpr fun hnone => absurd hnone hsome)
      fun hsocket => absurd hresoue hsocket.1
  by_cases htimeout : msg.msgId = M_ID_TIMEOUT
  · exact iff_of_true ((safe_timeout htimeout).mpr fun hnone => absurd hnone hsome)
      fun hsocket => absurd htimeout hsocket.2.1
  by_cases hquit : msg.msgId = M_ID_QUIT
  · exact iff_of_true (safe_quit hquit) fun hsocket => absurd hquit hsocket.2.2.1
  rw [safe_protocol hresoue htimeout hquit]
  have hsocket : ForSocket s msg.msgId ↔
      s.getProtocol msg.msgId = some .staticSocketDispatch :=
    ⟨fun h => h.2.2.2, fun h => ⟨hresoue, htimeout, hquit, h⟩⟩
  rw [hsocket, hdata]
  cases s.getProtocol msg.msgId with
  | none => simp
  | some f => cases f <;> simp

/-- One that has none needs to find what `FitsEmpty` says.
SOURCE: module/actorComponent.cc:23-27, 210-295 -/
theorem safe_dispatch_none (hdata : msg._data = none) :
    Safe (s.dispatchMessage msg).1 ↔ FitsEmpty s msg._session msg.msgId msg.msgSz := by
  unfold FitsEmpty
  by_cases hresoue : msg.msgId = M_ID_RESOUE
  · rw [safe_resoue hresoue, if_pos hresoue, forall_prop_of_true hdata]
  by_cases htimeout : msg.msgId = M_ID_TIMEOUT
  · rw [safe_timeout htimeout, if_neg hresoue, if_pos htimeout, forall_prop_of_true hdata]
  by_cases hquit : msg.msgId = M_ID_QUIT
  · rw [if_neg hresoue, if_neg htimeout, if_pos hquit]
    exact iff_of_true (safe_quit hquit) trivial
  rw [safe_protocol hresoue htimeout hquit, if_neg hresoue, if_neg htimeout, if_neg hquit, hdata]
  cases s.getProtocol msg.msgId with
  | none => simp
  | some f => cases f <;> simp

end Kinds

/-- **Of the poll thread's messages** two kinds need a socket that fits. -/
theorem fitsSocket_message {handle : ℤ} {call : EventCall} :
    FitsSocket s (call.message handle) ↔
      match call with
      | .startUnknown => ∀ k ∈ s.getSocket handle, k.m_connected = true ∨ k.m_connecting = .empty
      | .accepted _ _ => ∀ k ∈ s.getSocket handle, k.m_func = true
      | _ => True := by
  cases call <;> simp [FitsSocket, EventCall.message, doMessageGen]

/-- A message for a socket goes to the protocol of sockets.
SOURCE: module/actorComponent.cc:183-193 -/
theorem forSocket_socket :
    ForSocket s M_ID_SOCKET ↔ s.getProtocol M_ID_SOCKET = some .staticSocketDispatch := by
  unfold ForSocket
  exact ⟨fun h => h.2.2.2, fun h => ⟨by decide, by decide, by decide, h⟩⟩

/-- **A message that is dispatched is safe** exactly when it fits. -/
theorem safe_dispatch_iff {sent : Sent} :
    Safe (s.dispatchMessage sent.message).1 ↔ Fits s sent := by
  cases sent with
  | forward handle call =>
    rw [safe_dispatch_some (m := call.message handle) rfl]
    show (ForSocket s M_ID_SOCKET → _) ↔ _
    rw [forSocket_socket, fitsSocket_message]
    exact Iff.rfl
  | send src session msgId data sz =>
    cases data with
    | none => exact safe_dispatch_none rfl
    | some m => exact safe_dispatch_some rfl

/-- What the dispatch looks at does not depend on the rest of the mailbox. -/
theorem fits_rest {sent : Sent} {rest : List Sent} :
    Fits { s with mailbox := rest } sent ↔ Fits s sent := Iff.rfl

/-- A message is accepted exactly where it meets the condition.
SOURCE: module/actorComponent.cc:210-295, api/socket.cc:446-482 -/
theorem accepts_iff (s : State) (e : Event) (s' : State) : Accepts s e s' ↔ Cond s e := by
  unfold Accepts Cond State.dispatch
  cases s.mailbox with
  | nil => simp
  | cons sent rest =>
    have hiff : Safe (({ s with mailbox := rest } : State).dispatchMessage sent.message).1 ↔
        Fits s sent := safe_dispatch_iff.trans fits_rest
    simp only [Option.some.injEq, forall_eq', List.head?_cons, Option.mem_def]
    exact imp_congr_right fun _ => hiff

/-- **The handlers accept every message** of a run exactly when each fits what it finds when it is
dispatched.
SOURCE: network/socketSystem.cc:23-128, module/actorComponent.cc:210-372, api/socket.cc:446-578 -/
theorem handlers_accept {s₀ : State} {es : List Event} (hrun : system.run s₀ es = some s) :
    system.Always Accepts s₀ es ↔ system.Meets Cond s₀ es :=
  System.always_iff_of_iff (I := fun _ => True)
    (fun s e s' _ _ => ⟨accepts_iff s e s', trivial⟩) trivial hrun

/-- The first actor of a process. -/
def start : State where
  m_handle := 1
  mailbox := []
  cpt := Component.start 0
  m_proto := [⟨M_ID_RESOUE, .null⟩, ⟨M_ID_ERROR, .staticErrorDispatch⟩]
  gSocketPool := fun _ => none
  aborted := false

/-- `doRequire`, and then `doStart` for a handle, for which the poll thread has an answer. -/
def doStart (answer : EventCall) : List Event :=
  [.doRegisterProtocol ⟨M_ID_SOCKET, .staticSocketDispatch⟩, .makeSocket 5 false,
    .put (.forward 5 answer), .dispatch]

/-- A timer goes off whose session is not known any more: its message has neither data nor a size. -/
def lateTimer : List Event := [.put (.send 0 7 M_ID_TIMEOUT none 0), .dispatch]

/-- A component that has just been made. -/
theorem start_starts : Starts start := ⟨rfl, ⟨0, rfl⟩, rfl, rfl⟩

/-- A start and a late timer are accepted. -/
theorem doStart_accepts :
    system.Always Accepts start (doStart (.started "start") ++ lateTimer) := by
  refine (handlers_accept rfl).mpr ?_
  refine System.meets_cons nofun rfl (System.meets_cons nofun rfl (System.meets_cons nofun rfl
    (System.meets_cons ?_ rfl (System.meets_cons nofun rfl (System.meets_cons ?_ rfl trivial)))))
  · rintro - sent hsent
    obtain rfl := Option.some.inj hsent
    exact fun _ => trivial
  · rintro - sent hsent
    obtain rfl := Option.some.inj hsent
    exact .inl rfl

/-- The handle is not in use any more. -/
theorem doStart_of_nothing : ¬ ∀ (s₀ s : State) (es : List Event), system.init s₀ →
    system.run s₀ es = some s → system.Always Accepts s₀ es := by
  intro hall
  obtain ⟨-, hregistered⟩ := hall start _ (doStart .startUnknown) start_starts rfl _ rfl
  obtain ⟨-, hmade⟩ := hregistered _ rfl
  obtain ⟨-, hput⟩ := hmade _ rfl
  obtain ⟨haccepts, -⟩ := hput _ rfl
  have hstring : (Use.string false).safe = true := haccepts rfl _ rfl _ (by decide)
  exact absurd hstring (by decide)

end MagicNet.Dispatch
