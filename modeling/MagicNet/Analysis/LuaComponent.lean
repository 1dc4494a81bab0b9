import MagicNet.Analysis.Protocols
import MagicNet.Model.LuaComponent

/-!
# What a Lua component receives

A message comes to `unknownDispatch` only where a protocol without a `_dispatch` has been registered
for it.  `doInit` registers one such protocol, for `M_ID_RESOUE`, which is dispatched before any protocol
is looked for; so with the protocols that the source registers no message does, and each is answered as
one that nobody wants.

`lua_core_actor_callback` pushes the key `LUA_STACK_FIX_CALLBACK` and takes it off again with
`lua_settop`, so that `lua_rawset` stores the function under the value below it, the one that
`callback` is called upon.  `unknownDispatch` looks under the key.  It finds a function only where a
script calls `callback` upon the key's own string or writes into the registry itself.  And each call of
a function that ends without an error costs the stack a value that was there before, since `lua_pop`
comes after a call without results.

SOURCE: src/component/lnlua/src/lnlua.cc:59-97, lualib/auto/luaCoreAuto.cc:56-88,
module/actorComponent.cc:210-295
-/

set_option autoImplicit false

namespace MagicNet.LuaComponent

open MagicNet.Foundation MagicNet.LuaCall MagicNet.Protocols

variable {A B D : Type} {s s' : State A B D} {es : List (Event A B D)}

/-! ## Storing the function -/

/-- `callback` stores a function under its first argument, and anything else is an error.
SOURCE: lualib/auto/luaCoreAuto.cc:56-88 -/
theorem callback_eq (registry : Registry) (f : ℕ) (self : Value) :
    lua_core_actor_callback registry [.function f, self] =
      if self = .nil then none else some (Function.update registry self (.function f)) := by
  simp [lua_core_actor_callback, absindex, isFunction, lua_settop, lua_rawset]

/-- `callback` raises an error upon anything but a function above its actor.
SOURCE: lualib/auto/luaCoreAuto.cc:56-88 -/
theorem callback_error (registry : Registry) (LS : Stack)
    (h : ∀ f self, LS ≠ [.function f, self]) : lua_core_actor_callback registry LS = none := by
  match LS, h with
  | [], _ => rfl
  | [_], _ => rfl
  | _ :: _ :: _ :: _, _ =>
    rw [lua_core_actor_callback, if_neg]
    simp only [List.length_cons, Nat.cast_add, Nat.cast_one]
    omega
  | [value, self], h =>
    have hother : isFunction value = false := by
      cases value with
      | function f => exact absurd rfl (h f self)
      | _ => rfl
    simp [lua_core_actor_callback, absindex, hother]

/-! ## Giving a message away -/

/-- A message that is refused is given to nobody.
SOURCE: module/actorComponent.cc:210-295 -/
theorem refuse_eq (s : State A B D) (msg : Message) :
    s.refuse msg =
      { s with
        routed := s.routed ++ [(msg, .nil)]
        errors := s.errors ++ (errorOf (msg, .nil)).toList } := by
  by_cases hsession : msg.session = 0#32 <;> simp [State.refuse, errorOf, hsession]

/-- The call of a message to the function that was left. -/
def State.called (s : State A B D) (msg : Message) : State A B D :=
  { s with
    stack := [.number msg.sz.toNat, .object msg.msg.toNat, .number msg.source.toNat,
      .number msg.session.toInt, .number msg.msgId.toInt] ++
        s.registry LUA_STACK_FIX_CALLBACK :: s.stack
    calling := some msg
    routed := s.routed ++ [(msg, s.registry LUA_STACK_FIX_CALLBACK)] }

/-- A message is refused where no function is found, and otherwise its call begins.
SOURCE: src/component/lnlua/src/lnlua.cc:59-97, module/actorComponent.cc:315-327 -/
theorem unknownDispatch_cases (s : State A B D) (msg : Message) :
    isFunction (s.registry LUA_STACK_FIX_CALLBACK) = false ∧ s.unknownDispatch msg = s.refuse msg ∨
      isFunction (s.registry LUA_STACK_FIX_CALLBACK) = true ∧
        s.unknownDispatch msg = s.called msg := by
  have htop : index (s.registry LUA_STACK_FIX_CALLBACK :: s.stack) (-1) =
      some (s.registry LUA_STACK_FIX_CALLBACK) := rfl
  cases hvalue : s.registry LUA_STACK_FIX_CALLBACK with
  | function f =>
    right
    refine ⟨rfl, ?_⟩
    rw [State.unknownDispatch, State.called, htop, lua_isfunction, htop, hvalue]
    rfl
  | number _ | boolean _ | string _ | nil | object _ =>
    left
    refine ⟨rfl, ?_⟩
    rw [State.unknownDispatch, if_pos]
    · rfl
    · right
      rw [lua_isfunction, htop, hvalue]

/-- **The dispatch of a message.**  It does not come to a script, or it is refused, or its call
begins.
SOURCE: module/actorComponent.cc:210-295, 315-327 -/
theorem step_dispatchMessage {msg : Message} (hs : step s (.dispatchMessage msg) = some s') :
    s.calling = none ∧
      (givenTo s.m_proto (s.registry LUA_STACK_FIX_CALLBACK) msg = none ∧ s' = s ∨
        givenTo s.m_proto (s.registry LUA_STACK_FIX_CALLBACK) msg = some .nil ∧
          s' = s.refuse msg ∨
        isFunction (s.registry LUA_STACK_FIX_CALLBACK) = true ∧
          givenTo s.m_proto (s.registry LUA_STACK_FIX_CALLBACK) msg =
            some (s.registry LUA_STACK_FIX_CALLBACK) ∧ s' = s.called msg) := by
  simp only [step, Option.ite_none_right_eq_some] at hs
  obtain ⟨hcalling, hs⟩ := hs
  refine ⟨hcalling, ?_⟩
  by_cases hkept : msg.msgId = M_ID_RESOUE ∨ msg.msgId = M_ID_TIMEOUT ∨ msg.msgId = M_ID_QUIT
  · rw [State.dispatchMessage, if_pos hkept] at hs
    exact .inl ⟨if_pos hkept, (Option.some.inj hs).symm⟩
  · rw [State.dispatchMessage, if_neg hkept] at hs
    rw [givenTo, if_neg hkept]
    cases hproto : getProtocol s.m_proto msg.msgId with
    | none =>
      rw [hproto, dispatchProtocol] at hs
      refine .inr (.inl ⟨rfl, ?_⟩)
      split_ifs at hs <;> exact (Option.some.inj hs).symm
    | some p =>
      rw [hproto, dispatchProtocol] at hs
      cases hdispatch : p._dispatch with
      | none =>
        simp only [hdispatch, Option.some.injEq] at hs
        subst hs
        rcases unknownDispatch_cases s msg with ⟨hvalue, heq⟩ | ⟨hvalue, heq⟩
        · exact .inr (.inl ⟨by simp [hdispatch, hvalue], heq⟩)
        · exact .inr (.inr ⟨hvalue, by simp [hdispatch, hvalue], heq⟩)
      | some f =>
        refine .inl ⟨by simp [hdispatch], ?_⟩
        simp only [hdispatch] at hs
        cases hunpack : p._unpack with
        | none =>
          rw [hunpack] at hs
          cases hs
        | some unpack =>
          rw [hunpack] at hs
          exact (Option.some.inj hs).symm

/-- A call that ends takes one value more when it had no error. -/
theorem step_pcallReturned {called : Called} (hs : step s (.pcallReturned called) = some s') :
    s.calling ≠ none ∧ ((∃ r value, called = .ok r ∧ s.stack.drop 6 = value :: s'.stack) ∨
      ∃ object, called = .error object ∧ s'.stack = s.stack.drop 6) ∧
        s' = { s with stack := s'.stack, calling := none } := by
  simp only [step, Option.ite_none_left_eq_some, State.pcallReturned, Option.some.injEq] at hs
  obtain ⟨hcalling, hstack, rfl⟩ := hs
  refine ⟨hcalling, ?_, rfl⟩
  cases called with
  | ok r =>
    obtain ⟨value, rest, hcons⟩ := List.exists_cons_of_ne_nil hstack
    exact .inl ⟨r, value, rfl, by simp [hcons, lua_pop]⟩
  | error object => exact .inr ⟨object, rfl, rfl⟩

/-- The value that stands under the key after the event. -/
theorem leaves_registry {e : Event A B D} (hs : step s e = some s') :
    s'.registry LUA_STACK_FIX_CALLBACK =
      (e.leaves).getD (s.registry LUA_STACK_FIX_CALLBACK) := by
  have hkey : LUA_STACK_FIX_CALLBACK ≠ .nil := nofun
  cases e with
  | callback args =>
    simp only [step, Option.some.injEq] at hs
    subst hs
    by_cases hshape : ∃ f self, args = [.function f, self]
    · obtain ⟨f, self, rfl⟩ := hshape
      rw [callback_eq]
      by_cases hself : self = LUA_STACK_FIX_CALLBACK
      · subst hself
        simp [Event.leaves, hkey]
      · have hother : Event.leaves (.callback [.function f, self] : Event A B D) = none := if_neg hself
        rw [hother, Option.getD_none]
        split
        · rfl
        · exact Function.update_of_ne (Ne.symm hself) _ _
    · push Not at hshape
      have hother : Event.leaves (.callback args : Event A B D) = none := by
        unfold Event.leaves
        split
        · rename_i f self heq
          obtain rfl := Event.callback.inj heq
          exact absurd rfl (hshape f self)
        · rename_i heq
          cases heq
        · rfl
      rw [callback_error _ _ hshape, hother]
      rfl
  | setRegistry key value =>
    simp only [step, Option.some.injEq] at hs
    subst hs
    by_cases hself : key = LUA_STACK_FIX_CALLBACK
    · subst hself
      simp [Event.leaves, lua_rawset, hkey]
    · have hother : Event.leaves (.setRegistry key value : Event A B D) = none := if_neg hself
      rw [hother, Option.getD_none]
      simp only [lua_rawset]
      split
      · rfl
      · exact Function.update_of_ne (Ne.symm hself) _ _
  | doRegisterProtocol proto =>
    obtain rfl := Option.some.inj hs
    rfl
  | dispatchMessage msg =>
    obtain ⟨-, ⟨-, rfl⟩ | ⟨-, rfl⟩ | ⟨-, -, rfl⟩⟩ := step_dispatchMessage hs <;> rfl
  | pcallReturned called =>
    obtain ⟨-, -, heq⟩ := step_pcallReturned hs
    rw [heq]
    rfl

/-- The table after the event. -/
theorem protocols_m_proto {e : Event A B D} (hs : step s e = some s') :
    s'.m_proto = e.protocols s.m_proto := by
  cases e with
  | doRegisterProtocol proto =>
    obtain rfl := Option.some.inj hs
    rfl
  | callback args =>
    obtain rfl := Option.some.inj hs
    rfl
  | setRegistry key value =>
    obtain rfl := Option.some.inj hs
    rfl
  | dispatchMessage msg =>
    obtain ⟨-, ⟨-, rfl⟩ | ⟨-, rfl⟩ | ⟨-, -, rfl⟩⟩ := step_dispatchMessage hs <;> rfl
  | pcallReturned called =>
    obtain ⟨-, -, heq⟩ := step_pcallReturned hs
    rw [heq]
    rfl

/-! ## Steps -/

/-- The messages given away so far, and those to come. -/
theorem step_routes {e : Event A B D} (hs : step s e = some s') :
    s'.routed ++ routes s'.m_proto (s'.registry LUA_STACK_FIX_CALLBACK) es =
      s.routed ++ routes s.m_proto (s.registry LUA_STACK_FIX_CALLBACK) (e :: es) := by
  rw [leaves_registry hs, protocols_m_proto hs]
  cases e with
  | doRegisterProtocol proto =>
    obtain rfl := Option.some.inj hs
    rfl
  | callback args =>
    obtain rfl := Option.some.inj hs
    rfl
  | setRegistry key value =>
    obtain rfl := Option.some.inj hs
    rfl
  | dispatchMessage msg =>
    obtain ⟨-, ⟨hgiven, rfl⟩ | ⟨hgiven, rfl⟩ | ⟨-, hgiven, rfl⟩⟩ := step_dispatchMessage hs
    · simp [routes, hgiven, Event.leaves, Event.protocols]
    · simp [routes, hgiven, Event.leaves, Event.protocols, refuse_eq]
    · simp [routes, hgiven, Event.leaves, Event.protocols, State.called]
  | pcallReturned called =>
    obtain ⟨-, -, heq⟩ := step_pcallReturned hs
    rw [heq]
    rfl

/-- Just the messages that were given to no function are answered. -/
theorem step_errors {e : Event A B D} (h : s.errors = s.routed.filterMap errorOf)
    (hs : step s e = some s') : s'.errors = s'.routed.filterMap errorOf := by
  cases e with
  | doRegisterProtocol proto =>
    obtain rfl := Option.some.inj hs
    exact h
  | callback args =>
    obtain rfl := Option.some.inj hs
    exact h
  | setRegistry key value =>
    obtain rfl := Option.some.inj hs
    exact h
  | dispatchMessage msg =>
    obtain ⟨-, ⟨-, rfl⟩ | ⟨-, rfl⟩ | ⟨hvalue, -, rfl⟩⟩ := step_dispatchMessage hs
    · exact h
    · rw [refuse_eq]
      cases hanswer : errorOf (msg, .nil) <;> simp [List.filterMap_append, ← h, hanswer]
    · have hnil : s.registry LUA_STACK_FIX_CALLBACK ≠ .nil := by
        intro hnil
        rw [hnil] at hvalue
        cases hvalue
      have hnone : errorOf (msg, s.registry LUA_STACK_FIX_CALLBACK) = none :=
        if_neg fun hboth => hnil hboth.1
      simp [State.called, List.filterMap_append, ← h, hnone]
  | pcallReturned called =>
    obtain ⟨-, -, heq⟩ := step_pcallReturned hs
    rw [heq]
    exact h

/-- What stood on the stack before the calls. -/
theorem step_prior {e : Event A B D} (hs : step s e = some s') :
    s'.prior = s.prior.drop (successes [e]) ∧ successes [e] ≤ s.prior.length := by
  cases e with
  | doRegisterProtocol proto =>
    obtain rfl := Option.some.inj hs
    exact ⟨rfl, Nat.zero_le _⟩
  | callback args =>
    obtain rfl := Option.some.inj hs
    exact ⟨rfl, Nat.zero_le _⟩
  | setRegistry key value =>
    obtain rfl := Option.some.inj hs
    exact ⟨rfl, Nat.zero_le _⟩
  | dispatchMessage msg =>
    refine ⟨?_, Nat.zero_le _⟩
    obtain ⟨hcalling, ⟨-, rfl⟩ | ⟨-, rfl⟩ | ⟨-, -, rfl⟩⟩ := step_dispatchMessage hs
    · rfl
    · simp [State.prior, State.refuse, successes]
    · simp [State.prior, State.called, hcalling, successes]
  | pcallReturned called =>
    obtain ⟨hcalling, hcases, heq⟩ := step_pcallReturned hs
    have hprior : s.prior = s.stack.drop 6 := if_neg hcalling
    have hprior' : s'.prior = s'.stack := by
      rw [heq]
      rfl
    rw [hprior, hprior']
    rcases hcases with ⟨r, value, rfl, hstack⟩ | ⟨object, rfl, hstack⟩
    · rw [hstack]
      exact ⟨rfl, Nat.succ_le_succ (Nat.zero_le _)⟩
    · exact ⟨hstack, Nat.zero_le _⟩

/-! ## Runs -/

/-- The calls that have ended well are counted one by one. -/
theorem successes_cons (e : Event A B D) (es : List (Event A B D)) :
    successes (e :: es) = successes [e] + successes es := by
  show successes ([e] ++ es) = successes [e] + successes es
  exact List.countP_append

/-- A run adds to what was routed what its events say.
SOURCE: module/actorComponent.cc:210-295, src/component/lnlua/src/lnlua.cc:59-97 -/
theorem run_routes (hrun : system.run s es = some s') :
    s'.routed = s.routed ++ routes s.m_proto (s.registry LUA_STACK_FIX_CALLBACK) es := by
  induction es generalizing s with
  | nil =>
    obtain rfl : s = s' := by simpa using hrun
    rw [routes, List.append_nil]
  | cons e es ih =>
    obtain ⟨t, ht, hrest⟩ := Option.bind_eq_some_iff.mp hrun
    rw [ih hrest, step_routes ht]

/-- Each call that has ended well has taken a value off the stack.
SOURCE: src/component/lnlua/src/lnlua.cc:59-97 -/
theorem run_prior (hrun : system.run s es = some s') :
    s'.prior = s.prior.drop (successes es) ∧ successes es ≤ s.prior.length := by
  induction es generalizing s with
  | nil =>
    obtain rfl : s = s' := by simpa using hrun
    exact ⟨rfl, Nat.zero_le _⟩
  | cons e es ih =>
    obtain ⟨t, ht, hrest⟩ := Option.bind_eq_some_iff.mp hrun
    obtain ⟨hdrop, hle⟩ := step_prior ht
    obtain ⟨hdrop', hle'⟩ := ih hrest
    rw [hdrop, List.length_drop] at hle'
    rw [hdrop', hdrop, List.drop_drop, successes_cons e es]
    exact ⟨rfl, by omega⟩

/-- A message is given away only where a function was left, and its protocol has none of its own.
SOURCE: module/actorComponent.cc:183-193 -/
theorem givenTo_cases {m_proto : List (MessageProtocol A B D)} {left value : Value} {msg : Message}
    (h : givenTo m_proto left msg = some value) :
    value = .nil ∨ isFunction left = true ∧ msg.msgId ≠ M_ID_RESOUE ∧
      ∃ p, getProtocol m_proto msg.msgId = some p ∧ p._dispatch = none := by
  by_cases hkept : msg.msgId = M_ID_RESOUE ∨ msg.msgId = M_ID_TIMEOUT ∨ msg.msgId = M_ID_QUIT
  · rw [givenTo, if_pos hkept] at h
    cases h
  · rw [givenTo, if_neg hkept] at h
    cases hproto : getProtocol m_proto msg.msgId with
    | none =>
      rw [hproto] at h
      exact .inl (Option.some.inj h).symm
    | some p =>
      cases hdispatch : p._dispatch with
      | some f => simp [hproto, hdispatch] at h
      | none =>
        cases hleft : isFunction left with
        | false => exact .inl (by simpa [hproto, hdispatch, hleft] using h.symm)
        | true => exact .inr ⟨rfl, fun hr => hkept (.inl hr), p, rfl, hdispatch⟩

/-- A run in which nothing is left under the key gives no message away. -/
theorem routes_nil (m_proto : List (MessageProtocol A B D)) (h : ∀ e ∈ es, e.leaves = none) :
    ∀ x ∈ routes m_proto .nil es, x.2 = .nil := by
  induction es generalizing m_proto with
  | nil => exact fun _ hx => absurd hx List.not_mem_nil
  | cons e es ih =>
    obtain ⟨hnone, hrest⟩ := List.forall_mem_cons.mp h
    cases e with
    | dispatchMessage msg =>
      intro x hx
      rw [routes, List.mem_append, Option.mem_toList] at hx
      rcases hx with hx | hx
      · obtain ⟨value, hvalue, rfl⟩ := Option.map_eq_some_iff.mp hx
        rcases givenTo_cases hvalue with hnil | ⟨hfunction, -⟩
        · exact hnil
        · cases hfunction
      · exact ih m_proto hrest x hx
    | doRegisterProtocol _ | callback _ | setRegistry _ _ | pcallReturned _ =>
      simpa only [routes, hnone, Option.getD_none] using ih _ hrest

/-- Every protocol that is found has a function, but for those of the ids that are never looked
for. -/
def Served (m_proto : List (MessageProtocol A B D)) : Prop :=
  ∀ msgId, msgId ≠ M_ID_RESOUE → ∀ p ∈ getProtocol m_proto msgId, p._dispatch ≠ none

/-- The protocols of `doInit` have functions.
SOURCE: module/actorComponent.cc:13-21 -/
theorem served_doInit (errorDispatch : D) (errorUnPack : BitVec 64 → BitVec 32 → B) :
    Served (doInit (A := A) errorDispatch errorUnPack) := by
  intro msgId hresoue p hp
  rw [doInit, getProtocol_registered, last] at hp
  have his : p.is msgId = true :=
    List.find?_some (p := fun q : MessageProtocol A B D => q.is msgId) hp
  rcases List.mem_reverse.mp (List.mem_of_find?_eq_some hp) with - | ⟨-, hmem⟩
  · exact absurd (eq_of_beq his).symm hresoue
  · obtain rfl := List.mem_singleton.mp hmem
    exact Option.some_ne_none _

/-- So do they when one with a function is registered.
SOURCE: module/actorComponent.cc:195-208 -/
theorem Served.doRegisterProtocol {m_proto : List (MessageProtocol A B D)}
    (h : Served m_proto) {proto : MessageProtocol A B D} (hproto : proto._dispatch ≠ none) :
    Served (Protocols.doRegisterProtocol proto m_proto) := by
  intro msgId hresoue p hp
  rw [getProtocol_doRegisterProtocol] at hp
  split_ifs at hp
  · obtain rfl := Option.some.inj hp
    exact hproto
  · exact h msgId hresoue p hp

/-- A run in which no protocol without a function is registered gives no message away.
SOURCE: module/actorComponent.cc:195-208 -/
theorem routes_served {m_proto : List (MessageProtocol A B D)} {left : Value}
    (hserved : Served m_proto)
    (h : ∀ proto, .doRegisterProtocol proto ∈ es → proto._dispatch ≠ none) :
    ∀ x ∈ routes m_proto left es, x.2 = .nil := by
  induction es generalizing m_proto left with
  | nil => exact fun _ hx => absurd hx List.not_mem_nil
  | cons e es ih =>
    have hrest : ∀ proto, .doRegisterProtocol proto ∈ es → proto._dispatch ≠ none :=
      fun proto hproto => h proto (List.mem_cons_of_mem e hproto)
    cases e with
    | doRegisterProtocol proto =>
      exact ih (hserved.doRegisterProtocol (h proto List.mem_cons_self)) hrest
    | dispatchMessage msg =>
      intro x hx
      rw [routes, List.mem_append, Option.mem_toList] at hx
      rcases hx with hx | hx
      · obtain ⟨value, hvalue, rfl⟩ := Option.map_eq_some_iff.mp hx
        rcases givenTo_cases hvalue with hnil | ⟨-, hresoue, p, hp, hnone⟩
        · exact hnil
        · exact absurd hnone (hserved msg.msgId hresoue p hp)
      · exact ih hserved hrest x hx
    | callback _ | setRegistry _ _ | pcallReturned _ => exact ih hserved hrest

/-- The call that ends without an error has nothing left to pop exactly when the calls before it have
taken all there was. -/
theorem underflow_iff (hcalling : s.calling ≠ none) (r : Value) :
    step s (.pcallReturned (.ok r)) = none ↔ s.prior = [] := by
  simp [step, hcalling, State.pcallReturned, State.prior]

/-- **The messages of a Lua component.**  In every run, whatever protocols are registered, a message that
has a protocol without a `_dispatch` is given to the function that was last left under
`LUA_STACK_FIX_CALLBACK`, if any, by a call of `callback` upon that string itself or a write to the
registry; otherwise, and where it has no protocol, it is answered with `M_ID_ERROR` if it has a session.
So no message is given away where no such protocol has been registered besides those of `doInit`, and
none where the scripts call `callback` upon anything else.  Each call that ends without an error pops a
value that stood on the stack before, and the first one for which there is none pops below the bottom.

SOURCE: src/component/lnlua/src/lnlua.cc:59-97, module/actorComponent.cc:13-21, 210-295 -/
theorem lua_dispatch (s₀ s : State A B D) (es : List (Event A B D)) (h0 : Starts s₀)
    (hrun : system.run s₀ es = some s) :
    s.routed = routes s₀.m_proto .nil es ∧ s.errors = s.routed.filterMap errorOf ∧
      ((∀ proto, .doRegisterProtocol proto ∈ es → proto._dispatch ≠ none) →
        ∀ x ∈ s.routed, x.2 = .nil) ∧
      ((∀ e ∈ es, e.leaves = none) → ∀ x ∈ s.routed, x.2 = .nil) ∧
        s.prior = s₀.stack.drop (successes es) ∧ successes es ≤ s₀.stack.length ∧
          (s.calling ≠ none → ∀ r, step s (.pcallReturned (.ok r)) = none ↔
            successes es = s₀.stack.length) := by
  have hroutes : s.routed = routes s₀.m_proto .nil es := by
    rw [run_routes hrun, h0.routed, h0.registry, List.nil_append]
  have hprior₀ : s₀.prior = s₀.stack := if_pos h0.calling
  obtain ⟨hprior, hle⟩ := run_prior hrun
  rw [hprior₀] at hprior hle
  refine ⟨hroutes, ?_, ?_, ?_, hprior, hle, ?_⟩
  · exact System.run_invariant (I := fun t => t.errors = t.routed.filterMap errorOf)
      (fun _ _ _ hI _ hs => step_errors hI hs) (by rw [h0.errors, h0.routed]; rfl) hrun
        (System.meets_true s₀ es)
  · obtain ⟨errorDispatch, errorUnPack, hproto⟩ := h0.m_proto
    rw [hroutes, hproto]
    exact routes_served (served_doInit errorDispatch errorUnPack)
  · rw [hroutes]
    exact routes_nil s₀.m_proto
  · intro hcalling r
    rw [underflow_iff hcalling, hprior, List.drop_eq_nil_iff]
    omega

/-- A Lua state with one value on its stack, as `luaL_register` leaves it. -/
def start : State Unit Unit ℕ :=
  ⟨doInit 0 fun _ _ => (), [.object 0], fun _ => .nil, none, [], []⟩

/-- A script leaves a function under the key, and a protocol for 4 without a function is registered:
the first message has no protocol yet, the function is called for the other two, and the second of its
calls must not end without an error. -/
def twice : List (Event Unit Unit ℕ) :=
  [.callback [.function 7, LUA_STACK_FIX_CALLBACK], .dispatchMessage ⟨4, 3, 2, 0, 0⟩,
    .doRegisterProtocol ⟨4, none, none, none⟩, .dispatchMessage ⟨4, 1, 2, 0, 0⟩,
    .pcallReturned (.ok .nil), .dispatchMessage ⟨4, 2, 2, 0, 0⟩]

/-- The first message comes before any function is left; the next two are given to it, and the
second call takes what the first has left on the stack. -/
theorem lua_dispatch_twice : ∃ s, system.run start twice = some s ∧
    s.routed = [(⟨4, 3, 2, 0, 0⟩, .nil), (⟨4, 1, 2, 0, 0⟩, .function 7),
      (⟨4, 2, 2, 0, 0⟩, .function 7)] ∧
    s.errors = [(2, 3)] ∧ step s (.pcallReturned (.ok .nil)) = none := by
  have hrun : (system.run start twice).any (fun s => s.calling.isSome) = true := by
    decide +kernel
  obtain ⟨s, hs, hcalling⟩ := (Option.any_eq_true _ _).mp hrun
  obtain ⟨hroutes, herrors, -, -, -, -, hstuck⟩ :=
    lua_dispatch start s twice ⟨⟨_, _, rfl⟩, rfl, rfl, rfl, rfl⟩ hs
  have hrouted : s.routed = [(⟨4, 3, 2, 0, 0⟩, .nil), (⟨4, 1, 2, 0, 0⟩, .function 7),
      (⟨4, 2, 2, 0, 0⟩, .function 7)] := by
    rw [hroutes]
    decide +kernel
  refine ⟨s, hs, hrouted, ?_, (hstuck (Option.isSome_iff_ne_none.mp hcalling) .nil).mpr rfl⟩
  rw [herrors, hrouted]
  rfl

end MagicNet.LuaComponent
