import MagicNet.Analysis.RegistryResize
import MagicNet.Model.ActorInit

/-!
# The reserved handle, and actors whose start has failed

`doRegister` returns 0 when the serial number has come up to the mark, the handles before 0 have
their slots taken, and slot 0 is free; it has then put the actor there.  A resize never frees slot
0, so a registration that finds the table full does not return 0.

`doInit` unregisters an actor whose component fails, which frees the slot of its handle.  A copy that
a resize has left at another slot stays.

SOURCE: module/actor.cc:31-69, module/actorSystem.cc:35-77
-/

set_option autoImplicit false

namespace MagicNet.ActorInit

open MagicNet.Foundation MagicNet.Registry

variable {α : Type} {r : ActorSystem α}

/-- The inner loop of `doRegister` gets to the handle 0, and slot 0 is free. -/
def ReservedNext (r : ActorSystem α) : Prop :=
  ∃ i < r.m_actorCap, r.candidate i = 0 ∧ r.isFree 0 = true ∧
    ∀ j < i, r.isFree (r.local_addr (r.candidate j)) = false

/-- The actor stands at the slot of its handle, if anywhere. -/
def AtOwnSlot (r : ActorSystem α) (obj : α) : Prop :=
  ∀ i, r.Holds i obj → i = r.local_addr (r.m_handle obj)

/-! ## The handle -/

/-- The handle 0 belongs into the slot 0.
SOURCE: module/actorSystem.h:62-64 -/
theorem local_addr_zero (r : ActorSystem α) : r.local_addr 0 = 0 := Nat.zero_and _

/-- A handle is inside the mark. -/
theorem candidate_le (r : ActorSystem α) (i : ℕ) : r.candidate i ≤ ACOTR_ID_MARK := Nat.and_le_right

/-- The inner loop takes the first candidate whose slot is free.
SOURCE: module/actorSystem.h:62-64 -/
theorem findHandle_some_iff {handle : ℕ} : r.findHandle = some handle ↔
    ∃ i < r.m_actorCap, r.candidate i = handle ∧ r.isFree (r.local_addr handle) = true ∧
      ∀ j < i, r.isFree (r.local_addr (r.candidate j)) = false := by
  simp only [ActorSystem.findHandle, List.find?_map, Option.map_eq_some_iff,
    List.find?_range_eq_some, List.mem_range, Function.comp_apply, Bool.not_eq_true']
  constructor
  · rintro ⟨i, ⟨hfree, hi, hbefore⟩, rfl⟩
    exact ⟨i, hi, rfl, hfree, hbefore⟩
  · rintro ⟨i, hi, rfl, hfree, hbefore⟩
    exact ⟨i, ⟨hfree, hi, hbefore⟩, rfl⟩

/-- The handle 0 is given out exactly where it is the next free one.
SOURCE: module/actorSystem.cc:35-64 -/
theorem findHandle_zero_iff : r.findHandle = some 0 ↔ ReservedNext r := by
  rw [findHandle_some_iff, local_addr_zero]
  exact Iff.rfl

/-- An entry is only replaced by another one. -/
theorem rehash_occupied {slot : ℕ → Option α} {key : α → ℕ} {nwcap i : ℕ} (h : slot i ≠ none)
    (n : ℕ) : SlotTable.rehash key nwcap n slot i ≠ none := by
  induction n with
  | zero => exact h
  | succ n ih =>
    cases hn : SlotTable.rehash key nwcap n slot n with
    | none =>
      rw [SlotTable.rehash_succ_of_none hn]
      exact ih
    | some x =>
      rw [SlotTable.rehash_succ_of_some hn]
      by_cases hi : i = key x % nwcap
      · rw [hi, Function.update_self]
        simp
      · rw [Function.update_of_ne hi]
        exact ih

/-- **A registration returns 0** exactly when its inner loop gets to 0 with slot 0 free.
SOURCE: module/actorSystem.cc:35-64 -/
theorem handle_zero_iff {obj : α} {rounds handle : ℕ} {r' : ActorSystem α} (h : Kept r)
    (hreg : r.doRegister obj rounds = some (handle, r')) : handle = 0 ↔ ReservedNext r := by
  rw [← findHandle_zero_iff]
  cases hf : r.findHandle with
  | some found =>
    cases rounds with
    | zero => cases hreg
    | succ rounds =>
      rw [doRegister_some hf, Option.some.injEq, Prod.mk.injEq] at hreg
      rw [hreg.1, Option.some.injEq]
  | none =>
    refine iff_of_false ?_ (by simp)
    rintro rfl
    have hzero : slots r 0 ≠ none := by
      obtain ⟨x, hx⟩ := findHandle_none h.shape hf h.shape.pos
      rw [hx]
      simp
    -- a resize leaves slot 0 occupied
    obtain ⟨r₁, hkept, hocc, hfree, -⟩ := registers_in (Q := fun r => slots r 0 ≠ none)
      (fun r _ hg hocc => by
        rw [hg.slots]
        exact rehash_occupied hocc _) h hzero hreg
    have hslot := findHandle_some hkept.shape hfree
    rw [Nat.zero_mod] at hslot
    exact hocc hslot

/-- A handle returned is inside the mark.
SOURCE: module/actorSystem.cc:35-64 -/
theorem handle_le {obj : α} {rounds handle : ℕ} {r' : ActorSystem α}
    (hreg : r.doRegister obj rounds = some (handle, r')) : handle ≤ ACOTR_ID_MARK := by
  obtain ⟨r₁, -, hfree, -⟩ := doRegister_rule (P := fun _ => True) (fun _ _ _ _ => trivial)
    trivial hreg
  obtain ⟨i, -, rfl, -⟩ := findHandle_some_iff.mp hfree
  exact candidate_le r₁ i

/-! ## The slot that is freed -/

/-- Unregistering an actor clears the slot of its handle, and no other.
SOURCE: module/actorSystem.cc:66-77 -/
theorem gone_iff (h : Shape r) (obj : α) :
    (∀ i, ¬ (r.doUnRegister (r.m_handle obj)).2.Holds i obj) ↔ AtOwnSlot r obj := by
  have hother {i : ℕ} (hi : i ≠ r.local_addr (r.m_handle obj)) :
      (r.doUnRegister (r.m_handle obj)).2.Holds i obj ↔ r.Holds i obj := by
    unfold ActorSystem.doUnRegister
    split
    · split
      · rw [holds_iff, holds_iff, slots_set (h.local_addr_lt _), Function.update_of_ne hi]
      · exact Iff.rfl
    · exact Iff.rfl
  constructor
  · intro hgone i hi
    by_contra hne
    exact hgone i ((hother hne).mpr hi)
  · intro hown i hi
    by_cases heq : i = r.local_addr (r.m_handle obj)
    · -- the actor at the slot of its handle is the one that is unregistered
      have hhere := slots_doUnRegister h _ (holds_iff.mp hi)
      have hget : r.m_actors[r.local_addr (r.m_handle obj)]? = some (some obj) :=
        heq ▸ holds_iff.mpr hhere
      rw [ActorSystem.doUnRegister, hget] at hi
      simp only [if_true] at hi
      rw [holds_iff, slots_set (h.local_addr_lt _), heq, Function.update_self] at hi
      cases hi
    · exact heq (hown i ((hother heq).mp hi))

section Runs

variable [DecidableEq α] {obj : α} {handle : ℕ} {s s' : State α}

/-- What a registration that returns leaves. -/
theorem register_spec {p : ℕ × ActorSystem α} (h : Kept r) (hnew : some obj ∉ r.m_actors)
    (hreg : register r obj = some p) :
    Kept p.2 ∧ p.2.m_handle obj = p.1 ∧ p.1 ≤ ACOTR_ID_MARK ∧ (p.1 = 0 ↔ ReservedNext r) ∧
      (∃ i, p.2.Holds i obj) ∧ ∀ x, x ≠ obj → p.2.m_handle x = r.m_handle x := by
  obtain ⟨q, hq, rfl⟩ := Option.map_eq_some_iff.mp hreg
  have hfresh : ∀ i, slots r i ≠ some obj := fun i hi => hnew (mem_actors_iff.mpr ⟨i, hi⟩)
  obtain ⟨r₁, hkept, ⟨hfresh₁, hsame⟩, -, hput⟩ := registers_in
    (Q := fun r₁ => (∀ i, slots r₁ i ≠ some obj) ∧ r₁.m_handle = r.m_handle)
    (fun r _ hg hq => ⟨fresh_grow hg hq.1, hg.handle.trans hq.2⟩) h ⟨hfresh, rfl⟩ hq
  rw [hput]
  refine ⟨kept_registered hkept hfresh₁, Function.update_self .., handle_le hq,
    handle_zero_iff h hq, ⟨q.1 % r₁.m_actorCap, ?_⟩, fun x hx => ?_⟩
  · rw [holds_iff]
    show slots (registered r₁ obj q.1) _ = _
    rw [slots_registered hkept.shape, Function.update_self]
  · show Function.update r₁.m_handle obj q.1 x = _
    rw [Function.update_of_ne hx, hsame]

/-! ## The steps -/

/-- What a call has to do: a registration returns a handle that is not the reserved one, and where
`doInit` returns 0 the registry does not hold the actor. -/
structure StepRight (s : State α) (e : Event α) (s' : State α) : Prop where
  handle : ∀ handle, s.handle e = some handle → 1 ≤ handle ∧ handle ≤ ACOTR_ID_MARK
  failed : ∀ obj, s.returned e = some (obj, 0) → ∀ i, ¬ s'.registry.Holds i obj

/-- A registration does not come to the reserved handle, and an actor whose component fails has no
copy at another slot. -/
def Cond (s : State α) : Event α → Prop
  | .doRegister _ => ¬ ReservedNext s.registry
  | .doInit _ ptrDLL ptrCPT => ptrDLL && ptrCPT → ¬ ReservedNext s.registry
  | .launched obj fail => fail ≠ 0 → AtOwnSlot s.registry obj
  | .doUnRegister _ => True

/-- What holds in every run: the table is as in `Kept`, and no actor that is being started has the
handle 0. -/
structure Inv (s : State α) : Prop where
  kept : Kept s.registry
  handles : ∀ obj ∈ s.launching, s.registry.m_handle obj ≠ 0

omit [DecidableEq α] in
/-- Taking an actor out keeps the registry in order.
SOURCE: module/actorSystem.cc:66-77 -/
theorem kept_doUnRegister (h : Kept r) (handle : ℕ) : Kept (r.doUnRegister handle).2 := by
  refine ⟨(doUnRegister_spec h.shape handle).1, fun i x hx => ?_⟩
  rw [doUnRegister_handle]
  exact h.placed i x (slots_doUnRegister h.shape handle hx)

/-- `doRegister`, called on its own.
SOURCE: module/actorSystem.cc:35-64 -/
theorem doRegister_step (h : Inv s) (hs : step s (.doRegister obj) = some s') :
    Inv s' ∧ (StepRight s (.doRegister obj) s' ↔ Cond s (.doRegister obj)) := by
  simp only [step] at hs
  split at hs
  · next hfresh =>
    obtain ⟨p, hp, rfl⟩ := Option.map_eq_some_iff.mp hs
    obtain ⟨hkept, -, hle, hzero, -, hsame⟩ := register_spec h.kept hfresh.1 hp
    have hhandle : s.handle (.doRegister obj) = some p.1 := by rw [State.handle, hp, Option.map_some]
    refine ⟨⟨hkept, fun x hx => ?_⟩, fun hright hres => ?_, fun hcond => ⟨fun handle hret => ?_, ?_⟩⟩
    · rw [hsame x fun heq => hfresh.2 (heq ▸ hx)]
      exact h.handles x hx
    · have hpos := (hright.handle p.1 hhandle).1
      rw [hzero.mpr hres] at hpos
      omega
    · rw [hhandle, Option.some.injEq] at hret
      subst hret
      exact ⟨Nat.one_le_iff_ne_zero.mpr fun hz => hcond (hzero.mp hz), hle⟩
    · intro x hx
      cases hx
  · cases hs

/-- `doInit` up to the component's.
SOURCE: module/actor.cc:31-69 -/
theorem doInit_step {ptrDLL ptrCPT : Bool} (h : Inv s)
    (hs : step s (.doInit obj ptrDLL ptrCPT) = some s') :
    Inv s' ∧ (StepRight s (.doInit obj ptrDLL ptrCPT) s' ↔ Cond s (.doInit obj ptrDLL ptrCPT)) := by
  simp only [step] at hs
  split at hs
  · next hfresh =>
    by_cases hload : (ptrDLL && ptrCPT) = true
    · obtain ⟨rfl, rfl⟩ := Bool.and_eq_true_iff.mp hload
      obtain ⟨q, hq, rfl⟩ := Option.map_eq_some_iff.mp hs
      obtain ⟨p, hp, rfl⟩ :=
        Option.map_eq_some_iff.mp (show (register s.registry obj).map _ = _ from hq)
      obtain ⟨hkept, hobj, hle, hzero, hholds, hsame⟩ := register_spec h.kept hfresh.1 hp
      have hold : ∀ x ∈ s.launching, p.2.m_handle x ≠ 0 := by
        intro x hx
        rw [hsame x fun heq => hfresh.2 (heq ▸ hx)]
        exact h.handles x hx
      have hhandle : s.handle (.doInit obj true true) = some p.1 := by
        rw [State.handle, if_pos hload, hp, Option.map_some]
      refine ⟨?_, fun hright _ hres => ?_, fun hcond => ?_⟩
      · by_cases hz : p.1 = 0
        · simp only [hz, if_true]
          exact ⟨hkept, hold⟩
        · simp only [hz, if_false]
          refine ⟨hkept, fun x hx => ?_⟩
          rcases List.mem_cons.mp hx with rfl | hx
          · show p.2.m_handle x ≠ 0
            rw [hobj]
            exact hz
          · exact hold x hx
      · have hpos := (hright.handle p.1 hhandle).1
        rw [hzero.mpr hres] at hpos
        omega
      · have hz : p.1 ≠ 0 := fun hz => hcond hload (hzero.mp hz)
        refine ⟨fun handle hret => ?_, fun x hret => ?_⟩
        · rw [hhandle, Option.some.injEq] at hret
          subst hret
          exact ⟨Nat.one_le_iff_ne_zero.mpr hz, hle⟩
        · -- the component's `doInit` is called, so nothing is returned yet
          simp [State.returned, hq, hz] at hret
    · have hcalled : doInit s.registry obj ptrDLL ptrCPT = some (some 0, s.registry) := by
        cases ptrDLL with
        | false => rfl
        | true =>
          cases ptrCPT with
          | false => rfl
          | true => exact absurd rfl hload
      rw [hcalled] at hs
      obtain rfl := Option.some.inj hs
      refine ⟨⟨h.kept, h.handles⟩, iff_of_true ⟨fun handle hret => ?_, fun x hret i hi => ?_⟩
        fun hyes => absurd hyes hload⟩
      · rw [State.handle, if_neg hload] at hret
        cases hret
      · -- the actor has not been registered
        rw [State.returned, hcalled] at hret
        obtain rfl : obj = x := by simpa using hret
        exact hfresh.1 (mem_actors_iff.mpr ⟨i, holds_iff.mp hi⟩)
  · cases hs

/-- `doInit` after the component's has returned.
SOURCE: module/actor.cc:31-69 -/
theorem launched_step {fail : ℤ} (h : Inv s) (hs : step s (.launched obj fail) = some s') :
    Inv s' ∧ (StepRight s (.launched obj fail) s' ↔ Cond s (.launched obj fail)) := by
  simp only [step] at hs
  split at hs
  · next hmem =>
    obtain rfl := Option.some.inj hs
    have herase : ∀ x ∈ s.launching.erase obj, x ∈ s.launching := fun x hx => List.mem_of_mem_erase hx
    by_cases hfail : fail = 0
    · have hcall : launched s.registry obj fail = (s.registry.m_handle obj, s.registry) :=
        if_pos hfail
      rw [hcall]
      refine ⟨⟨h.kept, fun x hx => h.handles x (herase x hx)⟩,
        iff_of_true ⟨fun _ hret => (by cases hret), fun x hret => ?_⟩ fun hne => absurd hfail hne⟩
      -- what is returned is the handle, which is not 0
      rw [State.returned, hcall, Option.some.injEq, Prod.mk.injEq] at hret
      exact absurd hret.2 (h.handles obj hmem)
    · have hcall : launched s.registry obj fail =
          (0, (s.registry.doUnRegister (s.registry.m_handle obj)).2) := if_neg hfail
      rw [hcall]
      have hgone := gone_iff h.kept.shape obj
      refine ⟨⟨kept_doUnRegister h.kept _, fun x hx => ?_⟩, fun hright _ => ?_, fun hcond => ?_⟩
      · show (s.registry.doUnRegister _).2.m_handle x ≠ 0
        rw [doUnRegister_handle]
        exact h.handles x (herase x hx)
      · refine hgone.mp (hright.failed obj ?_)
        rw [State.returned, hcall]
      · refine ⟨fun _ hret => (by cases hret), fun x hret => ?_⟩
        rw [State.returned, hcall, Option.some.injEq, Prod.mk.injEq] at hret
        rw [← hret.1]
        exact hgone.mpr (hcond hfail)
  · cases hs

/-- **One call** keeps the invariant, and does what it has to do exactly under the condition. -/
theorem right_iff {e : Event α} (h : Inv s) (hs : step s e = some s') :
    Inv s' ∧ (StepRight s e s' ↔ Cond s e) := by
  cases e with
  | doRegister obj => exact doRegister_step h hs
  | doUnRegister handle =>
    obtain rfl := Option.some.inj hs
    refine ⟨⟨kept_doUnRegister h.kept handle, fun x hx => ?_⟩,
      iff_of_true ⟨fun _ hret => (by cases hret), fun _ hret => (by cases hret)⟩ trivial⟩
    show (s.registry.doUnRegister handle).2.m_handle x ≠ 0
    rw [doUnRegister_handle]
    exact h.handles x hx
  | doInit obj ptrDLL ptrCPT => exact doInit_step h hs
  | launched obj fail => exact launched_step h hs

omit [DecidableEq α] in
/-- A new registry without calls is in order. -/
theorem inv_start (handles : α → ℕ) : Inv (start handles) := by
  refine ⟨⟨shape_new handles, fun i x hx => ?_⟩, fun x hx => absurd hx List.not_mem_nil⟩
  rw [start, slots_new handles i] at hx
  cases hx

/-- **The reserved handle, and actors whose start has failed.**  In a run of calls on a new registry
every registration returns a handle from 1 to the mark, and the registry does not hold an actor whose
`doInit` returns 0, exactly when no registration comes to the handle 0 with slot 0 free, and no actor
whose component fails has been copied by a resize meanwhile.
SOURCE: module/actor.cc:31-69, module/actorSystem.cc:35-77 -/
theorem handles_not_reserved (α : Type) [DecidableEq α] (handles : α → ℕ) (es : List (Event α))
    (s : State α) (hrun : (system α).run (start handles) es = some s) :
    (system α).Always StepRight (start handles) es ↔ (system α).Meets Cond (start handles) es := by
  refine System.always_iff_of_iff (I := Inv) ?_ (inv_start handles) hrun
  intro s e s' h hs
  exact (right_iff h hs).symm

/-- An actor is registered and its component fails, with no other call meanwhile.
SOURCE: module/actor.cc:31-69 -/
theorem handles_not_reserved_failed : (system ℕ).Always StepRight (start fun _ => 0)
    [.doInit 1 true true, .launched 1 (-1)] := by
  refine (handles_not_reserved ℕ (fun _ => 0) _ _ rfl).mpr ⟨fun _ => ?_, fun s hs => ?_⟩
  · rintro ⟨i, hi, hzero, -⟩
    have hi4 : i < 4 := hi
    interval_cases i <;> exact absurd hzero (by decide)
  · obtain rfl := Option.some.inj hs
    refine ⟨fun _ i hi => ?_, fun _ _ => trivial⟩
    have hi4 : i < 4 := by
      by_contra hpast
      have hget := List.getElem?_eq_none (l := [none, some 1, none, (none : Option ℕ)])
        (show 4 ≤ i by omega)
      exact absurd (hget.symm.trans hi) (by simp)
    interval_cases i <;> first | rfl | cases hi

/-- The component of the actor of handle 4 fails after a fifth registration has doubled the table:
`doInit` returns 0, and the registry holds the actor at slot 0.
SOURCE: module/actor.cc:31-69 -/
theorem failed_actor_kept : ¬ ∀ (es : List (Event ℕ)) (s : State ℕ),
    (system ℕ).run (start fun _ => 0) es = some s →
      (system ℕ).Always StepRight (start fun _ => 0) es := by
  intro hall
  have h := hall [.doRegister 1, .doRegister 2, .doRegister 3, .doInit 4 true true, .doRegister 5,
    .launched 4 (-1)] _ rfl
  have hlast := (((((h _ rfl).2 _ rfl).2 _ rfl).2 _ rfl).2 _ rfl).2 _ rfl
  exact hlast.1.failed 4 rfl 0 rfl

/-! ## The run that comes to the reserved handle -/

/-- A table of four free slots, with the serial number `ser`. -/
structure Empty (s : State ℕ) (ser : ℕ) : Prop where
  ser : s.registry.m_actorSer = ser
  cap : s.registry.m_actorCap = 4
  actors : s.registry.m_actors = List.replicate 4 none
  launching : s.launching = []

/-- In an empty registry the next handle is free.
SOURCE: module/actorSystem.cc:35-64 -/
theorem Empty.findHandle {s : State ℕ} {k : ℕ} (h : Empty s k) :
    s.registry.findHandle = some (k &&& ACOTR_ID_MARK) := by
  refine findHandle_some_iff.mpr ⟨0, ?_, ?_, ?_, fun j hj => absurd hj (Nat.not_lt_zero j)⟩
  · rw [h.cap]
    omega
  · rw [ActorSystem.candidate, h.ser, Nat.zero_add]
  · have hlt : s.registry.local_addr (k &&& ACOTR_ID_MARK) < 4 := by
      rw [ActorSystem.local_addr, h.cap]
      exact Nat.lt_succ_of_le Nat.and_le_right
    rw [ActorSystem.isFree, h.actors, List.getElem?_replicate, if_pos hlt]

/-- An actor is registered and unregistered.
SOURCE: module/actorSystem.cc:35-64, 66-77 -/
theorem Empty.cycle {s : State ℕ} {k : ℕ} (h : Empty s k) (hk : k ≤ ACOTR_ID_MARK) :
    ∃ s', (system ℕ).run s [.doRegister 0, .doUnRegister k] = some s' ∧ Empty s' (k + 1) := by
  have hmark : k &&& ACOTR_ID_MARK = k := by
    rw [show ACOTR_ID_MARK = 2 ^ 24 - 1 from rfl, Nat.and_two_pow_sub_one_eq_mod,
      Nat.mod_eq_of_lt]
    unfold ACOTR_ID_MARK at hk
    omega
  have hf := h.findHandle
  rw [hmark] at hf
  have hfresh : s.Fresh 0 := by
    refine ⟨?_, ?_⟩
    · rw [h.actors]
      decide
    · rw [h.launching]
      exact List.not_mem_nil
  have hlt : s.registry.local_addr k < s.registry.m_actors.length := by
    rw [ActorSystem.local_addr, h.cap, h.actors]
    exact Nat.lt_succ_of_le Nat.and_le_right
  have hfirst : step s (.doRegister 0) =
      some { s with registry := registered s.registry 0 k } := by
    simp only [step]
    rw [if_pos hfresh, register, show maxRounds = 23 + 1 from rfl, doRegister_some hf]
    rfl
  have hget : (registered s.registry 0 k).m_actors[s.registry.local_addr k]? = some (some 0) :=
    List.getElem?_set_self hlt
  have hsecond : (registered s.registry 0 k).doUnRegister k = (true, { registered s.registry 0 k with
      m_actors := (registered s.registry 0 k).m_actors.set (s.registry.local_addr k) none }) := by
    unfold ActorSystem.doUnRegister
    rw [show (registered s.registry 0 k).local_addr k = s.registry.local_addr k from rfl, hget]
    exact if_pos (Function.update_self (0 : ℕ) k s.registry.m_handle)
  refine ⟨{ s with registry := ((registered s.registry 0 k).doUnRegister k).2 }, ?_, ?_⟩
  · rw [System.run_cons, system_step ℕ, hfirst]
    rfl
  · rw [hsecond]
    refine ⟨rfl, h.cap, ?_, h.launching⟩
    show (s.registry.m_actors.set _ (some 0)).set _ none = _
    rw [List.set_set, h.actors, List.set_replicate_self]

/-- Any serial number up to the mark and one more is come to. -/
theorem exists_empty {k : ℕ} (hk : k ≤ ACOTR_ID_MARK) :
    ∃ es s, (system ℕ).run (start fun _ => 0) es = some s ∧ Empty s (k + 1) := by
  induction k with
  | zero => exact ⟨[], start fun _ => 0, rfl, rfl, rfl, rfl, rfl⟩
  | succ k ih =>
    obtain ⟨es, s, hrun, hs⟩ := ih (by omega)
    obtain ⟨s', hcycle, hs'⟩ := hs.cycle hk
    refine ⟨es ++ [.doRegister 0, .doUnRegister (k + 1)], s', ?_, hs'⟩
    rw [System.run_append, hrun, Option.bind_some, hcycle]

/-- **The reserved handle is returned**: after as many registrations as there are handles in the mark,
each undone before the next, a registration returns 0.
SOURCE: module/actorSystem.cc:35-64 -/
theorem reserved_returned :
    ∃ es s, (system ℕ).run (start fun _ => 0) es = some s ∧ s.handle (.doRegister 0) = some 0 := by
  obtain ⟨es, s, hrun, hs⟩ := exists_empty le_rfl
  refine ⟨es, s, hrun, ?_⟩
  have hf := hs.findHandle
  rw [show ACOTR_ID_MARK + 1 &&& ACOTR_ID_MARK = 0 by decide] at hf
  rw [State.handle, register, show maxRounds = 23 + 1 from rfl, doRegister_some hf]
  rfl

end Runs

end MagicNet.ActorInit
