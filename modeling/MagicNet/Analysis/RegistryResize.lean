import MagicNet.Analysis.RegistryMap

/-!
# What a resize does to the actor registry

In every state of the registry an actor stands at the slot of its handle in the table, or at the one
it had when the table was smaller (`Kept`).  So a resize that moves some actor leaves a free slot,
unless it moves each actor by the old capacity, and then the next resize leaves one.  A resize that
moves no actor never writes `m_actorCap`, and the loop around it does not end: this gives the exact
condition under which `doRegister` returns (`register_terminates`).

The resize leaves each actor that it moves at its old slot as well.  The slots hold each actor once
exactly as long as no registration finds the table full (`actors_once`).

SOURCE: module/actorSystem.cc:35-77
-/

set_option autoImplicit false

namespace MagicNet.Registry

open MagicNet.Foundation

variable {α : Type} {r : ActorSystem α}

/-! ## The loop of `doRegister` -/

/-- The table with the actor at the free slot that was found. -/
def ActorSystem.put (r : ActorSystem α) (obj : α) (handle : ℕ) : ActorSystem α :=
  { r with
    m_actors := r.m_actors.set (r.local_addr handle) (some obj)
    m_actorSer := handle + 1 }

/-- Where a handle is free the actor gets it.
SOURCE: module/actorSystem.cc:35-64 -/
theorem doRegister_some {obj : α} {handle : ℕ} (hf : r.findHandle = some handle) (rounds : ℕ) :
    r.doRegister obj (rounds + 1) = some (handle, r.put obj handle) := by
  rw [ActorSystem.doRegister, hf]
  rfl

/-- Where none is the table is doubled, and the search starts again.
SOURCE: module/actorSystem.cc:35-64 -/
theorem doRegister_grow {obj : α} (hf : r.findHandle = none)
    (hmark : r.m_actorCap * 2 - 1 ≤ ACOTR_ID_MARK) (rounds : ℕ) :
    r.doRegister obj (rounds + 1) = r.grow.doRegister obj rounds := by
  rw [ActorSystem.doRegister, hf]
  exact if_pos hmark

/-- The assertion fails.
SOURCE: module/actorSystem.cc:35-64 -/
theorem doRegister_assert {obj : α} (hf : r.findHandle = none)
    (hmark : ¬ r.m_actorCap * 2 - 1 ≤ ACOTR_ID_MARK) (rounds : ℕ) :
    r.doRegister obj rounds = none := by
  cases rounds with
  | zero => rfl
  | succ rounds =>
    rw [ActorSystem.doRegister, hf]
    exact if_neg hmark

/-- **The rule of the outer loop**: what each resize keeps holds of the table in which the free slot
is found.
SOURCE: module/actorSystem.cc:35-64 -/
theorem doRegister_rule {P : ActorSystem α → Prop} {obj : α} {rounds handle : ℕ}
    {r' : ActorSystem α}
    (hgrow : ∀ r, P r → r.findHandle = none → r.m_actorCap * 2 - 1 ≤ ACOTR_ID_MARK → P r.grow)
    (h : P r) (hreg : r.doRegister obj rounds = some (handle, r')) :
    ∃ r₁, P r₁ ∧ r₁.findHandle = some handle ∧ r' = r₁.put obj handle := by
  induction rounds generalizing r with
  | zero => simp [ActorSystem.doRegister] at hreg
  | succ rounds ih =>
    cases hf : r.findHandle with
    | some found =>
      rw [doRegister_some hf, Option.some.injEq, Prod.mk.injEq] at hreg
      obtain ⟨rfl, rfl⟩ := hreg
      exact ⟨r, h, hf, rfl⟩
    | none =>
      by_cases hmark : r.m_actorCap * 2 - 1 ≤ ACOTR_ID_MARK
      · rw [doRegister_grow hf hmark] at hreg
        exact ih (hgrow r h hf hmark) hreg
      · rw [doRegister_assert hf hmark] at hreg
        cases hreg

/-- The inner loop finds a handle exactly where there is a free slot. -/
theorem findHandle_none_iff (h : Shape r) : r.findHandle = none ↔ none ∉ r.m_actors := by
  have hlen := h.length
  constructor
  · intro hf hmem
    obtain ⟨i, hi, hnone⟩ := List.mem_iff_getElem.mp hmem
    obtain ⟨x, hx⟩ := findHandle_none h hf (j := i) (by omega)
    rw [slots, List.getElem?_eq_getElem hi, hnone] at hx
    cases hx
  · intro hmem
    cases hf : r.findHandle with
    | none => rfl
    | some handle =>
      have hfree := findHandle_some h hf
      have hlt := h.local_addr_lt handle
      rw [← h.local_addr, slots, List.getElem?_eq_getElem hlt, Option.join_some] at hfree
      exact absurd (hfree ▸ List.getElem_mem hlt) hmem

/-! ## What every call keeps -/

/-- The shape of the table, and each actor at the slot of its handle in this table or in a smaller
one. -/
structure Kept (r : ActorSystem α) : Prop where
  shape : Shape r
  placed : ∀ i x, slots r i = some x → ∃ m, i = r.m_handle x % 2 ^ m

/-- Some actor has another slot in the table of twice the size. -/
def ActorSystem.Moves (r : ActorSystem α) : Prop :=
  ∃ i < r.m_actorCap, ∃ x, r.Holds i x ∧ r.nwpos x ≠ i

/-- Each slot holds an actor whose slot in the table of twice the size is `m_actorCap` further. -/
def ActorSystem.Shifts (r : ActorSystem α) : Prop :=
  ∀ i < r.m_actorCap, ∃ x, r.Holds i x ∧ r.nwpos x = i + r.m_actorCap

/-- What has to hold for the table to grow. -/
theorem canGrow_iff : r.CanGrow ↔ r.Moves ∧ r.m_actorCap * 2 - 1 ≤ ACOTR_ID_MARK ∧
    (r.Shifts → r.m_actorCap * 4 - 1 ≤ ACOTR_ID_MARK) := Iff.rfl

/-- No slot is after the one of the actor's handle. -/
theorem Kept.le_own (h : Kept r) {i : ℕ} {x : α} (hi : i < r.m_actorCap)
    (hx : slots r i = some x) : i ≤ r.m_handle x % r.m_actorCap := by
  obtain ⟨k, -, hk⟩ := h.shape.pow
  obtain ⟨m, hm⟩ := h.placed i x hx
  rw [hk] at hi ⊢
  rcases Nat.le_total m k with hmk | hkm
  · rw [hm, ← Nat.mod_mod_of_dvd (r.m_handle x) (pow_dvd_pow 2 hmk)]
    exact Nat.mod_le _ _
  · rw [← Nat.mod_mod_of_dvd (r.m_handle x) (pow_dvd_pow 2 hkm), ← hm, Nat.mod_eq_of_lt hi]

/-- A resize that moves some actor. -/
theorem kept_grow (h : Kept r) (hg : Grows r r.grow) : Kept r.grow := by
  obtain ⟨k, -, hk⟩ := h.shape.pow
  refine ⟨hg.shape, fun i x hx => ?_⟩
  rw [hg.slots] at hx
  rw [hg.handle]
  rcases SlotTable.rehash_eq_some hx with hold | hnew
  · exact h.placed i x hold
  · refine ⟨k + 1, ?_⟩
    rw [← hnew, hk, pow_succ, Nat.mul_comm]

/-- A full table in which no actor moves is stuck. -/
theorem stuck_of_still (h : Shape r) (hfull : r.findHandle = none) (hmove : ¬ r.Moves) :
    Stuck r := by
  have hlen := h.length
  refine ⟨hfull, fun i x hx => ?_, h.pos, by omega, by omega⟩
  by_contra hne
  refine hmove ⟨i, ?_, x, hx, hne⟩
  by_contra hpast
  rw [holds_iff, h.slots_of_le (by omega)] at hx
  cases hx

/-- The slots after an actor is put in.
SOURCE: module/actorSystem.cc:35-64 -/
theorem slots_put (h : Shape r) (obj : α) (handle : ℕ) :
    slots (r.put obj handle) =
      Function.update (slots r) (handle % r.m_actorCap) (some obj) := by
  rw [← h.local_addr]
  exact slots_set (r := r) (h.local_addr_lt handle) (some obj)

section Loop

variable {obj : α} {handle : ℕ}

/-- **The table in which a registration that returns finds its free slot**: it has what each resize
that moves some actor keeps.
SOURCE: module/actorSystem.cc:35-64 -/
theorem registers_in {Q : ActorSystem α → Prop}
    (hQ : ∀ r, Kept r → Grows r r.grow → Q r → Q r.grow) (h : Kept r) (hq : Q r) {rounds : ℕ}
    {r' : ActorSystem α} (hreg : r.doRegister obj rounds = some (handle, r')) :
    ∃ r₁, Kept r₁ ∧ Q r₁ ∧ r₁.findHandle = some handle ∧ r' = r₁.put obj handle := by
  obtain ⟨r₁, hr₁, hf, hput⟩ := doRegister_rule (P := fun r => Kept r ∧ Q r ∨ Stuck r)
    (fun r hr hfull hmark => by
      rcases hr with ⟨hkept, hq⟩ | hstuck
      · by_cases hmove : r.Moves
        · have hg := grow_grows hkept.shape hmove hmark
          exact .inl ⟨kept_grow hkept hg, hQ r hkept hg hq⟩
        · exact .inr (stuck_of_still hkept.shape hfull hmove).grow
      · exact .inr hstuck.grow)
    (.inl ⟨h, hq⟩) hreg
  rcases hr₁ with ⟨hkept, hq₁⟩ | hstuck
  · exact ⟨r₁, hkept, hq₁, hf, hput⟩
  · rw [hstuck.full] at hf
    cases hf

/-- A resize brings no actor into the table. -/
theorem fresh_grow (hg : Grows r r.grow) (hnew : ∀ i, slots r i ≠ some obj) (i : ℕ) :
    slots r.grow i ≠ some obj := by
  intro hi
  rw [hg.slots] at hi
  obtain ⟨j, hj⟩ := SlotTable.rehash_mem hi
  exact hnew j hj

/-- What is left after `doUnRegister` was there before.
SOURCE: module/actorSystem.cc:66-77 -/
theorem slots_doUnRegister (h : Shape r) (handle : ℕ) {i : ℕ} {x : α}
    (hx : slots (r.doUnRegister handle).2 i = some x) : slots r i = some x := by
  unfold ActorSystem.doUnRegister at hx
  split at hx
  · split at hx
    · simp only [slots_set (h.local_addr_lt handle)] at hx
      by_cases hi : i = r.local_addr handle
      · rw [hi, Function.update_self] at hx
        cases hx
      · rwa [Function.update_of_ne hi] at hx
    · exact hx
  · exact hx

/-- Removing an actor keeps the next handle.
SOURCE: module/actorSystem.cc:66-77 -/
@[simp] theorem doUnRegister_handle (r : ActorSystem α) (handle : ℕ) :
    (r.doUnRegister handle).2.m_handle = r.m_handle := by
  unfold ActorSystem.doUnRegister
  split
  · split <;> rfl
  · rfl

/-- The table of a new registry has no actor. -/
theorem slots_new (handles : α → ℕ) (i : ℕ) : slots (ActorSystem.new handles) i = none := by
  simp only [slots, ActorSystem.new, List.getElem?_replicate]
  split <;> rfl

/-- A new table has 4 slots.
SOURCE: module/actorSystem.cc:8-10 -/
theorem shape_new (handles : α → ℕ) : Shape (ActorSystem.new handles) := ⟨⟨2, by omega, rfl⟩, rfl⟩

end Loop

section Calls

variable [DecidableEq α] {obj : α} {handle : ℕ}

/-- The registry after `doRegister` has returned and `m_handle` is set. -/
def registered (r : ActorSystem α) (obj : α) (handle : ℕ) : ActorSystem α :=
  { r.put obj handle with m_handle := Function.update r.m_handle obj handle }

/-- The slots after a registration. -/
theorem slots_registered (h : Shape r) :
    slots (registered r obj handle) =
      Function.update (slots r) (handle % r.m_actorCap) (some obj) := slots_put h obj handle

/-- A registration keeps the shape. -/
theorem shape_registered (h : Shape r) : Shape (registered r obj handle) := by
  refine ⟨h.pow, ?_⟩
  show (r.m_actors.set _ _).length = r.m_actorCap
  rw [List.length_set, h.length]

/-- An actor of the table after a registration is the new one at its slot, or was there before, with
the handle it had. -/
theorem registered_slot (h : Shape r) (hnew : ∀ i, slots r i ≠ some obj) {i : ℕ} {x : α}
    (hx : slots (registered r obj handle) i = some x) :
    i = handle % r.m_actorCap ∧ x = obj ∧ (registered r obj handle).m_handle x = handle ∨
      slots r i = some x ∧ (registered r obj handle).m_handle x = r.m_handle x := by
  rw [slots_registered h] at hx
  by_cases hi : i = handle % r.m_actorCap
  · left
    rw [hi, Function.update_self] at hx
    obtain rfl := Option.some.inj hx
    exact ⟨hi, rfl, Function.update_self ..⟩
  · right
    rw [Function.update_of_ne hi] at hx
    have hne : x ≠ obj := fun heq => hnew i (heq ▸ hx)
    exact ⟨hx, Function.update_of_ne hne _ _⟩

/-- And every actor in one slot, where the new one is in none. -/
theorem kept_registered (h : Kept r) (hnew : ∀ i, slots r i ≠ some obj) :
    Kept (registered r obj handle) := by
  obtain ⟨k, -, hk⟩ := h.shape.pow
  refine ⟨shape_registered h.shape, fun i x hx => ?_⟩
  rcases registered_slot h.shape hnew hx with ⟨hi, -, hhandle⟩ | ⟨hold, hhandle⟩
  · exact ⟨k, by rw [hhandle, hi, hk]⟩
  · rw [hhandle]
    exact h.placed i x hold

variable {s s' : State α}

/-- One registration of an actor that is not in the table.
SOURCE: module/actorSystem.cc:35-64 -/
theorem step_register (hs : step s (.doRegister obj) = some s') :
    (∀ i, slots s.registry i ≠ some obj) ∧ ∃ handle r',
      s.registry.doRegister obj maxRounds = some (handle, r') ∧
        s'.registry = { r' with m_handle := Function.update r'.m_handle obj handle } := by
  simp only [step] at hs
  split at hs
  · cases hs
  · next hfresh =>
    obtain ⟨⟨handle, r'⟩, hreg, rfl⟩ := Option.map_eq_some_iff.mp hs
    exact ⟨fun i hi => hfresh (mem_actors_iff.mpr ⟨i, hi⟩), handle, r', hreg, rfl⟩

/-- **One call** keeps the shape and the places. -/
theorem kept_step {e : Event α} (h : Kept s.registry) (hs : step s e = some s') :
    Kept s'.registry := by
  cases e with
  | doRegister obj =>
    obtain ⟨hnew, handle, r', hreg, hs'⟩ := step_register hs
    obtain ⟨r₁, hkept, hfresh, -, rfl⟩ := registers_in (Q := fun r => ∀ i, slots r i ≠ some obj)
      (fun _ _ hg hfresh => fresh_grow hg hfresh) h hnew hreg
    rw [hs']
    exact kept_registered hkept hfresh
  | doUnRegister handle =>
    obtain rfl := Option.some.inj hs
    refine ⟨(doUnRegister_spec h.shape handle).1, fun i x hx => ?_⟩
    rw [doUnRegister_handle]
    exact h.placed i x (slots_doUnRegister h.shape handle hx)

/-- In every reachable table an actor is in one slot at most. -/
theorem kept_of_reachable (h : (system α).Reachable s) : Kept s.registry := by
  refine h.invariant (I := fun s => Kept s.registry) ?_ fun s e s' hI _ hs => kept_step hI hs
  rintro t ⟨handles, rfl⟩
  refine ⟨shape_new handles, fun i x hx => ?_⟩
  rw [slots_new handles i] at hx
  cases hx

end Calls

/-! ## When `doRegister` returns -/

/-- A full table in which each actor moves by the capacity is settled, and full again after the
resize. -/
theorem doubles_of_shifts (h : Shape r) (hshifts : r.Shifts)
    (hmark : r.m_actorCap * 2 - 1 ≤ ACOTR_ID_MARK) : Doubles r r.grow := by
  refine grow_doubles h ?_ ?_ hmark
  · intro i hi x hx
    left
    obtain ⟨y, hy, hpos⟩ := hshifts i hi
    rw [holds_iff] at hx hy
    obtain rfl : x = y := by simpa [hx] using hy
    -- its slot in the old table is where it stands
    have hown : r.m_handle x % r.m_actorCap = i := by
      rw [h.nwpos] at hpos
      have hmod := SlotTable.mod_double (r.m_handle x) r.m_actorCap
      have hlt := Nat.mod_lt (r.m_handle x) h.pos
      omega
    rw [h.local_addr, hown, holds_iff]
    exact hx
  · obtain ⟨x, hx, hpos⟩ := hshifts 0 h.pos
    have := h.pos
    exact ⟨0, h.pos, x, hx, by omega⟩

/-- **After a resize that moves some actor** the table is full again exactly when each actor has
moved by the old capacity. -/
theorem grow_full_iff (h : Kept r) (hfull : r.findHandle = none) (hmove : r.Moves)
    (hmark : r.m_actorCap * 2 - 1 ≤ ACOTR_ID_MARK) : r.grow.findHandle = none ↔ r.Shifts := by
  have hg := grow_grows h.shape hmove hmark
  have hcap := hg.cap
  constructor
  · intro hfull' i hi
    have hshift : ∀ j < r.m_actorCap, ∃ x, slots r j = some x ∧
        r.m_handle x % (2 * r.m_actorCap) = j + r.m_actorCap := by
      refine SlotTable.shifted_of_full (fun i hi x hx => h.le_own hi hx)
        (fun j _ => h.shape.slots_of_le (by omega)) fun j hj => ?_
      rw [← hg.slots]
      exact findHandle_none hg.shape hfull' (by omega)
    obtain ⟨x, hx, hkey⟩ := hshift i hi
    refine ⟨x, holds_iff.mpr hx, ?_⟩
    rw [h.shape.nwpos, hkey]
  · intro hshifts
    have hd := doubles_of_shifts h.shape hshifts hmark
    rw [findHandle_none_iff hg.shape, List.mem_iff_getElem]
    rintro ⟨i, hi, hnone⟩
    have hi' : i < r.grow.m_actorCap := hg.shape.length ▸ hi
    have hfree : slots r.grow i = none := by
      rw [slots, List.getElem?_eq_getElem hi, hnone]
      rfl
    -- every slot of the doubled table holds an actor
    by_cases hlow : i < r.m_actorCap
    · obtain ⟨x, hx⟩ := findHandle_none h.shape hfull hlow
      rw [(hd.split i hlow).1, hx] at hfree
      cases hfree
    · obtain ⟨x, hx, hpos⟩ := hshifts (i - r.m_actorCap) (by omega)
      have hhigh := (hd.split (i - r.m_actorCap) (by omega)).2
      rw [Nat.sub_add_cancel (by omega), hfree, holds_iff.mp hx, eq_comm] at hhigh
      rw [h.shape.nwpos, Nat.sub_add_cancel (by omega)] at hpos
      simp [Option.filter, hpos] at hhigh

/-- The two resizes of a table in which all actors move. -/
theorem free_after_second (h : Shape r) (hshifts : r.Shifts)
    (hmark : r.m_actorCap * 2 - 1 ≤ ACOTR_ID_MARK) (hfull : r.grow.findHandle = none)
    (hmark' : r.grow.m_actorCap * 2 - 1 ≤ ACOTR_ID_MARK) :
    ∃ handle, r.grow.grow.findHandle = some handle := by
  have hd := doubles_of_shifts h hshifts hmark
  have hd' := grow_doubles hd.shape (hd.settled_of_full hfull) (hd.moves_of_full h hfull) hmark'
  exact Option.ne_none_iff_exists'.mp (hd.not_full_twice hd' h hfull)

section Terminates

variable {obj : α}

/-- **A registration that returns after one resize at most.**
SOURCE: module/actorSystem.cc:35-64 -/
theorem returns_in_two_iff (h : Kept r) : (r.doRegister obj 2).isSome ↔
    none ∈ r.m_actors ∨ r.Moves ∧ r.m_actorCap * 2 - 1 ≤ ACOTR_ID_MARK ∧ ¬ r.Shifts := by
  cases hf : r.findHandle with
  | some handle =>
    have hroom : none ∈ r.m_actors := by
      by_contra hmem
      rw [(findHandle_none_iff h.shape).mpr hmem] at hf
      cases hf
    rw [doRegister_some hf]
    exact iff_of_true rfl (.inl hroom)
  | none =>
    have hroom : none ∉ r.m_actors := (findHandle_none_iff h.shape).mp hf
    by_cases hmove : r.Moves
    · by_cases hmark : r.m_actorCap * 2 - 1 ≤ ACOTR_ID_MARK
      · have hfull := grow_full_iff h hf hmove hmark
        rw [doRegister_grow hf hmark]
        cases hf' : r.grow.findHandle with
        | some handle =>
          rw [doRegister_some hf']
          refine iff_of_true rfl (.inr ⟨hmove, hmark, fun hshifts => ?_⟩)
          rw [hfull.mpr hshifts] at hf'
          cases hf'
        | none =>
          have hnone : r.grow.doRegister obj 1 = none := by
            rw [ActorSystem.doRegister, hf']
            exact ite_self none
          rw [hnone]
          refine iff_of_false (by simp) ?_
          rintro (hmem | ⟨-, -, hshifts⟩)
          · exact hroom hmem
          · exact hshifts (hfull.mp hf')
      · rw [doRegister_assert hf hmark]
        exact iff_of_false (by simp) fun hor => hor.elim hroom fun hand => hmark hand.2.1
    · rw [(stuck_of_still h.shape hf hmove).never_returns obj 2]
      exact iff_of_false (by simp) fun hor => hor.elim hroom fun hand => hmove hand.1

/-- **A registration that returns at all**: after at most two resizes.
SOURCE: module/actorSystem.cc:35-64 -/
theorem returns_iff (h : Kept r) : (∃ rounds, (r.doRegister obj rounds).isSome) ↔
    none ∈ r.m_actors ∨ r.CanGrow := by
  have htwo : (r.doRegister obj 2).isSome ↔ _ := returns_in_two_iff h
  rw [canGrow_iff]
  cases hf : r.findHandle with
  | some handle =>
    have hroom : none ∈ r.m_actors := by
      by_contra hmem
      rw [(findHandle_none_iff h.shape).mpr hmem] at hf
      cases hf
    exact iff_of_true ⟨2, htwo.mpr (.inl hroom)⟩ (.inl hroom)
  | none =>
    have hroom : none ∉ r.m_actors := (findHandle_none_iff h.shape).mp hf
    constructor
    · rintro ⟨rounds, hret⟩
      right
      have hmove : r.Moves := by
        by_contra hstill
        rw [(stuck_of_still h.shape hf hstill).never_returns] at hret
        cases hret
      have hmark : r.m_actorCap * 2 - 1 ≤ ACOTR_ID_MARK := by
        by_contra hlarge
        rw [doRegister_assert hf hlarge] at hret
        cases hret
      refine ⟨hmove, hmark, fun hshifts => ?_⟩
      -- the second resize needs its handles too
      have hcap := (grow_grows h.shape hmove hmark).cap
      have hfull := (grow_full_iff h hf hmove hmark).mpr hshifts
      by_contra hlarge
      cases rounds with
      | zero => cases hret
      | succ rounds =>
        rw [doRegister_grow hf hmark, doRegister_assert hfull (by omega)] at hret
        cases hret
    · rintro (hmem | ⟨hmove, hmark, hmark4⟩)
      · exact absurd hmem hroom
      · by_cases hshifts : r.Shifts
        · have hcap := (grow_grows h.shape hmove hmark).cap
          have hlarge := hmark4 hshifts
          have hfull := (grow_full_iff h hf hmove hmark).mpr hshifts
          have hmark' : r.grow.m_actorCap * 2 - 1 ≤ ACOTR_ID_MARK := by omega
          obtain ⟨handle, hfree⟩ := free_after_second h.shape hshifts hmark hfull hmark'
          refine ⟨3, ?_⟩
          rw [doRegister_grow hf hmark, doRegister_grow hfull hmark', doRegister_some hfree]
          rfl
        · exact ⟨2, htwo.mpr (.inr ⟨hmove, hmark, hshifts⟩)⟩

end Terminates

/-- **When `doRegister` returns.**  In every state that calls of `doRegister` and `doUnRegister` lead
to, a further registration returns exactly when a slot is free, or some actor of the full table has
another slot in the table of twice the size and the handles suffice; and it returns after one resize
at most exactly when moreover not every actor moves by the old capacity.
SOURCE: module/actorSystem.cc:35-64 -/
theorem register_terminates (α : Type) [DecidableEq α] (s : State α)
    (h : (system α).Reachable s) (obj : α) :
    ((∃ rounds, (s.registry.doRegister obj rounds).isSome) ↔
        none ∈ s.registry.m_actors ∨ s.registry.CanGrow) ∧
      ((s.registry.doRegister obj 2).isSome ↔ none ∈ s.registry.m_actors ∨
        s.registry.Moves ∧ s.registry.m_actorCap * 2 - 1 ≤ ACOTR_ID_MARK ∧
          ¬ s.registry.Shifts) := by
  have hkept := kept_of_reachable h
  exact ⟨returns_iff hkept, returns_in_two_iff hkept⟩

/-- Four actors are registered on a new registry: the registration of a fifth returns after one
resize, as the actor of handle 4 moves and the one of handle 1 stays.
SOURCE: module/actorSystem.cc:35-64 -/
theorem register_terminates_fifth : ∃ s, (system ℕ).Reachable s ∧ none ∉ s.registry.m_actors ∧
    (s.registry.doRegister 5 2).isSome := by
  have hrun : (system ℕ).run { registry := ActorSystem.new fun _ => 0, live := fun _ => none }
      [.doRegister 1, .doRegister 2, .doRegister 3, .doRegister 4] = some _ := rfl
  have hreach := System.reachable_of_run (A := system ℕ) ⟨fun _ => 0, rfl⟩ hrun
  refine ⟨_, hreach, by decide, (register_terminates ℕ _ hreach 5).2.mpr (.inr ⟨?_, by decide, ?_⟩)⟩
  · exact ⟨0, by decide, 4, rfl, by decide⟩
  · intro hshifts
    obtain ⟨x, hx, hpos⟩ := hshifts 1 (by decide)
    cases hx
    exact absurd hpos (by decide)

/-- Four actors are registered, the one of handle 4 is unregistered and another registered, which gets
handle 8: no actor moves in a table of eight slots, and the next registration does not return.
SOURCE: module/actorSystem.cc:35-64 -/
theorem register_loops : ¬ ∀ (s : State ℕ), (system ℕ).Reachable s →
    (∃ handles : Finset ℕ, handles.card < 2 ^ 22 ∧ ∀ k, s.live k ≠ none → k ∈ handles) →
      ∀ obj, ∃ rounds, (s.registry.doRegister obj rounds).isSome := by
  intro hall
  have hrun : (system ℕ).run { registry := ActorSystem.new fun _ => 0, live := fun _ => none }
      [.doRegister 1, .doRegister 2, .doRegister 3, .doRegister 4, .doUnRegister 4,
        .doRegister 8] = some _ := rfl
  have hreach := System.reachable_of_run (A := system ℕ) ⟨fun _ => 0, rfl⟩ hrun
  have hfew : ∀ k, k ∉ ({1, 2, 3, 4, 8} : Finset ℕ) →
      Function.update (Function.update (Function.update (Function.update (Function.update
        (Function.update (fun _ => (none : Option ℕ)) 1 (some 1)) 2 (some 2)) 3 (some 3))
          4 (some 4)) 4 none) 8 (some 8) k = none := by
    intro k hk
    simp only [Finset.mem_insert, Finset.mem_singleton, not_or] at hk
    simp [Function.update_of_ne, hk]
  obtain ⟨rounds, hret⟩ := hall _ hreach
    ⟨{1, 2, 3, 4, 8}, by decide, fun k hk => by_contra fun hout => hk (hfew k hout)⟩ 9
  rcases (returns_iff (kept_of_reachable hreach)).mp ⟨rounds, hret⟩ with hmem | hgrow
  · revert hmem
    decide
  · obtain ⟨⟨i, hi, x, hx, hne⟩, -⟩ := hgrow
    have hi4 : i < 4 := hi
    interval_cases i <;> cases hx <;> exact hne (by decide)

end MagicNet.Registry
