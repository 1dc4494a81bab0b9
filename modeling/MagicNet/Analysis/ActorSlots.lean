import MagicNet.Analysis.RegistryResize

/-!
# The slots of the actor registry

The rehash of `doRegister` copies each actor to its new slot and leaves the old one filled.  So the
slots hold each actor once, at the slot of its handle, as long as no registration finds the table
full; and a registration that finds it full, and returns, leaves some actor in two slots.

SOURCE: module/actorSystem.cc:35-77
-/

set_option autoImplicit false

namespace MagicNet.Registry

open MagicNet.Foundation

variable {α : Type} {r : ActorSystem α}

/-- The slots hold each actor once: at the slot of its handle. -/
structure ActorSystem.Once (r : ActorSystem α) : Prop where
  own : ∀ i x, r.Holds i x → i = r.local_addr (r.m_handle x)
  one : ∀ i j x, r.Holds i x → r.Holds j x → i = j
  size : r.m_actors.length = r.m_actorCap

/-- An actor stands in two slots. -/
def ActorSystem.Twice (r : ActorSystem α) : Prop :=
  ∃ i j x, i ≠ j ∧ r.Holds i x ∧ r.Holds j x

/-- Where an actor stands twice, not each stands once. -/
theorem not_once_of_twice (h : r.Twice) : ¬ r.Once := by
  obtain ⟨i, j, x, hne, hi, hj⟩ := h
  intro honce
  exact hne (honce.one i j x hi hj)

/-- With each actor at the slot of its handle, none is in two slots.
SOURCE: module/actorSystem.h:62-64 -/
theorem once_of_own (h : Shape r) (hown : ∀ i x, r.Holds i x → i = r.local_addr (r.m_handle x)) :
    r.Once := by
  refine ⟨hown, fun i j x hi hj => ?_, h.length⟩
  rw [hown i x hi, hown j x hj]

/-! ## The resize -/

/-- Each actor is found under its own handle. -/
theorem settled_of_once (h : r.Once) : r.Settled := by
  intro i _ x hx
  left
  rwa [← h.own i x hx]

/-- An actor that moves is copied, and stays where it was. -/
theorem twice_grow (h : Shape r) (honce : r.Once) (hd : Doubles r r.grow) (hmove : r.Moves) :
    r.grow.Twice := by
  obtain ⟨i, hi, x, hx, hne⟩ := hmove
  have hown := honce.own i x hx
  have hpos := h.pos
  obtain ⟨hlow, hhigh⟩ := hd.split i hi
  rw [h.local_addr] at hown
  rw [h.nwpos] at hne
  have hplace : r.m_handle x % (2 * r.m_actorCap) = i + r.m_actorCap := by
    have hmod := SlotTable.mod_double (r.m_handle x) r.m_actorCap
    omega
  refine ⟨i, i + r.m_actorCap, x, by omega, holds_iff.mpr ?_, holds_iff.mpr ?_⟩
  · rw [hlow]
    exact holds_iff.mp hx
  · rw [hhigh, holds_iff.mp hx, Option.filter_some, if_pos (by simpa using hplace)]

/-- A resize that doubles the table leaves what was in two slots in both. -/
theorem twice_doubles {r' : ActorSystem α} (h : Shape r) (hd : Doubles r r') (htwice : r.Twice) :
    r'.Twice := by
  have hkeep {i : ℕ} {x : α} (hx : r.Holds i x) : r'.Holds i x := by
    have hi : i < r.m_actorCap := by
      by_contra hpast
      rw [holds_iff, h.slots_of_le (by omega)] at hx
      cases hx
    rw [holds_iff] at hx ⊢
    rw [(hd.split i hi).1, hx]
  obtain ⟨i, j, x, hne, hi, hj⟩ := htwice
  exact ⟨i, j, x, hne, hkeep hi, hkeep hj⟩

/-- **The table that a registration finds full** holds some actor twice when a free slot is found.
SOURCE: module/actorSystem.cc:35-64 -/
theorem twice_of_full {obj : α} {rounds handle : ℕ} {r' : ActorSystem α} (h : Shape r)
    (honce : r.Once) (hfull : r.findHandle = none)
    (hreg : r.doRegister obj rounds = some (handle, r')) :
    ∃ r₁, Shape r₁ ∧ r₁.Twice ∧ r₁.findHandle = some handle ∧ r' = r₁.put obj handle := by
  have hmove : r.Moves := by
    by_contra hstill
    rw [(stuck_of_still h hfull hstill).never_returns] at hreg
    cases hreg
  have hmark : r.m_actorCap * 2 - 1 ≤ ACOTR_ID_MARK := by
    by_contra hlarge
    rw [doRegister_assert hfull hlarge] at hreg
    cases hreg
  have hd := grow_doubles h (settled_of_once honce) hmove hmark
  have htwice := twice_grow h honce hd hmove
  cases rounds with
  | zero => cases hreg
  | succ rounds =>
    rw [doRegister_grow hfull hmark] at hreg
    -- the table after the first resize, or after a second one
    refine (doRegister_rule (P := fun r₁ => Shape r₁ ∧ r₁.Twice ∧
      (r₁ = r.grow ∨ r₁.findHandle ≠ none)) ?_ ⟨hd.shape, htwice, .inl rfl⟩ hreg).imp
        fun r₁ hr₁ => ⟨hr₁.1.1, hr₁.1.2.1, hr₁.2⟩
    rintro r₁ ⟨hshape, htwice₁, rfl | hfree⟩ hfull' hmark'
    · have hd' := grow_doubles hd.shape (hd.settled_of_full hfull')
        (hd.moves_of_full h hfull') hmark'
      exact ⟨hd'.shape, twice_doubles hd.shape hd' htwice,
        .inr (hd.not_full_twice hd' h hfull')⟩
    · exact absurd hfull' hfree

/-! ## The calls -/

/-- `doUnRegister` takes an actor from the slot of its handle.
SOURCE: module/actorSystem.cc:66-77 -/
theorem once_doUnRegister (h : Shape r) (honce : r.Once) (handle : ℕ) :
    (r.doUnRegister handle).2.Once := by
  have hshape := (doUnRegister_spec h handle).1
  have hcap : (r.doUnRegister handle).2.m_actorCap = r.m_actorCap := by
    unfold ActorSystem.doUnRegister
    split
    · split <;> rfl
    · rfl
  refine once_of_own hshape fun i x hx => ?_
  have hold := slots_doUnRegister h handle (holds_iff.mp hx)
  rw [hshape.local_addr, hcap, doUnRegister_handle, ← h.local_addr]
  exact honce.own i x (holds_iff.mpr hold)

/-- An actor that is unregistered is in no slot.
SOURCE: module/actorSystem.cc:66-77, module/actorSystem.h:62-64 -/
theorem unregistered {handle : ℕ} (h : Shape r) (honce : r.Once)
    (hret : (r.doUnRegister handle).1 = true)
    {x : α} (hx : r.Holds (r.local_addr handle) x) (i : ℕ) :
    ¬ (r.doUnRegister handle).2.Holds i x := by
  intro hi
  have hold := slots_doUnRegister h handle (holds_iff.mp hi)
  have heq := honce.one i _ x (holds_iff.mpr hold) hx
  have hget : r.m_actors[r.local_addr handle]? = some (some x) := hx
  unfold ActorSystem.doUnRegister at hi hret
  simp only [hget] at hi hret
  split at hi
  · rw [holds_iff, slots_set (h.local_addr_lt handle), heq, Function.update_self] at hi
    cases hi
  · next hne =>
    rw [if_neg hne] at hret
    cases hret

section Runs

variable [DecidableEq α] {obj : α} {handle : ℕ} {s s' : State α}

/-- A registration at a free slot puts the actor at the slot of its handle. -/
theorem once_registered (h : Shape r) (honce : r.Once) (hnew : ∀ i, slots r i ≠ some obj) :
    (registered r obj handle).Once := by
  have hshape : Shape (registered r obj handle) := shape_registered h
  refine once_of_own hshape fun i x hx => ?_
  rw [hshape.local_addr]
  rcases registered_slot h hnew (holds_iff.mp hx) with ⟨hi, -, hhandle⟩ | ⟨hold, hhandle⟩
  · rw [hhandle]
    exact hi
  · rw [hhandle]
    exact (honce.own i x (holds_iff.mpr hold)).trans (h.local_addr _)

/-- What stands in two slots still does after a registration at a free one. -/
theorem twice_registered (h : Shape r) (htwice : r.Twice) (hf : r.findHandle = some handle) :
    (registered r obj handle).Twice := by
  have hfree := findHandle_some h hf
  have hkeep {i : ℕ} {x : α} (hx : r.Holds i x) : (registered r obj handle).Holds i x := by
    rw [holds_iff] at hx ⊢
    have hne : i ≠ handle % r.m_actorCap := by
      rintro rfl
      rw [hfree] at hx
      cases hx
    rw [slots_registered h, Function.update_of_ne hne, hx]
  obtain ⟨i, j, x, hne, hi, hj⟩ := htwice
  exact ⟨i, j, x, hne, hkeep hi, hkeep hj⟩

/-- What a call has to leave: each actor in one slot, that of its handle, and none that was
unregistered. -/
structure StepOnce (s : State α) (e : Event α) (s' : State α) : Prop where
  once : s'.registry.Once
  gone : ∀ handle, e = .doUnRegister handle → (s.registry.doUnRegister handle).1 = true →
    ∀ x, s.registry.Holds (s.registry.local_addr handle) x → ∀ i, ¬ s'.registry.Holds i x

/-- A registration finds a free slot. -/
def Room (s : State α) (e : Event α) : Prop :=
  (∃ obj, e = .doRegister obj) → none ∈ s.registry.m_actors

/-- The invariant of the runs in which no registration finds the table full. -/
structure OnceInv (s : State α) : Prop where
  shape : Shape s.registry
  once : s.registry.Once

/-- A call that finds a free slot, if it registers. -/
theorem once_step {e : Event α} (h : OnceInv s) (hroom : Room s e) (hs : step s e = some s') :
    StepOnce s e s' ∧ OnceInv s' := by
  cases e with
  | doRegister obj =>
    obtain ⟨hnew, handle, r', hreg, hs'⟩ := step_register hs
    have hfree : s.registry.findHandle ≠ none := by
      rw [Ne, findHandle_none_iff h.shape, not_not]
      exact hroom ⟨obj, rfl⟩
    obtain ⟨found, hfound⟩ := Option.ne_none_iff_exists'.mp hfree
    rw [show maxRounds = 23 + 1 from rfl, doRegister_some hfound, Option.some.injEq,
      Prod.mk.injEq] at hreg
    obtain ⟨rfl, rfl⟩ := hreg
    have honce : s'.registry.Once := by
      rw [hs']
      exact once_registered h.shape h.once hnew
    have hshape : Shape s'.registry := by
      rw [hs']
      exact shape_registered h.shape
    exact ⟨⟨honce, fun _ he => by cases he⟩, hshape, honce⟩
  | doUnRegister handle =>
    obtain rfl := Option.some.inj hs
    have honce := once_doUnRegister h.shape h.once handle
    refine ⟨⟨honce, fun handle' he hret x hx i => ?_⟩, (doUnRegister_spec h.shape handle).1, honce⟩
    obtain rfl : handle = handle' := by simpa using he
    exact unregistered h.shape h.once hret hx i

/-- A registration that finds the table full. -/
theorem not_once_step {e : Event α} (h : OnceInv s) (hroom : ¬ Room s e)
    (hs : step s e = some s') : ¬ StepOnce s e s' := by
  intro hstep
  rw [Room, Classical.not_imp] at hroom
  obtain ⟨⟨obj, rfl⟩, hfull⟩ := hroom
  obtain ⟨-, handle, r', hreg, hs'⟩ := step_register hs
  obtain ⟨r₁, hshape, htwice, hf, rfl⟩ :=
    twice_of_full h.shape h.once ((findHandle_none_iff h.shape).mpr hfull) hreg
  refine not_once_of_twice (r := s'.registry) ?_ hstep.once
  rw [hs']
  exact twice_registered hshape htwice hf

omit [DecidableEq α] in
/-- In a new registry no actor stands twice.
SOURCE: module/actorSystem.cc:8-10 -/
theorem once_new (handles : α → ℕ) :
    OnceInv { registry := ActorSystem.new handles, live := fun _ => none } := by
  refine ⟨shape_new handles, once_of_own (shape_new handles) fun i x hx => ?_⟩
  rw [holds_iff, slots_new handles i] at hx
  cases hx

/-- **Each actor in one slot.**  In a run of calls on a new registry every call leaves each actor at
the slot of its handle and nowhere else, and no slot with an actor that it has unregistered, exactly
when every registration of the run finds a free slot.
SOURCE: module/actorSystem.cc:35-77 -/
theorem actors_once (α : Type) [DecidableEq α] (handles : α → ℕ) (es : List (Event α)) (s : State α)
    (hrun : (system α).run { registry := ActorSystem.new handles, live := fun _ => none } es =
      some s) :
    (system α).Always StepOnce { registry := ActorSystem.new handles, live := fun _ => none } es ↔
      (system α).Meets Room { registry := ActorSystem.new handles, live := fun _ => none } es :=
  System.always_iff_meets (I := OnceInv) (fun _ _ _ h hroom hs => once_step h hroom hs)
    (fun _ _ _ h hroom hs => not_once_step h hroom hs) (once_new handles) hrun

/-- Four registrations and the end of one. -/
theorem actors_once_four : (system ℕ).Always StepOnce
    { registry := ActorSystem.new fun _ => 0, live := fun _ => none }
    [.doRegister 1, .doRegister 2, .doRegister 3, .doRegister 4, .doUnRegister 4] := by
  refine (actors_once ℕ (fun _ => 0) _ _ rfl).mpr ?_
  have hroom {s : State ℕ} {e : Event ℕ} (h : none ∈ s.registry.m_actors) : Room s e := fun _ => h
  have hun {s : State ℕ} {handle : ℕ} : Room s (.doUnRegister handle) := by
    rintro ⟨obj, he⟩
    cases he
  apply System.meets_cons (hroom (by decide)) rfl
  apply System.meets_cons (hroom (by decide)) rfl
  apply System.meets_cons (hroom (by decide)) rfl
  apply System.meets_cons (hroom (by decide)) rfl
  exact ⟨hun, fun _ _ => trivial⟩

/-- The fifth registration doubles the table, and the actor of handle 4 is left at slot 0. -/
theorem actor_left_behind : ¬ ∀ (es : List (Event ℕ)) (s : State ℕ),
    (system ℕ).run { registry := ActorSystem.new fun _ => 0, live := fun _ => none } es = some s →
      (system ℕ).Always StepOnce { registry := ActorSystem.new fun _ => 0, live := fun _ => none }
        es := by
  intro hall
  have h := hall [.doRegister 1, .doRegister 2, .doRegister 3, .doRegister 4, .doRegister 5] _ rfl
  have hfifth := ((((h _ rfl).2 _ rfl).2 _ rfl).2 _ rfl).2 _ rfl
  exact absurd (hfifth.1.once.one 0 4 4 rfl rfl) (by decide)

end Runs

end MagicNet.Registry
