import MagicNet.Analysis.RegistryResize

/-!
# What `clear` leaves in the registry

`clear` takes the handle of the actor at each slot and unregisters it; `doUnRegister` looks at the slot
of the handle, which is another one for a copy that a resize has left behind.  So the actors that stand
at their own slots go, but for one of handle 0, and the copies stay: the registry still refers to
their actors, though no handle leads to them any more.

SOURCE: module/actorSystem.cc:66-77, 98-112
-/

set_option autoImplicit false

namespace MagicNet.Registry

open MagicNet.Foundation

variable {α : Type} {r r' : ActorSystem α}

/-- The actor stands at the slot of its handle, which is not 0. -/
def ActorSystem.Home (r : ActorSystem α) (i : ℕ) (x : α) : Prop :=
  r.Holds i x ∧ r.m_handle x ≠ 0 ∧ i = r.local_addr (r.m_handle x)

/-- What `n` rounds of `clear` have done to a table: actors have been removed from their own slots only,
and from the first `n` slots all of these. -/
structure Cleared (r r' : ActorSystem α) (n : ℕ) : Prop where
  shape : Shape r'
  handle : r'.m_handle = r.m_handle
  cap : r'.m_actorCap = r.m_actorCap
  kept : ∀ i x, r'.Holds i x → r.Holds i x
  removed : ∀ i x, r.Holds i x → ¬ r'.Holds i x → r.Home i x
  gone : ∀ i < n, ∀ x, r.Home i x → ¬ r'.Holds i x

/-- The actor of the handle is removed from its slot, if it is there, and nothing else changes.
SOURCE: module/actorSystem.cc:66-77, module/actorSystem.h:62-64 -/
theorem doUnRegister_cases (h : Shape r) (handle : ℕ) :
    (∃ x, r.Holds (r.local_addr handle) x ∧ r.m_handle x = handle ∧
      slots (r.doUnRegister handle).2 =
        Function.update (slots r) (r.local_addr handle) none) ∨
      (∀ x, r.Holds (r.local_addr handle) x → r.m_handle x ≠ handle) ∧
        (r.doUnRegister handle).2 = r := by
  unfold ActorSystem.doUnRegister
  split
  · next x hx =>
    split
    · next hk => exact .inl ⟨x, hx, hk, slots_set (h.local_addr_lt handle) none⟩
    · next hk =>
      refine .inr ⟨fun y hy => ?_, rfl⟩
      obtain rfl : x = y := by simpa [ActorSystem.Holds, hx] using hy
      exact hk
  · next hx => exact .inr ⟨fun y hy => absurd hy (hx y), rfl⟩

/-- Removing an actor keeps the size of the table.
SOURCE: module/actorSystem.cc:66-77 -/
@[simp] theorem doUnRegister_cap (r : ActorSystem α) (handle : ℕ) :
    (r.doUnRegister handle).2.m_actorCap = r.m_actorCap := by
  unfold ActorSystem.doUnRegister
  split
  · split <;> rfl
  · rfl

/-- Unregistering the actor of some slot.
SOURCE: module/actorSystem.cc:66-77 -/
theorem Cleared.doUnRegister {n i : ℕ} {x : α} (h : Cleared r r' n) (hx : r'.Holds i x)
    (hne : r.m_handle x ≠ 0) :
    Cleared r (r'.doUnRegister (r'.m_handle x)).2 n ∧
      (r.Home i x → ¬ (r'.doUnRegister (r'.m_handle x)).2.Holds i x) := by
  have haddr : ∀ handle, r'.local_addr handle = r.local_addr handle := by
    intro handle
    rw [ActorSystem.local_addr, ActorSystem.local_addr, h.cap]
  have hshape := (doUnRegister_spec h.shape (r'.m_handle x)).1
  rcases doUnRegister_cases h.shape (r'.m_handle x) with ⟨y, hy, hhandle, hslots⟩ | ⟨hno, heq⟩
  · -- the actor `y` of the handle is at its own slot
    have hholds : ∀ j z, (r'.doUnRegister (r'.m_handle x)).2.Holds j z →
        j ≠ r'.local_addr (r'.m_handle x) ∧ r'.Holds j z := by
      intro j z hz
      rw [holds_iff, hslots] at hz
      by_cases hj : j = r'.local_addr (r'.m_handle x)
      · rw [hj, Function.update_self] at hz
        cases hz
      · rw [Function.update_of_ne hj] at hz
        exact ⟨hj, holds_iff.mpr hz⟩
    refine ⟨⟨hshape, ?_, ?_, ?_, ?_, ?_⟩, ?_⟩
    · rw [doUnRegister_handle, h.handle]
    · rw [doUnRegister_cap, h.cap]
    · exact fun j z hz => h.kept j z (hholds j z hz).2
    · intro j z hz hgone
      by_cases hold : r'.Holds j z
      · -- it has gone now: it is `y`
        have hj : j = r'.local_addr (r'.m_handle x) := by
          by_contra hj
          refine hgone (holds_iff.mpr ?_)
          rw [hslots, Function.update_of_ne hj]
          exact holds_iff.mp hold
        subst hj
        obtain rfl : y = z := by
          have hboth := (holds_iff.mp hy).symm.trans (holds_iff.mp hold)
          exact Option.some.inj hboth
        rw [h.handle] at hhandle
        refine ⟨hz, ?_, ?_⟩
        · rw [hhandle]
          exact hne
        · rw [hhandle, haddr, h.handle]
      · exact h.removed j z hz hold
    · exact fun j hj z hz hold => h.gone j hj z hz (hholds j z hold).2
    · intro hhome hstill
      refine (hholds i x hstill).1 ?_
      rw [haddr, h.handle]
      exact hhome.2.2
  · rw [heq]
    refine ⟨h, fun hhome => absurd rfl (hno x ?_)⟩
    rw [haddr, h.handle, ← hhome.2.2]
    exact hx

/-- **One round** of the loop. -/
theorem clearSlot_cleared {n : ℕ} (h : Cleared r r' n) : Cleared r (r'.clearSlot n) (n + 1) := by
  have hsucc : ∀ {t : ActorSystem α}, Cleared r t n → (∀ x, r.Home n x → ¬ t.Holds n x) →
      Cleared r t (n + 1) := by
    intro t ht hn
    refine ⟨ht.shape, ht.handle, ht.cap, ht.kept, ht.removed, fun i hi x hx => ?_⟩
    rcases Nat.lt_succ_iff_lt_or_eq.mp hi with hlt | rfl
    · exact ht.gone i hlt x hx
    · exact hn x hx
  unfold ActorSystem.clearSlot
  split
  · next x hx =>
    have hhome : ∀ y, r.Home n y → y = x := by
      intro y hy
      have hsame := (h.kept n x hx).symm.trans hy.1
      exact (Option.some.inj (Option.some.inj hsame)).symm
    split
    · next hzero =>
      refine hsucc h fun y hy => ?_
      obtain rfl := hhome y hy
      rw [h.handle] at hzero
      exact absurd hzero hy.2.1
    · next hne =>
      rw [h.handle] at hne
      obtain ⟨hcleared, hself⟩ := h.doUnRegister (i := n) hx hne
      refine hsucc hcleared fun y hy => ?_
      obtain rfl := hhome y hy
      exact hself hy
  · next hnone => exact hsucc h fun y _ hy => hnone y hy

/-- What the whole loop of `clear` has done.
SOURCE: module/actorSystem.cc:98-112 -/
theorem clear_cleared (h : Shape r) : Cleared r r.clear r.m_actorCap := by
  unfold ActorSystem.clear
  generalize r.m_actorCap = n
  induction n with
  | zero =>
    refine ⟨h, rfl, rfl, fun _ _ hx => hx, fun i x hx hgone => absurd hx hgone, ?_⟩
    exact fun i hi => absurd hi (Nat.not_lt_zero i)
  | succ n ih =>
    rw [List.range_succ, List.foldl_append]
    exact clearSlot_cleared ih

/-- A slot holds an actor after `clear` when it held it before and is not the actor's own, or the
actor's handle is 0. -/
theorem clear_holds_iff (h : Shape r) (i : ℕ) (x : α) : r.clear.Holds i x ↔
    r.Holds i x ∧ (r.m_handle x = 0 ∨ i ≠ r.local_addr (r.m_handle x)) := by
  have hcleared := clear_cleared h
  constructor
  · intro hx
    have hold := hcleared.kept i x hx
    refine ⟨hold, or_iff_not_imp_left.mpr fun hne hi => ?_⟩
    have hlt : i < r.m_actorCap := by
      rw [hi, ← h.length]
      exact h.local_addr_lt _
    exact hcleared.gone i hlt x ⟨hold, hne, hi⟩ hx
  · rintro ⟨hx, haway⟩
    by_contra hgone
    obtain ⟨-, hne, hi⟩ := hcleared.removed i x hx hgone
    exact haway.elim hne fun hnot => hnot hi

/-- **What `clear` leaves.**  In every state that calls of `doRegister` and `doUnRegister` lead to,
`clear` leaves a slot's actor exactly when the slot is not that of its handle, as for a copy that a
resize left, or its handle is 0; after it no handle but 0 leads to an actor; and the table is empty
exactly when each actor stood at its own slot and none had the handle 0.
SOURCE: module/actorSystem.cc:98-112 -/
theorem clear_leaves (α : Type) [DecidableEq α] (s : State α) (h : (system α).Reachable s) :
    (∀ i x, s.registry.clear.Holds i x ↔ s.registry.Holds i x ∧
        (s.registry.m_handle x = 0 ∨ i ≠ s.registry.local_addr (s.registry.m_handle x))) ∧
      (∀ handle, handle ≠ 0 → s.registry.clear.getGrab handle = none) ∧
        ((∀ i x, ¬ s.registry.clear.Holds i x) ↔ ∀ i x, s.registry.Holds i x →
          s.registry.m_handle x ≠ 0 ∧ i = s.registry.local_addr (s.registry.m_handle x)) := by
  have hshape := (kept_of_reachable h).shape
  have hholds := clear_holds_iff hshape
  have hcleared := clear_cleared hshape
  refine ⟨hholds, fun handle hne => ?_, ?_⟩
  · unfold ActorSystem.getGrab
    split
    · next x hx =>
      rw [if_neg]
      intro hhandle
      rw [hcleared.handle] at hhandle
      obtain ⟨-, hzero | haway⟩ := (hholds _ x).mp hx
      · exact hne (hhandle ▸ hzero)
      · refine haway ?_
        rw [hhandle, ActorSystem.local_addr, hcleared.cap]
        rfl
    · rfl
  · constructor
    · intro hempty i x hx
      by_contra haway
      exact hempty i x ((hholds i x).mpr ⟨hx, by tauto⟩)
    · intro hown i x hx
      obtain ⟨hold, haway⟩ := (hholds i x).mp hx
      obtain ⟨hne, hi⟩ := hown i x hold
      exact haway.elim hne fun hnot => hnot hi

/-- After five registrations the actor of handle 4 stands at slot 4, and a copy of it at slot 0. -/
theorem clear_leaves_copy : ∃ s, (system ℕ).run
      { registry := ActorSystem.new fun _ => 0, live := fun _ => none }
      [.doRegister 1, .doRegister 2, .doRegister 3, .doRegister 4, .doRegister 5] = some s ∧
    s.registry.clear.Holds 0 4 ∧ s.registry.clear.getGrab 4 = none := by
  have hrun : ((system ℕ).run { registry := ActorSystem.new fun _ => 0, live := fun _ => none }
      [.doRegister 1, .doRegister 2, .doRegister 3, .doRegister 4, .doRegister 5]).any
        (fun s => s.registry.m_actors[0]? == some (some 4) &&
          s.registry.local_addr (s.registry.m_handle 4) == 4) = true := by
    decide +kernel
  obtain ⟨s, hs, htest⟩ := (Option.any_eq_true _ _).mp hrun
  rw [Bool.and_eq_true, beq_iff_eq, beq_iff_eq] at htest
  have hreach := System.reachable_of_run (A := system ℕ) ⟨fun _ => 0, rfl⟩ hs
  obtain ⟨hholds, hgrab, -⟩ := clear_leaves ℕ s hreach
  exact ⟨s, hs, (hholds 0 4).mpr ⟨htest.1, .inr (by rw [htest.2]; decide)⟩, hgrab 4 (by decide)⟩

end MagicNet.Registry
