import MagicNet.Foundation.System

/-!
# Tickets of a counter

A counter that is incremented whenever a ticket is given out and whenever one is redeemed: a ticket
is the value of the counter after it was given out, and it can be redeemed only while the counter
still has that value.  So no ticket is redeemed twice, and a ticket can be redeemed exactly when
it is the last one given out and has not been redeemed (`tickets_exact`).
-/

set_option autoImplicit false

namespace MagicNet.Foundation

/-- The counter and the tickets given out, the last one first. -/
structure Tickets where
  count : ℕ
  issued : List ℕ

inductive TicketEvent where
  | issue
  | redeem (id : ℕ)

/-- The ticket that is redeemed. -/
def TicketEvent.redeemed : TicketEvent → Option ℕ
  | .issue => none
  | .redeem id => some id

namespace Tickets

def step (t : Tickets) : TicketEvent → Option Tickets
  | .issue => some { count := t.count + 1, issued := (t.count + 1) :: t.issued }
  | .redeem id =>
    if id = t.count ∧ id ∈ t.issued then some { t with count := t.count + 1 } else none

def system : System Tickets TicketEvent where
  init t := t.count = 0 ∧ t.issued = []
  step := step

/-- The counter has passed every ticket redeemed and no ticket given out; only the last ticket may
be current, and it is unless it has been redeemed. -/
structure Inv (t : Tickets) (redeemed : List ℕ) : Prop where
  past : ∀ id ∈ redeemed, id < t.count
  nodup : redeemed.Nodup
  le : ∀ id ∈ t.issued, id ≤ t.count
  last : ∀ id, t.issued.head? = some id → id = t.count ∨ id ∈ redeemed
  current : t.count ∈ t.issued → t.issued.head? = some t.count

variable {t t' : Tickets} {redeemed : List ℕ}

/-- A ticket that is issued has a number that no other had. -/
theorem Inv.issue (h : Inv t redeemed) :
    Inv { count := t.count + 1, issued := (t.count + 1) :: t.issued } redeemed where
  past id hid := (h.past id hid).trans (Nat.lt_succ_self _)
  nodup := h.nodup
  le id hid := by
    rcases List.mem_cons.mp hid with rfl | hold
    · exact le_rfl
    · exact (h.le id hold).trans (Nat.le_succ _)
  last id hid := .inl (Option.some.inj hid).symm
  current _ := rfl

/-- A ticket that is redeemed is good no longer. -/
theorem Inv.redeem (h : Inv t redeemed) :
    Inv { t with count := t.count + 1 } (redeemed ++ [t.count]) where
  past id hid := by
    rcases List.mem_append.mp hid with hold | hnew
    · exact (h.past id hold).trans (Nat.lt_succ_self _)
    · rw [List.mem_singleton.mp hnew]
      exact Nat.lt_succ_self _
  nodup := by
    refine List.nodup_append'.mpr ⟨h.nodup, List.nodup_singleton _, ?_⟩
    intro id hold hnew
    rw [List.mem_singleton.mp hnew] at hold
    exact Nat.lt_irrefl _ (h.past _ hold)
  le id hid := (h.le id hid).trans (Nat.le_succ _)
  last id hid := by
    right
    rcases h.last id hid with rfl | hold
    · simp
    · exact List.mem_append_left _ hold
  current hmem := absurd (h.le _ hmem) (Nat.not_succ_le_self _)

/-- Each step keeps the invariant. -/
theorem step_inv {e : TicketEvent} (h : Inv t redeemed) (hs : step t e = some t') :
    Inv t' (redeemed ++ e.redeemed.toList) := by
  cases e with
  | issue =>
    cases hs
    simpa [TicketEvent.redeemed] using h.issue
  | redeem id =>
    simp only [step, Option.ite_none_right_eq_some, Option.some.injEq] at hs
    obtain ⟨⟨rfl, -⟩, rfl⟩ := hs
    exact h.redeem

/-- No number is redeemed twice in a run. -/
theorem run_inv {es : List TicketEvent} (h : Inv t redeemed)
    (hrun : system.run t es = some t') :
    Inv t' (redeemed ++ es.filterMap TicketEvent.redeemed) := by
  induction es generalizing t redeemed with
  | nil =>
    obtain rfl : t = t' := by simpa using hrun
    simpa using h
  | cons e es ih =>
    obtain ⟨u, hu, hrest⟩ := Option.bind_eq_some_iff.mp hrun
    have hcons : (e :: es).filterMap TicketEvent.redeemed =
        e.redeemed.toList ++ es.filterMap TicketEvent.redeemed := by
      cases e <;> rfl
    rw [hcons, ← List.append_assoc]
    exact ih (step_inv h hu) hrest

/-- **Tickets.**  In any run no ticket is redeemed twice, and a ticket given out is current exactly
when it is the last one and has not been redeemed. -/
theorem tickets_exact {es : List TicketEvent} (h0 : system.init t)
    (hrun : system.run t es = some t') :
    (es.filterMap TicketEvent.redeemed).Nodup ∧
      ∀ id ∈ t'.issued, (id = t'.count ↔
        t'.issued.head? = some id ∧ id ∉ es.filterMap TicketEvent.redeemed) := by
  have hstart : Inv t [] := by
    obtain ⟨-, hissued⟩ := h0
    exact ⟨by simp, List.nodup_nil, by simp [hissued], by simp [hissued], by simp [hissued]⟩
  have hI := run_inv hstart hrun
  rw [List.nil_append] at hI
  refine ⟨hI.nodup, fun id hid => ⟨?_, ?_⟩⟩
  · rintro rfl
    exact ⟨hI.current hid, fun hmem => Nat.lt_irrefl _ (hI.past _ hmem)⟩
  · rintro ⟨hhead, hnot⟩
    exact (hI.last id hhead).resolve_right hnot

end Tickets

end MagicNet.Foundation
