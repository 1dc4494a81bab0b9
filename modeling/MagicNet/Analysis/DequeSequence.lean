import MagicNet.Analysis.TwoWayLists
import MagicNet.Model.Deque

/-!
# When a deque is a sequence

`popBack()` follows a null pointer when it takes the only node, `popBack(n)` takes no node off a
deque of one and one node when none is asked for, and `erase` leaves `m_head` at the node it takes
from the front.  Apart from these, every operation leaves a deque in order, with the contents that
the reference has, so a run goes right for exactly as long as it has none of them.
-/

set_option autoImplicit false

namespace MagicNet.Util.Ends

open MagicNet.Foundation

variable {A : Type} [DecidableEq A] {mem mem' : Memory A} {q q' : Ends A} {l m : List A} {a : A}

/-! ## A node that is taken out -/

/-- What `popUnlock` has taken has no links left.
SOURCE: util/deque.h:101-120 -/
theorem popUnlock_unlinked {v : Option A} (hq : q.Exact mem (a :: l)) (hnodup : (a :: l).Nodup)
    (h : popUnlock mem q = some (mem', q', v)) : Deque.Unlinked mem' a := by
  have hhead : q.m_head = some a := hq.head
  unfold popUnlock at h
  rw [hhead] at h
  simp only at h
  split at h
  · next heq =>
    obtain ⟨rfl, -⟩ := Prod.mk.inj (Option.some.inj h)
    -- the only node had no links before
    rw [← hhead, hq.head, hq.tail, head_eq_getLast hnodup] at heq
    obtain rfl : l = [] := List.length_eq_zero_iff.mp (by simpa using heq)
    exact ⟨first_prev hq.links rfl, last_next hq.links rfl⟩
  · obtain ⟨mem₁, -, h⟩ := Option.bind_eq_some_iff.mp h
    obtain ⟨rfl, -⟩ := Prod.mk.inj (Option.some.inj h)
    exact ⟨Function.update_self _ _ _, Function.update_self _ _ _⟩

/-- Nothing is popped from an empty deque.
SOURCE: util/deque.h:127-139 -/
theorem popBackNodeUnlock_nil (hq : q.Exact mem []) :
    popBackNodeUnlock mem q = some (mem, q, none) := by
  rw [hq.eq_zero]
  rfl

/-- The only node has no node before it to write to.
SOURCE: util/deque.h:127-139, 156-180 -/
theorem popBackNodeUnlock_single (hq : q.Exact mem [a]) : popBackNodeUnlock mem q = none := by
  have htail : q.m_tail = some a := hq.tail
  have hprev : mem._prev a = none := first_prev hq.links rfl
  simp [popBackNodeUnlock, htail, hprev, Memory.setNext]

/-- **`popBackUnlock()`** takes the last of several nodes and unhooks it.
SOURCE: util/deque.h:127-139, 156-180 -/
theorem popBackNodeUnlock_exact {b : A} (hq : q.Exact mem (l ++ [b, a]))
    (hnodup : (l ++ [b, a]).Nodup) :
    ∃ mem' q', popBackNodeUnlock mem q = some (mem', q', some a) ∧ q'.Exact mem' (l ++ [b]) ∧
      Deque.Unlinked mem' a := by
  have htail : q.m_tail = some a := by
    rw [hq.tail]
    simp
  have hprev : mem._prev a = some b := prev_of_links hq.links
  have hsplit : l ++ [b, a] = (l ++ [b]) ++ [a] := by simp
  rw [hsplit] at hq hnodup
  have ha : a ∉ l ++ [b] := fun hmem =>
    List.disjoint_of_nodup_append hnodup hmem (List.mem_singleton_self a)
  have hlinks : Memory.Links (mem.setNextIf (some b) none) (l ++ [b]) := by
    have hfront := (linked_append.mp hq.links).1
    have hnodup' := (List.nodup_append'.mp hnodup).1
    have hcut := Linked.setNext hfront hnodup' none
    rw [List.getLast?_concat] at hcut
    exact hcut
  have hout : ∀ c, some a = some c → c ∉ l ++ [b] := by
    intro c hc
    cases hc
    exact ha
  refine ⟨(mem.setNextIf (some b) none).unhook a, ⟨q.m_head, some b, q.m_count - 1⟩, ?_,
    exact_of ?_ ?_ ?_ ?_, Function.update_self _ _ _, Function.update_self _ _ _⟩
  · simp [popBackNodeUnlock, htail, hprev, Memory.setNextIf]
  · rw [hq.head, List.head?_append_of_ne_nil _ (by simp)]
  · rw [List.getLast?_concat]
  · rw [hq.count, List.length_append, List.length_singleton, Nat.add_sub_cancel]
  · exact (hlinks.frame_prev (v := none) hout).frame_next (v := none) hout

/-- What `eraseUnLock` has taken has no links left; the head is where it was, if any node is left.
SOURCE: util/deque.h:182-204 -/
theorem eraseUnLock_head (h : eraseUnLock mem q a = some (mem', q')) :
    Deque.Unlinked mem' a ∧ q'.m_head = if q'.m_tail = none then none else q.m_head := by
  unfold eraseUnLock at h
  simp only [Option.ite_none_left_eq_some, Option.ite_none_right_eq_some, Option.some.injEq,
    Prod.mk.injEq] at h
  obtain ⟨-, -, rfl, rfl⟩ := h
  exact ⟨⟨Function.update_self _ _ _, Function.update_self _ _ _⟩, rfl⟩

/-- **`eraseUnLock`** on the only node, or on one that is not the first, leaves the deque in order.
SOURCE: util/deque.h:182-204 -/
theorem eraseUnLock_exact (hq : q.Exact mem (l ++ a :: m)) (hnodup : (l ++ a :: m).Nodup)
    (h : l = [] → m = []) :
    ∃ mem' q', eraseUnLock mem q a = some (mem', q') ∧ q'.Exact mem' (l ++ m) ∧
      Deque.Unlinked mem' a := by
  obtain ⟨mem', q', herase, hholds, -⟩ := eraseUnLock_holds hq.toHolds hnodup
  obtain ⟨hunlinked, hhead⟩ := eraseUnLock_head herase
  refine ⟨mem', q', herase, ⟨hholds, ?_⟩, hunlinked⟩
  rw [hhead, hholds.tail]
  cases l with
  | nil =>
    obtain rfl := h rfl
    rfl
  | cons b l => simpa using hq.head

/-- When the first of several nodes is erased, `m_head` stays at it.
SOURCE: util/deque.h:182-204 -/
theorem eraseUnLock_first {b : A} (hq : q.Exact mem (a :: b :: m)) (hnodup : (a :: b :: m).Nodup)
    (h : eraseUnLock mem q a = some (mem', q')) : ¬ q'.Exact mem' (b :: m) := by
  obtain ⟨mem₁, q₁, herase, hholds, -⟩ := eraseUnLock_holds (l := []) hq.toHolds hnodup
  obtain ⟨rfl, rfl⟩ := Prod.mk.inj (Option.some.inj (herase.symm.trans h))
  intro hexact
  have hhead := (eraseUnLock_head h).2
  rw [hholds.tail, hexact.head, hq.head] at hhead
  have hab : b = a := by simpa using hhead
  exact (List.nodup_cons.mp hnodup).1 (hab ▸ List.mem_cons_self)

end MagicNet.Util.Ends

namespace MagicNet.Deque

open MagicNet.Foundation MagicNet.Util

variable {A : Type} [DecidableEq A] {s s' : State A} {e : Event A}

/-- The deque is in order and holds the distinct nodes of the reference. -/
structure Inv (s : State A) : Prop where
  exact : s.q.Exact s.mem s.contents
  nodup : s.contents.Nodup

omit [DecidableEq A] in
/-- A new deque is the empty sequence. -/
theorem inv_of_starts (h : Starts s) : Inv s := by
  constructor
  · rw [h.q, h.contents]
    exact Ends.exact_zero
  · rw [h.contents]
    exact List.nodup_nil

/-- What an operation has to do to be right. -/
structure Right (s : State A) (e : Event A) (mem : Memory A) (q : Ends A) (returned : Returned A) :
    Prop where
  exact : q.Exact mem (e.apply s.contents)
  hands : e.Hands s.contents mem returned

/-- The reference keeps its nodes distinct. -/
theorem apply_nodup (h : s.contents.Nodup) (hallowed : e.Allowed s) :
    (e.apply s.contents).Nodup := by
  cases e with
  | push value =>
    change (s.contents ++ [value]).Nodup
    rw [List.nodup_append_comm, List.singleton_append, List.nodup_cons]
    exact ⟨hallowed, h⟩
  | pushList l m => exact hallowed.2
  | pop => exact h.tail
  | popBack => exact h.sublist (List.dropLast_sublist _)
  | popBackN n => exact h.sublist (List.take_sublist _ _)
  | popBackAll => exact List.nodup_nil
  | erase hook => exact h.erase hook
  | elsewhere mem => exact h

/-- `popBack(n)` takes what the reference takes when it is asked for some of several nodes, or for
none of at most one. -/
theorem rest_of_cond {k n rest : ℕ} (hone : k = 1 → n = 0) (hmore : 2 ≤ k → n ≠ 0)
    (hrest : rest = if k ≤ 1 then k else k - max 1 n) : rest = k - min n k := by
  split at hrest <;> omega

/-- An operation that meets the condition is right. -/
theorem run_right (h : Inv s) (hallowed : e.Allowed s) (hc : Cond s e) :
    ∃ mem q returned, e.run s.mem s.q = some (mem, q, returned) ∧ Right s e mem q returned := by
  have hq := h.exact
  cases e with
  | push value =>
    have hnodup := apply_nodup h.nodup hallowed
    obtain ⟨mem, q, hpush, hholds, hhead, -⟩ := Ends.pushUnlock_holds hq.toHolds hnodup
    exact ⟨mem, q, _, by rw [Event.run, hpush]; rfl, ⟨hholds, hhead hq.head⟩, trivial⟩
  | pushList l m =>
    obtain ⟨mem, q, hpush, hexact, -⟩ := Ends.pushListUnlock_exact hq hallowed.1 hallowed.2
    exact ⟨mem, q, _, by rw [Event.run, hpush]; rfl, hexact, trivial⟩
  | pop =>
    cases hl : s.contents with
    | nil =>
      rw [hl] at hq
      refine ⟨s.mem, s.q, _, by rw [Event.run, Ends.popUnlock_nil hq]; rfl, ?_, ?_⟩
      · simpa [Event.apply, hl] using hq
      · simp [Event.Hands, hl]
    | cons a l =>
      have hnodup := h.nodup
      rw [hl] at hq hnodup
      obtain ⟨mem, q, hpop, hexact, -⟩ := Ends.popUnlock_exact hq hnodup
      have hunlinked := Ends.popUnlock_unlinked hq hnodup hpop
      refine ⟨mem, q, _, by rw [Event.run, hpop]; rfl, ?_, ?_⟩
      · simpa [Event.apply, hl] using hexact
      · simpa [Event.Hands, hl] using hunlinked
  | popBack =>
    have hnodup := h.nodup
    rcases List.eq_nil_or_concat s.contents with hl | ⟨l, a, hl⟩
    · rw [hl] at hq
      refine ⟨s.mem, s.q, _, by rw [Event.run, Ends.popBackNodeUnlock_nil hq]; rfl, ?_, ?_⟩
      · simpa [Event.apply, hl] using hq
      · simp [Event.Hands, hl]
    · rw [List.concat_eq_append] at hl
      rcases List.eq_nil_or_concat l with rfl | ⟨l, b, rfl⟩
      · exact absurd (by rw [hl]; rfl) hc
      · have hsplit : s.contents = l ++ [b, a] := by simp [hl]
        rw [hsplit] at hq hnodup
        obtain ⟨mem, q, hpop, hexact, hunlinked⟩ := Ends.popBackNodeUnlock_exact hq hnodup
        refine ⟨mem, q, _, by rw [Event.run, hpop]; rfl, ?_, ?_⟩
        · simpa [Event.apply, hl] using hexact
        · simpa [Event.Hands, hl] using hunlinked
  | popBackN n =>
    obtain ⟨mem, q, o, rest, hpop, hrest, hexact, ho, -⟩ :=
      Ends.popBackUnlock_exact (n := n) hq h.nodup
    obtain rfl := rest_of_cond hc.1 hc.2 hrest
    exact ⟨mem, q, _, by rw [Event.run, hpop]; rfl, hexact, o, rfl, ho⟩
  | popBackAll =>
    refine ⟨s.mem, _, _, rfl, ?_, ?_⟩
    · rw [Ends.popBackAllUnlock_eq hq]
      exact Ends.exact_zero
    · rw [Ends.popBackAllUnlock_eq hq]
      exact ⟨s.q, rfl, hq⟩
  | erase hook =>
    have hnodup := h.nodup
    obtain ⟨l, m, -, hl, herased⟩ := List.exists_erase_eq hallowed
    have honly : l = [] → m = [] := by
      rintro rfl
      have hlength : s.contents.length = 1 := hc (by rw [hl]; rfl)
      rw [hl] at hlength
      exact List.length_eq_zero_iff.mp (by simpa using hlength)
    rw [hl] at hq hnodup
    obtain ⟨mem, q, herase, hexact, hunlinked⟩ := Ends.eraseUnLock_exact hq hnodup honly
    refine ⟨mem, q, _, by rw [Event.run, herase]; rfl, ?_, hunlinked⟩
    rw [Event.apply, herased]
    exact hexact
  | elsewhere mem =>
    exact ⟨mem, s.q, _, rfl, ⟨hq.toHolds.congr hallowed, hq.head⟩, trivial⟩

/-- An operation that does not meet the condition fails, or is wrong. -/
theorem run_wrong {mem : Memory A} {q : Ends A} {returned : Returned A} (h : Inv s)
    (hallowed : e.Allowed s) (hc : ¬ Cond s e) (hrun : e.run s.mem s.q = some (mem, q, returned)) :
    ¬ Right s e mem q returned := by
  have hq := h.exact
  have hnodup := h.nodup
  cases e with
  | push _ | pushList _ _ | pop | popBackAll | elsewhere _ => exact absurd trivial hc
  | popBack =>
    obtain ⟨a, ha⟩ := List.length_eq_one_iff.mp (not_not.mp hc)
    rw [ha] at hq
    rw [Event.run, Ends.popBackNodeUnlock_single hq] at hrun
    cases hrun
  | popBackN n =>
    obtain ⟨mem', q', o, rest, hpop, hrest, hexact, -⟩ :=
      Ends.popBackUnlock_exact (n := n) hq hnodup
    rw [Event.run, hpop] at hrun
    cases hrun
    intro hright
    have hcount := hexact.count.symm.trans hright.exact.count
    simp only [Event.apply, List.length_take] at hcount
    apply hc
    constructor
    · intro hlength
      rw [hlength] at hrest hcount
      simp at hrest
      omega
    · rintro hlength rfl
      rw [if_neg (by omega)] at hrest
      omega
  | erase hook =>
    obtain ⟨hfirst, hlength⟩ := Classical.not_imp.mp hc
    match hl : s.contents with
    | [] => simp [hl] at hfirst
    | [a] => exact absurd (by rw [hl]; rfl) hlength
    | a :: b :: m =>
      rw [hl] at hq hnodup
      obtain rfl : a = hook := by simpa [hl] using hfirst
      intro hright
      have hexact := hright.exact
      rw [Event.apply, hl, List.erase_cons_head] at hexact
      simp only [Event.run, Option.map_eq_some_iff, Prod.mk.injEq] at hrun
      obtain ⟨⟨mem', q'⟩, herase, rfl, rfl, -⟩ := hrun
      exact Ends.eraseUnLock_first hq hnodup herase hexact

/-! ## Runs -/

/-- A step that meets the condition refines the reference, and the deque stays in order. -/
theorem step_refines (h : Inv s) (hc : Cond s e) (hs : step s e = some s') :
    Refines s e s' ∧ Inv s' := by
  obtain ⟨-, hallowed, hcontents, ⟨hrun, -⟩ | ⟨hrun, halive⟩⟩ := step_eq hs
  · obtain ⟨mem, q, returned, hsome, -⟩ := run_right h hallowed hc
    rw [hrun] at hsome
    cases hsome
  · obtain ⟨mem, q, returned, hsome, hright⟩ := run_right h hallowed hc
    rw [hrun] at hsome
    cases hsome
    have hexact := hright.exact
    rw [← hcontents] at hexact
    refine ⟨⟨halive, hexact, hright.hands⟩, hexact, ?_⟩
    rw [hcontents]
    exact apply_nodup h.nodup hallowed

/-- A step that does not meet it does not refine the reference. -/
theorem step_not_refines (h : Inv s) (hc : ¬ Cond s e) (hs : step s e = some s') :
    ¬ Refines s e s' := by
  rintro ⟨halive, hexact, hhands⟩
  obtain ⟨-, hallowed, hcontents, ⟨-, hfailed⟩ | ⟨hrun, -⟩⟩ := step_eq hs
  · rw [halive] at hfailed
    cases hfailed
  · rw [hcontents] at hexact
    exact run_wrong h hallowed hc hrun ⟨hexact, hhands⟩

/-- **A deque refines a sequence**, in any run of its operations on distinct nodes, exactly when no
`popBack()` of the run finds a single node, no `popBack(n)` finds one node and `n` positive or
several and `n` zero, and no `erase` is of the first of several nodes.
SOURCE: util/deque.h:18-204 -/
theorem deque_refines {s₀ s : State A} {es : List (Event A)} (h0 : Starts s₀)
    (hrun : (system A).run s₀ es = some s) :
    (system A).Always Refines s₀ es ↔ (system A).Meets Cond s₀ es := by
  apply System.always_iff_meets (I := Inv) _ _ (inv_of_starts h0) hrun
  · intro s e s' h hc hs
    exact step_refines h hc hs
  · intro s e s' h hc hs
    exact step_not_refines h hc hs

/-- A deque just constructed, over a memory without links. -/
def start : State ℕ := ⟨⟨fun _ => none, fun _ => none⟩, .zero, [], .nothing, true⟩

/-- A deque that has just been made. -/
theorem start_starts : Starts start := ⟨rfl, rfl, rfl⟩

/-- Three nodes, of which the last and then the middle one are taken, and the first one at the end.
SOURCE: util/deque.h:206-209, 216-219 -/
theorem deque_refines_three : (system ℕ).Always Refines start
    [.push 1, .push 2, .push 3, .popBack, .push 3, .erase 2, .popBackN 2, .push 2, .pop] :=
  (deque_refines start_starts rfl).mpr (by decide)

/-- A deque whose only node is popped from the back.
SOURCE: util/deque.h:206-209, 216-219 -/
theorem popBack_fails : ¬ ∀ (s₀ s : State ℕ) (es : List (Event ℕ)), Starts s₀ →
    (system ℕ).run s₀ es = some s → (system ℕ).Always Refines s₀ es := by
  intro hall
  have halways := hall start _ [.push 1, .popBack] start_starts rfl
  obtain ⟨-, hpop⟩ := halways _ rfl
  obtain ⟨hrefines, -⟩ := hpop _ rfl
  exact absurd hrefines.alive (by decide)

end MagicNet.Deque
