import Mathlib.Tactic
import Mathlib.Data.List.Nodup
import Mathlib.Logic.Function.Basic

/-!
# Chains of items linked in both directions

The links are two functions, `prev` and `next`, one for each pointer field of the items.
`Linked prev next p l q` says that they link the items of `l` in the order of the list, with `p`
before the first and `q` after the last.  `linked_append` splits a chain anywhere, and a write to
the link of another item leaves the chain alone, so each operation on chains is a split, a few
writes at the ends of the parts, and a join:

* `Linked.setPrev`, `Linked.setNext`: a new neighbour at one end;
* `Linked.join`, `Linked.cut`: two chains become one, and one becomes two;
* `Linked.walk_next`, `Linked.walk_prev`: a chain is read back from either end.
-/

set_option autoImplicit false

namespace MagicNet.Foundation

variable {A : Type*}

def Linked (prev next : A → Option A) : Option A → List A → Option A → Prop
  | _, [], _ => True
  | p, a :: l, q => prev a = p ∧ next a = l.head?.or q ∧ Linked prev next (some a) l q

instance decidableLinked [DecidableEq A] (prev next : A → Option A) :
    ∀ (p : Option A) (l : List A) (q : Option A), Decidable (Linked prev next p l q)
  | _, [], _ => isTrue trivial
  | p, a :: l, q =>
    have := decidableLinked prev next (some a) l q
    inferInstanceAs (Decidable (prev a = p ∧ next a = l.head?.or q ∧ _))

/-- The items met on the way along the links, at most `n` of them. -/
def walk (link : A → Option A) : Option A → ℕ → List A
  | _, 0 => []
  | none, _ + 1 => []
  | some a, n + 1 => a :: walk link (link a) n

/-- A write to the link of the item `r`, if there is one. -/
def setLink [DecidableEq A] (link : A → Option A) (r v : Option A) : A → Option A :=
  r.elim link fun a => Function.update link a v

variable {prev next prev' next' : A → Option A} {p q r : Option A} {l m : List A} {a : A}

@[simp] theorem setLink_none [DecidableEq A] {v : Option A} : setLink prev none v = prev := rfl

@[simp] theorem setLink_some [DecidableEq A] {v : Option A} :
    setLink prev (some a) v = Function.update prev a v := rfl

/-- The links of other nodes stay. -/
theorem setLink_of_ne [DecidableEq A] {v : Option A} (h : r ≠ some a) :
    setLink prev r v a = prev a := by
  cases r with
  | none => rfl
  | some b => exact Function.update_of_ne (fun heq => h (congrArg some heq.symm)) _ _

/-- Between two ends there need not be any node. -/
@[simp] theorem linked_nil : Linked prev next p [] q := trivial

/-- A node leads back to what is before it and on to what is behind it. -/
theorem linked_cons : Linked prev next p (a :: l) q ↔
    prev a = p ∧ next a = l.head?.or q ∧ Linked prev next (some a) l q := Iff.rfl

/-- A single node leads to both ends. -/
@[simp] theorem linked_singleton : Linked prev next p [a] q ↔ prev a = p ∧ next a = q := by
  simp [linked_cons]

/-- **A chain splits** into two whose ends are each other's neighbours. -/
theorem linked_append : Linked prev next p (l ++ m) q ↔
    Linked prev next p l (m.head?.or q) ∧ Linked prev next (l.getLast?.or p) m q := by
  induction l generalizing p with
  | nil => simp
  | cons a l ih =>
    have hlast : (a :: l).getLast?.or p = l.getLast?.or (some a) := by
      rw [List.getLast?_cons]
      cases l.getLast? <;> rfl
    rw [List.cons_append, linked_cons, linked_cons, ih, hlast, List.head?_append, Option.or_assoc]
    tauto

namespace Linked

/-- Only the links of the items matter. -/
theorem congr (h : Linked prev next p l q) (hprev : ∀ a ∈ l, prev' a = prev a)
    (hnext : ∀ a ∈ l, next' a = next a) : Linked prev' next' p l q := by
  induction l generalizing p with
  | nil => trivial
  | cons a l ih =>
    obtain ⟨hp, hn, hrest⟩ := h
    refine ⟨?_, ?_, ?_⟩
    · rw [hprev a List.mem_cons_self]
      exact hp
    · rw [hnext a List.mem_cons_self]
      exact hn
    · exact ih hrest (fun b hb => hprev b (List.mem_cons_of_mem a hb))
        fun b hb => hnext b (List.mem_cons_of_mem a hb)

/-- Read in the other direction, the chain is the reversed list. -/
theorem reverse (h : Linked prev next p l q) : Linked next prev q l.reverse p := by
  induction l generalizing p with
  | nil => trivial
  | cons a l ih =>
    obtain ⟨hp, hn, hrest⟩ := h
    rw [List.reverse_cons, linked_append]
    constructor
    · simpa using ih hrest
    · rw [linked_singleton, List.getLast?_reverse]
      exact ⟨hn, hp⟩

/-! ## Reading a chain back -/

/-- Walking forward from the first node gives the nodes. -/
theorem walk_next (h : Linked prev next p l q) : walk next (l.head?.or q) l.length = l := by
  induction l generalizing p with
  | nil => rfl
  | cons a l ih =>
    obtain ⟨-, hn, hrest⟩ := h
    rw [List.head?_cons, Option.some_or, List.length_cons, walk, hn, ih hrest]

/-- Walking back from the last node gives them backward. -/
theorem walk_prev (h : Linked prev next p l q) :
    (walk prev (l.getLast?.or p) l.length).reverse = l := by
  have hback := h.reverse.walk_next
  rw [List.head?_reverse, List.length_reverse] at hback
  rw [hback, List.reverse_reverse]

/-! ## Writing links -/

variable [DecidableEq A] {v : Option A}

/-- A write to the link of an item outside the chain. -/
theorem frame_prev (h : Linked prev next p l q) (hout : ∀ a, r = some a → a ∉ l) :
    Linked (setLink prev r v) next p l q :=
  h.congr (fun b hb => setLink_of_ne fun heq => hout b heq hb) fun _ _ => rfl

/-- A link of a node outside may be set. -/
theorem frame_next (h : Linked prev next p l q) (hout : ∀ a, r = some a → a ∉ l) :
    Linked prev (setLink next r v) p l q :=
  h.congr (fun _ _ => rfl) fun b hb => setLink_of_ne fun heq => hout b heq hb

/-- A new neighbour before the first item. -/
theorem setPrev (h : Linked prev next p l q) (hnodup : l.Nodup) (p' : Option A) :
    Linked (setLink prev l.head? p') next p' l q := by
  cases l with
  | nil => trivial
  | cons a l =>
    obtain ⟨-, hn, hrest⟩ := h
    refine ⟨Function.update_self _ _ _, hn, hrest.frame_prev ?_⟩
    intro b hb
    cases hb
    exact (List.nodup_cons.mp hnodup).1

/-- A new neighbour after the last item. -/
theorem setNext (h : Linked prev next p l q) (hnodup : l.Nodup) (q' : Option A) :
    Linked prev (setLink next l.getLast? q') p l q' := by
  have hback := h.reverse.setPrev (List.nodup_reverse.mpr hnodup) q'
  rw [List.head?_reverse] at hback
  have hforth := hback.reverse
  rwa [List.reverse_reverse] at hforth

/-- **Two chains become one** when the last item of the first and the first item of the second
are made each other's neighbours. -/
theorem join {p' q' : Option A} (hl : Linked prev next p l q') (hm : Linked prev next p' m q)
    (hnodup : (l ++ m).Nodup) :
    Linked (setLink prev m.head? (l.getLast?.or p)) (setLink next l.getLast? (m.head?.or q)) p
      (l ++ m) q := by
  obtain ⟨hnl, hnm, hdisj⟩ := List.nodup_append'.mp hnodup
  refine linked_append.mpr ⟨(hl.setNext hnl _).frame_prev ?_, (hm.setPrev hnm _).frame_next ?_⟩
  · intro a ha hmem
    exact hdisj hmem (List.mem_of_head? ha)
  · intro a ha hmem
    exact hdisj (List.mem_of_getLast? ha) hmem

/-- **A chain that is cut** between two items is two chains. -/
theorem cut (h : Linked prev next p (l ++ m) q) (hnodup : (l ++ m).Nodup) (p' q' : Option A) :
    Linked (setLink prev m.head? p') (setLink next l.getLast? q') p l q' ∧
      Linked (setLink prev m.head? p') (setLink next l.getLast? q') p' m q := by
  obtain ⟨hnl, hnm, hdisj⟩ := List.nodup_append'.mp hnodup
  obtain ⟨hl, hm⟩ := linked_append.mp h
  refine ⟨(hl.setNext hnl _).frame_prev ?_, (hm.setPrev hnm _).frame_next ?_⟩
  · intro a ha hmem
    exact hdisj hmem (List.mem_of_head? ha)
  · intro a ha hmem
    exact hdisj (List.mem_of_getLast? ha) hmem

end Linked

end MagicNet.Foundation
