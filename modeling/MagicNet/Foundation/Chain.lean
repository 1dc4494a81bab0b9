import MagicNet.Foundation.Linked

/-!
# Chains of items linked in one direction

The link is a function, the pointer field of the items.  `Chain next p l` says that the items of `l`
are those reached from `p`, in order, up to a null link.  A write to the link of another item leaves
the chain alone.

* `Chain.head`, `Chain.unique`: the pointer and the memory say what the items are;
* `Chain.snoc`: an item after the last one;
* `Chain.walk`: the items are read back.

Two partial computations run in step when `Option.Rel` relates them; `rel_map` and `rel_self` are the
rules for their parts.
-/

set_option autoImplicit false

namespace MagicNet.Foundation

variable {A : Type*}

def Chain (next : A → Option A) : Option A → List A → Prop
  | p, [] => p = none
  | p, a :: l => p = some a ∧ Chain next (next a) l

variable {next next' : A → Option A} {p v : Option A} {l l' : List A} {a : A}

/-- A chain of nothing begins with no link. -/
@[simp] theorem chain_nil : Chain next p [] ↔ p = none := Iff.rfl

namespace Chain

/-- A chain begins with its first element. -/
theorem head (h : Chain next p l) : p = l.head? := by
  cases l with
  | nil => exact h
  | cons a l => exact h.1

/-- No link leads to no chain. -/
theorem of_none (h : Chain next none l) : l = [] := by
  cases l with
  | nil => rfl
  | cons a l => exact absurd h.1 nofun

/-- A link leads to an element, and on along the link of that. -/
theorem of_some (h : Chain next (some a) l) : ∃ l', l = a :: l' ∧ Chain next (next a) l' := by
  cases l with
  | nil => exact absurd h nofun
  | cons b l' =>
    obtain rfl := Option.some.inj h.1
    exact ⟨l', rfl, h.2⟩

/-- Only the links of the items matter. -/
theorem congr (h : Chain next p l) (hnext : ∀ a ∈ l, next' a = next a) : Chain next' p l := by
  induction l generalizing p with
  | nil => exact h
  | cons a l ih =>
    refine ⟨h.1, ?_⟩
    rw [hnext a List.mem_cons_self]
    exact ih h.2 fun b hb => hnext b (List.mem_cons_of_mem a hb)

/-- The items are what the links say. -/
theorem unique (h : Chain next p l) (h' : Chain next p l') : l = l' := by
  induction l generalizing p l' with
  | nil =>
    obtain rfl : p = none := h
    exact h'.of_none.symm
  | cons a l ih =>
    obtain ⟨rfl, hrest⟩ := h
    obtain ⟨l'', rfl, hrest'⟩ := h'.of_some
    rw [ih hrest hrest']

/-- **The items are read back** by as many steps as there are items, or more. -/
theorem walk (h : Chain next p l) {n : ℕ} (hn : l.length ≤ n) : walk next p n = l := by
  induction l generalizing p n with
  | nil =>
    obtain rfl : p = none := h
    cases n <;> rfl
  | cons a l ih =>
    obtain ⟨rfl, hrest⟩ := h
    cases n with
    | zero => simp at hn
    | succ n =>
      rw [Foundation.walk, ih hrest (by simpa using hn)]

variable [DecidableEq A]

/-- A write to the link of an item outside the chain. -/
theorem frame (h : Chain next p l) (hout : a ∉ l) : Chain (Function.update next a v) p l :=
  h.congr fun _ hb => Function.update_of_ne (ne_of_mem_of_not_mem hb hout) _ _

/-- **An item after the last one**, whose own link is null. -/
theorem snoc (h : Chain next p l) (hnodup : l.Nodup) (hout : a ∉ l) (hnull : next a = none) :
    Chain (setLink next l.getLast? (some a)) (l.head?.or (some a)) (l ++ [a]) := by
  induction l generalizing p with
  | nil => exact ⟨rfl, hnull⟩
  | cons b l ih =>
    obtain ⟨hb, hl⟩ := List.nodup_cons.mp hnodup
    have hout' : a ∉ l := fun ha => hout (List.mem_cons_of_mem b ha)
    refine ⟨rfl, ?_⟩
    cases l with
    | nil =>
      show Chain (Function.update next b (some a)) (Function.update next b (some a) b) [a]
      rw [Function.update_self]
      refine ⟨rfl, ?_⟩
      rw [Function.update_of_ne (ne_of_mem_of_not_mem List.mem_cons_self hout).symm]
      exact hnull
    | cons d l =>
      have hrest := ih h.2 hl hout'
      have hlast : (b :: d :: l).getLast? = (d :: l).getLast? := List.getLast?_cons_cons
      have hsame : setLink next (d :: l).getLast? (some a) b = next b := by
        apply setLink_of_ne
        intro heq
        exact hb (List.mem_of_getLast? heq)
      show Chain _ (setLink next (b :: d :: l).getLast? (some a) b) (d :: l ++ [a])
      rw [hlast, hsame, h.2.1]
      exact hrest

end Chain

/-! ## Computations in step -/

section Rel

variable {α β γ δ : Type*} {R : α → β → Prop} {S : γ → δ → Prop} {o : Option α} {o' : Option β}

/-- Related options stay so under functions that keep the relation. -/
theorem rel_map {f : α → γ} {g : β → δ} (h : Option.Rel R o o')
    (hfg : ∀ x y, R x y → S (f x) (g y)) : Option.Rel S (o.map f) (o'.map g) := by
  cases h with
  | none => exact .none
  | some hxy => exact .some (hfg _ _ hxy)

/-- The same where only one side is mapped. -/
theorem rel_map_right {T : α → δ → Prop} {g : β → δ} (h : Option.Rel R o o')
    (hg : ∀ x y, R x y → T x (g y)) : Option.Rel T o (o'.map g) := by
  cases h with
  | none => exact .none
  | some hxy => exact .some (hg _ _ hxy)

/-- The same computation on both sides. -/
theorem rel_self {f : α → Option γ} {g : α → Option δ} (o : Option α)
    (hfg : ∀ x, Option.Rel S (f x) (g x)) : Option.Rel S (o.bind f) (o.bind g) := by
  cases o with
  | none => exact .none
  | some x => exact hfg x

/-- An option is related by equality to itself. -/
theorem rel_eq {o : Option α} : Option.Rel Eq o o := by
  cases o with
  | none => exact .none
  | some x => exact .some rfl

/-- An option that is related to one with a value has a value. -/
theorem exists_of_rel {x : α} (h : Option.Rel R o o') (hx : o = some x) :
    ∃ y, o' = some y ∧ R x y := by
  cases h with
  | none => exact absurd hx nofun
  | some hxy =>
    obtain rfl := Option.some.inj hx
    exact ⟨_, rfl, hxy⟩

end Rel

end MagicNet.Foundation
