import Mathlib.Algebra.BigOperators.Group.Finset.Basic
import Mathlib.Algebra.Order.Group.Multiset
import Mathlib.Data.List.Nodup
import Mathlib.Logic.Function.Basic
import Mathlib.Tactic

/-!
# Tables of lists in which nothing stands twice

Where items are kept in several lists (queues, batches on their way from one queue to another),
a table gives the list at each place.  The table is `Exclusive` when no item stands twice in it,
neither in one list nor in two.  Every operation on such lists is one of three: items that stand
nowhere are put at a place (`put`, `puts`), an item is taken out (`take`), or a part of one list
goes to the end of another (`move`).  Each keeps the table exclusive and has a membership lemma
that says where everything stands afterwards; and a move keeps the `tally` of any places that
contain the two.
-/

set_option autoImplicit false

namespace MagicNet.Foundation

variable {P A : Type*}

/-- The item stands somewhere in the table. -/
def Stored (t : P → List A) (a : A) : Prop := ∃ p, a ∈ t p

/-- No item stands twice in the table. -/
structure Exclusive (t : P → List A) : Prop where
  nodup : ∀ p, (t p).Nodup
  unique : ∀ {a p p'}, a ∈ t p → a ∈ t p' → p = p'

/-- The list at `p` becomes `rest`, and what was moved goes to the end of the list at `p'`. -/
def moveTable [DecidableEq P] (t : P → List A) (p p' : P) (moved rest : List A) : P → List A :=
  Function.update (Function.update t p rest) p' (t p' ++ moved)

section Move

variable [DecidableEq P] {t : P → List A} {p p' q : P} {moved rest : List A}

/-- The place that is moved to gets the part at its end. -/
theorem moveTable_target : moveTable t p p' moved rest p' = t p' ++ moved :=
  Function.update_self _ _ _

/-- The place that is moved from keeps the rest. -/
theorem moveTable_source (h : p ≠ p') : moveTable t p p' moved rest p = rest := by
  rw [moveTable, Function.update_of_ne h, Function.update_self]

/-- Other places are as they were. -/
theorem moveTable_of_ne (h : q ≠ p) (h' : q ≠ p') : moveTable t p p' moved rest q = t q := by
  rw [moveTable, Function.update_of_ne h', Function.update_of_ne h]

end Move

/-- Nothing is in two places where there is nothing. -/
theorem exclusive_of_empty {t : P → List A} (h : ∀ p, t p = []) : Exclusive t := by
  constructor
  · intro p
    rw [h p]
    exact List.nodup_nil
  · intro a p p' hp
    rw [h p] at hp
    exact absurd hp List.not_mem_nil

namespace Exclusive

variable [DecidableEq P] {t : P → List A} {a b : A} {p p' q : P} {moved rest : List A}

/-! ## Items are put at a place -/

/-- What is in a place after several things have been put somewhere. -/
theorem mem_puts {as : List A} :
    b ∈ Function.update t p (t p ++ as) q ↔ b ∈ t q ∨ q = p ∧ b ∈ as := by
  by_cases hq : q = p
  · subst hq
    simp
  · simp [hq]

/-- What is stored after that. -/
theorem stored_puts {as : List A} :
    Stored (Function.update t p (t p ++ as)) b ↔ Stored t b ∨ b ∈ as := by
  constructor
  · rintro ⟨q, hq⟩
    rcases mem_puts.mp hq with hold | ⟨-, has⟩
    · exact .inl ⟨q, hold⟩
    · exact .inr has
  · rintro (⟨q, hq⟩ | has)
    · exact ⟨q, mem_puts.mpr (.inl hq)⟩
    · exact ⟨p, mem_puts.mpr (.inr ⟨rfl, has⟩)⟩

/-- New and different things that are put into a place are in no other. -/
theorem puts (h : Exclusive t) {as : List A} (has : as.Nodup) (hnew : ∀ a ∈ as, ¬ Stored t a) :
    Exclusive (Function.update t p (t p ++ as)) := by
  constructor
  · intro q
    by_cases hq : q = p
    · subst hq
      rw [Function.update_self]
      exact List.nodup_append'.mpr ⟨h.nodup q, has, fun b hb hmem => hnew b hmem ⟨q, hb⟩⟩
    · rw [Function.update_of_ne hq]
      exact h.nodup q
  · intro b q q' hq hq'
    rcases mem_puts.mp hq with hold | ⟨rfl, hb⟩ <;> rcases mem_puts.mp hq' with hold' | ⟨rfl, hb'⟩
    · exact h.unique hold hold'
    · exact absurd ⟨q, hold⟩ (hnew b hb')
    · exact absurd ⟨q', hold'⟩ (hnew b hb)
    · rfl

/-- What is in a place after one thing has been put somewhere. -/
theorem mem_put : b ∈ Function.update t p (t p ++ [a]) q ↔ b ∈ t q ∨ q = p ∧ b = a := by
  rw [mem_puts, List.mem_singleton]

/-- What is stored after that. -/
theorem stored_put : Stored (Function.update t p (t p ++ [a])) b ↔ Stored t b ∨ b = a := by
  rw [stored_puts, List.mem_singleton]

/-- A new thing that is put into a place is in no other. -/
theorem put (h : Exclusive t) (ha : ¬ Stored t a) :
    Exclusive (Function.update t p (t p ++ [a])) := by
  refine h.puts (List.nodup_singleton a) fun b hb => ?_
  rw [List.mem_singleton.mp hb]
  exact ha

/-! ## An item is taken out -/

/-- A thing that is taken is nowhere any more; the others are where they were. -/
theorem mem_take (h : Exclusive t) (hperm : (t p).Perm (a :: rest)) :
    b ∈ Function.update t p rest q ↔ b ∈ t q ∧ b ≠ a := by
  have hnodup := hperm.nodup_iff.mp (h.nodup p)
  by_cases hq : q = p
  · subst hq
    rw [Function.update_self, hperm.mem_iff, List.mem_cons]
    constructor
    · intro hb
      exact ⟨.inr hb, fun heq => (List.nodup_cons.mp hnodup).1 (heq ▸ hb)⟩
    · rintro ⟨rfl | hb, hne⟩
      · exact absurd rfl hne
      · exact hb
  · rw [Function.update_of_ne hq]
    constructor
    · intro hb
      refine ⟨hb, ?_⟩
      rintro rfl
      exact hq (h.unique hb (hperm.mem_iff.mpr List.mem_cons_self))
    · exact And.left

/-- Taking a thing leaves the others in one place each. -/
theorem take (h : Exclusive t) (hperm : (t p).Perm (a :: rest)) :
    Exclusive (Function.update t p rest) := by
  constructor
  · intro q
    by_cases hq : q = p
    · subst hq
      rw [Function.update_self]
      exact (List.nodup_cons.mp (hperm.nodup_iff.mp (h.nodup q))).2
    · rw [Function.update_of_ne hq]
      exact h.nodup q
  · intro b q q' hq hq'
    exact h.unique ((h.mem_take hperm).mp hq).1 ((h.mem_take hperm).mp hq').1

/-- What has been taken out stands nowhere, and all else stands somewhere still. -/
theorem stored_take (h : Exclusive t) (hperm : (t p).Perm (a :: rest)) :
    Stored (Function.update t p rest) b ↔ Stored t b ∧ b ≠ a := by
  constructor
  · rintro ⟨q, hq⟩
    obtain ⟨hold, hne⟩ := (h.mem_take hperm).mp hq
    exact ⟨⟨q, hold⟩, hne⟩
  · rintro ⟨⟨q, hq⟩, hne⟩
    exact ⟨q, (h.mem_take hperm).mpr ⟨hq, hne⟩⟩

/-! ## A part of a list goes to another one -/

/-- After a move the moved things are in the place that they went to, the others where they were. -/
theorem mem_move (h : Exclusive t) (hne : p ≠ p') (hperm : (t p).Perm (moved ++ rest)) :
    b ∈ moveTable t p p' moved rest q ↔ b ∈ moved ∧ q = p' ∨ b ∉ moved ∧ b ∈ t q := by
  have hdisj := List.disjoint_of_nodup_append (hperm.nodup_iff.mp (h.nodup p))
  have hmoved : ∀ {b}, b ∈ moved → b ∈ t p := fun hb =>
    hperm.mem_iff.mpr (List.mem_append_left _ hb)
  by_cases hq' : q = p'
  · subst hq'
    rw [moveTable_target, List.mem_append]
    constructor
    · rintro (hb | hb)
      · exact .inr ⟨fun hmem => hne (h.unique (hmoved hmem) hb), hb⟩
      · exact .inl ⟨hb, rfl⟩
    · rintro (⟨hb, -⟩ | ⟨-, hb⟩)
      · exact .inr hb
      · exact .inl hb
  · by_cases hq : q = p
    · subst hq
      rw [moveTable_source hne, hperm.mem_iff, List.mem_append]
      constructor
      · intro hb
        exact .inr ⟨fun hmem => hdisj hmem hb, .inr hb⟩
      · rintro (⟨-, heq⟩ | ⟨hnot, hb⟩)
        · exact absurd heq hq'
        · exact hb.resolve_left hnot
    · rw [moveTable_of_ne hq hq']
      constructor
      · intro hb
        exact .inr ⟨fun hmem => hq (h.unique hb (hmoved hmem)), hb⟩
      · rintro (⟨-, heq⟩ | ⟨-, hb⟩)
        · exact absurd heq hq'
        · exact hb

/-- A move leaves each thing in one place. -/
theorem move (h : Exclusive t) (hne : p ≠ p') (hperm : (t p).Perm (moved ++ rest)) :
    Exclusive (moveTable t p p' moved rest) := by
  have hnodup := hperm.nodup_iff.mp (h.nodup p)
  constructor
  · intro q
    by_cases hq' : q = p'
    · subst hq'
      rw [moveTable_target]
      refine List.nodup_append'.mpr ⟨h.nodup q, (List.nodup_append'.mp hnodup).1, ?_⟩
      intro b hb hmem
      exact hne (h.unique (hperm.mem_iff.mpr (List.mem_append_left _ hmem)) hb)
    · by_cases hq : q = p
      · subst hq
        rw [moveTable_source hne]
        exact (List.nodup_append'.mp hnodup).2.1
      · rw [moveTable_of_ne hq hq']
        exact h.nodup q
  · intro b q q' hq hq'
    rcases (h.mem_move hne hperm).mp hq with ⟨hb, rfl⟩ | ⟨hb, hold⟩ <;>
      rcases (h.mem_move hne hperm).mp hq' with ⟨hb', rfl⟩ | ⟨hb', hold'⟩
    · rfl
    · exact absurd hb hb'
    · exact absurd hb' hb
    · exact h.unique hold hold'

/-- Moving neither loses nor adds anything. -/
theorem stored_move (h : Exclusive t) (hne : p ≠ p') (hperm : (t p).Perm (moved ++ rest)) :
    Stored (moveTable t p p' moved rest) b ↔ Stored t b := by
  constructor
  · rintro ⟨q, hq⟩
    rcases (h.mem_move hne hperm).mp hq with ⟨hb, -⟩ | ⟨-, hb⟩
    · exact ⟨p, hperm.mem_iff.mpr (List.mem_append_left _ hb)⟩
    · exact ⟨q, hb⟩
  · rintro ⟨q, hq⟩
    by_cases hb : b ∈ moved
    · exact ⟨p', (h.mem_move hne hperm).mpr (.inl ⟨hb, rfl⟩)⟩
    · exact ⟨q, (h.mem_move hne hperm).mpr (.inr ⟨hb, hq⟩)⟩

end Exclusive

/-! ## What stands at some of the places -/

/-- The items at the places `ps`, each as often as it stands there. -/
def tally (ps : Finset P) (t : P → List A) : Multiset A := ∑ p ∈ ps, (t p : Multiset A)

/-- **A move between two of the places** changes nothing in their tally. -/
theorem tally_move [DecidableEq P] {ps : Finset P} {t : P → List A} {p p' : P}
    {moved rest : List A} (hp : p ∈ ps) (hp' : p' ∈ ps) (hne : p ≠ p')
    (hperm : (t p).Perm (moved ++ rest)) :
    tally ps (moveTable t p p' moved rest) = tally ps t := by
  have hmem : p' ∈ ps.erase p := Finset.mem_erase.mpr ⟨hne.symm, hp'⟩
  have hothers : ∑ q ∈ (ps.erase p).erase p', (moveTable t p p' moved rest q : Multiset A) =
      ∑ q ∈ (ps.erase p).erase p', (t q : Multiset A) := by
    apply Finset.sum_congr rfl
    intro q hq
    obtain ⟨hq', hq⟩ := Finset.mem_erase.mp hq
    rw [moveTable_of_ne (Finset.mem_erase.mp hq).1 hq']
  have hboth : (rest : Multiset A) + (t p' ++ moved : List A) = (t p : Multiset A) + t p' := by
    rw [Multiset.coe_add, Multiset.coe_add, Multiset.coe_eq_coe]
    have hswap : (rest ++ (t p' ++ moved)).Perm (moved ++ rest ++ t p') := by
      rw [List.append_assoc]
      refine List.perm_append_comm.trans ?_
      rw [List.append_assoc]
      refine List.perm_append_comm.trans ?_
      rw [List.append_assoc]
    exact hswap.trans (hperm.symm.append_right _)
  unfold tally
  rw [← Finset.add_sum_erase ps _ hp, ← Finset.add_sum_erase (ps.erase p) _ hmem, hothers,
    ← Finset.add_sum_erase ps (fun q => (t q : Multiset A)) hp,
    ← Finset.add_sum_erase (ps.erase p) (fun q => (t q : Multiset A)) hmem, ← add_assoc,
    ← add_assoc]
  congr 1
  rw [moveTable_target, moveTable_source hne]
  exact hboth

end MagicNet.Foundation
