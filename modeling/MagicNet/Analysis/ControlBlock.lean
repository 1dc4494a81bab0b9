import MagicNet.Model.SharedPtr

/-!
# The counters of a control block

Within a call the counters and the variables do not agree all the time, so what is kept is that the
counters are right for numbers of references that are given beside them; taking and giving up a
reference changes the numbers by one.  At the end of each call they are what the variables hold.

SOURCE: util/shared_ptr.h:23-284
-/

set_option autoImplicit false

namespace MagicNet.SharedPtr

open MagicNet.Foundation

variable {A P W : Type} [DecidableEq A]
variable {s s' : State A P W} {made : List A} {r q : RefCount A} {o w : A → ℕ} {x : Option A}
  {a : A} {i j : P} {k l : W}

/-- The references that a variable has. -/
def one (x : Option A) (a : A) : ℕ := if x = some a then 1 else 0

@[simp] theorem one_none (a : A) : one none a = 0 := rfl

/-- A pointer refers to its object once. -/
theorem one_self (a : A) : one (some a) a = 1 := if_pos rfl

/-- And to no other. -/
theorem one_of_ne {b : A} (h : b ≠ a) : one (some a) b = 0 :=
  if_neg fun heq => h (Option.some.inj heq).symm

/-- Writing a variable takes one holder from the old object and gives one to the new. -/
theorem holders_update {V : Type} [Fintype V] [DecidableEq V] (vars : V → Option A) (v : V)
    (x : Option A) (a : A) :
    holders (Function.update vars v x) a + one (vars v) a = holders vars a + one x a := by
  have hsum : ∀ f : V → Option A, holders f a = ∑ u, if f u = some a then 1 else 0 := by
    intro f
    rw [holders, Finset.card_filter]
  have hrest : ∑ u ∈ Finset.univ.erase v, (if Function.update vars v x u = some a then 1 else 0) =
      ∑ u ∈ Finset.univ.erase v, if vars u = some a then 1 else 0 := by
    refine Finset.sum_congr rfl fun u hu => ?_
    rw [Function.update_of_ne (Finset.ne_of_mem_erase hu)]
  rw [hsum, hsum, ← Finset.add_sum_erase _ _ (Finset.mem_univ v),
    ← Finset.add_sum_erase _ (fun u => if vars u = some a then 1 else 0) (Finset.mem_univ v), hrest,
    Function.update_self, one, one]
  omega

/-! ## The counters beside given numbers of references -/

/-- `o` counts the references to each object, and `w` the weak pointers to it. -/
structure Sound (made : List A) (r q : RefCount A) (o w : A → ℕ) : Prop where
  strong : r.Settled (· ∈ made) o
  weak : q.Settled (· ∈ made) fun a => w a + if o a = 0 then 0 else 1

/-- Only the numbers of owners matter. -/
theorem Sound.congr {o' w' : A → ℕ} (h : Sound made r q o w) (ho : ∀ a, o' a = o a)
    (hw : ∀ a, w' a = w a) : Sound made r q o' w' := by
  obtain rfl : o' = o := funext ho
  obtain rfl : w' = w := funext hw
  exact h

/-- The object has a reference, then, or its block. -/
theorem Sound.alive (h : Sound made r q o w) (ha : a ∈ made) (hpos : 0 < o a) : a ∉ r.deleted :=
  h.strong.alive a ha hpos.ne'

/-- An object that lives has an owner. -/
theorem Sound.pos_of_alive (h : Sound made r q o w) (ha : a ∈ made) (halive : a ∉ r.deleted) :
    0 < o a :=
  Nat.pos_of_ne_zero fun hzero => halive ((h.strong.mem_deleted ha).mpr hzero)

/-- A reference more to an object that has one. -/
theorem Sound.incr (h : Sound made r q o w) (ha : a ∈ made) (hpos : 0 < o a) :
    Sound made (r.incr a) q (fun b => o b + one (some a) b) w := by
  refine ⟨h.strong.incr ha hpos ?_ ?_, h.weak.congr fun b => ?_⟩
  · rw [one_self]
  · intro b hne
    rw [one_of_ne hne, Nat.add_zero]
  · by_cases hb : b = a
    · subst hb
      rw [one_self, if_neg (Nat.succ_ne_zero _), if_neg hpos.ne']
    · rw [one_of_ne hb, Nat.add_zero]

/-- A weak reference more.
SOURCE: util/shared_ptr.h:58 -/
theorem Sound.incrWeak (h : Sound made r q o w) (ha : a ∈ made)
    (hpos : 0 < w a + if o a = 0 then 0 else 1) :
    Sound made r (q.incr a) o (fun b => w b + one (some a) b) := by
  refine ⟨h.strong, h.weak.incr ha hpos ?_ ?_⟩
  · rw [one_self, Nat.add_right_comm]
  · intro b hne
    rw [one_of_ne hne, Nat.add_zero]

/-- A weak reference less, and the block is freed with the last.
SOURCE: util/shared_ptr.h:60-64 -/
theorem Sound.decrWeak (h : Sound made r q o (fun b => w b + one (some a) b)) (ha : a ∈ made) :
    Sound made r (q.decr a) o w := by
  refine ⟨h.strong, h.weak.decr ha ?_ ?_⟩
  · rw [one_self, Nat.add_right_comm]
  · intro b hne
    rw [one_of_ne hne, Nat.add_zero]

/-! ## Taking and giving up references -/

/-- `incrementRef` of an object with an owner keeps the counts right.
SOURCE: util/shared_ptr.h:32-42 -/
theorem incrementRef_sound (h : Sound s.made s._reference s._weak o w) (ha : a ∈ s.made)
    (hpos : 0 < o a) :
    ∃ r, s.incrementRef a = some { s with _reference := r } ∧
      Sound s.made r s._weak (fun b => o b + one (some a) b) w :=
  ⟨_, if_neg (h.alive ha hpos), h.incr ha hpos⟩

/-- `decrementWeak` does.
SOURCE: util/shared_ptr.h:60-64 -/
theorem decrementWeak_sound (h : Sound s.made s._reference s._weak o fun b => w b + one (some a) b)
    (ha : a ∈ s.made) :
    ∃ q, s.decrementWeak a = some { s with _weak := q } ∧ Sound s.made s._reference q o w := by
  have hblock : a ∉ s._weak.deleted := by
    refine h.weak.alive a ha ?_
    rw [one_self]
    omega
  exact ⟨_, if_neg hblock, h.decrWeak ha⟩

/-- With the last reference the object is released, and its reference to the block given up. -/
theorem decrementRef_sound (h : Sound s.made s._reference s._weak (fun b => o b + one (some a) b) w)
    (ha : a ∈ s.made) :
    ∃ r q, s.decrementRef a = some { s with _reference := r, _weak := q } ∧
      Sound s.made r q o w := by
  have hself := one_self a
  have halive : a ∉ s._reference.deleted := h.alive ha (by omega)
  have hcount : s._reference.count a - 1 = o a := by
    rw [h.strong.count a ha, hself]
    push_cast
    omega
  have hstrong : (s._reference.decr a).Settled (· ∈ s.made) o := by
    refine h.strong.decr ha ?_ ?_
    · rw [hself]
    · intro b hne
      rw [one_of_ne hne, Nat.add_zero]
  rw [State.decrementRef, if_neg halive, hcount]
  by_cases hlast : o a = 0
  · rw [if_pos (by exact_mod_cast hlast)]
    have hblock : a ∉ s._weak.deleted := by
      refine h.weak.alive a ha ?_
      rw [hself, hlast]
      simp
    refine ⟨_, _, if_neg hblock, hstrong, h.weak.decr ha ?_ ?_⟩
    · rw [hself, hlast]
      simp
    · intro b hne
      rw [one_of_ne hne, Nat.add_zero]
  · rw [if_neg (by exact_mod_cast hlast)]
    refine ⟨_, _, rfl, hstrong, h.weak.congr fun b => ?_⟩
    by_cases hb : b = a
    · subst hb
      rw [hself, if_neg hlast, if_neg (Nat.succ_ne_zero _)]
    · rw [one_of_ne hb, Nat.add_zero]

/-- A copy of a pointer does.
SOURCE: util/shared_ptr.h:109-160 -/
theorem retain_sound (h : Sound s.made s._reference s._weak o w)
    (hx : ∀ a ∈ x, a ∈ s.made ∧ 0 < o a) :
    ∃ r, s.retain x = some { s with _reference := r } ∧
      Sound s.made r s._weak (fun b => o b + one x b) w := by
  cases x with
  | none => exact ⟨s._reference, rfl, h⟩
  | some a =>
    obtain ⟨ha, hpos⟩ := hx a rfl
    exact incrementRef_sound h ha hpos

/-- And the end of one.
SOURCE: util/shared_ptr.h:109-160 -/
theorem release_sound (h : Sound s.made s._reference s._weak (fun b => o b + one x b) w)
    (hx : ∀ a ∈ x, a ∈ s.made) :
    ∃ r q, s.release x = some { s with _reference := r, _weak := q } ∧ Sound s.made r q o w := by
  cases x with
  | none => exact ⟨s._reference, s._weak, rfl, h⟩
  | some a => exact decrementRef_sound h (hx a rfl)

/-- A copy of a weak pointer does.
SOURCE: util/shared_ptr.h:187-253 -/
theorem retainWeak_sound (h : Sound s.made s._reference s._weak o w)
    (hx : ∀ a ∈ x, a ∈ s.made ∧ 0 < w a + if o a = 0 then 0 else 1) :
    ∃ q, s.retainWeak x = some { s with _weak := q } ∧
      Sound s.made s._reference q o (fun b => w b + one x b) := by
  cases x with
  | none => exact ⟨s._weak, rfl, h⟩
  | some a =>
    obtain ⟨ha, hpos⟩ := hx a rfl
    exact ⟨_, if_neg (h.weak.alive a ha hpos.ne'), h.incrWeak ha hpos⟩

/-- And the end of one.
SOURCE: util/shared_ptr.h:187-253 -/
theorem releaseWeak_sound (h : Sound s.made s._reference s._weak o (fun b => w b + one x b))
    (hx : ∀ a ∈ x, a ∈ s.made) :
    ∃ q, s.releaseWeak x = some { s with _weak := q } ∧ Sound s.made s._reference q o w := by
  cases x with
  | none => exact ⟨s._weak, rfl, h⟩
  | some a => exact decrementWeak_sound h (hx a rfl)

/-! ## The variables -/

variable [Fintype P] [Fintype W]

structure Inv (s : State A P W) : Prop where
  sound : Sound s.made s._reference s._weak (owners s) (holders s.wptr)
  held : ∀ a, s.held a = true → a ∈ s.made
  ptr : ∀ i, ∀ a ∈ s.ptr i, a ∈ s.made
  wptr : ∀ k, ∀ a ∈ s.wptr k, a ∈ s.made

/-- A variable holds its object. -/
theorem one_le_holders {V : Type} [Fintype V] {vars : V → Option A} {v : V}
    (h : vars v = some a) : 1 ≤ holders vars a :=
  Finset.card_pos.mpr ⟨v, Finset.mem_filter.mpr ⟨Finset.mem_univ v, h⟩⟩

/-- What a variable holds is alive. -/
theorem Inv.owned (h : Inv s) : ∀ a ∈ s.ptr i, a ∈ s.made ∧ 0 < owners s a := by
  intro a ha
  have hone : 1 ≤ holders s.ptr a := one_le_holders ha
  exact ⟨h.ptr i a ha, by rw [owners]; omega⟩

/-- An object that lives was made and has an owner. -/
theorem Inv.alive (h : Inv s) (ha : s.Alive a) : a ∈ s.made ∧ 0 < owners s a :=
  ⟨ha.1, h.sound.pos_of_alive ha.1 ha.2⟩

/-- And so is the block of what a weak pointer holds. -/
theorem Inv.watched (h : Inv s) :
    ∀ a ∈ s.wptr k, a ∈ s.made ∧ 0 < holders s.wptr a + if owners s a = 0 then 0 else 1 := by
  intro a ha
  have hone : 1 ≤ holders s.wptr a := one_le_holders ha
  exact ⟨h.wptr k a ha, by omega⟩

omit [DecidableEq A] in
/-- Variables lead only to objects that were made, also when one is written. -/
theorem mem_update {V : Type} [DecidableEq V] {vars : V → Option A} {v u : V}
    (hvars : ∀ v, ∀ a ∈ vars v, a ∈ made) (hx : ∀ a ∈ x, a ∈ made) :
    ∀ a ∈ Function.update vars v x u, a ∈ made := by
  rw [Function.update_apply]
  split
  · exact hx
  · exact hvars u

/-! ## `incursivePtr` -/

section Strong

variable [DecidableEq P]

/-- A pointer is constructed on an object that is alive.
SOURCE: util/shared_ptr.h:109, 110-114, 121-125, 126-129 -/
theorem construct_inv (h : Inv s) (hnew : s.ptr i = none)
    (hx : ∀ a ∈ x, a ∈ s.made ∧ 0 < owners s a) :
    ∃ s', s.construct i x = some s' ∧ Inv s' := by
  obtain ⟨r, hretain, hsound⟩ := retain_sound (s := s.setPtr i x) h.sound hx
  refine ⟨_, hretain, hsound.congr (fun a => ?_) fun _ => rfl, h.held, fun u => ?_, h.wptr⟩
  · have hholders := holders_update s.ptr i x a
    rw [hnew, one_none, Nat.add_zero] at hholders
    change (s.held a).toNat + holders (Function.update s.ptr i x) a = _
    rw [hholders, ← Nat.add_assoc]
    rfl
  · exact mem_update h.ptr fun a ha => (hx a ha).1

/-- `reset` keeps the counts right and empties the pointer.
SOURCE: util/shared_ptr.h:155-160 -/
theorem reset_inv (h : Inv s) (i : P) :
    ∃ s', s.reset i = some s' ∧ Inv s' ∧ s'.ptr = Function.update s.ptr i none := by
  have hsound : Sound s.made s._reference s._weak
      (fun a => owners (s.setPtr i none) a + one (s.ptr i) a) (holders s.wptr) := by
    refine h.sound.congr (fun a => ?_) fun _ => rfl
    have hholders := holders_update s.ptr i none a
    rw [one_none, Nat.add_zero] at hholders
    change (s.held a).toNat + holders (Function.update s.ptr i none) a + _ = _
    rw [Nat.add_assoc, hholders]
    rfl
  obtain ⟨r, q, hrelease, hsound'⟩ := release_sound hsound (h.ptr i)
  have hreset : s.reset i = some (State.setPtr { s with _reference := r, _weak := q } i none) := by
    rw [State.reset, hrelease]
    rfl
  refine ⟨_, hreset, ⟨hsound', h.held, fun u => ?_, h.wptr⟩, rfl⟩
  exact mem_update h.ptr nofun

/-- The pointers change places.
SOURCE: util/shared_ptr.h:223-226 -/
theorem swap_inv (h : Inv s) (i j : P) : Inv (s.swap i j) := by
  refine ⟨h.sound.congr (fun a => ?_) fun _ => rfl, h.held, fun u => ?_, h.wptr⟩
  · have hfirst := holders_update s.ptr i (s.ptr j) a
    have hsecond := holders_update (Function.update s.ptr i (s.ptr j)) j (s.ptr i) a
    have hthere : Function.update s.ptr i (s.ptr j) j = s.ptr j := by
      rw [Function.update_apply]
      split
      · rfl
      · rfl
    rw [hthere] at hsecond
    change (s.held a).toNat +
      holders (Function.update (Function.update s.ptr i (s.ptr j)) j (s.ptr i)) a = _
    rw [owners]
    omega
  · exact mem_update (fun v => mem_update h.ptr (h.ptr j)) (h.ptr i)

omit [DecidableEq A] [Fintype P] [Fintype W] in
/-- Moving into an empty pointer is swapping.
SOURCE: util/shared_ptr.h:126-129 -/
theorem move_eq_swap (hnew : s.ptr i = none) : s.move i j = s.swap i j := by
  rw [State.move, State.swap, hnew]

/-- So does the assignment of a copy.
SOURCE: util/shared_ptr.h:130-140 -/
theorem assign_inv (h : Inv s) (i j : P) : ∃ s', s.assign i j = some s' ∧ Inv s' := by
  rw [State.assign]
  split
  · exact ⟨s, rfl, h⟩
  · obtain ⟨s₁, hreset, h₁, hptr⟩ := reset_inv h i
    rw [hreset]
    exact construct_inv h₁ (by rw [hptr, Function.update_self]) h₁.owned

/-- And of what is moved.
SOURCE: util/shared_ptr.h:141-148 -/
theorem moveAssign_inv (h : Inv s) (i j : P) : ∃ s', s.moveAssign i j = some s' ∧ Inv s' := by
  rw [State.moveAssign]
  split
  · exact ⟨s, rfl, h⟩
  · obtain ⟨s₁, hreset, h₁, -⟩ := reset_inv h i
    rw [hreset]
    exact ⟨_, rfl, swap_inv h₁ i j⟩

end Strong

/-! ## `weakPtr` -/

section Weak

variable [DecidableEq W]

/-- `reset` of a weak pointer.
SOURCE: util/shared_ptr.h:227-233 -/
theorem weakReset_inv (h : Inv s) (k : W) :
    ∃ s', s.weakReset k = some s' ∧ Inv s' ∧ s'.wptr k = none ∧ s'.made = s.made ∧
      ∀ a, owners s' a = owners s a := by
  have hsound : Sound s.made s._reference s._weak (owners s)
      (fun a => holders (s.setWptr k none).wptr a + one (s.wptr k) a) := by
    refine h.sound.congr (fun _ => rfl) fun a => ?_
    have hholders := holders_update s.wptr k none a
    rwa [one_none, Nat.add_zero] at hholders
  obtain ⟨q, hrelease, hsound'⟩ := releaseWeak_sound hsound (h.wptr k)
  have hreset : s.weakReset k = some (State.setWptr { s with _weak := q } k none) := by
    rw [State.weakReset, hrelease]
    rfl
  refine ⟨_, hreset, ⟨hsound', h.held, h.ptr, fun u => ?_⟩, Function.update_self _ _ _, rfl,
    fun _ => rfl⟩
  exact mem_update h.wptr nofun

/-- A weak pointer that holds nothing is set to an object whose block is there. -/
theorem retainWeak_inv (h : Inv s) (hnew : s.wptr k = none)
    (hx : ∀ a ∈ x, a ∈ s.made ∧ 0 < holders s.wptr a + if owners s a = 0 then 0 else 1) :
    ∃ s', (s.setWptr k x).retainWeak x = some s' ∧ Inv s' := by
  obtain ⟨q, hretain, hsound⟩ := retainWeak_sound (s := s.setWptr k x) h.sound hx
  refine ⟨_, hretain, hsound.congr (fun _ => rfl) (fun a => ?_), h.held, h.ptr, fun u => ?_⟩
  · have hholders := holders_update s.wptr k x a
    rwa [hnew, one_none, Nat.add_zero] at hholders
  · exact mem_update h.wptr fun a ha => (hx a ha).1

/-- `reset` of a weak pointer to another object.
SOURCE: util/shared_ptr.h:235-253 -/
theorem weakResetTo_inv (h : Inv s) (k : W) (hx : ∀ a ∈ x, a ∈ s.made ∧ 0 < owners s a) :
    ∃ s', s.weakResetTo k x = some s' ∧ Inv s' := by
  obtain ⟨s₁, hreset, h₁, hnew, hmade, howners⟩ := weakReset_inv h k
  rw [State.weakResetTo, hreset]
  refine retainWeak_inv h₁ hnew fun a ha => ?_
  obtain ⟨hmem, hpos⟩ := hx a ha
  rw [hmade, howners, if_neg hpos.ne']
  exact ⟨hmem, by omega⟩

/-- A weak pointer is copied.
SOURCE: util/shared_ptr.h:197-201 -/
theorem weakCopy_inv (h : Inv s) (hnew : s.wptr k = none) :
    ∃ s', s.weakCopy k l = some s' ∧ Inv s' :=
  retainWeak_inv h hnew h.watched

/-- It is assigned.
SOURCE: util/shared_ptr.h:205-221 -/
theorem weakAssign_inv (h : Inv s) (k l : W) : ∃ s', s.weakAssign k l = some s' ∧ Inv s' := by
  rw [State.weakAssign]
  split
  · exact ⟨s, rfl, h⟩
  · obtain ⟨s₁, hreset, h₁, hnew, -⟩ := weakReset_inv h k
    rw [hreset]
    exact weakCopy_inv h₁ hnew

/-- Two are swapped.
SOURCE: util/shared_ptr.h:223-226 -/
theorem weakSwap_inv (h : Inv s) (k l : W) : Inv (s.weakSwap k l) := by
  refine ⟨h.sound.congr (fun _ => rfl) fun a => ?_, h.held, h.ptr, fun u => ?_⟩
  · have hfirst := holders_update s.wptr k (s.wptr l) a
    have hsecond := holders_update (Function.update s.wptr k (s.wptr l)) l (s.wptr k) a
    have hthere : Function.update s.wptr k (s.wptr l) l = s.wptr l := by
      rw [Function.update_apply]
      split
      · rfl
      · rfl
    rw [hthere] at hsecond
    change holders (Function.update (Function.update s.wptr k (s.wptr l)) l (s.wptr k)) a = _
    omega
  · exact mem_update (fun v => mem_update h.wptr (h.wptr l)) (h.wptr k)

end Weak

/-! ## Objects -/

/-- A new object has the reference of its maker and no pointers.
SOURCE: util/shared_ptr.h:297-300 -/
theorem make_inv (h : Inv s) (hnew : a ∉ s.made) : Inv (s.make a) := by
  have hnone : ∀ {V : Type} [Fintype V] (vars : V → Option A),
      (∀ v, ∀ b ∈ vars v, b ∈ s.made) → holders vars a = 0 := by
    intro V _ vars hvars
    refine Finset.card_eq_zero.mpr (Finset.filter_eq_empty_iff.mpr fun v _ heq => ?_)
    exact hnew (hvars v a heq)
  have hself : owners (s.make a) a = 1 := by
    change (Function.update s.held a true a).toNat + holders s.ptr a = 1
    rw [Function.update_self, hnone s.ptr h.ptr]
    rfl
  have hother : ∀ b, b ≠ a → owners (s.make a) b = owners s b := by
    intro b hne
    change (Function.update s.held a true b).toNat + holders s.ptr b = _
    rw [Function.update_of_ne hne]
    rfl
  have hmade : ∀ b, b ∈ (s.make a).made ↔ b ∈ s.made ∨ b = a := by
    intro b
    rw [or_comm]
    exact List.mem_cons
  refine ⟨⟨h.sound.strong.make hnew hmade hself hother, h.sound.weak.make hnew hmade ?_ ?_⟩,
    fun b hb => ?_, fun i b hb => ?_, fun k b hb => ?_⟩
  · rw [hself]
    exact congrArg (· + 1) (hnone s.wptr h.wptr)
  · intro b hne
    rw [hother b hne]
    rfl
  · rw [hmade]
    by_cases hne : b = a
    · exact .inr hne
    · change Function.update s.held a true b = true at hb
      rw [Function.update_of_ne hne] at hb
      exact .inl (h.held b hb)
  · exact (hmade b).mpr (.inl (h.ptr i b hb))
  · exact (hmade b).mpr (.inl (h.wptr k b hb))

/-- Its maker gives up the reference. -/
theorem drop_inv (h : Inv s) (hheld : s.held a = true) :
    ∃ s', State.decrementRef { s with held := Function.update s.held a false } a = some s' ∧
      Inv s' := by
  have howners : ∀ b, owners { s with held := Function.update s.held a false } b +
      one (some a) b = owners s b := by
    intro b
    change (Function.update s.held a false b).toNat + holders s.ptr b + one (some a) b =
      (s.held b).toNat + holders s.ptr b
    by_cases hb : b = a
    · subst hb
      rw [one_self, Function.update_self, hheld, Nat.add_right_comm]
      rfl
    · rw [one_of_ne hb, Function.update_of_ne hb, Nat.add_zero]
  obtain ⟨r, q, hdecr, hsound⟩ := decrementRef_sound (o := owners _)
    (s := { s with held := Function.update s.held a false })
    (h.sound.congr howners fun _ => rfl) (h.held a hheld)
  refine ⟨_, hdecr, hsound, fun b hb => ?_, h.ptr, h.wptr⟩
  change Function.update s.held a false b = true at hb
  by_cases hne : b = a
  · exact hne ▸ h.held a hheld
  · rw [Function.update_of_ne hne] at hb
    exact h.held b hb

/-! ## `lock` -/

section Lock

variable [DecidableEq P]

omit [DecidableEq A] [Fintype P] [Fintype W] in
/-- Emptying an empty pointer changes nothing. -/
theorem setPtr_none (hnew : s.ptr i = none) : s.setPtr i none = s := by
  rw [State.setPtr, ← hnew, Function.update_eq_self]

/-- The block of the object is there, and says whether the object is alive.  Where it is, `lock` takes
a reference, the pointer it returns another one, and the first is given up. -/
theorem lock_inv (h : Inv s) (hnew : s.ptr i = none) (k : W) :
    ∃ s', s.lock i k = some s' ∧ Inv s' ∧ Locks s s' i k := by
  rw [State.lock]
  cases hk : s.wptr k with
  | none =>
    refine ⟨s, by rw [setPtr_none hnew], h, ?_⟩
    rw [Locks, hnew, hk]
    rfl
  | some a =>
    obtain ⟨hmade, hpos⟩ := h.watched a hk
    have hblock := h.sound.weak.alive a hmade hpos.ne'
    have hcount := h.sound.strong.count a hmade
    by_cases hgone : owners s a = 0
    · have hreleased := (h.sound.strong.mem_deleted hmade).mpr hgone
      refine ⟨s, ?_, h, ?_⟩
      · simp [State.implLock, hblock, hcount, hgone, setPtr_none hnew]
      · rw [Locks, hnew, hk]
        simp [Option.filter, hreleased]
    · have halive := Nat.pos_of_ne_zero hgone
      have hlocked : s.implLock a = some (true, { s with _reference := s._reference.incr a }) := by
        rw [State.implLock, if_neg hblock, if_neg (by rw [hcount]; exact_mod_cast hgone)]
      obtain ⟨r, hretain, hsound⟩ := incrementRef_sound
        (s := State.setPtr { s with _reference := s._reference.incr a } i (some a))
        (h.sound.incr hmade halive) hmade (Nat.lt_of_lt_of_le halive (Nat.le_add_right _ _))
      obtain ⟨r', q', hdecr, hsound'⟩ := decrementRef_sound
        (s := { State.setPtr { s with _reference := s._reference.incr a } i (some a) with
          _reference := r }) hsound hmade
      have hconstruct : State.construct { s with _reference := s._reference.incr a } i (some a) =
        some { State.setPtr { s with _reference := s._reference.incr a } i (some a) with
          _reference := r } := hretain
      refine ⟨{ s with
          _reference := r'
          _weak := q'
          ptr := Function.update s.ptr i (some a) }, ?_,
        ⟨hsound'.congr (fun b => ?_) fun _ => rfl, h.held, fun u => ?_, h.wptr⟩, ?_⟩
      · simp only [hlocked, Option.bind_eq_bind, Option.bind_some, if_true]
        rw [hconstruct, Option.bind_some]
        exact hdecr
      · have hholders := holders_update s.ptr i (some a) b
        rw [hnew, one_none, Nat.add_zero] at hholders
        change (s.held b).toNat + holders (Function.update s.ptr i (some a)) b = _
        rw [hholders, ← Nat.add_assoc]
        rfl
      · exact mem_update h.ptr fun b hb => Option.some.inj hb ▸ hmade
      · change Function.update s.ptr i (some a) i = _
        rw [Function.update_self, hk]
        simp [Option.filter, h.sound.alive hmade halive]

end Lock

/-! ## The runs -/

/-- Where the counts are right, what a reader sees of an object is.
SOURCE: util/shared_ptr.h:32-76 -/
theorem Inv.right (h : Inv s) (ha : a ∈ s.made) : Right s a := by
  have hstrong := h.sound.strong
  have hweak := h.sound.weak
  refine ⟨hstrong.count a ha, hweak.count a ha, ?_, ?_⟩
  · split
    · next hgone => exact hstrong.gone a ha hgone
    · next halive => exact List.count_eq_zero_of_not_mem (hstrong.alive a ha halive)
  · split
    · next hgone =>
      refine hweak.gone a ha ?_
      rw [if_pos hgone.1, hgone.2]
    · next hthere =>
      refine List.count_eq_zero_of_not_mem (hweak.alive a ha ?_)
      by_cases hzero : owners s a = 0
      · rw [if_pos hzero]
        exact fun hnone => hthere ⟨hzero, hnone⟩
      · rw [if_neg hzero]
        exact Nat.succ_ne_zero _

section Runs

variable [DecidableEq P] [DecidableEq W]

/-- Without objects they are. -/
theorem inv_of_init (h : system.init s) : Inv s := by
  obtain ⟨hmade, hheld, hreleased, hdeleted, hptr, hwptr⟩ := h
  have hnone : ∀ a, a ∉ s.made := fun a ha => by
    rw [hmade] at ha
    exact List.not_mem_nil ha
  refine ⟨⟨⟨?_, ?_, ?_, ?_⟩, ⟨?_, ?_, ?_, ?_⟩⟩, fun a ha => ?_, fun i a ha => ?_, fun k a ha => ?_⟩
  · exact fun a ha => absurd ha (hnone a)
  · rw [hreleased]
    exact nofun
  · exact fun a ha => absurd ha (hnone a)
  · exact fun a ha => absurd ha (hnone a)
  · exact fun a ha => absurd ha (hnone a)
  · rw [hdeleted]
    exact nofun
  · exact fun a ha => absurd ha (hnone a)
  · exact fun a ha => absurd ha (hnone a)
  · rw [hheld a] at ha
    cases ha
  · rw [hptr i] at ha
    cases ha
  · rw [hwptr k] at ha
    cases ha

/-- The step lemma: no call touches what was released or deleted. -/
theorem exec_inv (h : Inv s) {call : Call A P W} (hlegal : s.Legal call) :
    ∃ s', s.exec call = some s' ∧ Inv s' := by
  cases call with
  | make a => exact ⟨_, rfl, make_inv h hlegal⟩
  | drop a => exact drop_inv h hlegal
  | construct i x => exact construct_inv h hlegal.1 fun a ha => h.alive (hlegal.2 a ha)
  | copy i j => exact construct_inv h hlegal.1 h.owned
  | move i j => exact ⟨_, rfl, move_eq_swap hlegal.1 ▸ swap_inv h i j⟩
  | assign i j => exact assign_inv h i j
  | moveAssign i j => exact moveAssign_inv h i j
  | reset i | destroy i =>
    obtain ⟨s', hs', h', -⟩ := reset_inv h i
    exact ⟨s', hs', h'⟩
  | swap i j => exact ⟨_, rfl, swap_inv h i j⟩
  | weakConstruct k x => exact weakResetTo_inv h k fun a ha => h.alive (hlegal.2 a ha)
  | weakFrom k i => exact weakResetTo_inv h k h.owned
  | weakCopy k l => exact weakCopy_inv h hlegal.1
  | weakMove k l | weakMoveAssign k l | weakSwap k l => exact ⟨_, rfl, weakSwap_inv h k l⟩
  | weakAssign k l => exact weakAssign_inv h k l
  | weakReset k | weakDestroy k =>
    obtain ⟨s', hs', h', -⟩ := weakReset_inv h k
    exact ⟨s', hs', h'⟩
  | weakResetTo k x => exact weakResetTo_inv h k fun a ha => h.alive (hlegal a ha)
  | lock i k =>
    obtain ⟨s', hs', h', -⟩ := lock_inv h hlegal k
    exact ⟨s', hs', h'⟩

/-- They are in every reachable state. -/
theorem inv_of_reachable (h : system.Reachable s) : Inv s := by
  refine System.Via.invariant (fun _ => inv_of_init) (fun s call s' hI _ hs => ?_) h
  obtain ⟨hlegal, hexec⟩ := Option.ite_none_right_eq_some.mp hs
  obtain ⟨t, ht, hI'⟩ := exec_inv hI hlegal
  obtain rfl : t = s' := Option.some.inj (ht.symm.trans hexec)
  exact hI'

/-- **The control block.**  In every state that calls lead to, the counters of every object are its
references and its weak pointers, it was released once it had no references, once, and its block deleted
once neither was left, once; every call can go on, and `lock` gives the object while it is alive.
SOURCE: util/shared_ptr.h:23-284 -/
theorem control_block (h : system.Reachable s) :
    (∀ a ∈ s.made, Right s a) ∧
      ∀ call, s.Legal call → ∃ s', system.step s call = some s' ∧
        ∀ i k, call = .lock i k → Locks s s' i k := by
  have hI := inv_of_reachable h
  refine ⟨fun a ha => hI.right ha, fun call hlegal => ?_⟩
  obtain ⟨s', hs', -⟩ := exec_inv hI hlegal
  refine ⟨s', (if_pos hlegal).trans hs', ?_⟩
  rintro i k rfl
  obtain ⟨t, ht, -, hlocks⟩ := lock_inv hI hlegal k
  obtain rfl : t = s' := Option.some.inj (ht.symm.trans hs')
  exact hlocks

end Runs

/-- No object, two pointers and a weak one. -/
def start : State ℕ (Fin 2) (Fin 1) where
  made := []
  held := fun _ => false
  _reference := ⟨fun _ => 0, []⟩
  _weak := ⟨fun _ => 0, []⟩
  ptr := fun _ => none
  wptr := fun _ => none

/-- An object is made, and outlives its maker's reference in a pointer and in what `lock` gives; its
block outlives it in the weak pointer.
SOURCE: util/shared_ptr.h:109, 110-114, 121-125, 126-129, 297-300 -/
theorem control_block_start :
    ∃ s, system.run start [.make 0, .construct 0 (some 0), .weakFrom 0 0, .drop 0, .lock 1 0,
        .reset 0, .destroy 1, .lock 0 0] = some s ∧
      s._reference.deleted = [0] ∧ s._weak.deleted = [] ∧ Right s 0 := by
  have h0 : system.init start := ⟨rfl, fun _ => rfl, rfl, rfl, fun _ => rfl, fun _ => rfl⟩
  refine ⟨_, rfl, rfl, rfl, ?_⟩
  apply (control_block (System.reachable_of_run h0 _)).1
  · exact List.mem_singleton.mpr rfl
  · exact [.make 0, .construct 0 (some 0), .weakFrom 0 0, .drop 0, .lock 1 0, .reset 0, .destroy 1,
      .lock 0 0]
  · rfl

end MagicNet.SharedPtr
