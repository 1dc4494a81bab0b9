import MagicNet.Foundation.SlotTable
import MagicNet.Model.Registry

/-!
# When the actor registry is a finite map

The registry is a slot table of `Foundation.SlotTable` keyed by the handles.  A call of
`doUnRegister`, and of `doRegister` that finds a free slot, acts on it as on a finite map.  A
resize leaves a copy of each moved actor at its old slot; the copy of an actor that has been
unregistered since is copied again by the next resize, over the actor that has taken its place
or to a slot where it is found again.  `Cond` is what a resize needs to find.
-/

set_option autoImplicit false

namespace MagicNet.Registry

open MagicNet.Foundation

variable {α : Type} {r : ActorSystem α}

/-! ## The table of the registry -/

/-- The slots of the table; there is nothing past its end. -/
def slots (r : ActorSystem α) (i : ℕ) : Option α := r.m_actors[i]?.join

/-- The shape of the table between two calls. -/
structure Shape (r : ActorSystem α) : Prop where
  pow : ∃ k ≤ 24, r.m_actorCap = 2 ^ k
  length : r.m_actors.length = r.m_actorCap

/-- A table has slots. -/
theorem Shape.pos (h : Shape r) : 0 < r.m_actorCap := by
  obtain ⟨k, -, hk⟩ := h.pow
  rw [hk]
  exact Nat.two_pow_pos k

/-- `local_addr` is the remainder by the capacity.
SOURCE: module/actorSystem.h:62-64 -/
theorem Shape.local_addr (h : Shape r) (handle : ℕ) :
    r.local_addr handle = handle % r.m_actorCap := by
  obtain ⟨k, -, hk⟩ := h.pow
  rw [ActorSystem.local_addr, hk, Nat.and_two_pow_sub_one_eq_mod]

/-- Every handle has a slot in it.
SOURCE: module/actorSystem.h:62-64 -/
theorem Shape.local_addr_lt (h : Shape r) (handle : ℕ) :
    r.local_addr handle < r.m_actors.length := by
  rw [h.local_addr, h.length]
  exact Nat.mod_lt _ h.pos

/-- The slot in the table of twice the size is the remainder by its capacity. -/
theorem Shape.nwpos (h : Shape r) (x : α) : r.nwpos x = r.m_handle x % (2 * r.m_actorCap) := by
  obtain ⟨k, -, hk⟩ := h.pow
  rw [ActorSystem.nwpos, hk, ← pow_succ, Nat.and_two_pow_sub_one_eq_mod, pow_succ, Nat.mul_comm]

/-- To hold an actor is to have it in the slot. -/
theorem holds_iff {i : ℕ} {x : α} : r.Holds i x ↔ slots r i = some x := by
  simp [ActorSystem.Holds, slots, Option.join_eq_some_iff]

/-- A slot of the table is free or holds an actor. -/
theorem isFree_iff {i : ℕ} (hi : i < r.m_actors.length) : r.isFree i = true ↔ slots r i = none := by
  simp only [ActorSystem.isFree, slots, List.getElem?_eq_getElem hi]
  cases r.m_actors[i] <;> simp

/-- A write to a slot of the table. -/
theorem slots_set {i : ℕ} (hi : i < r.m_actors.length) (entry : Option α) :
    slots { r with m_actors := r.m_actors.set i entry } = Function.update (slots r) i entry := by
  funext j
  by_cases hj : j = i
  · subst hj
    simp [slots, hi]
  · simp [slots, Function.update_of_ne hj, List.getElem?_set_ne (Ne.symm hj)]

/-- `getGrab` looks up the handle in the table.
SOURCE: module/actorSystem.cc:87-96 -/
theorem getGrab_eq (h : Shape r) (handle : ℕ) :
    r.getGrab handle = SlotTable.lookup (slots r) r.m_handle r.m_actorCap handle := by
  simp only [ActorSystem.getGrab, SlotTable.lookup, slots, ← h.local_addr]
  cases r.m_actors[r.local_addr handle]? with
  | none => rfl
  | some entry =>
    cases entry with
    | none => rfl
    | some x => by_cases hx : r.m_handle x = handle <;> simp [Option.filter, hx]

/-! ## The choice of a handle -/

/-- A handle found has a free slot. -/
theorem findHandle_some {handle : ℕ} (h : Shape r) (hf : r.findHandle = some handle) :
    slots r (handle % r.m_actorCap) = none := by
  have hfree := List.find?_some hf
  rw [isFree_iff (h.local_addr_lt handle)] at hfree
  rwa [← h.local_addr]

/-- The candidates try every slot. -/
theorem candidate_mod (h : Shape r) (i : ℕ) :
    r.candidate i % r.m_actorCap = (i + r.m_actorSer) % r.m_actorCap := by
  obtain ⟨k, hk24, hk⟩ := h.pow
  have hmark : ACOTR_ID_MARK = 2 ^ 24 - 1 := rfl
  rw [ActorSystem.candidate, hmark, Nat.and_two_pow_sub_one_eq_mod, hk]
  exact Nat.mod_mod_of_dvd _ (pow_dvd_pow 2 hk24)

/-- When no handle is found, no slot is free. -/
theorem findHandle_none (h : Shape r) (hf : r.findHandle = none) {j : ℕ}
    (hj : j < r.m_actorCap) : ∃ x, slots r j = some x := by
  have hpos := h.pos
  -- the round of the inner loop that tries slot `j`
  obtain ⟨i, hi, hij⟩ : ∃ i < r.m_actorCap, (i + r.m_actorSer) % r.m_actorCap = j := by
    refine ⟨(j + (r.m_actorCap - r.m_actorSer % r.m_actorCap)) % r.m_actorCap,
      Nat.mod_lt _ hpos, ?_⟩
    have hser := Nat.mod_lt r.m_actorSer hpos
    rw [Nat.mod_add_mod, ← Nat.add_mod_mod,
      show j + (r.m_actorCap - r.m_actorSer % r.m_actorCap) + r.m_actorSer % r.m_actorCap =
        j + r.m_actorCap by omega, Nat.add_mod_right, Nat.mod_eq_of_lt hj]
  have htry := List.find?_eq_none.mp hf (r.candidate i)
    (List.mem_map.mpr ⟨i, List.mem_range.mpr hi, rfl⟩)
  rw [isFree_iff (h.local_addr_lt _), h.local_addr, candidate_mod h, hij] at htry
  exact Option.ne_none_iff_exists'.mp htry

/-! ## The resize -/

/-- What `n` rounds of the moving loop have done to a table of `nwcap` slots. -/
structure Walk (nwcap : ℕ) (r r' : ActorSystem α) (n : ℕ) : Prop where
  handle : r'.m_handle = r.m_handle
  length : r'.m_actors.length = nwcap
  slots : slots r' = SlotTable.rehash r.m_handle nwcap n (slots r)
  /-- The capacity is written when an actor moves. -/
  cap : r'.m_actorCap = nwcap ∨ r'.m_actorCap = r.m_actorCap ∧ ∀ i < n, ∀ x,
    SlotTable.rehash r.m_handle nwcap i (Registry.slots r) i = some x → r.m_handle x % nwcap = i

/-- One round of the moving loop. -/
theorem moveSlot_walk {nwcap k n : ℕ} (hk : nwcap = 2 ^ k) {r' : ActorSystem α}
    (h : Walk nwcap r r' n) : Walk nwcap r (r'.moveSlot nwcap n) (n + 1) := by
  have hpos : 0 < nwcap := hk ▸ Nat.two_pow_pos k
  have hand : ∀ m, m &&& (nwcap - 1) = m % nwcap := fun m => by
    rw [hk, Nat.and_two_pow_sub_one_eq_mod]
  have hat : SlotTable.rehash r.m_handle nwcap n (slots r) n = slots r' n := by rw [h.slots]
  have hunmoved : ∀ {capOld : ℕ}, capOld = r'.m_actorCap →
      (∀ x, slots r' n = some x → r.m_handle x % nwcap = n) →
      capOld = nwcap ∨ capOld = r.m_actorCap ∧ ∀ i < n + 1, ∀ x,
        SlotTable.rehash r.m_handle nwcap i (slots r) i = some x → r.m_handle x % nwcap = i := by
    rintro capOld rfl hn
    refine h.cap.imp_right fun ⟨hc, hall⟩ => ⟨hc, fun i hi x hx => ?_⟩
    rcases Nat.lt_succ_iff_lt_or_eq.mp hi with hlt | rfl
    · exact hall i hlt x hx
    · exact hn x (hat ▸ hx)
  cases hx : r'.m_actors[n]?.join with
  | none =>
    have hs : slots r' n = none := hx
    have hsame : r'.moveSlot nwcap n = r' := by
      unfold ActorSystem.moveSlot
      split
      · next x hsome => simp [hsome] at hx
      · rfl
    rw [hsame]
    refine ⟨h.handle, h.length, ?_, hunmoved rfl fun x hx' => ?_⟩
    · rw [SlotTable.rehash_succ_of_none (hat.trans hs), h.slots]
    · rw [hs] at hx'
      cases hx'
  | some x =>
    have hs : slots r' n = some x := hx
    have hget : r'.m_actors[n]? = some (some x) := by simpa [Option.join_eq_some_iff] using hx
    by_cases hpn : r.m_handle x % nwcap = n
    · have hsame : r'.moveSlot nwcap n = r' := by
        simp [ActorSystem.moveSlot, hget, hand, h.handle, hpn]
      rw [hsame]
      refine ⟨h.handle, h.length, ?_, hunmoved rfl fun y hy => ?_⟩
      · rw [SlotTable.rehash_succ_of_some (hat.trans hs), hpn, ← h.slots, ← hs,
          Function.update_eq_self]
      · obtain rfl : x = y := by simpa [hs] using hy
        exact hpn
    · have hmove : r'.moveSlot nwcap n = { r' with
          m_actors := r'.m_actors.set (r.m_handle x % nwcap) (some x), m_actorCap := nwcap } := by
        simp [ActorSystem.moveSlot, hget, hand, h.handle, hpn]
      rw [hmove]
      refine ⟨h.handle, by simpa using h.length, ?_, .inl rfl⟩
      rw [SlotTable.rehash_succ_of_some (hat.trans hs), ← h.slots]
      exact slots_set (r := { r' with m_actorCap := nwcap })
        (by rw [h.length]; exact Nat.mod_lt _ hpos) _

/-- The moving loop. -/
theorem walk_foldl {nwcap k : ℕ} (hk : nwcap = 2 ^ k) (hlen : r.m_actors.length = nwcap) (n : ℕ) :
    Walk nwcap r ((List.range n).foldl (ActorSystem.moveSlot nwcap) r) n := by
  induction n with
  | zero => exact ⟨rfl, hlen, rfl, .inr ⟨rfl, fun i hi => absurd hi (Nat.not_lt_zero i)⟩⟩
  | succ n ih =>
    rw [List.range_succ, List.foldl_append]
    exact moveSlot_walk hk ih

/-- A resized vector has the old slots and free ones after them. -/
theorem slots_resize (h : Shape r) :
    slots { r with m_actors := resize r.m_actors (r.m_actorCap * 2) } = slots r := by
  have hlen := h.length
  funext i
  have htake : r.m_actors.take (r.m_actorCap * 2) = r.m_actors :=
    List.take_of_length_le (by omega)
  simp only [slots, resize, htake]
  by_cases hi : i < r.m_actors.length
  · rw [List.getElem?_append_left hi]
  · rw [List.getElem?_append_right (by omega), List.getElem?_eq_none (l := r.m_actors) (by omega)]
    cases hg : (List.replicate (r.m_actorCap * 2 - r.m_actors.length) (none : Option α))[
      i - r.m_actors.length]? with
    | none => rfl
    | some entry =>
      rw [List.getElem?_replicate] at hg
      split at hg
      · obtain rfl := Option.some.inj hg
        rfl
      · cases hg

/-- A settled registry is a settled slot table. -/
theorem settled_iff (h : Shape r) :
    r.Settled ↔ SlotTable.Settled (slots r) r.m_handle r.m_actorCap := by
  simp only [ActorSystem.Settled, SlotTable.Settled, holds_iff, h.local_addr, h.nwpos]

/-- There is nothing past the end of the table. -/
theorem Shape.slots_of_le (h : Shape r) {i : ℕ} (hi : r.m_actorCap ≤ i) : slots r i = none := by
  have hlen := h.length
  simp [slots, List.getElem?_eq_none (l := r.m_actors) (i := i) (by omega)]

/-- What a resize should do: the table of twice the size splits the old one. -/
structure Doubles (r r' : ActorSystem α) : Prop where
  shape : Shape r'
  cap : r'.m_actorCap = 2 * r.m_actorCap
  handle : r'.m_handle = r.m_handle
  split : SlotTable.Split (slots r) (slots r') r.m_handle r.m_actorCap

/-- What a resize that moves some actor does to any table. -/
structure Grows (r r' : ActorSystem α) : Prop where
  shape : Shape r'
  cap : r'.m_actorCap = 2 * r.m_actorCap
  handle : r'.m_handle = r.m_handle
  slots : slots r' =
    SlotTable.rehash r.m_handle (2 * r.m_actorCap) (2 * r.m_actorCap) (slots r)

/-- **A resize that moves some actor** writes the new capacity. -/
theorem grow_grows (h : Shape r)
    (hmove : ∃ i < r.m_actorCap, ∃ x, r.Holds i x ∧ r.nwpos x ≠ i)
    (hmark : r.m_actorCap * 2 - 1 ≤ ACOTR_ID_MARK) : Grows r r.grow := by
  obtain ⟨k, hk24, hk⟩ := h.pow
  have hk2 : r.m_actorCap * 2 = 2 ^ (k + 1) := by rw [hk, pow_succ]
  have hcomm : r.m_actorCap * 2 = 2 * r.m_actorCap := Nat.mul_comm ..
  have hlen : (resize r.m_actors (r.m_actorCap * 2)).length = r.m_actorCap * 2 := by
    simp [resize]
    omega
  have hw : Walk (r.m_actorCap * 2) _ r.grow (r.m_actorCap * 2) :=
    walk_foldl (r := { r with m_actors := resize r.m_actors (r.m_actorCap * 2) }) hk2 hlen _
  have hslots := hw.slots
  rw [slots_resize h] at hslots
  have hcap : r.grow.m_actorCap = r.m_actorCap * 2 := by
    rcases hw.cap with hc | ⟨-, hall⟩
    · exact hc
    · exfalso
      rw [slots_resize h] at hall
      -- a loop that finds no actor to move finds the one that moves at its old slot
      obtain ⟨i, hi, x, hx, hne⟩ := hmove
      have hsame := SlotTable.rehash_of_still fun j (hj : j < i) => hall j (by omega)
      refine hne ?_
      rw [h.nwpos, ← hcomm]
      refine hall i (by omega) x ?_
      rw [hsame]
      exact holds_iff.mp hx
  refine ⟨⟨⟨k + 1, ?_, by rw [hcap, hk2]⟩, by rw [hcap, hw.length]⟩, by rw [hcap, hcomm],
    hw.handle, by rw [hslots, hcomm]⟩
  -- the assertion bounds the capacity by the number of handles
  by_contra hgt
  have hbig : 2 ^ 25 ≤ 2 ^ (k + 1) := Nat.pow_le_pow_right (by omega) (by omega)
  rw [hk2] at hmark
  simp only [ACOTR_ID_MARK] at hmark
  omega

/-- **A resize of a settled table that moves some actor** doubles the table. -/
theorem grow_doubles (h : Shape r) (hS : r.Settled)
    (hmove : ∃ i < r.m_actorCap, ∃ x, r.Holds i x ∧ r.nwpos x ≠ i)
    (hmark : r.m_actorCap * 2 - 1 ≤ ACOTR_ID_MARK) : Doubles r r.grow := by
  have hg := grow_grows h hmove hmark
  refine ⟨hg.shape, hg.cap, hg.handle, ?_⟩
  rw [hg.slots]
  exact SlotTable.rehash_split ((settled_iff h).mp hS) h.pos fun j _ => h.slots_of_le (by omega)

section Doubled

variable {r' : ActorSystem α}

/-- A doubled registry looks up the same.
SOURCE: module/actorSystem.cc:87-96 -/
theorem Doubles.getGrab (hd : Doubles r r') (h : Shape r) : r'.getGrab = r.getGrab := by
  funext k
  rw [getGrab_eq h, getGrab_eq hd.shape, hd.cap, hd.handle, SlotTable.lookup_split h.pos hd.split]

/-- The actors of a doubled table were in the table before. -/
theorem Doubles.mem_slots (hd : Doubles r r') {i : ℕ} {x : α} (hx : slots r' i = some x) :
    ∃ j, slots r j = some x := by
  have hi : i < 2 * r.m_actorCap := by
    by_contra hge
    rw [hd.shape.slots_of_le (by rw [hd.cap]; omega)] at hx
    cases hx
  by_cases hlow : i < r.m_actorCap
  · exact ⟨i, (hd.split i hlow).1 ▸ hx⟩
  · have hhigh := (hd.split (i - r.m_actorCap) (by omega)).2
    rw [show i - r.m_actorCap + r.m_actorCap = i by omega, hx, eq_comm,
      Option.filter_eq_some_iff] at hhigh
    exact ⟨_, hhigh.1⟩

/-- A table that is full again after a resize has moved all its actors. -/
theorem Doubles.full (hd : Doubles r r') (hfull : r'.findHandle = none) :
    ∀ j < r.m_actorCap, ∃ x, slots r j = some x ∧ r.m_handle x % (2 * r.m_actorCap) =
      j + r.m_actorCap ∧ slots r' j = some x ∧ slots r' (j + r.m_actorCap) = some x := by
  intro j hj
  have hcap := hd.cap
  obtain ⟨x, hx⟩ := findHandle_none hd.shape hfull (j := j + r.m_actorCap) (by omega)
  obtain ⟨hlow, hhigh⟩ := hd.split j hj
  rw [hx, eq_comm, Option.filter_eq_some_iff] at hhigh
  exact ⟨x, hhigh.1, by simpa using hhigh.2, hlow.trans hhigh.1, hx⟩

/-- Every actor then stands at its own slot, which is in the second half, and at the slot it was
copied from. -/
theorem Doubles.entry_of_full (hd : Doubles r r') (hfull : r'.findHandle = none) {i : ℕ} {x : α}
    (hi : i < r'.m_actorCap) (hx : slots r' i = some x) :
    slots r' (r.m_handle x % (2 * r.m_actorCap)) = some x ∧
      r.m_actorCap ≤ r.m_handle x % (2 * r.m_actorCap) := by
  have hcap := hd.cap
  by_cases hlow : i < r.m_actorCap
  · obtain ⟨y, -, hy, hylow, hyhigh⟩ := hd.full hfull i hlow
    obtain rfl : x = y := by simpa [hx] using hylow
    exact ⟨hy ▸ hyhigh, by omega⟩
  · obtain ⟨y, -, hy, -, hyhigh⟩ := hd.full hfull (i - r.m_actorCap) (by omega)
    rw [show i - r.m_actorCap + r.m_actorCap = i by omega] at hy hyhigh
    obtain rfl : x = y := by simpa [hx] using hyhigh
    exact ⟨hy ▸ hyhigh, by omega⟩

/-- A full table that has been doubled is settled. -/
theorem Doubles.settled_of_full (hd : Doubles r r') (hfull : r'.findHandle = none) :
    r'.Settled := by
  rw [settled_iff hd.shape, hd.handle]
  intro i hi x hx
  left
  rw [hd.cap]
  exact (hd.entry_of_full hfull hi hx).1

/-- The first slot of either half of the table of four times the size is that of slot 0 in the
table of twice the size. -/
theorem mod_double_eq_zero {k cap : ℕ} (hdvd : 2 * cap ∣ k % (2 * (2 * cap))) :
    k % (2 * cap) = 0 := by
  rw [← Nat.mod_mod_of_dvd k (Dvd.intro_left 2 rfl : 2 * cap ∣ 2 * (2 * cap))]
  exact Nat.mod_eq_zero_of_dvd hdvd

/-- The next resize moves the copy at slot 0. -/
theorem Doubles.moves_of_full (hd : Doubles r r') (h : Shape r) (hfull : r'.findHandle = none) :
    ∃ i < r'.m_actorCap, ∃ x, r'.Holds i x ∧ r'.nwpos x ≠ i := by
  have hpos := h.pos
  obtain ⟨x, -, hx, hxlow, -⟩ := hd.full hfull 0 hpos
  refine ⟨0, hd.shape.pos, x, holds_iff.mpr hxlow, fun hzero => ?_⟩
  rw [hd.shape.nwpos, hd.handle, hd.cap] at hzero
  have hlow := mod_double_eq_zero (hzero ▸ dvd_zero _)
  omega

/-- And leaves a free slot: the first of the new half would need an actor of the first half. -/
theorem Doubles.not_full_twice {r'' : ActorSystem α} (hd : Doubles r r') (hd' : Doubles r' r'')
    (h : Shape r) (hfull : r'.findHandle = none) : r''.findHandle ≠ none := by
  intro hfull'
  have hpos := h.pos
  obtain ⟨x, hx, hxp, -, -⟩ := hd'.full hfull' 0 hd.shape.pos
  have hplace := (hd.entry_of_full hfull hd.shape.pos hx).2
  rw [hd.handle, hd.cap, Nat.zero_add] at hxp
  have hlow := mod_double_eq_zero (dvd_of_eq hxp.symm)
  omega

end Doubled

/-! ## The calls -/

/-- The actors of the list are those of the slots. -/
theorem mem_actors_iff {obj : α} : some obj ∈ r.m_actors ↔ ∃ i, slots r i = some obj := by
  simp only [List.mem_iff_getElem?, slots, Option.join_eq_some_iff]

/-- `doUnRegister` unbinds the handle.
SOURCE: module/actorSystem.cc:66-77, 87-96 -/
theorem doUnRegister_spec (h : Shape r) (handle : ℕ) :
    Shape (r.doUnRegister handle).2 ∧
      (r.doUnRegister handle).2.getGrab = Function.update r.getGrab handle none := by
  have hgrab : r.getGrab = SlotTable.lookup (slots r) r.m_handle r.m_actorCap :=
    funext fun k => getGrab_eq h k
  have hkeep : r.getGrab handle = none →
      Shape r ∧ r.getGrab = Function.update r.getGrab handle none := fun hnone =>
    ⟨h, by rw [← hnone, Function.update_eq_self]⟩
  unfold ActorSystem.doUnRegister
  split
  · next x hx =>
    split
    · next hk =>
      have hslot : slots r (handle % r.m_actorCap) = some x := by
        rw [← h.local_addr, slots, hx]
        rfl
      have hshape : Shape { r with m_actors := r.m_actors.set (r.local_addr handle) none } :=
        ⟨h.pow, by simpa using h.length⟩
      refine ⟨hshape, ?_⟩
      funext k
      rw [getGrab_eq hshape, slots_set (h.local_addr_lt handle), h.local_addr, hgrab]
      exact congrFun (SlotTable.lookup_erase hslot hk) k
    · next hk => exact hkeep (by simp [ActorSystem.getGrab, hx, hk])
  · next hx =>
    refine hkeep ?_
    unfold ActorSystem.getGrab
    split
    · next x hx' => exact absurd hx' (hx x)
    · rfl

section Register

variable [DecidableEq α] {obj : α}

/-- What a registration that returns does: it binds a handle that nothing was bound to. -/
def Registers (r : ActorSystem α) (obj : α) (rounds : ℕ) : Prop :=
  ∃ handle r', r.doRegister obj rounds = some (handle, r') ∧ r.getGrab handle = none ∧
    Shape r' ∧ { r' with m_handle := Function.update r'.m_handle obj handle }.getGrab =
      Function.update r.getGrab handle (some obj)

/-- A registration that finds a free slot. -/
theorem registers_of_free (h : Shape r) (hnew : some obj ∉ r.m_actors) {handle : ℕ}
    (hf : r.findHandle = some handle) (rounds : ℕ) : Registers r obj (rounds + 1) := by
  have hfree := findHandle_some h hf
  have hlt := h.local_addr_lt handle
  have hnew' : ∀ i, slots r i ≠ some obj := fun i hi => hnew (mem_actors_iff.mpr ⟨i, hi⟩)
  have hshape : Shape { r with
      m_actors := r.m_actors.set (r.local_addr handle) (some obj), m_actorSer := handle + 1 } :=
    ⟨h.pow, by simpa using h.length⟩
  have hshape' : Shape { r with
      m_actors := r.m_actors.set (r.local_addr handle) (some obj), m_actorSer := handle + 1,
      m_handle := Function.update r.m_handle obj handle } := ⟨hshape.pow, hshape.length⟩
  refine ⟨handle, _, by rw [ActorSystem.doRegister, hf], ?_, hshape, ?_⟩
  · rw [getGrab_eq h, SlotTable.lookup_of_free hfree]
  · funext k
    rw [getGrab_eq hshape']
    have hslots : slots { r with
        m_actors := r.m_actors.set (r.local_addr handle) (some obj), m_actorSer := handle + 1,
        m_handle := Function.update r.m_handle obj handle } =
        Function.update (slots r) (handle % r.m_actorCap) (some obj) := by
      rw [← h.local_addr]
      exact slots_set (r := r) hlt (some obj)
    rw [hslots]
    show SlotTable.lookup _ (Function.update r.m_handle obj handle) r.m_actorCap k = _
    rw [SlotTable.lookup_insert hfree hnew']
    have hgrab : r.getGrab = SlotTable.lookup (slots r) r.m_handle r.m_actorCap :=
      funext fun k => getGrab_eq h k
    rw [hgrab]

/-- A registration that finds the table full and settled. -/
theorem registers_of_grow {rounds : ℕ} (h : Shape r) (hnew : some obj ∉ r.m_actors)
    (hf : r.findHandle = none) (hmark : r.m_actorCap * 2 - 1 ≤ ACOTR_ID_MARK)
    (hd : Doubles r r.grow)
    (hrest : some obj ∉ r.grow.m_actors → Registers r.grow obj rounds) :
    Registers r obj (rounds + 1) := by
  have hnew' : some obj ∉ r.grow.m_actors := fun hmem => by
    obtain ⟨i, hi⟩ := mem_actors_iff.mp hmem
    exact hnew (mem_actors_iff.mpr (hd.mem_slots hi))
  obtain ⟨handle, r', hreg, hfree, hr', hgrab⟩ := hrest hnew'
  rw [hd.getGrab h] at hfree hgrab
  refine ⟨handle, r', ?_, hfree, hr', hgrab⟩
  rw [ActorSystem.doRegister, hf]
  simp only [hmark, if_true]
  exact hreg

/-- **`doRegister`** returns within three rounds when a full table is settled and can grow, and
binds a fresh handle.
SOURCE: module/actorSystem.cc:35-64 -/
theorem registers (h : Shape r) (hnew : some obj ∉ r.m_actors)
    (hcond : r.findHandle = none → r.Settled ∧ r.CanGrow) (rounds : ℕ) :
    Registers r obj (rounds + 3) := by
  cases hf : r.findHandle with
  | some handle => exact registers_of_free h hnew hf _
  | none =>
    obtain ⟨hS, hmove, hmark, hmark4⟩ := hcond hf
    have hd := grow_doubles h hS hmove hmark
    refine registers_of_grow h hnew hf hmark hd fun hnew' => ?_
    cases hf' : r.grow.findHandle with
    | some handle => exact registers_of_free hd.shape hnew' hf' _
    | none =>
      -- all actors have moved, and the table is full again
      have hmark' : r.grow.m_actorCap * 2 - 1 ≤ ACOTR_ID_MARK := by
        have := hmark4 fun i hi => by
          obtain ⟨x, hx, hxp, -, -⟩ := hd.full hf' i hi
          exact ⟨x, holds_iff.mpr hx, by rw [h.nwpos, hxp]⟩
        rw [hd.cap]
        omega
      have hd' := grow_doubles hd.shape (hd.settled_of_full hf') (hd.moves_of_full h hf') hmark'
      refine registers_of_grow hd.shape hnew' hf' hmark' hd' fun hnew'' => ?_
      obtain ⟨handle, hf''⟩ := Option.ne_none_iff_exists'.mp (hd.not_full_twice hd' h hf')
      exact registers_of_free hd'.shape hnew'' hf'' _

end Register

/-! ## A resize that moves nothing -/

/-- The table is full, and no actor has another slot in the table of twice the size. -/
structure Stuck (r : ActorSystem α) : Prop where
  full : r.findHandle = none
  still : ∀ i x, r.Holds i x → r.nwpos x = i
  cap : 0 < r.m_actorCap
  length : r.m_actorCap ≤ r.m_actors.length ∧ r.m_actors.length ≤ r.m_actorCap * 2

/-- An actor of a vector made longer was in the vector before. -/
theorem resize_eq_some {actors : List (Option α)} {n i : ℕ} {x : α} (hn : actors.length ≤ n)
    (hx : (resize actors n)[i]? = some (some x)) : actors[i]? = some (some x) := by
  simp only [resize, List.take_of_length_le hn, List.getElem?_append, List.getElem?_replicate] at hx
  split at hx
  · exact hx
  · split at hx <;> simp at hx

/-- The resize of a stuck table only makes the vector longer. -/
theorem Stuck.grow_eq (h : Stuck r) :
    r.grow = { r with m_actors := resize r.m_actors (r.m_actorCap * 2) } := by
  refine List.foldl_fixed' (fun i => ?_) _
  unfold ActorSystem.moveSlot
  split
  · next x hx => exact if_pos (h.still i x (resize_eq_some h.length.2 hx))
  · rfl

/-- It is stuck again. -/
theorem Stuck.grow (h : Stuck r) : Stuck r.grow := by
  rw [h.grow_eq]
  refine ⟨?_, fun i x hx => h.still i x (resize_eq_some h.length.2 hx), h.cap, ?_⟩
  · have hsame : ∀ handle, ActorSystem.isFree
        { r with m_actors := resize r.m_actors (r.m_actorCap * 2) } (r.local_addr handle) =
          r.isFree (r.local_addr handle) := by
      intro handle
      have hlt : r.local_addr handle < r.m_actors.length :=
        lt_of_lt_of_le (Nat.lt_of_le_pred h.cap Nat.and_le_right) h.length.1
      simp only [ActorSystem.isFree, resize, List.take_of_length_le h.length.2,
        List.getElem?_append_left hlt]
    have hfull := h.full
    unfold ActorSystem.findHandle at hfull ⊢
    rw [List.find?_eq_none] at hfull ⊢
    intro handle hmem
    show ¬ ActorSystem.isFree _ (r.local_addr handle) = true
    rw [hsame]
    exact hfull handle hmem
  · have := h.length
    simp [resize]
    omega

/-- **A registration at a stuck table never returns**: the resize never writes `m_actorCap`.
SOURCE: module/actorSystem.cc:51-62 -/
theorem Stuck.never_returns (h : Stuck r) (obj : α) (rounds : ℕ) :
    r.doRegister obj rounds = none := by
  induction rounds generalizing r with
  | zero => rfl
  | succ rounds ih =>
    rw [ActorSystem.doRegister, h.full]
    simp only [ih h.grow, ite_self]

/-! ## The registry -/

section Map

variable [DecidableEq α] {s s' : State α}

/-- What holds between two calls. -/
structure Inv (s : State α) : Prop where
  shape : Shape s.registry
  grab : s.registry.getGrab = s.live

/-- A registration under the condition.
SOURCE: module/actorSystem.cc:35-64 -/
theorem step_doRegister {obj : α} (h : Inv s) (hnew : some obj ∉ s.registry.m_actors)
    (hcond : Cond s (.doRegister obj)) :
    ∃ handle s', step s (.doRegister obj) = some s' ∧ s.live handle = none ∧
      s'.live = Function.update s.live handle (some obj) ∧ Inv s' := by
  obtain ⟨handle, r', hreg, hfree, hshape, hgrab⟩ :=
    registers h.shape hnew (hcond ⟨obj, rfl⟩) 21
  refine ⟨handle,
    { registry := { r' with m_handle := Function.update r'.m_handle obj handle }
      live := Function.update s.live handle (some obj) },
    ?_, by rw [← h.grab, hfree], rfl, ⟨⟨hshape.pow, hshape.length⟩, by rw [hgrab, h.grab]⟩⟩
  simp only [step, hnew, if_false]
  rw [show maxRounds = 21 + 3 from rfl, hreg]
  rfl

/-- **One call under the condition keeps the registry the map it should be.** -/
theorem step_inv {e : Event α} (h : Inv s) (hcond : Cond s e) (hs : step s e = some s') :
    Inv s' := by
  cases e with
  | doRegister obj =>
    have hnew : some obj ∉ s.registry.m_actors := fun hmem => by simp [step, hmem] at hs
    obtain ⟨handle, t, ht, -, -, hInv⟩ := step_doRegister h hnew hcond
    obtain rfl : t = s' := by simpa [ht] using hs
    exact hInv
  | doUnRegister handle =>
    obtain rfl : _ = s' := by simpa [step] using hs
    obtain ⟨hshape, hgrab⟩ := doUnRegister_spec h.shape handle
    exact ⟨hshape, by rw [hgrab, h.grab]⟩

/-- The registry is the map it should be after every run of calls under the condition. -/
theorem inv_of_via (h : (system α).Via Cond s) : Inv s := by
  refine h.invariant (I := Inv) ?_ (fun s e s' hI hg hs => step_inv hI hg hs)
  rintro t ⟨handles, rfl⟩
  have hshape : Shape (ActorSystem.new handles) := ⟨⟨2, by omega, rfl⟩, rfl⟩
  refine ⟨hshape, funext fun k => ?_⟩
  rw [getGrab_eq hshape]
  refine SlotTable.lookup_of_free ?_
  have hslot : ∀ i, slots (ActorSystem.new handles) i = none := by
    intro i
    by_cases hi : i < 4
    · interval_cases i <;> rfl
    · exact hshape.slots_of_le (Nat.le_of_not_lt hi)
  exact hslot _

/-- **The registry as a finite map.**  In every run of calls in which each registration that
finds the table full finds it settled and able to grow, `getGrab` finds under each handle the
actor last registered under it and not unregistered since; the next registration under the
condition returns, binds a handle that was not live and changes no other; and a registration
that finds a full table in which no actor would move never returns.
SOURCE: module/actorSystem.cc:35-77, 87-96 -/
theorem registry_map (α : Type) [DecidableEq α] (s : State α) (h : (system α).Via Cond s) :
    (∀ handle, s.registry.getGrab handle = s.live handle) ∧
      (∀ obj, some obj ∉ s.registry.m_actors → Cond s (.doRegister obj) →
        ∃ handle s', step s (.doRegister obj) = some s' ∧ s.live handle = none ∧
          s'.live = Function.update s.live handle (some obj)) ∧
      (s.registry.findHandle = none →
        (∀ i x, s.registry.Holds i x → s.registry.nwpos x = i) →
          ∀ obj rounds, s.registry.doRegister obj rounds = none) := by
  have hI := inv_of_via h
  refine ⟨fun handle => congrFun hI.grab handle, fun obj hnew hcond => ?_, fun hfull hstill => ?_⟩
  · obtain ⟨handle, s', hs, hfree, hlive, -⟩ := step_doRegister hI hnew hcond
    exact ⟨handle, s', hs, hfree, hlive⟩
  · have hlen := hI.shape.length
    exact Stuck.never_returns ⟨hfull, hstill, hI.shape.pos, by omega, by omega⟩

/-- The registry after four registrations on a new one: the fifth finds it full, settled and able
to grow, and doubles it. -/
theorem registry_map_doubles : ∃ s, (system ℕ).run
    { registry := ActorSystem.new fun _ => 0, live := fun _ => none }
    [.doRegister 1, .doRegister 2, .doRegister 3, .doRegister 4, .doRegister 5] = some s ∧
      s.registry.m_actorCap = 8 ∧ ∀ handle, s.registry.getGrab handle = s.live handle := by
  have hroom : ∀ {s : State ℕ} {e}, (s.registry.findHandle = none) = False → Cond s e :=
    fun hne _ hnone => (hne ▸ hnone).elim
  have h4 := System.Via.step (System.Via.step (System.Via.step (System.Via.step
    (A := system ℕ) (g := Cond) (.init ⟨fun _ => 0, rfl⟩)
    (e := .doRegister 1) (hroom (by decide)) rfl) (e := .doRegister 2) (hroom (by decide)) rfl)
    (e := .doRegister 3) (hroom (by decide)) rfl) (e := .doRegister 4) (hroom (by decide)) rfl
  refine ⟨_, rfl, rfl, (registry_map ℕ _ (h4.step (e := .doRegister 5) (fun _ _ => ⟨?_, ?_⟩)
    rfl)).1⟩
  · -- each of the four actors is found under its handle
    intro i hi x hx
    have hi4 : i < 4 := hi
    left
    interval_cases i <;> cases hx <;> rfl
  · -- the actor of handle 4 moves from slot 0 to slot 4, and the actor of handle 1 stays
    refine ⟨⟨0, by decide, 4, rfl, by decide⟩, by decide, fun hall => ?_⟩
    obtain ⟨x, hx, hxp⟩ := hall 1 (by decide)
    cases hx
    exact absurd hxp (by decide)

/-- Seven actors are registered, the one of handle 4 is unregistered, and two more registrations
follow: the second doubles the table to 16 slots, and the copy of actor 4 left at slot 0 is
written over the actor of handle 12.
SOURCE: module/actorSystem.cc:87-96 -/
theorem registry_loses_actor : ¬ ∀ (s : State ℕ), (system ℕ).Reachable s →
    ∀ handle, s.registry.getGrab handle = s.live handle := by
  intro hall
  obtain ⟨s, hreach, hbad⟩ := System.exists_reachable (A := system ℕ)
    [.doRegister 1, .doRegister 2, .doRegister 3, .doRegister 4, .doRegister 5, .doRegister 6,
      .doRegister 7, .doUnRegister 4, .doRegister 12, .doRegister 13]
    (fun s => s.registry.getGrab 12 != s.live 12) ⟨fun _ => 0, rfl⟩ (by decide)
  simp [hall s hreach 12] at hbad

end Map

end MagicNet.Registry
