import MagicNet.Model.IntQueue

/-!
# The ring queue is a list

While fewer than 2^29 values are held, the array of a queue has fewer than 2^30 cells: it is doubled
only when a push has filled it.  So no `int` of the queue overflows, every index is inside the
array, and each operation is the one of `Model.Queue` on natural numbers, whose contents are the
list.
-/

set_option autoImplicit false

namespace MagicNet.Util

open MagicNet.Foundation

variable {T : Type}

/-- An index that fits 32 bits is stored as it is. -/
theorem int_eq {x : ℤ} (h : -2 ^ 31 ≤ x) (h' : x < 2 ^ 31) : int x = some x := if_pos ⟨h, h'⟩

/-- The contents of a queue are those of its array from the head to the tail. -/
theorem Queue.contents_congr {q q' : Queue T} (hcap : q.m_cap = q'.m_cap)
    (hhead : q.m_head = q'.m_head) (htail : q.m_tail = q'.m_tail)
    (harrays : q.m_arrays = q'.m_arrays) : q.contents = q'.contents := by
  simp only [Queue.contents, Queue.length, hcap, hhead, htail, harrays]

/-- A queue has as many items as its length says.
SOURCE: util/queue.h:48-60 -/
theorem Queue.contents_length (q : Queue T) : q.contents.length = q.length := by
  simp [Queue.contents, Queue.cells]

namespace IntQueue

/-- The indices are in the array. -/
structure InRange (q : IntQueue T) : Prop where
  head_nonneg : 0 ≤ q.m_head
  head_lt : q.m_head < q.m_cap
  tail_nonneg : 0 ≤ q.m_tail
  tail_lt : q.m_tail < q.m_cap

/-- The queue on natural numbers. -/
def toQueue (q : IntQueue T) (h : q.InRange) : Queue T where
  m_cap := q.m_cap.toNat
  m_head := q.m_head.toNat
  m_tail := q.m_tail.toNat
  m_overload := q.m_overload.toNat
  m_overload_threshold := q.m_overload_threshold.toNat
  m_arrays := q.m_arrays
  head_lt := by
    have := h.head_nonneg
    have := h.head_lt
    omega
  tail_lt := by
    have := h.tail_nonneg
    have := h.tail_lt
    omega

/-- The array is small enough for `int`, and the queue holds the values of the list. -/
structure Holds (q : IntQueue T) (l : List T) : Prop where
  range : q.InRange
  cap : q.m_cap < 2 ^ 30
  threshold : 0 < q.m_overload_threshold
  contents : (q.toQueue range).contents = l

variable {q : IntQueue T} {l : List T}

/-- A new queue has no items.
SOURCE: util/queue.h:18-22 -/
theorem holds_new (raw : ℕ → T) : (new raw).Holds [] :=
  ⟨⟨le_refl 0, show (0 : ℤ) < 64 by decide, le_refl 0, show (0 : ℤ) < 64 by decide⟩,
    show (64 : ℤ) < 2 ^ 30 by decide, show (0 : ℤ) < 1024 by decide, rfl⟩

/-- An index inside the array. -/
theorem index_eq {i : ℤ} (h : 0 ≤ i) (h' : i < q.m_cap) : q.index i = some i.toNat :=
  if_pos ⟨h, h'⟩

@[simp] theorem toQueue_m_cap (h : q.InRange) : (q.toQueue h).m_cap = q.m_cap.toNat := rfl

@[simp] theorem toQueue_m_head (h : q.InRange) : (q.toQueue h).m_head = q.m_head.toNat := rfl

@[simp] theorem toQueue_m_tail (h : q.InRange) : (q.toQueue h).m_tail = q.m_tail.toNat := rfl

/-- The length is that of the items held.
SOURCE: util/queue.h:48-60 -/
theorem Holds.length (h : q.Holds l) : q.length = some (l.length : ℤ) := by
  obtain ⟨hh, hh', ht, ht'⟩ := h.range
  have hcap := h.cap
  have hlength : (l.length : ℤ) =
      if q.m_head ≤ q.m_tail then q.m_tail - q.m_head else q.m_tail + q.m_cap - q.m_head := by
    rw [← h.contents, Queue.contents_length, Queue.length, toQueue_m_cap, toQueue_m_head,
      toQueue_m_tail]
    split <;> split <;> omega
  rw [hlength, IntQueue.length]
  split
  · exact int_eq (by omega) (by omega)
  · rw [int_eq (by omega) (by omega), Option.bind_eq_bind, Option.bind_some]
    exact int_eq (by omega) (by omega)

/-- The next index, on integers and on natural numbers. -/
theorem advance_toNat {cap i : ℤ} (h : 0 ≤ i) :
    (if cap ≤ i + 1 then 0 else i + 1 : ℤ).toNat = Queue.advance cap.toNat i.toNat := by
  unfold Queue.advance
  split <;> split <;> omega

/-! ## A push -/

/-- The loop of `local_expand` copies the cells in order, from the head around the array.
SOURCE: util/queue.h:109-121 -/
theorem copy_eq (h : q.InRange) (hcap : q.m_cap < 2 ^ 30) (k i : ℕ) (a : ℕ → T)
    (hk : (i + k : ℤ) = q.m_cap) :
    ∃ b, q.copy k i a = some b ∧ (∀ j < i, b j = a j) ∧
      ∀ j, i ≤ j → j < i + k → b j = q.m_arrays ((q.m_head.toNat + j) % q.m_cap.toNat) := by
  induction k generalizing i a with
  | zero => exact ⟨a, rfl, fun _ _ => rfl, fun j hj hj' => absurd hj' (by omega)⟩
  | succ k ih =>
    obtain ⟨hh, hh', -, -⟩ := h
    have hmod : (q.m_head + i).tmod q.m_cap = ((q.m_head.toNat + i) % q.m_cap.toNat : ℕ) := by
      rw [Int.tmod_eq_emod_of_nonneg (by omega)]
      push_cast
      rw [Int.toNat_of_nonneg hh, Int.toNat_of_nonneg (by omega)]
    have hlt : (q.m_head.toNat + i) % q.m_cap.toNat < q.m_cap.toNat := Nat.mod_lt _ (by omega)
    obtain ⟨b, hcopy, hbelow, habove⟩ :=
      ih (i + 1) (Function.update a i (q.m_arrays ((q.m_head.toNat + i) % q.m_cap.toNat)))
        (by push_cast; omega)
    refine ⟨b, ?_, fun j hj => ?_, fun j hj hj' => ?_⟩
    · rw [copy, int_eq (by omega) (by omega)]
      simp only [Option.bind_eq_bind, Option.bind_some]
      rw [hmod, index_eq (by omega) (by omega), Option.bind_some, Int.toNat_natCast]
      exact hcopy
    · rw [hbelow j (by omega), Function.update_of_ne (by omega)]
    · rcases Nat.lt_or_eq_of_le hj with hlt' | rfl
      · exact habove j hlt' (by omega)
      · rw [hbelow i (by omega), Function.update_self]

/-- A full array is copied into one of twice the size.
SOURCE: util/queue.h:109-121 -/
theorem holds_expand (h : q.InRange) (hcap : q.m_cap < 2 ^ 29)
    (hthreshold : 0 < q.m_overload_threshold) (raw : ℕ → T) :
    ∃ q', q.local_expand raw = some q' ∧ q'.Holds (q.toQueue h).local_expand.contents := by
  obtain ⟨b, hcopy, -, hcells⟩ := copy_eq h (by omega) q.m_cap.toNat 0 raw
    (by have := h.head_nonneg; have := h.head_lt; omega)
  have hh := h.head_nonneg
  have hh' := h.head_lt
  refine ⟨{ q with m_head := 0, m_tail := q.m_cap, m_cap := q.m_cap * 2, m_arrays := b }, ?_,
    ⟨?_, ?_, ?_, ?_⟩, ?_, hthreshold, ?_⟩
  · rw [local_expand, hcopy]
    simp only [Option.bind_eq_bind, Option.bind_some]
    rw [int_eq (by omega) (by omega), Option.bind_some]
  · exact le_refl 0
  · change 0 < q.m_cap * 2
    omega
  · change 0 ≤ q.m_cap
    omega
  · change q.m_cap < q.m_cap * 2
    omega
  · change q.m_cap * 2 < 2 ^ 30
    omega
  · have hcap' : (q.m_cap * 2).toNat = q.m_cap.toNat * 2 := by omega
    rw [Queue.contents_expand]
    simp only [Queue.contents, Queue.length, toQueue, Int.toNat_zero, Nat.zero_le, if_true,
      Nat.sub_zero, hcap']
    apply Queue.cells_congr
    intro i hi
    rw [Nat.zero_add, Nat.mod_eq_of_lt (by omega), hcells i (Nat.zero_le i) (by omega)]

/-- **A push appends its value.**
SOURCE: util/queue.h:72-82 -/
theorem Holds.push (h : q.Holds l) (val : T) (raw : ℕ → T) (hheld : l.length + 1 < 2 ^ 29) :
    ∃ q', q.local_push val raw = some q' ∧ q'.Holds (l ++ [val]) := by
  have hrange := h.range
  obtain ⟨hh, hh', ht, ht'⟩ := h.range
  have hcap := h.cap
  have hcontents := Queue.contents_push (q.toQueue hrange) val
  rw [h.contents] at hcontents
  set tail : ℤ := if q.m_cap ≤ q.m_tail + 1 then 0 else q.m_tail + 1 with htail
  have htail' : 0 ≤ tail ∧ tail < q.m_cap := by
    rw [htail]
    split <;> omega
  set q₁ : IntQueue T :=
    { q with m_arrays := Function.update q.m_arrays q.m_tail.toNat val, m_tail := tail } with hq₁
  have hrange₁ : q₁.InRange := ⟨hh, hh', htail'.1, htail'.2⟩
  have hwrite : q₁.toQueue hrange₁ = (q.toQueue hrange).write val := by
    have hadvance : tail.toNat = Queue.advance q.m_cap.toNat q.m_tail.toNat := advance_toNat ht
    simp only [toQueue, Queue.write, hq₁, hadvance]
  have hpush : q.local_push val raw = if q₁.m_head = q₁.m_tail then q₁.local_expand raw
      else some q₁ := by
    have hint : int (q.m_tail + 1) = some (q.m_tail + 1) := int_eq (by omega) (by omega)
    simp only [local_push, index_eq ht ht', hint, Option.bind_eq_bind, Option.bind_some]
    rfl
  rw [hpush]
  have hsame : q₁.m_head = q₁.m_tail ↔
      ((q.toQueue hrange).write val).m_head = ((q.toQueue hrange).write val).m_tail := by
    rw [← hwrite]
    simp only [toQueue, hq₁]
    omega
  unfold Queue.local_push at hcontents
  simp only at hcontents
  split
  · next hfull =>
    rw [if_pos (hsame.mp hfull), ← hwrite] at hcontents
    have hlength := congrArg List.length hcontents
    rw [Queue.contents_expand] at hlength
    simp only [Queue.cells, toQueue, List.length_map, List.length_range, List.length_append,
      List.length_singleton] at hlength
    have hcap₁ : q₁.m_cap < 2 ^ 29 := by
      change q.m_cap < 2 ^ 29
      change q.m_cap.toNat = l.length + 1 at hlength
      omega
    rw [← hcontents]
    exact holds_expand hrange₁ hcap₁ h.threshold raw
  · next hfull =>
    rw [if_neg (fun heq => hfull (hsame.mpr heq)), ← hwrite] at hcontents
    exact ⟨q₁, rfl, hrange₁, hcap, h.threshold, hcontents⟩

/-! ## A pop -/

/-- The loop over the threshold ends without an overflow.
SOURCE: util/queue.h:62-69 -/
theorem overloaded_some (length overload threshold : ℤ) (hlength : length < 2 ^ 30)
    (hthreshold : 0 < threshold) :
    ∃ r, overloaded length overload threshold = some r ∧ 0 < r.2 := by
  induction overload, threshold using overloaded.induct length with
  | case1 overload threshold hlt hpos ih =>
    obtain ⟨r, hr, hr'⟩ := ih (by omega)
    refine ⟨r, ?_, hr'⟩
    rw [overloaded, if_pos hlt, if_pos hpos]
    exact hr
  | case2 overload threshold hlt hneg => exact absurd ⟨hthreshold, by omega⟩ hneg
  | case3 overload threshold hle =>
    refine ⟨(overload, threshold), ?_, hthreshold⟩
    rw [overloaded, if_neg hle]

/-- **A pop takes the first value**, if there is one.
SOURCE: util/queue.h:84-107 -/
theorem Holds.pop (h : q.Holds l) :
    ∃ q', q.local_pop = some (l.head?, q') ∧ q'.Holds l.tail := by
  have hrange := h.range
  obtain ⟨hh, hh', ht, ht'⟩ := h.range
  have hcap := h.cap
  obtain ⟨hvalue, hcontents⟩ := Queue.contents_pop (q.toQueue hrange)
  rw [h.contents] at hvalue hcontents
  have hne : (q.toQueue hrange).m_head ≠ (q.toQueue hrange).m_tail ↔ q.m_head ≠ q.m_tail := by
    simp only [toQueue]
    omega
  unfold Queue.local_pop at hvalue hcontents
  unfold local_pop
  split
  · next hsome =>
    rw [if_pos (hne.mpr hsome)] at hvalue hcontents
    set head : ℤ := if q.m_cap ≤ q.m_head + 1 then 0 else q.m_head + 1 with hhead
    have hhead' : 0 ≤ head ∧ head < q.m_cap := by
      rw [hhead]
      split <;> omega
    set length : ℤ := if q.m_tail - head < 0 then q.m_tail - head + q.m_cap else q.m_tail - head
      with hlength
    have hnext : int (q.m_head + 1) = some (q.m_head + 1) := int_eq (by omega) (by omega)
    have hdiff : int (q.m_tail - head) = some (q.m_tail - head) := int_eq (by omega) (by omega)
    have hwrap : q.wrap (q.m_tail - head) = some length := by
      rw [wrap, hlength]
      split
      · exact int_eq (by omega) (by omega)
      · rfl
    obtain ⟨r, hr, hr'⟩ := overloaded_some length q.m_overload q.m_overload_threshold
      (by rw [hlength]; split <;> omega) h.threshold
    refine ⟨{ q with m_head := head, m_overload := r.1, m_overload_threshold := r.2 }, ?_,
      ⟨hhead'.1, hhead'.2, ht, ht'⟩, hcap, hr', ?_⟩
    · simp only [index_eq hh hh', hnext, Option.bind_eq_bind, Option.bind_some]
      rw [← hhead, hdiff, Option.bind_some, hwrap, Option.bind_some, hr, Option.bind_some, ← hvalue]
      rfl
    · rw [← hcontents]
      exact Queue.contents_congr rfl (advance_toNat hh) rfl rfl
  · next hnone =>
    rw [if_neg (fun hsome => hnone (hne.mp hsome))] at hvalue hcontents
    refine ⟨{ q with m_overload_threshold := EQ_OVERLOAD }, ?_, ⟨hh, hh', ht, ht'⟩, hcap,
      show (0 : ℤ) < 1024 by decide, ?_⟩
    · rw [← hvalue]
    · rw [← hcontents]
      exact Queue.contents_congr rfl rfl rfl rfl

end IntQueue

/-! ## Runs -/

namespace QueueRun

variable {s s' : State T} {e : Event T}

/-- **One operation** on a queue that holds the values of the list. -/
theorem step_behaves (h : s.q.Holds s.contents) (hs : step s e = some s') :
    Behaves s e s' ∧ s'.q.Holds s'.contents := by
  obtain ⟨-, hheld, hcontents, hrun⟩ := step_eq hs
  have hdone : ∃ q, e.run s.q = some (q, e.answer s.contents) ∧ q.Holds (e.apply s.contents) := by
    cases e with
    | push val raw =>
      have hlength : s.contents.length + 1 < 2 ^ 29 := by simpa [Event.apply] using hheld
      obtain ⟨q, hpush, hq⟩ := h.push val raw hlength
      exact ⟨q, by rw [Event.run, hpush]; rfl, hq⟩
    | pop =>
      obtain ⟨q, hpop, hq⟩ := h.pop
      exact ⟨q, by rw [Event.run, hpop]; rfl, hq⟩
    | length => exact ⟨s.q, by rw [Event.run, h.length]; rfl, h⟩
  obtain ⟨q, hsome, hq⟩ := hdone
  rw [hsome] at hrun
  rcases hrun with ⟨hnone, -⟩ | ⟨hsame, hdefined⟩
  · cases hnone
  · obtain ⟨rfl, hreturned⟩ := Prod.mk.inj (Option.some.inj hsame)
    rw [← hcontents] at hq
    have hrange := hq.range
    exact ⟨⟨hdefined, hreturned.symm, ⟨hrange.head_nonneg, hrange.head_lt⟩,
      ⟨hrange.tail_nonneg, hrange.tail_lt⟩, hq.length⟩, hq⟩

/-- **A ring queue refines a list**, in any run of its operations that holds fewer than 2^29 values
at once: every operation returns what the list returns, and leaves both indices in the array.
SOURCE: util/queue.h:14-124 -/
theorem queue_refines (s₀ : State T) (es : List (Event T)) (h0 : Starts s₀) :
    (system T).Always Behaves s₀ es := by
  apply System.always_of_invariant (I := fun s => s.q.Holds s.contents)
  · intro s e s' h hs
    exact step_behaves h hs
  · obtain ⟨raw, hq⟩ := h0.q
    rw [hq, h0.contents]
    exact IntQueue.holds_new raw

/-- A queue just constructed, over an array of zeros. -/
def start : State ℕ := ⟨.new fun _ => 0, [], .nothing, true⟩

/-- Two pushes and three pops. -/
theorem queue_refines_two : (system ℕ).Always Behaves start
    [.push 5 fun _ => 0, .push 6 fun _ => 0, .pop, .length, .pop, .pop] :=
  queue_refines start _ ⟨⟨_, rfl⟩, rfl, rfl⟩

end QueueRun

end MagicNet.Util
