import MagicNet.Model.TwoWayList

/-!
# What the operations on two-way lists do

Each operation has one theorem: on ends that are exact it neither follows a null pointer nor fails
an assertion, what it leaves is exact again, and it writes to the links of its own items only.
`eraseUnLock` does not move `m_head` on when it takes the first item, so the deque it is used on
is not exact; all it needs of its `m_head` is whether it is null.
-/

set_option autoImplicit false

namespace MagicNet.Util

open MagicNet.Foundation

variable {A : Type}

namespace Memory

variable {mem mem' : Memory A} {l m : List A}

/-- The links are a matter of the items' own fields. -/
theorem Links.congr (h : mem.Links l) (hsame : ∀ a ∈ l, mem.Same mem' a) : mem'.Links l :=
  Linked.congr h (fun a ha => (hsame a ha).1) fun a ha => (hsame a ha).2

variable [DecidableEq A] {a : A} {v : Option A}

@[simp] theorem setPrev_some : mem.setPrev (some a) v =
    some { mem with _prev := Function.update mem._prev a v } := rfl

@[simp] theorem setNext_some : mem.setNext (some a) v =
    some { mem with _next := Function.update mem._next a v } := rfl

end Memory

namespace Ends

variable {mem mem' : Memory A} {q s : Ends A} {l m r : List A} {a : A} {n : ℕ}

/-- The items of a list that holds `l`. -/
theorem Holds.items_eq (h : q.Holds mem l) : q.items mem = l := by
  have hback := h.links.walk_prev
  rw [Option.or_none] at hback
  rw [items, h.tail, h.count]
  exact hback

/-- Read from the head, an exact list has the same items. -/
theorem Exact.walk_next (h : q.Exact mem l) : walk mem._next q.m_head q.m_count = l := by
  have hforth := h.links.walk_next
  rw [Option.or_none] at hforth
  rw [h.head, h.count]
  exact hforth

/-- What a list holds is a matter of the items' fields. -/
theorem Holds.congr (h : q.Holds mem l) (hsame : ∀ a ∈ l, mem.Same mem' a) : q.Holds mem' l :=
  ⟨h.empty, h.tail, h.count, h.links.congr hsame⟩

/-- The list without items.
SOURCE: util/list.h:174-177 -/
theorem exact_zero : zero.Exact mem ([] : List A) := exact_of rfl rfl rfl trivial

/-- A list with a head is not empty. -/
theorem Holds.ne_nil (h : q.Holds mem l) (hne : q.m_head ≠ none) : l ≠ [] :=
  fun hnil => hne (h.empty.mpr hnil)

/-- A list without items can be destroyed.
SOURCE: util/list.h:167-172 -/
theorem Holds.destroy (h : q.Holds mem []) : q.destroy = some () := by
  rw [Ends.destroy, h.count]
  rfl

/-- It is the one that `zero` makes.
SOURCE: util/list.h:174-177 -/
theorem Exact.eq_zero (h : q.Exact mem []) : q = zero := by
  obtain ⟨head, tail, count⟩ := q
  have hhead := h.head
  have htail := h.tail
  have hcount := h.count
  subst hhead htail hcount
  rfl

/-- The item before another one in a chain. -/
theorem prev_of_links {b : A} (h : mem.Links (l ++ a :: b :: m)) : mem._prev b = some a := by
  have hsplit : mem.Links ((l ++ [a]) ++ b :: m) := by simpa using h
  have hlast := (linked_append.mp hsplit).2
  rw [List.getLast?_concat] at hlast
  exact hlast.1

/-- The item after one in the list. -/
theorem next_of_links {b : A} (h : mem.Links (l ++ a :: b :: m)) : mem._next a = some b :=
  (linked_append.mp h).2.2.1

/-- Nothing is before the first. -/
theorem first_prev (h : mem.Links l) (ha : l.head? = some a) : mem._prev a = none := by
  cases l with
  | nil => cases ha
  | cons b l =>
    cases ha
    exact h.1

/-- Nothing is after the last. -/
theorem last_next (h : mem.Links l) (ha : l.getLast? = some a) : mem._next a = none := by
  rw [← List.head?_reverse] at ha
  have hback : Memory.Links ⟨mem._next, mem._prev⟩ l.reverse := h.reverse
  exact first_prev hback ha

/-! ## Joining two lists -/

section Join

variable [DecidableEq A]

/-- The memory in which the last of `l` and the first of `m` are made neighbours. -/
def bridge (mem : Memory A) (l m : List A) : Memory A :=
  ⟨setLink mem._prev m.head? l.getLast?, setLink mem._next l.getLast? m.head?⟩

/-- Joining two lists leaves all other items.
SOURCE: util/list.h:111-130 -/
theorem bridge_same (ha : a ∉ l ++ m) : mem.Same (bridge mem l m) a := by
  rw [List.mem_append, not_or] at ha
  constructor
  · apply setLink_of_ne
    intro heq
    exact ha.2 (List.mem_of_head? heq)
  · apply setLink_of_ne
    intro heq
    exact ha.1 (List.mem_of_getLast? heq)

/-- It gives the list of both.
SOURCE: util/list.h:111-130 -/
theorem bridge_exact (hq : q.Exact mem l) (hs : s.Exact mem m) (hl : l ≠ []) (hm : m ≠ [])
    (hnodup : (l ++ m).Nodup) :
    Exact (bridge mem l m) ⟨q.m_head, s.m_tail, q.m_count + s.m_count⟩ (l ++ m) := by
  apply exact_of
  · rw [List.head?_append_of_ne_nil l hl]
    exact hq.head
  · rw [List.getLast?_append_of_ne_nil l hm]
    exact hs.tail
  · rw [List.length_append, ← hq.count, ← hs.count]
  · have hjoin := hq.links.join hs.links hnodup
    rwa [Option.or_none, Option.or_none] at hjoin

/-- The two writes between two lists that are not empty. -/
theorem bridge_writes (hq : q.Exact mem l) (hs : s.Exact mem m) (hl : l ≠ []) (hm : m ≠ []) :
    (mem.setNext q.m_tail s.m_head).bind (fun mem => mem.setPrev s.m_head q.m_tail) =
      some (bridge mem l m) := by
  obtain ⟨a, ha⟩ := Option.ne_none_iff_exists'.mp (List.getLast?_eq_none_iff.not.mpr hl)
  obtain ⟨b, hb⟩ := Option.ne_none_iff_exists'.mp (List.head?_eq_none_iff.not.mpr hm)
  rw [hq.tail, hs.head, bridge, ha, hb]
  rfl

omit [DecidableEq A] in
/-- A list that is not empty has a last item, and its tail stays where it is. -/
theorem tail_or (hs : s.Exact mem m) (hm : m ≠ []) (v : Option A) :
    s.m_tail.or v = s.m_tail := by
  obtain ⟨b, hb⟩ := Option.ne_none_iff_exists'.mp (List.getLast?_eq_none_iff.not.mpr hm)
  rw [hs.tail, hb, Option.some_or]

/-- **`append`** puts the other list behind this one and leaves it empty. -/
theorem append_exact (hq : q.Exact mem l) (hs : s.Exact mem m) (hnodup : (l ++ m).Nodup) :
    ∃ mem' q', append mem q s = some (mem', q', zero) ∧ q'.Exact mem' (l ++ m) ∧
      ∀ a ∉ l ++ m, mem.Same mem' a := by
  unfold append
  split
  · next hnil =>
    obtain rfl := hs.empty.mp hnil
    rw [hs.eq_zero, List.append_nil]
    exact ⟨mem, q, rfl, hq, fun _ _ => ⟨rfl, rfl⟩⟩
  · next hm =>
    split
    · next hnil =>
      obtain rfl := hq.empty.mp hnil
      exact ⟨mem, s, rfl, hs, fun _ _ => ⟨rfl, rfl⟩⟩
    · next hl =>
      have hl := hq.ne_nil hl
      have hm := hs.ne_nil hm
      refine ⟨bridge mem l m, _, ?_, bridge_exact hq hs hl hm hnodup, fun a => bridge_same⟩
      obtain ⟨mem₁, h₁, h₂⟩ := Option.bind_eq_some_iff.mp (bridge_writes hq hs hl hm)
      simp [h₁, h₂, tail_or hs hm]

/-- `pushUnlock(list)` is `append` under another name.
SOURCE: util/deque.h:33-48, 55-73 -/
theorem pushListUnlock_eq (hs : s.Exact mem m) : pushListUnlock mem q s = append mem q s := by
  unfold pushListUnlock append
  by_cases hnil : s.m_head = none
  · rw [if_pos hnil, if_pos hnil]
  · rw [if_neg hnil, if_neg hnil, tail_or hs (hs.ne_nil hnil)]

/-- **`pushUnlock(list)`** puts the list behind the queue's items and leaves it empty.
SOURCE: util/deque.h:33-48, 55-73 -/
theorem pushListUnlock_exact (hq : q.Exact mem l) (hs : s.Exact mem m)
    (hnodup : (l ++ m).Nodup) :
    ∃ mem' q', pushListUnlock mem q s = some (mem', q', zero) ∧ q'.Exact mem' (l ++ m) ∧
      ∀ a ∉ l ++ m, mem.Same mem' a := by
  rw [pushListUnlock_eq hs]
  exact append_exact hq hs hnodup

end Join

/-! ## Splitting a list -/

/-- The ends of a list without repetitions are the same item when it has no second one. -/
theorem head_eq_getLast (hnodup : l.Nodup) : l.head? = l.getLast? ↔ l.length ≤ 1 := by
  match l with
  | [] => simp
  | [a] => simp
  | a :: b :: l =>
    have hmem : (b :: l).getLast (by simp) ∈ b :: l := List.getLast_mem _
    have hne := ne_of_mem_of_not_mem hmem (List.nodup_cons.mp hnodup).1
    simp [List.getLast?_cons, eq_comm, List.getLast_eq_getLastD] at hne ⊢
    exact hne

/-- The first `n` steps from the head. -/
theorem forward_eq {p r : Option A} (h : Linked mem._prev mem._next p (l ++ a :: m) r) :
    mem.forward l.length (l ++ a :: m).head? = some (some a) := by
  induction l generalizing p with
  | nil => rfl
  | cons b l ih =>
    obtain ⟨-, hn, hrest⟩ := h
    have hne : l ++ a :: m ≠ [] := by simp
    obtain ⟨c, hc⟩ := Option.ne_none_iff_exists'.mp (List.head?_eq_none_iff.not.mpr hne)
    have hih := ih hrest
    rw [hc] at hih
    change mem.forward l.length (mem._next b) = some (some a)
    rw [hn]
    change mem.forward l.length ((l ++ a :: m).head?.or r) = some (some a)
    rw [hc, Option.some_or, hih]

/-- A list that is longer than `k + 1` around its items `k` and `k + 1`. -/
theorem exists_split {k : ℕ} (h : k + 1 < l.length) :
    ∃ front a b back, l = front ++ a :: b :: back ∧ front.length = k := by
  obtain ⟨a, back, ha⟩ := List.exists_cons_of_length_pos (l := l.drop k) (by simp; omega)
  have hlen := congrArg List.length ha
  rw [List.length_drop, List.length_cons] at hlen
  obtain ⟨b, back, rfl⟩ := List.exists_cons_of_length_pos (l := back) (by omega)
  refine ⟨l.take k, a, b, back, ?_, by simp; omega⟩
  rw [← ha, List.take_append_drop]

section Split

variable [DecidableEq A]

/-- The memory in which the last of `l` and the first of `m` are no neighbours any more. -/
def sever (mem : Memory A) (l m : List A) : Memory A :=
  ⟨setLink mem._prev m.head? none, setLink mem._next l.getLast? none⟩

/-- Cutting leaves all other items.
SOURCE: util/list.h:132-164 -/
theorem sever_same (ha : a ∉ l ++ m) : mem.Same (sever mem l m) a := by
  rw [List.mem_append, not_or] at ha
  constructor
  · apply setLink_of_ne
    intro heq
    exact ha.2 (List.mem_of_head? heq)
  · apply setLink_of_ne
    intro heq
    exact ha.1 (List.mem_of_getLast? heq)

/-- It gives the two parts.
SOURCE: util/list.h:132-164 -/
theorem sever_exact (hq : q.Exact mem (l ++ m)) (hl : l ≠ []) (hm : m ≠ [])
    (hnodup : (l ++ m).Nodup) :
    Exact (sever mem l m) ⟨q.m_head, l.getLast?, l.length⟩ l ∧
      Exact (sever mem l m) ⟨m.head?, q.m_tail, m.length⟩ m := by
  have hcut := hq.links.cut hnodup none none
  constructor
  · refine exact_of ?_ rfl rfl hcut.1
    rw [hq.head, List.head?_append_of_ne_nil l hl]
  · refine exact_of rfl ?_ rfl hcut.2
    rw [hq.tail, List.getLast?_append_of_ne_nil l hm]

/-- **`cut(n)`** takes the first `n` items off the list, or all there are. -/
theorem cut_exact (hq : q.Exact mem l) (hnodup : l.Nodup) :
    ∃ mem' q' o, cut mem q n = some (mem', q', o) ∧ q'.Exact mem' (l.drop n) ∧
      o.Exact mem' (l.take n) ∧ ∀ a ∉ l, mem.Same mem' a := by
  unfold cut
  split
  · next hnil =>
    obtain rfl := hq.empty.mp hnil
    exact ⟨mem, q, zero, rfl, by simpa using hq, by simpa using exact_zero, fun _ _ => ⟨rfl, rfl⟩⟩
  · split
    · next hall =>
      rw [hq.count] at hall
      refine ⟨mem, zero, q, rfl, ?_, ?_, fun _ _ => ⟨rfl, rfl⟩⟩
      · rw [List.drop_of_length_le hall]
        exact exact_zero
      · rw [List.take_of_length_le hall]
        exact hq
    · next hlt =>
      rw [hq.count, not_le] at hlt
      split
      · next hzero =>
        subst hzero
        exact ⟨mem, q, zero, rfl, hq, exact_zero, fun _ _ => ⟨rfl, rfl⟩⟩
      · next hpos =>
        obtain ⟨front, a, b, back, rfl, hlen⟩ := exists_split (l := l) (k := n - 1) (by omega)
        obtain rfl : n = (front ++ [a]).length := by simp; omega
        have hforward := forward_eq hq.links
        have hnext := next_of_links hq.links
        have hprev := prev_of_links hq.links
        have hsplit : front ++ a :: b :: back = (front ++ [a]) ++ b :: back := by simp
        rw [hsplit] at hq hnodup ⊢
        obtain ⟨hfront, hback⟩ := sever_exact hq (by simp) (by simp) hnodup
        rw [List.drop_left, List.take_left]
        refine ⟨sever mem (front ++ [a]) (b :: back), _, _, ?_, hback, hfront, fun a => sever_same⟩
        rw [hsplit, ← hq.head] at hforward
        have hcount : q.m_count - (front.length + 1) = back.length + 1 := by
          rw [hq.count]
          simp
          omega
        simp [hforward, hnext, hprev, hcount, sever]

/-- The loop of `popBackUnlock`, when it has come as far as the first item of `m`.
SOURCE: util/deque.h:127-139, 156-180 -/
theorem backward_eq {k : ℕ} (h : mem.Links (l ++ m)) (hm : m ≠ []) (hnodup : (l ++ m).Nodup) :
    backward mem (l ++ m).head? k m.head? m.length =
      some (((l ++ m).drop (l.length - k)).head?, ((l ++ m).drop (l.length - k)).length) := by
  induction k generalizing l m with
  | zero => simp [backward]
  | succ k ih =>
    rcases List.eq_nil_or_concat l with rfl | ⟨l, a, rfl⟩
    · simp [backward]
    · rw [List.concat_eq_append] at *
      obtain ⟨b, m, rfl⟩ := List.exists_cons_of_ne_nil hm
      have hne : (b :: m).head? ≠ (l ++ [a] ++ b :: m).head? := by
        intro heq
        have hmem : b ∈ l ++ [a] := by
          rw [List.head?_append_of_ne_nil _ (by simp)] at heq
          exact List.mem_of_head? heq.symm
        exact List.disjoint_of_nodup_append hnodup hmem List.mem_cons_self
      have hsplit : l ++ [a] ++ b :: m = l ++ a :: b :: m := by simp
      rw [backward, if_neg hne, hsplit]
      rw [hsplit] at h hnodup
      have hprev := prev_of_links h
      have hih := ih h (by simp) hnodup
      simpa [hprev] using hih

/-- What the end is taken off gives the two parts.
SOURCE: util/deque.h:156-180 -/
theorem takeBack_exact {rest : ℕ} (hq : q.Exact mem l) (hnodup : l.Nodup)
    (hrest : rest < l.length) :
    ∃ mem' q' o,
      takeBack mem q (l.drop rest).head? (l.drop rest).length = some (mem', q', o) ∧
      q'.Exact mem' (l.take rest) ∧ o.Exact mem' (l.drop rest) ∧ ∀ a ∉ l, mem.Same mem' a := by
  unfold takeBack
  rcases Nat.eq_zero_or_pos rest with rfl | hpos
  · rw [List.drop_zero, List.take_zero, if_pos hq.head.symm]
    exact ⟨mem, zero, _, rfl, exact_zero, exact_of rfl hq.tail rfl hq.links, fun _ _ => ⟨rfl, rfl⟩⟩
  · obtain ⟨front, b, a, back, rfl, hlen⟩ := exists_split (l := l) (k := rest - 1) (by omega)
    obtain rfl : rest = (front ++ [b]).length := by simp; omega
    have hprev := prev_of_links hq.links
    have hsplit : front ++ b :: a :: back = (front ++ [b]) ++ a :: back := by simp
    rw [hsplit] at hq hnodup ⊢
    obtain ⟨hfront, hback⟩ := sever_exact hq (by simp) (by simp) hnodup
    have hne : some a ≠ q.m_head := by
      rw [hq.head, List.head?_append_of_ne_nil _ (by simp)]
      intro heq
      exact List.disjoint_of_nodup_append hnodup (List.mem_of_head? heq.symm) List.mem_cons_self
    have hcount : q.m_count - (back.length + 1) = front.length + 1 := by
      rw [hq.count]
      simp
      omega
    rw [List.drop_left, List.take_left, List.head?_cons, if_neg hne]
    refine ⟨sever mem (front ++ [b]) (a :: back), _, _, ?_, hfront, hback, fun a => sever_same⟩
    simp [hprev, hcount, sever]

/-- **`popBackUnlock(n)`** takes the last `n` items off the queue, or all there are; but one item
even when `n` is none, and none when the queue has one item.
SOURCE: util/deque.h:127-139, 156-180 -/
theorem popBackUnlock_exact (hq : q.Exact mem l) (hnodup : l.Nodup) :
    ∃ mem' q' o rest, popBackUnlock mem q n = some (mem', q', o) ∧
      rest = (if l.length ≤ 1 then l.length else l.length - max 1 n) ∧
      q'.Exact mem' (l.take rest) ∧ o.Exact mem' (l.drop rest) ∧ ∀ a ∉ l, mem.Same mem' a := by
  unfold popBackUnlock
  split
  · next heq =>
    rw [hq.head, hq.tail, head_eq_getLast hnodup] at heq
    refine ⟨mem, q, zero, l.length, rfl, (if_pos heq).symm, ?_, ?_, fun _ _ => ⟨rfl, rfl⟩⟩
    · rw [List.take_length]
      exact hq
    · rw [List.drop_length]
      exact exact_zero
  · next hne =>
    rw [hq.head, hq.tail, head_eq_getLast hnodup] at hne
    obtain ⟨front, last, rfl⟩ :=
      (List.eq_nil_or_concat l).resolve_left (by rintro rfl; simp at hne)
    rw [List.concat_eq_append] at *
    have hloop := backward_eq (k := n - 1) hq.links (by simp) hnodup
    obtain ⟨rest, hrest⟩ : ∃ rest, rest = front.length - (n - 1) := ⟨_, rfl⟩
    rw [← hrest, ← hq.head] at hloop
    have htail : q.m_tail = some last := by rw [hq.tail, List.getLast?_concat]
    have hlen : (front ++ [last]).length = front.length + 1 := by simp
    obtain ⟨mem', q', o, htake, hq', ho, hsame⟩ :=
      takeBack_exact hq hnodup (show rest < (front ++ [last]).length by omega)
    refine ⟨mem', q', o, rest, ?_, ?_, hq', ho, hsame⟩
    · rw [htail]
      simp only [List.head?_cons, List.length_singleton] at hloop
      simpa [hloop] using htake
    · rw [if_neg hne]
      omega

end Split

/-! ## One item -/

/-- `popBackAllUnlock` hands over all items.
SOURCE: util/deque.h:141-154 -/
theorem popBackAllUnlock_eq (hq : q.Exact mem l) : popBackAllUnlock q = (zero, q) := by
  unfold popBackAllUnlock
  split
  · next hnil =>
    obtain rfl := hq.empty.mp hnil
    rw [hq.eq_zero]
  · rfl

section One

variable [DecidableEq A]

/-- The links of other items do not change when an item is unhooked. -/
theorem unhook_same {b : A} (hne : b ≠ a) : mem.Same (mem.unhook a) b :=
  ⟨Function.update_of_ne hne _ _, Function.update_of_ne hne _ _⟩

/-- A chain that is made longer by one item. -/
theorem links_concat (h : mem.Links l) (hnodup : (l ++ [a]).Nodup) :
    Memory.Links ⟨Function.update mem._prev a l.getLast?,
      Function.update (setLink mem._next l.getLast? (some a)) a none⟩ (l ++ [a]) := by
  obtain ⟨hl, -, hdisj⟩ := List.nodup_append'.mp hnodup
  have ha : a ∉ l := fun hmem => hdisj hmem (List.mem_singleton_self a)
  have hout : ∀ b, some a = some b → b ∉ l := by
    intro b hb
    cases hb
    exact ha
  have hlong := ((h.setNext hl (some a)).frame_prev (v := l.getLast?) hout).frame_next
    (v := none) hout
  apply linked_append.mpr
  constructor
  · exact hlong
  · simp

/-- **`pushUnlock`** puts an item that stands in no list behind the queue's items.
SOURCE: util/deque.h:33-48, 55-73 -/
theorem pushUnlock_holds (hq : q.Holds mem l) (hnodup : (l ++ [a]).Nodup) :
    ∃ mem' q', pushUnlock mem q a = some (mem', q') ∧ q'.Holds mem' (l ++ [a]) ∧
      (q.m_head = l.head? → q'.m_head = (l ++ [a]).head?) ∧
      ∀ b ∉ l ++ [a], mem.Same mem' b := by
  have hlinks := links_concat hq.links hnodup
  unfold pushUnlock
  split
  · next hnil =>
    obtain rfl := hq.empty.mp hnil
    refine ⟨mem.unhook a, _, rfl, ?_, fun _ => rfl, fun b hb => ?_⟩
    · refine ⟨by simp, rfl, ?_, hlinks⟩
      rw [hq.count]
      rfl
    · exact unhook_same (by simpa using hb)
  · next hl =>
    have hne := hq.ne_nil hl
    obtain ⟨c, hc⟩ := Option.ne_none_iff_exists'.mp (List.getLast?_eq_none_iff.not.mpr hne)
    rw [hc] at hlinks
    rw [hq.tail, hc]
    refine ⟨_, _, rfl, ⟨?_, ?_, ?_, hlinks⟩, fun hhead => ?_, fun b hb => ?_⟩
    · simpa using hl
    · rw [List.getLast?_concat]
    · rw [List.length_append, List.length_singleton, ← hq.count]
    · rw [List.head?_append_of_ne_nil l hne]
      exact hhead
    · rw [List.mem_append, List.mem_singleton, not_or] at hb
      have hbc : b ≠ c := fun heq => hb.1 (heq ▸ List.mem_of_getLast? hc)
      constructor
      · exact Function.update_of_ne hb.2 _ _
      · exact (Function.update_of_ne hb.2 _ _).trans (Function.update_of_ne hbc _ _)

/-- **`popUnlock`** takes the first item.
SOURCE: util/deque.h:101-120 -/
theorem popUnlock_exact (hq : q.Exact mem (a :: l)) (hnodup : (a :: l).Nodup) :
    ∃ mem' q', popUnlock mem q = some (mem', q', some a) ∧ q'.Exact mem' l ∧
      ∀ b ∉ a :: l, mem.Same mem' b := by
  have hhead : q.m_head = some a := hq.head
  have hcount : q.m_count - 1 = l.length := by rw [hq.count, List.length_cons, Nat.add_sub_cancel]
  unfold popUnlock
  rw [hhead]
  cases l with
  | nil =>
    have htail : q.m_tail = some a := hq.tail
    refine ⟨mem, zero, ?_, exact_zero, fun _ _ => ⟨rfl, rfl⟩⟩
    simp [htail, hcount, zero]
  | cons c l =>
    have hne : some a ≠ q.m_tail := by
      rw [← hhead, hq.head, hq.tail]
      intro heq
      rw [head_eq_getLast hnodup] at heq
      simp at heq
    have hnext : mem._next a = some c := hq.links.2.1
    obtain ⟨-, hrest⟩ := hq.links.cut (l := [a]) (m := c :: l) hnodup none none
    have hac : a ∉ c :: l := (List.nodup_cons.mp hnodup).1
    have hout : ∀ b, some a = some b → b ∉ c :: l := by
      intro b hb
      cases hb
      exact hac
    have hlinks : Memory.Links (Memory.unhook
        { mem with _prev := Function.update mem._prev c none } a) (c :: l) :=
      hrest.frame_prev (v := none) hout
    refine ⟨_, ⟨some c, q.m_tail, l.length + 1⟩, ?_, exact_of rfl ?_ rfl hlinks, fun b hb => ?_⟩
    · simpa [hne, hnext] using hcount
    · rw [hq.tail]
      simp [List.getLast?_cons]
    · have hbc : b ≠ c := fun heq => hb (by simp [heq])
      have hba : b ≠ a := fun heq => hb (by simp [heq])
      refine ⟨?_, Function.update_of_ne hba _ _⟩
      exact (Function.update_of_ne hba _ _).trans (Function.update_of_ne hbc _ _)

/-- There is nothing to take from an empty list.
SOURCE: util/deque.h:101-120 -/
theorem popUnlock_nil (hq : q.Exact mem []) : popUnlock mem q = some (mem, q, none) := by
  rw [hq.eq_zero]
  rfl

/-- **`eraseUnLock`** takes out an item of the queue, wherever it stands, and unhooks it.
SOURCE: util/deque.h:182-204 -/
theorem eraseUnLock_holds (hq : q.Holds mem (l ++ a :: m)) (hnodup : (l ++ a :: m).Nodup) :
    ∃ mem' q', eraseUnLock mem q a = some (mem', q') ∧ q'.Holds mem' (l ++ m) ∧
      ∀ b ∉ l ++ a :: m, mem.Same mem' b := by
  obtain ⟨hl, hm⟩ := linked_append.mp hq.links
  obtain ⟨hprev, hnext, hm⟩ := hm
  rw [Option.or_none] at hprev hnext
  have hperm : (a :: (l ++ m)).Nodup := (List.perm_middle.nodup_iff).mp hnodup
  obtain ⟨hout, hnodup'⟩ := List.nodup_cons.mp hperm
  have hjoin : (bridge mem l m).Links (l ++ m) := by
    have hjoin := hl.join hm hnodup'
    rwa [Option.or_none, Option.or_none] at hjoin
  have hnext' : setLink mem._next l.getLast? m.head? a = m.head? := by
    rw [setLink_of_ne, hnext]
    intro heq
    exact hout (List.mem_append_left m (List.mem_of_getLast? heq))
  have hcount : 0 < q.m_count := by
    rw [hq.count]
    simp
  have hhead : q.m_head ≠ none := fun hnil => by simpa using hq.empty.mp hnil
  have hstays : ∀ b, some a = some b → b ∉ l ++ m := by
    intro b hb
    cases hb
    exact hout
  refine ⟨(bridge mem l m).unhook a, ⟨if (l ++ m).getLast? = none then none else q.m_head,
    (l ++ m).getLast?, q.m_count - 1⟩, ?_, ⟨?_, rfl, ?_, ?_⟩, fun b hb => ?_⟩
  · unfold eraseUnLock
    rw [if_neg hhead]
    cases m with
    | nil =>
      have htail : q.m_tail = some a := by rw [hq.tail, List.getLast?_concat]
      rw [List.head?_nil] at hnext hnext'
      simp [Memory.setNextIf, Memory.setPrevIf, hnext, hnext', htail, hprev, hcount, bridge]
    | cons c m =>
      have htail : q.m_tail = (l ++ c :: m).getLast? := by
        rw [hq.tail]
        simp [List.getLast?_append, List.getLast?_cons]
      rw [List.head?_cons] at hnext hnext'
      simp [Memory.setNextIf, Memory.setPrevIf, hnext, hnext', htail, hprev, hcount, bridge]
  · simp [hhead, and_comm]
  · rw [hq.count]
    simp
  · exact (hjoin.frame_prev (v := none) hstays).frame_next (v := none) hstays
  · have hba : b ≠ a := fun heq => hb (by simp [heq])
    have hbl : b ∉ l ++ m := by
      intro hmem
      apply hb
      rw [List.mem_append] at hmem ⊢
      exact hmem.imp_right (List.mem_cons_of_mem a)
    have hbridge : mem.Same (bridge mem l m) b := bridge_same hbl
    have hunhook : (bridge mem l m).Same ((bridge mem l m).unhook a) b := unhook_same hba
    exact ⟨hunhook.1.trans hbridge.1, hunhook.2.trans hbridge.2⟩

/-- The loop of `assertLink` comes to the head when it is given a step for every item. -/
theorem assertBack_ok {b : A} (h : mem.Links (l ++ b :: m)) (hn : l.length ≤ n) :
    assertBack mem (l ++ b :: m).head? n (some b) = some () := by
  induction n generalizing l b m with
  | zero =>
    obtain rfl : l = [] := List.length_eq_zero_iff.mp (Nat.le_zero.mp hn)
    simp [assertBack]
  | succ n ih =>
    unfold assertBack
    split
    · rfl
    · next hne =>
      rcases List.eq_nil_or_concat l with rfl | ⟨l, a, rfl⟩
      · exact absurd rfl hne
      · rw [List.concat_eq_append] at *
        have hsplit : l ++ [a] ++ b :: m = l ++ a :: b :: m := by simp
        rw [hsplit] at h ⊢
        have hprev := prev_of_links h
        rw [List.length_append, List.length_singleton] at hn
        simpa [hprev] using ih h (by omega)

/-- **`assertLink`** finds nothing wrong with an exact queue. -/
theorem assertLink_ok (hq : q.Exact mem l) : assertLink mem q = some () := by
  unfold assertLink
  rcases List.eq_nil_or_concat l with rfl | ⟨l, b, rfl⟩
  · rw [hq.eq_zero]
    rfl
  · rw [List.concat_eq_append] at *
    have htail : q.m_tail = some b := by rw [hq.tail, List.getLast?_concat]
    obtain ⟨a, hhead⟩ := Option.ne_none_iff_exists'.mp
      (fun hnil => by simpa using hq.empty.mp hnil : q.m_head ≠ none)
    have hprev : mem._prev a = none := first_prev hq.links (hq.head.symm.trans hhead)
    have hnext : mem._next b = none := last_next hq.links List.getLast?_concat
    have hloop := assertBack_ok hq.links (n := q.m_count) (by rw [hq.count]; simp)
    rw [← hq.head, hhead] at hloop
    simp [hhead, htail, hprev, hnext, hloop]

end One

/-! ## From one list to another -/

section Two

variable [DecidableEq A]

/-- **`eraseUnLock` and then `pushUnlock`** moves an item from one queue to the end of another.
SOURCE: util/deque.h:33-48, 55-73, 182-204 -/
theorem erase_push (hq : q.Holds mem (l ++ a :: m)) (hs : s.Exact mem r)
    (hnodup : (l ++ a :: m).Nodup) (hr : r.Nodup) (hapart : ∀ b ∈ r, b ∉ l ++ a :: m) :
    ∃ mem₁ q' mem₂ s', eraseUnLock mem q a = some (mem₁, q') ∧
      pushUnlock mem₁ s a = some (mem₂, s') ∧ q'.Holds mem₂ (l ++ m) ∧
      s'.Exact mem₂ (r ++ [a]) ∧ ∀ b, b ∉ l ++ a :: m → b ∉ r → mem.Same mem₂ b := by
  obtain ⟨mem₁, q', herase, hq', hsame₁⟩ := eraseUnLock_holds hq hnodup
  have ha : a ∉ l ++ m := (List.nodup_cons.mp (List.perm_middle.nodup_iff.mp hnodup)).1
  have har : a ∉ r := fun hmem => hapart a hmem (by simp)
  have hra : (r ++ [a]).Nodup := by
    rw [List.nodup_append_comm, List.singleton_append, List.nodup_cons]
    exact ⟨har, hr⟩
  have hs₁ := hs.toHolds.congr fun b hb => hsame₁ b (hapart b hb)
  obtain ⟨mem₂, s', hpush, hs', hhead, hsame₂⟩ := pushUnlock_holds hs₁ hra
  refine ⟨mem₁, q', mem₂, s', herase, hpush, ?_, ⟨hs', hhead hs.head⟩, fun b hb hbr => ?_⟩
  · refine hq'.congr fun b hb => hsame₂ b ?_
    have hb' : b ∈ l ++ a :: m := (List.perm_middle.mem_iff).mpr (List.mem_cons_of_mem a hb)
    rw [List.mem_append, List.mem_singleton]
    rintro (hmem | rfl)
    · exact hapart b hmem hb'
    · exact ha hb
  · have hne : b ≠ a := fun heq => hb (by simp [heq])
    have h₁ := hsame₁ b hb
    have h₂ := hsame₂ b (by simp [hbr, hne])
    exact ⟨h₂.1.trans h₁.1, h₂.2.trans h₁.2⟩

/-- **`cut` and then `pushUnlock(list)`** moves the first items of a list to the end of a queue.
SOURCE: util/deque.h:33-48, 55-73 -/
theorem cut_push (hq : q.Exact mem l) (hs : s.Exact mem r) (hl : l.Nodup) (hr : r.Nodup)
    (hapart : ∀ b ∈ r, b ∉ l) :
    ∃ mem₁ q' o mem₂ s', cut mem q n = some (mem₁, q', o) ∧ o.Exact mem₁ (l.take n) ∧
      pushListUnlock mem₁ s o = some (mem₂, s', zero) ∧ q'.Exact mem₁ (l.drop n) ∧
      q'.Exact mem₂ (l.drop n) ∧ s'.Exact mem₂ (r ++ l.take n) ∧
      (∀ b ∉ l, mem.Same mem₁ b) ∧ ∀ b, b ∉ l → b ∉ r → mem.Same mem₂ b := by
  obtain ⟨mem₁, q', o, hcut, hq', ho, hsame₁⟩ := cut_exact (n := n) hq hl
  have hs₁ : s.Exact mem₁ r := ⟨hs.toHolds.congr fun b hb => hsame₁ b (hapart b hb), hs.head⟩
  have htake : ∀ b ∈ l.take n, b ∈ l := fun b hb => List.mem_of_mem_take hb
  have hnodup : (r ++ l.take n).Nodup := List.nodup_append'.mpr
    ⟨hr, hl.sublist (List.take_sublist n l), fun b hb hb' => hapart b hb (htake b hb')⟩
  obtain ⟨mem₂, s', hpush, hs', hsame₂⟩ := pushListUnlock_exact hs₁ ho hnodup
  refine ⟨mem₁, q', o, mem₂, s', hcut, ho, hpush, hq', ⟨?_, hq'.head⟩, hs', hsame₁,
    fun b hb hbr => ?_⟩
  · refine hq'.toHolds.congr fun b hb => hsame₂ b ?_
    rw [List.mem_append]
    rintro (hmem | hmem)
    · exact hapart b hmem (List.mem_of_mem_drop hb)
    · rw [← List.take_append_drop n l] at hl
      exact List.disjoint_of_nodup_append hl hmem hb
  · have h₁ := hsame₁ b hb
    have h₂ := hsame₂ b (by
      rw [List.mem_append]
      rintro (hmem | hmem)
      · exact hbr hmem
      · exact hb (htake b hmem))
    exact ⟨h₂.1.trans h₁.1, h₂.2.trans h₁.2⟩

end Two

end Ends

end MagicNet.Util
