import MagicNet.Analysis.TwoWayLists
import MagicNet.Model.ListTable

/-!
# The algebra of lists

What a call does to the links and the ends of a list is what it is meant to do to the sequence of its
items, and the nodes of other lists are left alone; so any number of calls on any number of lists does
to their sequences what the calls are meant to do.

SOURCE: util/list.h:61-177
-/

set_option autoImplicit false

namespace MagicNet.Util

open MagicNet.Foundation

variable {A ι : Type} [DecidableEq A] [DecidableEq ι]

namespace Ends

variable {mem mem' : Memory A} {q s : Ends A} {l m : List A} {a : A} {n : ℕ}

omit [DecidableEq A] in
/-- A list stays as it is where the links of its nodes do. -/
theorem Exact.congr (h : q.Exact mem l) (hsame : ∀ a ∈ l, mem.Same mem' a) : q.Exact mem' l :=
  ⟨h.toHolds.congr hsame, h.head⟩

/-! ## `erase` -/

omit [DecidableEq A] in
/-- The neighbours of an item. -/
theorem neighbours (h : mem.Links (l ++ a :: m)) :
    mem._prev a = l.getLast? ∧ mem._next a = m.head? := by
  obtain ⟨hprev, hnext, -⟩ := (linked_append.mp h).2
  rw [Option.or_none] at hprev hnext
  exact ⟨hprev, hnext⟩

/-- Erasing forward links what is before the node to what is behind it.
SOURCE: util/list.h:90-94, 95-109 -/
theorem eraseForward_eq (hq : q.Exact mem (l ++ a :: m)) :
    eraseForward mem q a =
      some (⟨mem._prev, setLink mem._next l.getLast? m.head?⟩, (l ++ m).head?) := by
  obtain ⟨hprev, hnext⟩ := neighbours hq.links
  have hhead := hq.head
  rw [eraseForward, hprev, hnext]
  cases l with
  | nil =>
    rw [List.nil_append, List.head?_cons] at hhead
    rw [hhead, List.nil_append, ← hnext]
    rfl
  | cons b l =>
    obtain ⟨p, hp⟩ := Option.ne_none_iff_exists'.mp
      (List.getLast?_eq_none_iff.not.mpr (List.cons_ne_nil b l))
    rw [hp, hhead]
    rfl

/-- Erasing back links what is behind it to what is before it.
SOURCE: util/list.h:90-94, 95-109 -/
theorem eraseBack_eq (mem' : Memory A) (hq : q.Exact mem (l ++ a :: m))
    (hprev : mem'._prev = mem._prev) (hnext : mem'._next a = m.head?) :
    eraseBack mem' q a =
      some (⟨setLink mem._prev m.head? l.getLast?, mem'._next⟩, (l ++ m).getLast?) := by
  have hbefore := (neighbours hq.links).1
  have htail := hq.tail
  rw [eraseBack, hnext, hprev, hbefore]
  cases m with
  | nil =>
    rw [List.getLast?_concat] at htail
    rw [htail, List.append_nil, ← hbefore, ← hprev]
    rfl
  | cons b m =>
    have hlast : (l ++ b :: m).getLast? = q.m_tail := by
      rw [htail, List.getLast?_append_of_ne_nil _ (List.cons_ne_nil _ _),
        List.getLast?_append_of_ne_nil _ (List.cons_ne_nil _ _), List.getLast?_cons_cons]
    rw [hlast]
    simp [hprev]

/-- **`erase`** takes out an item, wherever it stands. -/
theorem erase_exact (hq : q.Exact mem (l ++ a :: m)) (hnodup : (l ++ a :: m).Nodup) :
    ∃ mem' q', erase mem q a = some (mem', q') ∧ q'.Exact mem' (l ++ m) ∧
      (∀ b ∉ l ++ a :: m, mem.Same mem' b) ∧ (l = [] → ∀ b ∈ m, mem'._next b = mem._next b) := by
  obtain ⟨hl, -, -, hm⟩ := linked_append.mp hq.links
  have hperm := List.perm_middle.nodup_iff.mp hnodup
  obtain ⟨hout, hnodup'⟩ := List.nodup_cons.mp hperm
  have hnext : setLink mem._next l.getLast? m.head? a = m.head? := by
    rw [setLink_of_ne, (neighbours hq.links).2]
    intro heq
    exact hout (List.mem_append_left m (List.mem_of_getLast? heq))
  have hjoin : (bridge mem l m).Links (l ++ m) := by
    have hjoin := hl.join hm hnodup'
    rwa [Option.or_none, Option.or_none] at hjoin
  have hstays : ∀ b ∈ l ++ m, (bridge mem l m).Same ((bridge mem l m).unhook a) b :=
    fun b hb => unhook_same (ne_of_mem_of_not_mem hb hout)
  refine ⟨(bridge mem l m).unhook a, ⟨(l ++ m).head?, (l ++ m).getLast?, q.m_count - 1⟩, ?_, ?_,
    fun b hb => ?_, ?_⟩
  · rw [erase, eraseForward_eq hq]
    simp only [Option.bind_eq_bind, Option.bind_some]
    rw [eraseBack_eq ⟨mem._prev, setLink mem._next l.getLast? m.head?⟩ hq rfl hnext]
    rfl
  · refine exact_of rfl rfl ?_ (hjoin.congr hstays)
    simp only [hq.count, List.length_append, List.length_cons]
    omega
  · have hba : b ≠ a := fun heq => hb (by simp [heq])
    have hbl : b ∉ l ++ m := fun hmem => hb (List.perm_middle.mem_iff.mpr
      (List.mem_cons_of_mem a hmem))
    have hbridge : mem.Same (bridge mem l m) b := bridge_same hbl
    have hunhook : (bridge mem l m).Same ((bridge mem l m).unhook a) b := unhook_same hba
    exact ⟨hunhook.1.trans hbridge.1, hunhook.2.trans hbridge.2⟩
  · rintro rfl b hb
    have hba := ne_of_mem_of_not_mem hb (List.nodup_cons.mp hnodup).1
    have hstays : (bridge mem [] m).Same ((bridge mem [] m).unhook a) b := unhook_same hba
    exact hstays.2

/-! ## `clear` -/

/-- The loop of `clear` comes to every node once.
SOURCE: util/list.h:167-172 -/
theorem clearLoop_eq (hq : q.Exact mem l) (hnodup : l.Nodup) (hn : l.length < n) :
    ∃ mem', clearLoop n mem q (iterator mem q.m_head) = some (mem', l) ∧
      ∀ b ∉ l, mem.Same mem' b := by
  induction n generalizing mem q l with
  | zero => omega
  | succ n ih =>
    cases l with
    | nil =>
      rw [hq.head]
      exact ⟨mem, rfl, fun _ _ => ⟨rfl, rfl⟩⟩
    | cons a l =>
      obtain ⟨mem₁, q₁, herase, hq₁, hsame₁, hnext⟩ := erase_exact (l := []) hq hnodup
      obtain ⟨mem', hloop, hsame⟩ := ih hq₁ (List.nodup_cons.mp hnodup).2 (by simpa using hn)
      have hsecond : mem._next a = l.head? := (neighbours (l := []) hq.links).2
      have hiterator : iterator mem (mem._next a) = iterator mem₁ q₁.m_head := by
        rw [iterator, iterator, hsecond, hq₁.head, List.nil_append]
        cases hl : l.head? with
        | none => rfl
        | some b => exact Prod.ext rfl (hnext rfl b (List.mem_of_head? hl)).symm
      refine ⟨mem', ?_, fun b hb => ?_⟩
      · rw [hq.head]
        change (erase mem q a).bind (fun r =>
          (clearLoop n r.1 r.2 (iterator mem (mem._next a))).bind
            fun r => some (r.1, a :: r.2)) = some (mem', a :: l)
        rw [herase, hiterator, Option.bind_some, hloop]
        rfl
      · have hb₁ := hsame₁ b hb
        have hb₂ := hsame b (List.not_mem_of_not_mem_cons hb)
        exact ⟨hb₂.1.trans hb₁.1, hb₂.2.trans hb₁.2⟩

/-- `clear` gives out every node and leaves an empty list.
SOURCE: util/list.h:167-172 -/
theorem clear_eq (hq : q.Exact mem l) (hnodup : l.Nodup) (hn : l.length < n) :
    ∃ mem', clear n mem q = some (mem', l, zero) ∧ ∀ b ∉ l, mem.Same mem' b := by
  obtain ⟨mem', hloop, hsame⟩ := clearLoop_eq hq hnodup hn
  refine ⟨mem', ?_, hsame⟩
  rw [clear, hloop]
  rfl

end Ends

/-! ## The lists and their sequences -/

namespace ListTable

variable {s : ListTable A ι} {ls : ι → List A} {i j : ι} {mem' : Memory A} {q o : Ends A}
  {l m : List A}

omit [DecidableEq A] in
/-- One list is another, of nodes it had. -/
theorem Has.set (h : s.Has ls) (hq : q.Exact mem' l) (hnodup : l.Nodup)
    (hsub : ∀ a ∈ l, a ∈ ls i) (hsame : ∀ b ∉ ls i, s.mem.Same mem' b) :
    (s.set mem' i q).Has (Function.update ls i l) := by
  refine ⟨fun k => ?_, fun k => ?_, fun k k' hk => ?_⟩
  · change Ends.Exact mem' (Function.update s.lists i q k) (Function.update ls i l k)
    by_cases hki : k = i
    · subst hki
      rw [Function.update_self, Function.update_self]
      exact hq
    · rw [Function.update_of_ne hki, Function.update_of_ne hki]
      exact (h.exact k).congr fun b hb => hsame b (h.apart k i hki hb)
  · rw [Function.update_apply]
    split
    · exact hnodup
    · exact h.nodup k
  · intro a ha ha'
    rw [Function.update_apply] at ha ha'
    split at ha <;> split at ha'
    · next hi hi' => exact hk (hi.trans hi'.symm)
    · next hi hi' => exact h.apart i k' (fun heq => hi' heq.symm) (hsub a ha) ha'
    · next hi hi' => exact h.apart k i hi ha (hsub a ha')
    · exact h.apart k k' hk ha ha'

omit [DecidableEq A] in
/-- Two lists are others, of the nodes they had together. -/
theorem Has.set_set (h : s.Has ls) (hq : q.Exact mem' l) (ho : o.Exact mem' m)
    (hnodup : (l ++ m).Nodup) (hsub : ∀ a ∈ l ++ m, a ∈ ls i ++ ls j)
    (hsame : ∀ b ∉ ls i ++ ls j, s.mem.Same mem' b) :
    ((s.set mem' i q).set mem' j o).Has (Function.update (Function.update ls i l) j m) := by
  obtain ⟨hl, hm, hapart⟩ := List.nodup_append'.mp hnodup
  have hout : ∀ k, k ≠ i → k ≠ j → ∀ a ∈ ls k, a ∉ ls i ++ ls j := by
    intro k hki hkj a ha hmem
    rcases List.mem_append.mp hmem with hi | hj
    · exact h.apart k i hki ha hi
    · exact h.apart k j hkj ha hj
  have hcases : ∀ k, Function.update (Function.update ls i l) j m k =
      if k = j then m else if k = i then l else ls k := by
    intro k
    rw [Function.update_apply, Function.update_apply]
  refine ⟨fun k => ?_, fun k => ?_, fun k k' hk a ha ha' => ?_⟩
  · change Ends.Exact mem' (Function.update (Function.update s.lists i q) j o k) _
    rw [hcases, Function.update_apply, Function.update_apply]
    split
    · exact ho
    · split
      · exact hq
      · next hkj hki => exact (h.exact k).congr fun b hb => hsame b (hout k hki hkj b hb)
  · rw [hcases]
    split
    · exact hm
    · split
      · exact hl
      · exact h.nodup k
  · rw [hcases] at ha ha'
    have hl' : a ∈ l → a ∈ ls i ++ ls j := fun hmem => hsub a (List.mem_append_left m hmem)
    have hm' : a ∈ m → a ∈ ls i ++ ls j := fun hmem => hsub a (List.mem_append_right l hmem)
    split at ha <;> split at ha'
    · next hj hj' => exact hk (hj.trans hj'.symm)
    · next hj hj' =>
      split at ha'
      · exact hapart ha' ha
      · next hi' => exact hout k' hi' hj' a ha' (hm' ha)
    · next hj hj' =>
      split at ha
      · exact hapart ha ha'
      · next hi => exact hout k hi hj a ha (hm' ha')
    · next hj hj' =>
      split at ha <;> split at ha'
      · next hi hi' => exact hk (hi.trans hi'.symm)
      · next hi hi' => exact hout k' hi' hj' a ha' (hl' ha)
      · next hi hi' => exact hout k hi hj a ha (hl' ha')
      · exact h.apart k k' hk ha ha'

/-- The step lemma: a call that there is does to the sequences what it is meant to do. -/
theorem Has.step (h : s.Has ls) {op : ListOp A ι} (hlegal : op.Legal ls) :
    ∃ s', s.step op = some s' ∧ s'.Has (op.apply ls) := by
  cases op with
  | cut i n j =>
    obtain ⟨hij, hempty⟩ := hlegal
    obtain ⟨mem', q, o, hcut, hq, ho, hsame⟩ := Ends.cut_exact (n := n) (h.exact i) (h.nodup i)
    have hnodup := h.nodup i
    rw [← List.take_append_drop n (ls i), List.nodup_append_comm] at hnodup
    refine ⟨_, by rw [ListTable.step, hcut]; rfl, h.set_set hq ho hnodup ?_ ?_⟩
    · intro a ha
      rw [hempty, List.append_nil]
      rcases List.mem_append.mp ha with hmem | hmem
      · exact List.mem_of_mem_drop hmem
      · exact List.mem_of_mem_take hmem
    · intro b hb
      rw [hempty, List.append_nil] at hb
      exact hsame b hb
  | append i j =>
    have hnodup : (ls i ++ ls j).Nodup :=
      List.nodup_append'.mpr ⟨h.nodup i, h.nodup j, h.apart i j hlegal⟩
    obtain ⟨mem', q, happend, hq, hsame⟩ := Ends.append_exact (h.exact i) (h.exact j) hnodup
    refine ⟨_, by rw [ListTable.step, happend]; rfl,
      h.set_set hq Ends.exact_zero ?_ ?_ hsame⟩
    · rw [List.append_nil]
      exact hnodup
    · intro a ha
      rwa [List.append_nil] at ha
  | erase i ptr =>
    obtain ⟨l, m, hsplit⟩ := List.append_of_mem hlegal
    have hexact := h.exact i
    have hnodup := h.nodup i
    rw [hsplit] at hexact hnodup
    obtain ⟨mem', q, herase, hq, hsame, -⟩ := Ends.erase_exact hexact hnodup
    have hnotin : ptr ∉ l := fun hmem => by
      have hperm := List.perm_middle.nodup_iff.mp hnodup
      exact (List.nodup_cons.mp hperm).1 (List.mem_append_left m hmem)
    have hrest : (ls i).erase ptr = l ++ m := by
      rw [hsplit, List.erase_append_right _ hnotin, List.erase_cons_head]
    refine ⟨_, by rw [ListTable.step, herase]; rfl, ?_⟩
    rw [ListOp.apply, hrest]
    refine h.set hq ?_ ?_ ?_
    · rw [← hrest]
      exact (h.nodup i).erase ptr
    · intro a ha
      rw [← hrest] at ha
      exact List.mem_of_mem_erase ha
    · rw [hsplit]
      exact hsame
  | clear i =>
    obtain ⟨mem', hclear, hsame⟩ := Ends.clear_eq (n := (s.lists i).m_count + 1) (h.exact i)
      (h.nodup i) (by rw [(h.exact i).count]; omega)
    exact ⟨_, by rw [ListTable.step, hclear]; rfl,
      h.set Ends.exact_zero List.nodup_nil (fun _ ha => absurd ha List.not_mem_nil) hsame⟩
  | assign i j =>
    obtain ⟨mem', hclear, hsame⟩ := Ends.clear_eq (n := (s.lists i).m_count + 1) (h.exact i)
      (h.nodup i) (by rw [(h.exact i).count]; omega)
    have hj : (s.lists j).Exact mem' (ls j) :=
      (h.exact j).congr fun b hb => hsame b fun hi => h.apart i j hlegal hi hb
    refine ⟨_, by rw [ListTable.step, hclear]; rfl, h.set_set hj Ends.exact_zero ?_ ?_ ?_⟩
    · rw [List.append_nil]
      exact h.nodup j
    · intro a ha
      rw [List.append_nil] at ha
      exact List.mem_append_right _ ha
    · intro b hb
      exact hsame b fun hmem => hb (List.mem_append_left _ hmem)

/-- The run lemma. -/
theorem Has.run {ops : List (ListOp A ι)} {ls' : ι → List A} (h : s.Has ls)
    (hrun : sequences.run ls ops = some ls') :
    ∃ s', listTables.run s ops = some s' ∧ s'.Has ls' := by
  induction ops generalizing s ls with
  | nil =>
    obtain rfl : ls = ls' := Option.some.inj hrun
    exact ⟨s, rfl, h⟩
  | cons op ops ih =>
    obtain ⟨t, ht, hrest⟩ := Option.bind_eq_some_iff.mp hrun
    obtain ⟨hlegal, heq⟩ := Option.ite_none_right_eq_some.mp ht
    obtain rfl := Option.some.inj heq
    obtain ⟨s₁, hs₁, h₁⟩ := h.step hlegal
    obtain ⟨s', hs', h'⟩ := ih h₁ hrest
    refine ⟨s', ?_, h'⟩
    rw [System.run_cons]
    change (s.step op).bind _ = _
    rw [hs₁]
    exact hs'

end ListTable

/-- **The algebra of lists.**  Whatever calls are made on well-formed lists, their sequences are what
the calls make of them, and the lists stay well formed, with as many items as `m_count` says; and a
list that is cut and put together again is the list it was.
SOURCE: util/list.h:61-177 -/
theorem list_algebra {s : ListTable A ι} {ls : ι → List A} (h : s.Has ls) :
    (∀ ops ls', sequences.run ls ops = some ls' →
      ∃ s', listTables.run s ops = some s' ∧ s'.Has ls') ∧
    ∀ i n j, i ≠ j → ls j = [] →
      ∃ s', listTables.run s [.cut i n j, .append j i] = some s' ∧
        s'.Has (Function.update (Function.update ls i []) j (ls i)) := by
  refine ⟨fun ops ls' hrun => h.run hrun, fun i n j hij hempty => h.run ?_⟩
  have hcut : sequences.step ls (.cut i n j) = some (ListOp.apply ls (.cut i n j)) :=
    if_pos ⟨hij, hempty⟩
  have happend : ∀ ls : ι → List A,
      sequences.step ls (.append j i) = some (ListOp.apply ls (.append j i)) :=
    fun _ => if_pos hij.symm
  rw [System.run_cons, hcut, Option.bind_some, System.run_singleton, happend]
  refine congrArg some (funext fun k => ?_)
  simp only [ListOp.apply, Function.update_apply]
  by_cases hki : k = i
  · subst hki
    simp [hij]
  · by_cases hkj : k = j
    · subst hkj
      simp [hij, hki, List.take_append_drop]
    · simp [hki, hkj]

/-- Three nodes in one list, and a list without any. -/
def three : ListTable ℕ Bool where
  mem := ⟨fun a => if a = 0 then none else some (a - 1), fun a => if a = 2 then none else some (a + 1)⟩
  lists i := if i then ⟨some 0, some 2, 3⟩ else Ends.zero

/-- The middle one is erased, the first is cut off, and the rest is cleared. -/
theorem list_algebra_three :
    ∃ s', listTables.run three [.erase true 1, .cut true 1 false, .clear true] = some s' ∧
      s'.Has fun i => if i then [] else [0] := by
  have h : three.Has fun i => if i then [0, 1, 2] else [] :=
    ⟨by decide, by decide, fun i j hij a ha ha' => by cases i <;> cases j <;> simp_all⟩
  exact (list_algebra h).1 _ _ (congrArg some (funext fun i => by cases i <;> rfl))

end MagicNet.Util
