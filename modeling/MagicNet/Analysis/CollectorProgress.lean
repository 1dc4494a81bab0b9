import MagicNet.Analysis.CollectorPass

/-!
# An actor that is to leave is told so

A pass may end before it has come to all handles, since the `for` compares the rounds made with a
queue that gets shorter.  But it makes at least half as many rounds as there are handles: when it
ends, the queue is no longer than the rounds made.  So with every pass a handle comes twice as near to
the front, and where the queue stays below `2 ^ k` it is examined again after `k + 1` passes at most.
Each time the actor's `m_death_us` grows, until it is over the limit.

SOURCE: module/actorGcc.cc:25-58, module/actor.cc:83-95, 116-124
-/

set_option autoImplicit false

namespace MagicNet.ActorGcc

open MagicNet.Foundation MagicNet.Util

variable {o : Options} {s s' : State} {id k : ℕ} {handle : BitVec 32}

/-- The step ends a pass. -/
def ends (s : State) (e : Event) : Option Unit := if e = .round ∧ s.over then some () else none

/-- The passes that have ended in a run. -/
def passes (o : Options) (s : State) (es : List Event) : ℕ := ((system o).trace ends s es).length

/-- The queue is short, and the actor stays registered and has nothing suspended. -/
def Idle (id : ℕ) (handle : BitVec 32) (k : ℕ) (s : State) (e : Event) : Prop :=
  s.m_qGcc.length < 2 ^ k ∧ e ≠ .doUnRegister handle ∧ ∀ n, e = .susped id n → n = 0

/-- An actor that waits to be told. -/
structure Leaving (o : Options) (id : ℕ) (handle : BitVec 32) (s : State) : Prop where
  found : s.m_actors handle = some id
  m_indeath : (s.actors id).m_indeath = true
  idle : (s.actors id).suspedSize = 0
  fits : (s.actors id).m_death_us.toNat + o._actor_gcc_sleep_us.toNat < 2 ^ 32

/-- The rounds made in a pass. -/
def Pc.rounds : Pc → ℕ
  | .pass i => i
  | _ => 0

/-- The handle is in the queue, fewer than `2 ^ j` handles in, counted from where the pass has begun;
after `n` more examinations the actor's time is over the limit. -/
structure Due (o : Options) (id : ℕ) (handle : BitVec 32) (j n : ℕ) (s : State) : Prop where
  leaving : Leaving o id handle s
  queued : ∃ l m, s.m_qGcc.contents = l ++ handle :: m ∧ l.length + 1 + s.pc.rounds < 2 ^ j
  limit : o._actor_gcc_timeout_us.toNat <
    (s.actors id).m_death_us.toNat + n * o._actor_gcc_sleep_us.toNat

/-- The actor has been told, or so many passes are enough. -/
def Owed (o : Options) (id : ℕ) (handle : BitVec 32) (k p : ℕ) (s : State) : Prop :=
  id < s.allocated ∧ 1 ≤ (s.actors id).quits ∨
    ∃ j n, Due o id handle j (n + 1) s ∧ (k + 1) * n + j ≤ p

/-- More handles at the end, in the same pass. -/
theorem Due.mono {j n : ℕ} (h : Due o id handle j n s) (hl : Leaving o id handle s')
    (hdeath : (s'.actors id).m_death_us = (s.actors id).m_death_us)
    (hq : ∃ m, s'.m_qGcc.contents = s.m_qGcc.contents ++ m) (hpc : s'.pc.rounds = s.pc.rounds) :
    Due o id handle j n s' := by
  obtain ⟨l, m, hcontents, hlt⟩ := h.queued
  obtain ⟨m', hm'⟩ := hq
  refine ⟨hl, ⟨l, m ++ m', by simp [hm', hcontents], hpc ▸ hlt⟩, ?_⟩
  rw [hdeath]
  exact h.limit

/-! ## The steps -/

/-- The record of another actor changes. -/
theorem Leaving.set_other (h : Leaving o id handle s) {id' : ℕ} {a : Actor} (hne : id ≠ id') :
    Leaving o id handle (s.set id' a) := by
  have hrow : (s.set id' a).actors id = s.actors id := by rw [set_actors, if_neg hne]
  exact ⟨h.found, hrow ▸ h.m_indeath, hrow ▸ h.idle, hrow ▸ h.fits⟩

/-- The actor's own handle is examined: it is told, or its time has grown and the handle goes to the
end of the queue.
SOURCE: module/actorGcc.cc:38-55 -/
theorem examine_own (hsleep : o._actor_gcc_timeout_us.toNat + o._actor_gcc_sleep_us.toNat < 2 ^ 32)
    (h : Leaving o id handle s) :
    1 ≤ ((s.examine o handle).actors id).quits ∨
      Leaving o id handle (s.examine o handle) ∧
        ((s.examine o handle).actors id).m_death_us.toNat =
          (s.actors id).m_death_us.toNat + o._actor_gcc_sleep_us.toNat ∧
        (s.actors id).m_death_us.toNat + o._actor_gcc_sleep_us.toNat ≤
          o._actor_gcc_timeout_us.toNat ∧
        (s.examine o handle).m_qGcc.contents = s.m_qGcc.contents ++ [handle] := by
  have hleaving : s.leaving handle = some id := by
    simp [State.leaving, h.found, h.m_indeath]
  have htime : ((s.actors id).m_death_us + o._actor_gcc_sleep_us).toNat =
      (s.actors id).m_death_us.toNat + o._actor_gcc_sleep_us.toNat := by
    rw [BitVec.toNat_add, Nat.mod_eq_of_lt h.fits]
  rcases examine_cases o s handle with ⟨hwaits, id', hid', heq⟩ | ⟨-, id', hid', heq⟩ | ⟨-, hno, -⟩
  · obtain rfl := Option.some.inj (hleaving.symm.trans hid')
    right
    rw [heq]
    have hrow : (s.set id { s.actors id with
        m_death_us := (s.actors id).m_death_us + o._actor_gcc_sleep_us }).actors id =
        { s.actors id with m_death_us := (s.actors id).m_death_us + o._actor_gcc_sleep_us } := by
      rw [set_actors, if_pos rfl]
    have hlate : ¬ o._actor_gcc_timeout_us < (s.actors id).m_death_us + o._actor_gcc_sleep_us := by
      simpa [State.waits, h.found, h.m_indeath, Actor.isSuspedEmpty, h.idle] using hwaits
    have hearly : (s.actors id).m_death_us.toNat + o._actor_gcc_sleep_us.toNat ≤
        o._actor_gcc_timeout_us.toNat := by
      rw [← htime]
      exact Nat.le_of_not_lt fun hlt => hlate (BitVec.lt_def.mpr hlt)
    refine ⟨⟨h.found, ?_, ?_, ?_⟩, ?_, hearly, s.m_qGcc.contents_push handle⟩
    · rw [hrow]
      exact h.m_indeath
    · rw [hrow]
      exact h.idle
    · rw [hrow, htime]
      omega
    · rw [hrow]
      exact htime
  · obtain rfl := Option.some.inj (hleaving.symm.trans hid')
    left
    rw [heq, set_actors, if_pos rfl]
    exact Nat.succ_le_succ (Nat.zero_le _)
  · rw [hleaving] at hno
    cases hno

/-- Another handle is examined.
SOURCE: module/actorGcc.cc:38-55 -/
theorem examine_other (hinv : Inv o s) {q : Queue (BitVec 32)} {handle' : BitVec 32}
    (hne : handle' ≠ handle) (h : Leaving o id handle s) :
    let t := State.examine o { s with m_qGcc := q } handle'
    t.actors id = s.actors id ∧ t.m_actors = s.m_actors ∧
      ∃ m, t.m_qGcc.contents = q.contents ++ m := by
  have hother {id' : ℕ} (hid' : State.leaving { s with m_qGcc := q } handle' = some id') :
      id ≠ id' := by
    rintro rfl
    have hown := (hinv.grab handle id h.found).2
    have hhandle := (hinv.grab handle' id (Option.filter_eq_some_iff.mp hid').1).2
    exact hne (hhandle.symm.trans hown)
  rcases examine_cases o { s with m_qGcc := q } handle' with
    ⟨-, id', hid', heq⟩ | ⟨-, id', hid', heq⟩ | ⟨-, -, heq⟩
  · rw [heq]
    refine ⟨?_, rfl, [handle'], q.contents_push handle'⟩
    exact (set_actors _ id' id _).trans (if_neg (hother hid'))
  · rw [heq]
    refine ⟨?_, rfl, [], by simp [State.set]⟩
    exact (set_actors _ id' id _).trans (if_neg (hother hid'))
  · rw [heq]
    exact ⟨rfl, rfl, [], by simp⟩

/-- A round of a pass that is not over.
SOURCE: module/actorGcc.cc:38-55 -/
theorem round_owed {p : ℕ} (hinv : Inv o s)
    (hsleep : o._actor_gcc_timeout_us.toNat + o._actor_gcc_sleep_us.toNat < 2 ^ 32) {j n i : ℕ}
    (h : Due o id handle j (n + 1) s) (hp : (k + 1) * n + j ≤ p) (hshort : s.m_qGcc.length < 2 ^ k)
    (hpc : s.pc = .pass i) (hlt : i < s.m_qGcc.length) {handle' : BitVec 32}
    {q : Queue (BitVec 32)} (hcons : s.m_qGcc.contents = handle' :: q.contents)
    {examined : List Exam} :
    Owed o id handle k p
      { State.examine o { s with m_qGcc := q } handle' with
        pc := .pass (i + 1), examined := examined } := by
  obtain ⟨l, m, hcontents, hpos⟩ := h.queued
  rw [hpc] at hpos
  have hlength : q.contents.length + 1 = s.m_qGcc.length := by
    rw [← Queue.contents_length, hcons, List.length_cons]
  by_cases hown : handle' = handle
  · subst hown
    have hleaving : Leaving o id handle' { s with m_qGcc := q } :=
      ⟨h.leaving.found, h.leaving.m_indeath, h.leaving.idle, h.leaving.fits⟩
    rcases examine_own hsleep hleaving with hquit | ⟨hleft, hdeath, hearly, hback⟩
    · refine .inl ⟨?_, hquit⟩
      exact (hinv.grab handle' id h.leaving.found).1.trans_eq
        (examine_spec o { s with m_qGcc := q } handle').allocated.symm
    · have hlimit := h.limit
      -- one examination less, and the handle has to come to the front again
      obtain ⟨n, rfl⟩ : ∃ n', n = n' + 1 := by
        refine Nat.exists_eq_succ_of_ne_zero ?_
        rintro rfl
        simp only [Nat.zero_add, Nat.one_mul] at hlimit
        exact absurd hearly (not_le.mpr hlimit)
      refine .inr ⟨k + 1, n, ⟨⟨hleft.found, hleft.m_indeath, hleft.idle, hleft.fits⟩,
        ⟨q.contents, [], hback, ?_⟩, ?_⟩, ?_⟩
      · have hpow : 2 ^ (k + 1) = 2 ^ k + 2 ^ k := by rw [pow_succ, Nat.mul_two]
        simp only [Pc.rounds]
        omega
      · refine hlimit.trans_eq ?_
        rw [show ((_ : State).actors id).m_death_us.toNat = _ from hdeath]
        ring
      · have hmul : (k + 1) * (n + 1) = (k + 1) * n + (k + 1) := by ring
        omega
  · obtain ⟨l, rfl⟩ : ∃ l', l = handle' :: l' := by
      cases l with
      | nil =>
        rw [hcons] at hcontents
        exact absurd (List.cons.inj hcontents).1 hown
      | cons x l =>
        rw [hcons] at hcontents
        exact ⟨l, by rw [(List.cons.inj hcontents).1]⟩
    have hrest : q.contents = l ++ handle :: m := by
      rw [hcons] at hcontents
      exact (List.cons.inj hcontents).2
    obtain ⟨hrow, hgrab, m', hm'⟩ := examine_other (o := o) (q := q) hinv hown h.leaving
    refine .inr ⟨j, n, ⟨⟨?_, ?_, ?_, ?_⟩, ⟨l, m ++ m', ?_, ?_⟩, ?_⟩, hp⟩
    · exact (congrFun hgrab handle).trans h.leaving.found
    · exact (congrArg Actor.m_indeath hrow).trans h.leaving.m_indeath
    · exact (congrArg Actor.suspedSize hrow).trans h.leaving.idle
    · exact (congrArg (fun a => a.m_death_us.toNat + _) hrow).trans_lt h.leaving.fits
    · exact hm'.trans (by rw [hrest, List.append_assoc, List.cons_append])
    · simp only [Pc.rounds, List.length_cons] at hpos ⊢
      omega
    · refine h.limit.trans_eq ?_
      rw [show ((_ : State).actors id).m_death_us = _ from congrArg Actor.m_death_us hrow]

/-- What a change of one record keeps, it keeps of all. -/
theorem set_keeps {β : Type} (s : State) (f : Actor → β) (g : Actor → Actor)
    (hg : ∀ a, f (g a) = f a) (id' id : ℕ) :
    f ((s.set id' (g (s.actors id'))).actors id) = f (s.actors id) :=
  set_field f (hg _) id

/-- What has been sent stays counted. -/
theorem step_quits {e : Event} (hs : step o s e = some s') (hid : id < s.allocated) :
    id < s'.allocated ∧ (s.actors id).quits ≤ (s'.actors id).quits := by
  cases e with
  | doRegister handle' =>
    simp only [step, Option.ite_none_right_eq_some, Option.some.injEq] at hs
    obtain ⟨-, rfl⟩ := hs
    exact ⟨hid.trans (Nat.lt_succ_self _),
      (congrArg Actor.quits (register_old handle' hid)).symm.le⟩
  | doUnRegister handle' =>
    obtain rfl := Option.some.inj hs
    exact ⟨hid, le_rfl⟩
  | doExit id' =>
    simp only [step, Option.ite_none_right_eq_some, Option.some.injEq] at hs
    obtain ⟨-, rfl⟩ := hs
    rcases doExit_cases s id' with ⟨-, heq⟩ | ⟨-, heq⟩
    · rw [heq]
      exact ⟨hid, le_rfl⟩
    · rw [heq]
      exact ⟨hid, (set_keeps s Actor.quits (fun a => { a with m_indeath := true }) (fun _ => rfl)
        id' id).symm.le⟩
  | susped id' n =>
    simp only [step, Option.ite_none_right_eq_some, Option.some.injEq] at hs
    obtain ⟨-, rfl⟩ := hs
    exact ⟨hid, (set_keeps s Actor.quits (fun a => { a with suspedSize := n }) (fun _ => rfl)
      id' id).symm.le⟩
  | doShutdown =>
    obtain rfl := Option.some.inj hs
    exact ⟨hid, le_rfl⟩
  | «begin» =>
    simp only [step, Option.ite_none_right_eq_some, Option.some.injEq] at hs
    obtain ⟨-, rfl⟩ := hs
    exact ⟨hid, le_rfl⟩
  | awake =>
    simp only [step, Option.ite_none_right_eq_some, Option.some.injEq] at hs
    obtain ⟨-, rfl⟩ := hs
    exact ⟨hid, le_rfl⟩
  | round =>
    obtain ⟨i, -, ⟨-, rfl⟩ | ⟨handle', q, -, -, rfl⟩⟩ := step_round hs
    · exact ⟨hid, le_rfl⟩
    · have hspec := examine_spec o { s with m_qGcc := q } handle'
      exact ⟨hid.trans_eq hspec.allocated.symm, (Nat.le_add_right _ _).trans_eq (hspec.quits id).symm⟩

/-- A step that is not the last of a pass keeps what is owed. -/
theorem step_owed {e : Event} {p : ℕ} (hinv : Inv o s)
    (hsleep : o._actor_gcc_timeout_us.toNat + o._actor_gcc_sleep_us.toNat < 2 ^ 32)
    (h : Owed o id handle k p s) (hidle : Idle id handle k s e) (hs : step o s e = some s') :
    Owed o id handle k (p - (ends s e).toList.length) s' := by
  obtain ⟨hshort, hkept, hsusped⟩ := hidle
  rcases h with ⟨hid, hquits⟩ | ⟨j, n, hdue, hp⟩
  · obtain ⟨hid', hle⟩ := step_quits hs hid
    exact .inl ⟨hid', hquits.trans hle⟩
  · obtain ⟨hid, -⟩ := hinv.grab handle id hdue.leaving.found
    have hsame (hends : ends s e = none) (hnext : Due o id handle j (n + 1) s') :
        Owed o id handle k (p - (ends s e).toList.length) s' := by
      rw [hends]
      exact .inr ⟨j, n, hnext, hp⟩
    have hl := hdue.leaving
    cases e with
    | doRegister handle' =>
      simp only [step, Option.ite_none_right_eq_some, Option.some.injEq] at hs
      obtain ⟨hfree, rfl⟩ := hs
      have hne : handle ≠ handle' := by
        rintro rfl
        rw [hl.found] at hfree
        cases hfree
      have hrow := register_old handle' hid
      refine hsame rfl (hdue.mono ⟨?_, ?_, ?_, ?_⟩ ?_ ⟨[], by simp [State.set]⟩ rfl)
      · exact (Function.update_of_ne hne _ _).trans hl.found
      · exact (congrArg Actor.m_indeath hrow).trans hl.m_indeath
      · exact (congrArg Actor.suspedSize hrow).trans hl.idle
      · exact (congrArg (fun a => a.m_death_us.toNat + _) hrow).trans_lt hl.fits
      · exact congrArg Actor.m_death_us hrow
    | doUnRegister handle' =>
      obtain rfl := Option.some.inj hs
      have hne : handle ≠ handle' := fun heq => hkept (heq ▸ rfl)
      exact hsame rfl (hdue.mono
        ⟨(Function.update_of_ne hne _ _).trans hl.found, hl.m_indeath, hl.idle, hl.fits⟩
        rfl ⟨[], by simp⟩ rfl)
    | doExit id' =>
      simp only [step, Option.ite_none_right_eq_some, Option.some.injEq] at hs
      obtain ⟨-, rfl⟩ := hs
      refine hsame rfl ?_
      rcases doExit_cases s id' with ⟨-, heq⟩ | ⟨hlive, heq⟩
      · rw [heq]
        exact hdue
      · have hne : id ≠ id' := by
          rintro rfl
          rw [hl.m_indeath] at hlive
          cases hlive
        have hset := hl.set_other (a := { s.actors id' with m_indeath := true }) hne
        rw [heq]
        refine hdue.mono ⟨hset.found, hset.m_indeath, hset.idle, hset.fits⟩ ?_
          ⟨[(s.actors id').m_handle], s.m_qGcc.contents_push _⟩ rfl
        exact congrArg Actor.m_death_us ((set_actors s id' id _).trans (if_neg hne))
    | susped id' n' =>
      simp only [step, Option.ite_none_right_eq_some, Option.some.injEq] at hs
      obtain ⟨-, rfl⟩ := hs
      have hkeeps {β : Type} (f : Actor → β) (hf : ∀ a : Actor, f { a with suspedSize := n' } = f a) :
          f ((s.set id' { s.actors id' with suspedSize := n' }).actors id) = f (s.actors id) :=
        set_keeps s f (fun a => { a with suspedSize := n' }) hf id' id
      refine hsame rfl (hdue.mono ⟨hl.found, ?_, ?_, ?_⟩ ?_ ⟨[], by simp [State.set]⟩ rfl)
      · exact (hkeeps Actor.m_indeath fun _ => rfl).trans hl.m_indeath
      · rw [set_actors]
        split
        · rename_i heq
          exact hsusped n' (by rw [heq])
        · exact hl.idle
      · exact (hkeeps (fun a => a.m_death_us.toNat + o._actor_gcc_sleep_us.toNat) fun _ => rfl).trans_lt
          hl.fits
      · exact hkeeps Actor.m_death_us fun _ => rfl
    | doShutdown =>
      obtain rfl := Option.some.inj hs
      exact hsame rfl (hdue.mono ⟨hl.found, hl.m_indeath, hl.idle, hl.fits⟩ rfl ⟨[], by simp⟩ rfl)
    | «begin» =>
      simp only [step, Option.ite_none_right_eq_some, Option.some.injEq] at hs
      obtain ⟨hpc, rfl⟩ := hs
      refine hsame rfl (hdue.mono ⟨hl.found, hl.m_indeath, hl.idle, hl.fits⟩ rfl ⟨[], by simp⟩ ?_)
      rw [hpc]
      split <;> rfl
    | awake =>
      simp only [step, Option.ite_none_right_eq_some, Option.some.injEq] at hs
      obtain ⟨hpc, rfl⟩ := hs
      exact hsame rfl (hdue.mono ⟨hl.found, hl.m_indeath, hl.idle, hl.fits⟩ rfl ⟨[], by simp⟩
        (by rw [hpc]; rfl))
    | round =>
      obtain ⟨i, hpc, ⟨hover, rfl⟩ | ⟨handle', q, hlt, hcons, rfl⟩⟩ := step_round hs
      · -- the rounds made are as many as the queue is long: the handle is in the first half
        have hends : ends s .round = some () := by simp [ends, State.over, hpc, hover]
        obtain ⟨l, m, hcontents, hpos⟩ := hdue.queued
        have hin : l.length + 1 ≤ s.m_qGcc.length := by
          rw [← Queue.contents_length, hcontents, List.length_append, List.length_cons]
          omega
        rw [hpc] at hpos
        simp only [Pc.rounds] at hpos
        obtain ⟨j, rfl⟩ : ∃ j', j = j' + 1 := by
          refine Nat.exists_eq_succ_of_ne_zero ?_
          rintro rfl
          simp at hpos
        have hhalf : l.length + 1 < 2 ^ j := by
          have hpow : 2 ^ (j + 1) = 2 ^ j + 2 ^ j := by rw [pow_succ, Nat.mul_two]
          omega
        rw [hends]
        refine .inr ⟨j, n, ⟨⟨hl.found, hl.m_indeath, hl.idle, hl.fits⟩, ⟨l, m, hcontents, ?_⟩,
          hdue.limit⟩, ?_⟩
        · exact hhalf
        · simp only [Option.toList_some, List.length_singleton]
          omega
      · have hends : ends s .round = none := by simp [ends, State.over, hpc, hlt]
        rw [hends]
        exact round_owed hinv hsleep hdue hp hshort hpc hlt hcons

/-! ## Runs -/

/-- In a run that leaves the actor idle, what is owed to it is paid within the passes.
SOURCE: module/actorGcc.cc:27-58 -/
theorem run_owed (hsleep : o._actor_gcc_timeout_us.toNat + o._actor_gcc_sleep_us.toNat < 2 ^ 32)
    {es : List Event} (hinv : Inv o s) (h : Owed o id handle k (passes o s es) s)
    (hmeets : (system o).Meets (Idle id handle k) s es) (hrun : (system o).run s es = some s') :
    1 ≤ (s'.actors id).quits := by
  induction es generalizing s with
  | nil =>
    obtain rfl : s = s' := by simpa using hrun
    rcases h with ⟨-, hquits⟩ | ⟨j, n, hdue, hp⟩
    · exact hquits
    · obtain ⟨l, m, -, hpos⟩ := hdue.queued
      obtain rfl : j = 0 := by
        simp only [passes, System.trace, List.length_nil] at hp
        omega
      simp at hpos
  | cons e es ih =>
    obtain ⟨t, ht, hrest⟩ := Option.bind_eq_some_iff.mp hrun
    refine ih (step_inv hinv ht) ?_ (hmeets.2 t ht) hrest
    have howed := step_owed hinv hsleep h hmeets.1 ht
    have hpasses : passes o s (e :: es) = (ends s e).toList.length + passes o t es := by
      rw [passes, System.trace_cons ht, List.length_append]
      rfl
    rwa [hpasses, Nat.add_sub_cancel_left] at howed

/-- In every run from a reachable state between two passes, an actor that is to leave, is in the
queue and has nothing suspended is sent `M_ID_QUIT` when `(k + 1) * (timeout / sleep + 1)` passes have
ended, as long as the queue stays shorter than `2 ^ k` and the actor stays registered and idle,
whatever is registered, taken out, told to leave and suspended besides.
SOURCE: module/actorGcc.cc:25-58, module/actor.cc:83-95, 116-124 -/
theorem told_to_quit (o : Options) (s s' : State) (es : List Event) (id k : ℕ)
    (handle : BitVec 32) (hpos : 0 < o._actor_gcc_sleep_us.toNat)
    (hsleep : o._actor_gcc_timeout_us.toNat + o._actor_gcc_sleep_us.toNat < 2 ^ 32)
    (hreach : (system o).Reachable s) (hpc : s.pc = .top) (hleaving : Leaving o id handle s)
    (hqueued : handle ∈ s.m_qGcc.contents) (hshort : s.m_qGcc.length < 2 ^ k)
    (hrun : (system o).run s es = some s') (hmeets : (system o).Meets (Idle id handle k) s es)
    (hpasses : (k + 1) * (o._actor_gcc_timeout_us.toNat / o._actor_gcc_sleep_us.toNat + 1) ≤
      passes o s es) : 1 ≤ (s'.actors id).quits := by
  have hinv : Inv o s :=
    hreach.invariant (I := Inv o) (fun _ h0 => (inv_of_starts h0).1) fun _ _ _ hI _ hs => step_inv hI hs
  refine run_owed hsleep hinv
    (.inr ⟨k, o._actor_gcc_timeout_us.toNat / o._actor_gcc_sleep_us.toNat,
      ⟨hleaving, ?_, ?_⟩, ?_⟩) hmeets hrun
  · obtain ⟨l, m, hcontents⟩ := List.append_of_mem hqueued
    refine ⟨l, m, hcontents, ?_⟩
    rw [← Queue.contents_length, hcontents, List.length_append, List.length_cons] at hshort
    rw [hpc]
    simp only [Pc.rounds]
    omega
  · have hdiv := Nat.lt_div_mul_add (a := o._actor_gcc_timeout_us.toNat) hpos
    rw [Nat.add_mul, Nat.one_mul]
    omega
  · have hmul := Nat.mul_add (k + 1)
      (o._actor_gcc_timeout_us.toNat / o._actor_gcc_sleep_us.toNat) 1
    omega

/-- Only `susped` says how many coroutines are suspended. -/
instance (s : State) : (e : Event) → Decidable (Idle id handle k s e)
  | .susped id' n =>
    decidable_of_iff (s.m_qGcc.length < 2 ^ k ∧ (id' = id → n = 0)) <| by
      simp only [Idle, ne_eq, reduceCtorEq, not_false_eq_true, true_and, Event.susped.injEq]
      exact and_congr_right fun _ =>
        ⟨fun h m hm => hm.2 ▸ h hm.1, fun h hid => h n ⟨hid, rfl⟩⟩
  | .doUnRegister handle' =>
    decidable_of_iff (s.m_qGcc.length < 2 ^ k ∧ handle' ≠ handle) <| by simp [Idle]
  | .doRegister _ | .doExit _ | .doShutdown | .begin | .awake | .round =>
    decidable_of_iff (s.m_qGcc.length < 2 ^ k) <| by simp [Idle]

/-- The only actor there is leaves: the first pass tells it, and the second finds the queue empty.
SOURCE: module/actorSystem.cc:35-64, module/actor.cc:116-124, module/actorGcc.cc:25 -/
theorem told_to_quit_alone : ∃ s s', (system ⟨1000, 500⟩).run start [.doRegister 1, .doExit 0] =
      some s ∧
    (system ⟨1000, 500⟩).run s [.begin, .awake, .round, .round, .begin, .awake, .round] = some s' ∧
    1 ≤ (s'.actors 0).quits := by
  have hrun : ((system ⟨1000, 500⟩).run start [.doRegister 1, .doExit 0]).any (fun s =>
      decide (s.pc = .top) && decide (s.m_qGcc.contents = [1]) && decide (s.m_qGcc.length = 1) &&
        decide (s.m_actors 1 = some 0) && (s.actors 0).m_indeath && (s.actors 0).suspedSize == 0 &&
        (s.actors 0).m_death_us == 0 &&
        decide ((system ⟨1000, 500⟩).Meets (Idle 0 1 1) s
          [.begin, .awake, .round, .round, .begin, .awake, .round]) &&
        decide (passes ⟨1000, 500⟩ s
          [.begin, .awake, .round, .round, .begin, .awake, .round] = 2) &&
        ((system ⟨1000, 500⟩).run s
          [.begin, .awake, .round, .round, .begin, .awake, .round]).isSome) = true := by
    decide +kernel
  obtain ⟨s, hs, htest⟩ := (Option.any_eq_true _ _).mp hrun
  simp only [Bool.and_eq_true, decide_eq_true_eq, beq_iff_eq] at htest
  obtain ⟨⟨⟨⟨⟨⟨⟨⟨⟨hpc, hqueue⟩, hlength⟩, hfound⟩, hindeath⟩, hidle⟩, hdeath⟩, hmeets⟩, htwo⟩, hsome⟩ :=
    htest
  obtain ⟨s', hs'⟩ := Option.isSome_iff_exists.mp hsome
  refine ⟨s, s', hs, hs', told_to_quit ⟨1000, 500⟩ s s' _ 0 1 1 (by decide) (by decide)
    (System.reachable_of_run start_starts hs) hpc ⟨hfound, hindeath, hidle, ?_⟩ ?_ ?_ hs' hmeets ?_⟩
  · rw [hdeath]
    decide
  · rw [hqueue]
    exact List.mem_singleton_self 1
  · rw [hlength]
    decide
  · rw [htwo]
    decide

end MagicNet.ActorGcc
