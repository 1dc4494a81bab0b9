import MagicNet.Model.SocketSuspend

/-!
# Who is suspended on a socket

While the socket is connected, `m_co` is the entry of the reader or of the closer that is suspended,
and `m_closing` that of a closer behind a reader.  A reader that comes while a closer is in `m_co`
fails the assertion of `doSuspend`.  A closer in `m_closing` is woken by whoever comes back from
`doSuspend`, so also by a reader that has got its data: then a reader that is suspended before it runs
on is left behind when it removes the socket, for `CLOSE` finds none to wake.

SOURCE: api/socket.cc:125-150, 499-578, 608-653, 665-682
-/

set_option autoImplicit false

namespace MagicNet.Suspend

open MagicNet.Foundation MagicNet.Network
open MagicNet.Receive (Buffer)

/-- The entries of those suspended, and who is in `m_closing`. -/
structure Placed (s : State) : Prop where
  reader_lt : ∀ r ∈ s.reader, r.waiter.entry < s.entries
  closer_lt : ∀ k ∈ s.closer, k.waiter.entry < s.entries
  apart : ∀ r ∈ s.reader, ∀ k ∈ s.closer, r.waiter.entry ≠ k.waiter.entry
  behind : ∀ k ∈ s.closer, k.waiter.woken = false → k.place = .doCloseSusped → s.reader ≠ none
  closing : ∀ k ∈ s.closer, k.place = .doCloseSusped → s.m_closing = some k.waiter.entry
  held : ∀ co ∈ s.m_closing, s.pooled = true →
    ∃ k ∈ s.closer, k.place = .doCloseSusped ∧ k.waiter.entry = co

/-- What every step keeps that meets the condition. -/
structure Inv (s : State) : Prop extends Placed s where
  pooled : s.m_connected = true → s.pooled = true
  co : ∀ co ∈ s.m_co, s.m_connected = true ∧
    ((∃ r ∈ s.reader, r.waiter.woken = false) ∨
      ∃ k ∈ s.closer, k.waiter.woken = false ∧ k.place = .doSuspend)
  reader : ∀ r ∈ s.reader, r.waiter.woken = false → s.m_co = some r.waiter.entry
  suspended : ∀ k ∈ s.closer, k.waiter.woken = false → k.place = .doSuspend →
    s.m_co = some k.waiter.entry
  required : s.m_connected = true → s.m_readRequired ≠ .empty →
    ∃ r ∈ s.reader, r.waiter.woken = false
  closed : s.closed = true → s.m_connected = false
  failed : s.failed = false

variable {s s₀ s' t : State} {e : Event} {es : List Event}

/-- A new socket has nobody waiting. -/
theorem inv_of_starts (h : Starts s) : Inv s := by
  refine { reader_lt := ?_, closer_lt := ?_, apart := ?_, behind := ?_, closing := ?_, held := ?_,
           pooled := ?_, co := ?_, reader := ?_, suspended := ?_, required := ?_, closed := ?_,
           failed := h.failed } <;>
    simp [h.reader, h.closer, h.m_co, h.m_closing, h.pooled, h.m_readRequired, h.closed]

/-- The invariant does not look at the buffer. -/
theorem Inv.of_buffer (h : Inv s) (b : Buffer) (limit : ℤ) :
    Inv { s with m_buffer := b, m_bufferLimit := limit } :=
  { h with }

/-- A socket that is not connected may leave the pool. -/
theorem Inv.unpooled (h : Inv s) (hconnected : s.m_connected = false) :
    Inv { s with pooled := false } :=
  { h with
    pooled := fun hc => absurd (hc.symm.trans hconnected) (by decide)
    held := fun _ _ => nofun }

/-! ## Waking -/

section Wake

variable {co : ℕ}

/-- Waking keeps the entry. -/
@[simp] theorem wake_entry (w : Waiter) : (w.wake co).entry = w.entry := by
  unfold Waiter.wake
  split <;> rfl

/-- Who is not woken has another entry, and was not woken before. -/
theorem wake_woken {w : Waiter} (h : (w.wake co).woken = false) :
    w.woken = false ∧ w.entry ≠ co := by
  unfold Waiter.wake at h
  split at h
  · cases h
  · next hne => exact ⟨h, hne⟩

/-- Only the coroutine of the entry is woken. -/
theorem wake_of_ne {w : Waiter} (h : w.entry ≠ co) : w.wake co = w := if_neg h

/-- A reader after a wake-up is one from before, blocked only where it was not meant. -/
theorem mem_wake_reader {r : Reader} (hr : r ∈ (s.wake co).reader) : ∃ r' ∈ s.reader,
    r.waiter.entry = r'.waiter.entry ∧
      (r.waiter.woken = false → r'.waiter.woken = false ∧ r'.waiter.entry ≠ co) := by
  obtain ⟨r', hr', rfl⟩ := Option.map_eq_some_iff.mp hr
  exact ⟨r', hr', wake_entry _, wake_woken⟩

/-- So is a closer. -/
theorem mem_wake_closer {k : Closer} (hk : k ∈ (s.wake co).closer) : ∃ k' ∈ s.closer,
    k.waiter.entry = k'.waiter.entry ∧ k.place = k'.place ∧
      (k.waiter.woken = false → k'.waiter.woken = false ∧ k'.waiter.entry ≠ co) := by
  obtain ⟨k', hk', rfl⟩ := Option.map_eq_some_iff.mp hk
  exact ⟨k', hk', wake_entry _, rfl, wake_woken⟩

/-- A wake-up keeps where everybody waits. -/
theorem Placed.wake (h : Placed s) (co : ℕ) : Placed (s.wake co) where
  reader_lt r hr := by
    obtain ⟨r', hr', hentry, -⟩ := mem_wake_reader hr
    exact hentry ▸ h.reader_lt r' hr'
  closer_lt k hk := by
    obtain ⟨k', hk', hentry, -⟩ := mem_wake_closer hk
    exact hentry ▸ h.closer_lt k' hk'
  apart r hr k hk := by
    obtain ⟨r', hr', hreader, -⟩ := mem_wake_reader hr
    obtain ⟨k', hk', hcloser, -⟩ := mem_wake_closer hk
    rw [hreader, hcloser]
    exact h.apart r' hr' k' hk'
  behind k hk hwoken hplace := by
    obtain ⟨k', hk', -, hplace', hwoken'⟩ := mem_wake_closer hk
    have hreader := h.behind k' hk' (hwoken' hwoken).1 (hplace' ▸ hplace)
    exact fun hnone => hreader (Option.map_eq_none_iff.mp hnone)
  closing k hk hplace := by
    obtain ⟨k', hk', hentry, hplace', -⟩ := mem_wake_closer hk
    exact hentry ▸ h.closing k' hk' (hplace' ▸ hplace)
  held co' hco' hpooled := by
    obtain ⟨k, hk, hplace, hentry⟩ := h.held co' hco' hpooled
    exact ⟨k.wake co, Option.mem_map_of_mem _ hk, hplace, (wake_entry _).trans hentry⟩

end Wake

/-- Only its closer is in `m_closing`. -/
theorem Placed.not_closing (h : Placed s) (hpooled : s.pooled = true) {co : ℕ}
    (hco : s.m_closing = some co) : ∀ r ∈ s.reader, r.waiter.entry ≠ co := by
  intro r hr
  obtain ⟨k, hk, -, rfl⟩ := h.held co hco hpooled
  exact h.apart r hr k hk

/-- To wake the closer behind a reader leaves who is in `m_co` as he is. -/
theorem Inv.wake_closing (h : Inv s) {co : ℕ} (hco : s.m_closing = some co) : Inv (s.wake co) :=
  { h.toPlaced.wake co with
    pooled := h.pooled
    co := fun co' hco' => by
      obtain ⟨hconnected, hwaits⟩ := h.co co' hco'
      have hpooled := h.pooled hconnected
      refine ⟨hconnected, .inl ?_⟩
      rcases hwaits with ⟨r, hr, hwoken⟩ | ⟨k, hk, -, hplace⟩
      · have hne := h.not_closing hpooled hco r hr
        refine ⟨r.wake co, Option.mem_map_of_mem _ hr, ?_⟩
        rwa [Reader.wake, wake_of_ne hne]
      · -- the only closer is in `m_closing`, and not in `m_co`
        obtain ⟨k', hk', hplace', -⟩ := h.held co hco hpooled
        obtain rfl := Option.mem_unique hk hk'
        rw [hplace] at hplace'
        cases hplace'
    reader := fun r hr hwoken => by
      obtain ⟨r', hr', hentry, hwoken'⟩ := mem_wake_reader hr
      exact hentry ▸ h.reader r' hr' (hwoken' hwoken).1
    suspended := fun k hk hwoken hplace => by
      obtain ⟨k', hk', hentry, hplace', hwoken'⟩ := mem_wake_closer hk
      exact hentry ▸ h.suspended k' hk' (hwoken' hwoken).1 (hplace' ▸ hplace)
    required := fun hconnected hrequired => by
      obtain ⟨r, hr, hwoken⟩ := h.required hconnected hrequired
      have hne := h.not_closing (h.pooled hconnected) hco r hr
      refine ⟨r.wake co, Option.mem_map_of_mem _ hr, ?_⟩
      rwa [Reader.wake, wake_of_ne hne]
    closed := h.closed
    failed := h.failed }

/-- Nobody is closing.
SOURCE: api/socket.cc:137-141 -/
theorem wakeClosing_of_none (h : s.m_closing = none) : s.wakeClosing = s := by
  unfold State.wakeClosing
  rw [h]

/-- The closer is woken.
SOURCE: api/socket.cc:137-141 -/
theorem wakeClosing_of_some {co : ℕ} (h : s.m_closing = some co) : s.wakeClosing = s.wake co := by
  unfold State.wakeClosing
  rw [h]

/-- Waking the closer keeps the invariant.
SOURCE: api/socket.cc:137-141 -/
theorem Inv.wakeClosing (h : Inv s) : Inv s.wakeClosing := by
  cases hclosing : s.m_closing with
  | none => rwa [wakeClosing_of_none hclosing]
  | some co =>
    rw [wakeClosing_of_some hclosing]
    exact h.wake_closing hclosing

/-- After it a closer behind a reader has been woken.
SOURCE: api/socket.cc:137-141 -/
theorem woken_of_wakeClosing (h : Inv s) {k : Closer} (hk : k ∈ s.wakeClosing.closer)
    (hplace : k.place = .doCloseSusped) : k.waiter.woken = true := by
  cases hclosing : s.m_closing with
  | none =>
    rw [wakeClosing_of_none hclosing] at hk
    cases (h.closing k hk hplace).symm.trans hclosing
  | some co =>
    rw [wakeClosing_of_some hclosing] at hk
    obtain ⟨k', hk', hentry, hplace', hwoken⟩ := mem_wake_closer hk
    have hco := (h.closing k' hk' (hplace' ▸ hplace)).symm.trans hclosing
    by_contra hfalse
    exact (hwoken (Bool.eq_false_iff.mpr hfalse)).2 (Option.some.inj hco)

/-- And none has been suspended by it.
SOURCE: api/socket.cc:137-141 -/
theorem reader_of_wakeClosing {r : Reader} (hr : r ∈ s.wakeClosing.reader)
    (hblocked : r.waiter.woken = false) : ∃ r' ∈ s.reader, r'.waiter.woken = false := by
  rcases Option.eq_none_or_eq_some s.m_closing with hclosing | ⟨co, hclosing⟩
  · rw [wakeClosing_of_none hclosing] at hr
    exact ⟨r, hr, hblocked⟩
  · rw [wakeClosing_of_some hclosing] at hr
    obtain ⟨r', hr', -, hwoken⟩ := mem_wake_reader hr
    exact ⟨r', hr', (hwoken hblocked).1⟩

/-- A closer that is blocked afterwards was so before.
SOURCE: api/socket.cc:137-141 -/
theorem closer_of_wakeClosing {k : Closer} (hk : k ∈ s.wakeClosing.closer)
    (hblocked : k.waiter.woken = false) : ∃ k' ∈ s.closer, k'.waiter.woken = false := by
  rcases Option.eq_none_or_eq_some s.m_closing with hclosing | ⟨co, hclosing⟩
  · rw [wakeClosing_of_none hclosing] at hk
    exact ⟨k, hk, hblocked⟩
  · rw [wakeClosing_of_some hclosing] at hk
    obtain ⟨k', hk', -, -, hwoken⟩ := mem_wake_closer hk
    exact ⟨k', hk', (hwoken hblocked).1⟩

/-- Nobody is waiting.
SOURCE: api/socket.cc:143-150 -/
theorem doWakeup_of_none (h : s.m_co = none) : s.doWakeup = s := by
  unfold State.doWakeup
  rw [h]

/-- The one who waits is woken, and `m_co` is empty again.
SOURCE: api/socket.cc:143-150 -/
theorem doWakeup_of_some {co : ℕ} (h : s.m_co = some co) :
    s.doWakeup = { s with m_co := none }.wake co := by
  unfold State.doWakeup
  rw [h]

/-- `doWakeup` leaves none behind in `m_co`, so the socket may be disconnected.
SOURCE: api/socket.cc:143-150 -/
theorem Inv.doWakeup (h : Inv s) {connected : Bool} {required : Required}
    (hconnected : connected = true → s.m_connected = true)
    (hrequired : connected = true → required = .empty) :
    Inv { s with m_connected := connected, m_readRequired := required }.doWakeup := by
  have hclosed : s.closed = true → connected = false := fun hc =>
    Bool.eq_false_iff.mpr fun ht => by simpa [h.closed hc] using hconnected ht
  rcases Option.eq_none_or_eq_some s.m_co with hco | ⟨co, hco⟩
  · rw [doWakeup_of_none (by exact hco)]
    refine { h with
      pooled := fun hc => h.pooled (hconnected hc)
      co := ?_
      required := fun hc hr => absurd (hrequired hc) hr
      closed := hclosed }
    intro co hmem
    cases hco.symm.trans hmem
  · rw [doWakeup_of_some (by exact hco)]
    have hplaced : Placed
        { s with m_connected := connected, m_readRequired := required, m_co := none } :=
      { h.toPlaced with }
    refine { hplaced.wake co with
      pooled := fun hc => h.pooled (hconnected hc)
      co := nofun
      reader := ?_
      suspended := ?_
      required := fun hc hr => absurd (hrequired hc) hr
      closed := hclosed
      failed := h.failed }
    · intro r hr hwoken
      obtain ⟨r', hr', -, hwoken'⟩ := mem_wake_reader hr
      obtain ⟨hblocked, hne⟩ := hwoken' hwoken
      exact absurd (Option.some.inj ((h.reader r' hr' hblocked).symm.trans hco)) hne
    · intro k hk hwoken hplace
      obtain ⟨k', hk', -, hplace', hwoken'⟩ := mem_wake_closer hk
      obtain ⟨hblocked, hne⟩ := hwoken' hwoken
      have hentry := h.suspended k' hk' hblocked (hplace' ▸ hplace)
      exact absurd (Option.some.inj (hentry.symm.trans hco)) hne

/-! ## What each step keeps -/

/-- A call waits exactly where the socket is connected and has not what it asks for; up to there it
changes the buffer only.
SOURCE: api/socket.cc:608-630 -/
theorem tryRead_spec {q : Request} {r : Bool × State} (h : s.tryRead q = some r) :
    (r.1 = true ↔ s.m_connected = true ∧ Lacks s.m_buffer q) ∧
      ∃ b, r.2 = { s with m_buffer := b } := by
  cases q with
  | doRead outBuffer outLen =>
    obtain ⟨x, hx, rfl⟩ := Option.map_eq_some_iff.mp h
    refine ⟨?_, _, rfl⟩
    simp only [Lacks, hx, Option.map_some, Option.some.injEq, decide_eq_true_eq]
    exact and_comm
  | doReadLine sep =>
    obtain ⟨x, hx, hr⟩ := Option.bind_eq_some_iff.mp h
    simp only [Lacks, hx, Option.map_some, Option.some.injEq]
    by_cases hempty : x.1 ≠ .empty
    · obtain rfl := Option.some.inj ((if_pos hempty).symm.trans hr)
      exact ⟨by simp [hempty], _, rfl⟩
    rw [if_neg hempty] at hr
    by_cases hconnected : s.m_connected = true
    · obtain rfl := Option.some.inj ((if_pos hconnected).symm.trans hr)
      exact ⟨by simp [hconnected, not_not.mp hempty], _, rfl⟩
    · rw [if_neg hconnected] at hr
      obtain ⟨y, -, rfl⟩ := Option.map_eq_some_iff.mp hr
      exact ⟨by simp [hconnected], _, rfl⟩

/-- A reader that goes on changes the buffer only. -/
theorem afterRead_cases {q : Request} (h : s.afterRead q = some s') :
    ∃ b, s' = { s with m_buffer := b } := by
  cases q with
  | doRead outBuffer outLen =>
    obtain ⟨x, -, hx⟩ := Option.bind_eq_some_iff.mp h
    split at hx
    · exact ⟨_, (Option.some.inj hx).symm⟩
    · obtain ⟨y, -, rfl⟩ := Option.map_eq_some_iff.mp hx
      exact ⟨_, rfl⟩
  | doReadLine sep =>
    simp only [State.afterRead] at h
    split at h <;> obtain ⟨x, -, rfl⟩ := Option.map_eq_some_iff.mp h <;> exact ⟨_, rfl⟩

/-- The assertions hold, and the reader is in `m_co`. -/
theorem Inv.wait (h : Inv s) (hreader : s.reader = none) (hconnected : s.m_connected = true)
    (hco : s.m_co = none) (q : Request) : Inv (s.wait q) := by
  have hrequired : ¬ s.m_readRequired ≠ .empty := fun hne => by
    obtain ⟨r, hr, -⟩ := h.required hconnected hne
    cases hreader.symm.trans hr
  unfold State.wait
  rw [if_neg hrequired, if_neg (not_not.mpr hco)]
  refine { h with
    reader_lt := ?_
    closer_lt := fun k hk => Nat.lt_succ_of_lt (h.closer_lt k hk)
    apart := ?_
    behind := fun _ _ _ _ => nofun
    co := fun _ _ => ⟨hconnected, .inl ⟨_, rfl, rfl⟩⟩
    reader := ?_
    suspended := ?_
    required := fun _ _ => ⟨_, rfl, rfl⟩ }
  · rintro r ⟨⟩
    exact Nat.lt_succ_self _
  · rintro r ⟨⟩ k hk
    exact (h.closer_lt k hk).ne'
  · rintro r ⟨⟩ -
    rfl
  · intro k hk hwoken hplace
    cases hco.symm.trans (h.suspended k hk hwoken hplace)

/-- A read within the condition keeps the invariant. -/
theorem Inv.read (h : Inv s) {q : Request} (hreader : s.reader = none)
    (hcond : Cond s (.read q)) (hread : s.read q = some s') : Inv s' := by
  obtain ⟨r, hr, rfl⟩ := Option.map_eq_some_iff.mp hread
  obtain ⟨hwaits, b, hb⟩ := tryRead_spec hr
  have hkept : Inv r.2 := hb ▸ h.of_buffer b s.m_bufferLimit
  by_cases hw : r.1 = true
  · obtain ⟨hconnected, hlacks⟩ := hwaits.mp hw
    rw [if_pos hw]
    rw [hb] at hkept ⊢
    exact hkept.wait hreader hconnected (hcond hconnected hlacks) q
  · rwa [if_neg hw]

/-- The end of `doClose`.
SOURCE: api/socket.cc:665-682 -/
theorem Inv.remove (h : Inv s) (hconnected : s.m_connected = false) : Inv s.remove :=
  (h.unpooled hconnected).of_buffer _ _

/-- A closer in `doCloseSusped`, with a reader in `m_co`.
SOURCE: api/socket.cc:137-141 -/
theorem Inv.close_behind (h : Inv s) (hconnected : s.m_connected = true) {r : Reader}
    (hr : r ∈ s.reader) (hblocked : r.waiter.woken = false) :
    Inv { s with
      m_closing := some s.entries
      entries := s.entries + 1
      closer := some { waiter := ⟨s.entries, false⟩, place := .doCloseSusped } } := by
  refine { h with
    reader_lt := fun r hr => Nat.lt_succ_of_lt (h.reader_lt r hr)
    closer_lt := ?_
    apart := ?_
    behind := fun _ _ _ _ hnone => by cases hnone.symm.trans hr
    closing := ?_
    held := ?_
    co := fun _ _ => ⟨hconnected, .inl ⟨r, hr, hblocked⟩⟩
    suspended := ?_ }
  · rintro k ⟨⟩
    exact Nat.lt_succ_self _
  · rintro r hr k ⟨⟩
    exact (h.reader_lt r hr).ne
  · rintro k ⟨⟩ -
    rfl
  · rintro co ⟨⟩ -
    exact ⟨_, rfl, rfl, rfl⟩
  · rintro k ⟨⟩ - ⟨⟩

/-- A closer in `doSuspend`.
SOURCE: api/socket.cc:125-135 -/
theorem Inv.close_waits (h : Inv s) (hconnected : s.m_connected = true) (hco : s.m_co = none)
    (hclosing : s.m_closing = none) :
    Inv { s with
      m_co := some s.entries
      entries := s.entries + 1
      closer := some { waiter := ⟨s.entries, false⟩, place := .doSuspend } } := by
  refine { h with
    reader_lt := fun r hr => Nat.lt_succ_of_lt (h.reader_lt r hr)
    closer_lt := ?_
    apart := ?_
    behind := ?_
    closing := ?_
    held := fun co hmem => by cases hclosing.symm.trans hmem
    co := fun _ _ => ⟨hconnected, .inr ⟨_, rfl, rfl, rfl⟩⟩
    reader := ?_
    suspended := ?_ }
  · rintro k ⟨⟩
    exact Nat.lt_succ_self _
  · rintro r hr k ⟨⟩
    exact (h.reader_lt r hr).ne
  · rintro k ⟨⟩ - ⟨⟩
  · rintro k ⟨⟩ ⟨⟩
  · intro r hr hblocked
    cases hco.symm.trans (h.reader r hr hblocked)
  · rintro k ⟨⟩ - -
    rfl

/-- The assertion holds, for only another closer could be in `m_closing`.
SOURCE: api/socket.cc:665-682 -/
theorem Inv.doClose (h : Inv s) (hcloser : s.closer = none) : Inv s.doClose := by
  have hnone : ∀ k, k ∉ s.closer := fun k hk => by cases hcloser.symm.trans hk
  unfold State.doClose
  by_cases hpooled : ¬ s.pooled
  · rwa [if_pos hpooled]
  rw [if_neg hpooled]
  by_cases hconnected : s.m_connected = true
  · rw [if_pos hconnected]
    have hclosing : s.m_closing = none := by
      refine Option.eq_none_iff_forall_not_mem.mpr fun co hco => ?_
      obtain ⟨k, hk, -⟩ := h.held co hco (not_not.mp hpooled)
      exact hnone k hk
    by_cases hco : s.m_co ≠ none
    · rw [if_pos hco, if_neg (not_not.mpr hclosing)]
      obtain ⟨co, hco⟩ := Option.ne_none_iff_exists'.mp hco
      obtain ⟨-, ⟨r, hr, hblocked⟩ | ⟨k, hk, -⟩⟩ := h.co co hco
      · exact h.close_behind hconnected hr hblocked
      · exact absurd hk (hnone k)
    · rw [if_neg hco]
      exact h.close_waits hconnected (not_not.mp hco) hclosing
  · rw [if_neg hconnected]
    exact h.remove (Bool.eq_false_iff.mpr hconnected)

/-- A reader that runs on has woken the closer behind it.
SOURCE: api/socket.cc:137-141 -/
theorem Inv.resumeReader (h : Inv s) (hwoken : ∀ r ∈ s.reader, r.waiter.woken = true) :
    Inv { s.wakeClosing with reader := none } := by
  have hw := h.wakeClosing
  have hrun : ¬ ∃ r ∈ s.wakeClosing.reader, r.waiter.woken = false := by
    rintro ⟨r, hr, hblocked⟩
    obtain ⟨r', hr', hblocked'⟩ := reader_of_wakeClosing hr hblocked
    cases (hwoken r' hr').symm.trans hblocked'
  refine { hw with
    reader_lt := nofun
    apart := nofun
    behind := ?_
    co := ?_
    reader := nofun
    required := fun hconnected hne => absurd (hw.required hconnected hne) hrun }
  · intro k hk hblocked hplace
    cases (woken_of_wakeClosing h hk hplace).symm.trans hblocked
  · intro co hco
    obtain ⟨hconnected, hwaits⟩ := hw.co co hco
    exact ⟨hconnected, .inr (hwaits.resolve_left hrun)⟩

/-- No reader is left in `m_co` by a closer that removes the socket. -/
theorem Inv.leave (h : Inv s) (hreader : ¬ ∃ r ∈ s.reader, r.waiter.woken = false)
    (hcloser : ¬ ∃ k ∈ s.closer, k.waiter.woken = false) :
    Inv { s with m_connected := false, closer := none }.remove where
  reader_lt := h.reader_lt
  closer_lt := nofun
  apart _ _ _ := nofun
  behind := nofun
  closing := nofun
  held _ _ := nofun
  pooled := nofun
  co co hco := by
    obtain ⟨-, ⟨r, hr, hblocked⟩ | ⟨k, hk, hblocked, -⟩⟩ := h.co co hco
    · exact absurd ⟨r, hr, hblocked⟩ hreader
    · exact absurd ⟨k, hk, hblocked⟩ hcloser
  reader r hr hblocked := absurd ⟨r, hr, hblocked⟩ hreader
  suspended := nofun
  required := nofun
  closed _ := rfl
  failed := h.failed

/-- So does the end of a close, where nobody is blocked. -/
theorem Inv.afterClose (h : Inv s) (hreader : ∀ r ∈ s.reader, r.waiter.woken = true)
    (hcloser : ∀ k ∈ s.closer, k.waiter.woken = true) (place : Place) :
    Inv (s.afterClose place) := by
  have hr : ¬ ∃ r ∈ s.reader, r.waiter.woken = false := by
    rintro ⟨r, hr, hblocked⟩
    cases (hreader r hr).symm.trans hblocked
  have hk : ¬ ∃ k ∈ s.closer, k.waiter.woken = false := by
    rintro ⟨k, hk, hblocked⟩
    cases (hcloser k hk).symm.trans hblocked
  unfold State.afterClose
  split
  · exact h.wakeClosing.leave (fun ⟨_, hr', hblocked⟩ => hr (reader_of_wakeClosing hr' hblocked))
      fun ⟨_, hk', hblocked⟩ => hk (closer_of_wakeClosing hk' hblocked)
  · exact h.leave hr hk

/-- And new data.
SOURCE: api/socket.cc:499-529 -/
theorem Inv.onData (h : Inv s) {data : List UInt8} (hdata : s.onData data = some s') :
    Inv s' := by
  have hkept : ∀ b, Inv { s with m_buffer := b } := fun b => h.of_buffer b s.m_bufferLimit
  have hwoken : ∀ b, Inv { s with m_buffer := b, m_readRequired := .empty }.doWakeup :=
    fun b => (hkept b).doWakeup id fun _ => rfl
  unfold State.onData at hdata
  by_cases hpooled : ¬ s.pooled
  · rw [if_pos hpooled] at hdata
    exact Option.some.inj hdata ▸ h
  rw [if_neg hpooled] at hdata
  dsimp only at hdata
  split at hdata
  · obtain rfl := Option.some.inj hdata
    split
    · exact hwoken _
    · exact hkept _
  · obtain rfl := Option.some.inj hdata
    split <;> exact hkept _
  · split at hdata
    · exact Option.some.inj hdata ▸ hkept _
    · obtain ⟨r, -, rfl⟩ := Option.map_eq_some_iff.mp hdata
      split
      · exact hwoken _
      · exact hkept _

/-- A wake-up leaves `m_connected`.
SOURCE: api/socket.cc:143-150 -/
theorem doWakeup_m_connected (s : State) : s.doWakeup.m_connected = s.m_connected := by
  unfold State.doWakeup
  split <;> rfl

/-- Of `onError` and `onClose`.
SOURCE: api/socket.cc:541-556, 571-578 -/
theorem Inv.disconnect (h : Inv s) : Inv s.disconnect ∧ s.disconnect.m_connected = false := by
  unfold State.disconnect
  by_cases hpooled : s.pooled = true
  · rw [if_pos hpooled]
    refine ⟨?_, doWakeup_m_connected _⟩
    show Inv { s with m_connected := false, m_readRequired := s.m_readRequired }.doWakeup
    exact h.doWakeup nofun nofun
  · rw [if_neg hpooled]
    exact ⟨h, Bool.eq_false_iff.mpr fun hconnected => hpooled (h.pooled hconnected)⟩

/-- **The step lemma.** -/
theorem inv_step (h : Inv s) (hcond : Cond s e) (hs : system.step s e = some s') : Inv s' := by
  simp only [system_step, step, h.failed, Bool.false_eq_true, if_false] at hs
  cases e with
  | read q =>
    obtain ⟨⟨hreader, -⟩, hread⟩ := Option.ite_none_right_eq_some.mp hs
    exact h.read hreader hcond hread
  | doClose =>
    obtain ⟨hcloser, hclose⟩ := Option.ite_none_right_eq_some.mp hs
    exact Option.some.inj hclose ▸ h.doClose hcloser
  | resumeReader =>
    obtain ⟨r, hr, hread⟩ := Option.bind_eq_some_iff.mp hs
    obtain ⟨hwoken, hread⟩ := Option.ite_none_right_eq_some.mp hread
    obtain ⟨b, rfl⟩ := afterRead_cases hread
    refine (h.resumeReader fun r' hr' => ?_).of_buffer b _
    obtain rfl := Option.mem_unique hr hr'
    exact hwoken
  | resumeCloser =>
    obtain ⟨k, hk, hclose⟩ := Option.bind_eq_some_iff.mp hs
    obtain ⟨hwoken, hclose⟩ := Option.ite_none_right_eq_some.mp hclose
    obtain rfl := Option.some.inj hclose
    refine h.afterClose hcond (fun k' hk' => ?_) k.place
    obtain rfl := Option.mem_unique hk hk'
    exact hwoken
  | resumeConnector =>
    obtain ⟨-, hconnect⟩ := Option.ite_none_right_eq_some.mp hs
    obtain rfl := Option.some.inj hconnect
    have hkept : Inv { s.wakeClosing with connector := false } := { h.wakeClosing with }
    split
    · exact hkept
    · next hconnected => exact hkept.unpooled (Bool.eq_false_iff.mpr hconnected)
  | doSetLimit limit =>
    obtain ⟨-, hlimit⟩ := Option.ite_none_right_eq_some.mp hs
    exact Option.some.inj hlimit ▸ h.of_buffer s.m_buffer limit
  | onData data => exact h.onData (Option.ite_none_right_eq_some.mp hs).2
  | onError => exact Option.some.inj hs ▸ h.disconnect.1
  | onClose =>
    obtain ⟨hkept, hconnected⟩ := h.disconnect
    exact Option.some.inj hs ▸ { hkept with closed := fun _ => hconnected }

/-- When `CLOSE` has been handled, none is in `m_co`. -/
theorem Inv.right (h : Inv s') : Right s e s' where
  asserts := h.failed
  settled hclosed hquiet := by
    have hco : ∀ co, s'.m_co ≠ some co := fun co hco => by
      cases (h.closed hclosed).symm.trans (h.co co hco).1
    have hreader : s'.reader = none := by
      refine Option.eq_none_iff_forall_not_mem.mpr fun r hr => ?_
      exact hco _ (h.reader r hr (hquiet.reader r hr))
    refine ⟨hreader, Option.eq_none_iff_forall_not_mem.mpr fun k hk => ?_⟩
    have hblocked := hquiet.closer k hk
    cases hplace : k.place with
    | doSuspend => exact hco _ (h.suspended k hk hblocked hplace)
    | doCloseSusped => exact h.behind k hk hblocked hplace hreader

/-! ## What breaks the condition -/

/-- A reader that a closer has left behind: the socket is not in the pool, and none but the closer
that has gone is in `m_closing`. -/
structure Stranded (r : Reader) (s : State) : Prop where
  reader : s.reader = some r
  blocked : r.waiter.woken = false
  apart : s.m_closing ≠ some r.waiter.entry
  closer : s.closer = none
  pooled : s.pooled = false
  m_connected : s.m_connected = false
  failed : s.failed = false

variable {r : Reader}

/-- Where a reader is stranded nobody is closing.
SOURCE: api/socket.cc:137-141 -/
theorem Stranded.wakeClosing (h : Stranded r s) : s.wakeClosing = s := by
  rcases Option.eq_none_or_eq_some s.m_closing with hclosing | ⟨co, hclosing⟩
  · exact wakeClosing_of_none hclosing
  · have hne : r.waiter.entry ≠ co := fun heq => h.apart (heq ▸ hclosing)
    rw [wakeClosing_of_some hclosing, State.wake, h.reader, h.closer, Option.map_some,
      Option.map_none, Reader.wake, wake_of_ne hne, ← h.reader, ← h.closer]

/-- A close beside a reader that is blocked strands it. -/
theorem Inv.stranded (h : Inv s) {k : Closer} (hr : s.reader = some r)
    (hblocked : r.waiter.woken = false) (hk : s.closer = some k) :
    Stranded r (s.afterClose k.place) := by
  have hpooled : s.pooled = true := h.pooled (h.co _ (h.reader r hr hblocked)).1
  have hsame : (if k.place = .doSuspend then s.wakeClosing else s) = s := by
    split
    · next hplace =>
      refine wakeClosing_of_none (Option.eq_none_iff_forall_not_mem.mpr fun co hco => ?_)
      obtain ⟨k', hk', hplace', -⟩ := h.held co hco hpooled
      obtain rfl := Option.mem_unique hk hk'
      rw [hplace] at hplace'
      cases hplace'
    · rfl
  unfold State.afterClose
  rw [hsame]
  exact ⟨hr, hblocked, fun hclosing => h.not_closing hpooled hclosing r hr rfl, rfl, rfl, rfl,
    h.failed⟩

/-- `CLOSE` finds no socket.
SOURCE: api/socket.cc:571-578 -/
theorem Stranded.onClose (h : Stranded r s) :
    system.step s .onClose = some { s with closed := true } := by
  simp [step, act, State.disconnect, h.failed, h.pooled]

/-- The connector may still go on, and nothing else. -/
theorem Stranded.resumeConnector (h : Stranded r s) (hconnector : s.connector = true) :
    system.step s .resumeConnector = some { s with connector := false } := by
  simp only [system_step, step, act, h.failed, Bool.false_eq_true, if_false, if_pos hconnector,
    h.wakeClosing, h.m_connected, Option.some.injEq]
  rw [← h.pooled]

/-- It is not right when `CLOSE` has been handled and the coroutine in `makeSocket` has run. -/
theorem Stranded.not_right (h : Stranded r s) (hclosed : s.closed = true)
    (hconnector : s.connector = false) : ¬ Right t e s := by
  intro hright
  have hquiet : Quiet s := by
    refine ⟨fun r' hr' => ?_, fun k hk => ?_, hconnector⟩
    · obtain rfl := Option.mem_unique h.reader hr'
      exact h.blocked
    · cases h.closer.symm.trans hk
  cases h.reader.symm.trans (hright.settled hclosed hquiet).1

/-- The steps after that reach a failed assertion.
SOURCE: api/socket.cc:571-578 -/
theorem Stranded.not_always (h : Stranded r s) :
    ¬ system.Always Right s [.onClose, .resumeConnector] := by
  intro hall
  obtain ⟨hright, hrest⟩ := hall _ h.onClose
  have hclosed : Stranded r { s with closed := true } := { h with }
  cases hconnector : s.connector with
  | false => exact hclosed.not_right rfl hconnector hright
  | true =>
    have hrun : Stranded r { s with closed := true, connector := false } := { h with }
    exact hrun.not_right rfl rfl (hrest _ (hclosed.resumeConnector hconnector)).1

/-- A step that breaks the condition fails an assertion, or leaves a reader suspended. -/
theorem not_always_of_not_cond (h : Inv s) (hcond : ¬ Cond s e)
    (hs : system.step s e = some s') : ∃ fs, ¬ system.Always Right s (e :: fs) := by
  have hact : act s e = some s' := by
    simpa only [system_step, step, h.failed, Bool.false_eq_true, if_false] using hs
  cases e with
  | read q =>
    simp only [Cond, Classical.not_imp] at hcond
    obtain ⟨hconnected, hlacks, hco⟩ := hcond
    obtain ⟨-, hread⟩ := Option.ite_none_right_eq_some.mp hact
    obtain ⟨r, hr, rfl⟩ := Option.map_eq_some_iff.mp hread
    obtain ⟨hwaits, b, hb⟩ := tryRead_spec hr
    have hfailed : (r.2.wait q).failed = true := by
      rw [hb]
      unfold State.wait
      rw [if_pos hco]
      split <;> rfl
    refine ⟨[], fun hall => ?_⟩
    have hright := (hall _ hs).1
    rw [if_pos (hwaits.mpr ⟨hconnected, hlacks⟩)] at hright
    cases hfailed.symm.trans hright.asserts
  | resumeCloser =>
    obtain ⟨k, hk, hclose⟩ := Option.bind_eq_some_iff.mp hact
    obtain ⟨-, hclose⟩ := Option.ite_none_right_eq_some.mp hclose
    obtain rfl := Option.some.inj hclose
    simp only [Cond, not_forall] at hcond
    obtain ⟨r, hr, hblocked⟩ := hcond
    have hstranded := h.stranded hr (Bool.eq_false_iff.mpr hblocked) hk
    exact ⟨[.onClose, .resumeConnector], fun hall => hstranded.not_always (hall _ hs).2⟩
  | doClose | resumeReader | resumeConnector | doSetLimit _ | onData _ | onError | onClose =>
    exact absurd trivial hcond

/-- **The assertions of a suspension**, in any order of calls and messages: as long as a call that
reads finds what it asks for or `m_co` empty, and no closer runs on while a reader is suspended and
not woken, no assertion fails, and when `CLOSE` has been handled and those that were woken have run none
is suspended.  After such a run, a step of either kind fails an assertion, or it goes on with steps
that leave the reader suspended.
SOURCE: api/socket.cc:125-150, 499-578, 608-653, 665-682 -/
theorem suspensions_safe (h0 : Starts s₀) (hmeets : system.Meets Cond s₀ es) :
    system.Always Right s₀ es ∧
      ∀ s e s', system.run s₀ es = some s → system.step s e = some s' → ¬ Cond s e →
        ∃ fs, ¬ system.Always Right s (e :: fs) := by
  constructor
  · refine System.always_of_meets (I := Inv) (g := Cond) ?_ (inv_of_starts h0) hmeets
    intro s e s' hinv hcond hs
    have hkept := inv_step hinv hcond hs
    exact ⟨hkept.right, hkept⟩
  · intro s e s' hrun hs hcond
    have hinv : Inv s := System.run_invariant (fun _ _ _ hinv hcond hs => inv_step hinv hcond hs)
      (inv_of_starts h0) hrun hmeets
    exact not_always_of_not_cond hinv hcond hs

/-- A socket that has just been started; the coroutine in `doStart` has run. -/
def started : State :=
  { m_connected := true, m_readRequired := .empty, m_buffer := Receive.start, m_bufferLimit := 0
    m_co := none, m_closing := none, pooled := true, entries := 1, reader := none, closer := none
    connector := false, closed := false, failed := false }

/-- A socket just made. -/
theorem started_starts : Starts started := by
  constructor <;> rfl

/-- A closer behind a reader, which `CLOSE` wakes.
SOURCE: api/socket.cc:152-159, 571-578, 608-630, 665-682 -/
theorem suspensions_safe_behind : system.Always Right started
    [.read (.doRead [0] 1), .doClose, .onClose, .resumeReader, .resumeCloser] :=
  (suspensions_safe started_starts (by decide)).1

/-- A read that waits for data while a closer waits for `CLOSE`. -/
theorem suspension_fails : ¬ ∀ (s₀ : State) (es : List Event), Starts s₀ →
    system.Always Right s₀ es := by
  intro hall
  have hright := ((hall started [.doClose, .read (.doRead [0] 1)] started_starts _ rfl).2 _ rfl).1
  exact absurd hright.asserts (by decide)

end MagicNet.Suspend
