import MagicNet.Model.Iocp

/-!
# The two pollers refine one table

What `iocpWrap` promises is a table of the registered descriptors: for each the pointer that comes
back with its events, and whether writing is waited for.  A call that fails leaves no trace, a change
of the interest in writing concerns the descriptors that are there, and a batch is about registered
descriptors only, and says "can be written" only where that was asked for.

`epoll` and `kqueue` both keep to it, on every kernel that does what its manual says, in every run in
which a descriptor is registered only while it is not there and asked about with the pointer it was
registered with.  For `epoll` the interest is a bit of the item; for `kqueue` it is whether the second
of two notes is enabled, and the invariant is that the notes of a descriptor are both there, with one
pointer, or both not.
-/

set_option autoImplicit false

namespace MagicNet.Iocp

open MagicNet.Foundation MagicNet.Poll

/-! ## The table -/

/-- What a registered descriptor is registered for. -/
structure Interest where
  ud : Option ℕ
  write : Bool
  deriving DecidableEq, Repr

abbrev Table := ℤ → Option Interest

/-- An event that may be reported of the registered descriptors. -/
structure Reported (t : Table) (e : IocpEvent) : Prop where
  registered : ∃ sock, ∃ it ∈ t sock, e.s = it.ud ∧ (e.iswrite = true → it.write = true)
  eof : e.iseof = true → e.isread = false ∧ e.iswrite = false

/-- A wait that returns a batch, or fails and leaves the last one. -/
def Batch (t : Table) (old new : ℕ → IocpEvent) (n : ℤ) : Prop :=
  ((n = -1 ∨ n = -2) ∧ new = old) ∨
    (1 ≤ n ∧ n ≤ IOCP_EVENT_WAIT_MAX ∧ ∀ i : ℕ, (i : ℤ) < n → Reported t (new i))

/-- What a poller promises of a call, `table` being that of a kernel.  It is the same table where the
call has failed. -/
def Promised {ω κ : Type} (table : κ → Table) (s : State κ) (c : Call ω) (s' : State κ) : Prop :=
  match c with
  | .doRegister sock ud _ =>
    (s'.registered = some true ∧
        table s'.kernel = Function.update (table s.kernel) sock (some ⟨ud, false⟩)) ∨
      (s'.registered = some false ∧ table s'.kernel = table s.kernel)
  | .doUnRegister sock _ =>
    table s'.kernel =
      if s'.failed then table s.kernel else Function.update (table s.kernel) sock none
  | .close sock => table s'.kernel = Function.update (table s.kernel) sock none
  | .doToWrite sock _ enable _ =>
    if s'.failed then table s'.kernel = table s.kernel
    else
      ∃ it ∈ table s.kernel sock, table s'.kernel =
        Function.update (table s.kernel) sock (some { it with write := enable })
  | .onWait _ =>
    table s'.kernel = table s.kernel ∧ ∃ n ∈ s'.waited, Batch (table s.kernel) s.m_evts s'.m_evts n

/-- What the callers promise: a descriptor is not registered twice, and it is asked about with the
pointer it was registered with. -/
def Asked {ω κ : Type} (table : κ → Table) (s : State κ) : Call ω → Prop
  | .doRegister sock _ _ => table s.kernel sock = none
  | .doToWrite sock ud _ _ => ∀ it ∈ table s.kernel sock, it.ud = ud
  | _ => True

instance {ω κ : Type} (table : κ → Table) (s : State κ) :
    ∀ c : Call ω, Decidable (Asked table s c)
  | .doRegister sock _ _ => inferInstanceAs (Decidable (table s.kernel sock = none))
  | .doToWrite sock ud _ _ => inferInstanceAs (Decidable (∀ it ∈ table s.kernel sock, it.ud = ud))
  | .doUnRegister _ _ | .close _ | .onWait _ => isTrue trivial

/-- The end of `onWait` keeps the promise where each event of the kernel may be reported.
SOURCE: network/iocpEpoll.cc:37-56, network/iocpKqueue.cc:55-76 -/
theorem onWait_batch {ε κ : Type} (s : State κ) {t : Table} {event : ε → IocpEvent} {ev : List ε}
    (k : κ) (eintr : Bool) (hlen : ev.length ≤ IOCP_EVENT_WAIT_MAX)
    (hev : ∀ e ∈ ev, Reported t (event e)) :
    ∃ n ∈ (s.onWait k (ev.map event) eintr).waited,
      Batch t s.m_evts (s.onWait k (ev.map event) eintr).m_evts n := by
  by_cases h : ev.length = 0
  · refine ⟨if eintr then -2 else -1, by simp [State.onWait, h], .inl ⟨?_, ?_⟩⟩
    · cases eintr <;> simp
    · simp [State.onWait, h]
  · refine ⟨ev.length, by simp [State.onWait, h], .inr ⟨by omega, by exact_mod_cast hlen, ?_⟩⟩
    intro i hi
    have hi' : i < ev.length := by exact_mod_cast hi
    have hget : (s.onWait k (ev.map event) eintr).m_evts i = event (ev.get ⟨i, hi'⟩) := by
      simp [State.onWait, h, List.getD_eq_getElem?_getD, hi']
    rw [hget]
    exact hev _ (List.get_mem ..)

/-- What the kernel is after a wait.
SOURCE: network/iocpEpoll.cc:37-56, network/iocpKqueue.cc:55-76 -/
@[simp] theorem onWait_kernel {κ : Type} (s : State κ) (k : κ) (ev : List IocpEvent) (eintr : Bool) :
    (s.onWait k ev eintr).kernel = k := by
  unfold State.onWait
  split <;> rfl

/-! ## `iocpEpoll` -/

namespace Epoll

variable {ω κ : Type} {K : Calls ω κ} {items : κ → ℤ → Option EpollEvent}

/-- What an item is there for. -/
def EpollEvent.interest (it : EpollEvent) : Interest := ⟨it.ptr, it.events &&& EPOLLOUT ≠ 0⟩

def table (items : κ → ℤ → Option EpollEvent) (k : κ) : Table :=
  fun sock => (items k sock).map EpollEvent.interest

/-- The table of a kernel in which one item has changed. -/
theorem table_update {k k' : κ} {sock : ℤ} {it : Option EpollEvent}
    (h : items k' = Function.update (items k) sock it) :
    table items k' =
      Function.update (table items k) sock (it.map EpollEvent.interest) := by
  funext x
  by_cases hx : x = sock
  · subst hx
    simp [table, h]
  · simp [table, h, Function.update_of_ne hx]

/-- The table is a matter of the items. -/
theorem table_congr {k k' : κ} (h : items k' = items k) : table items k' = table items k := by
  funext x
  simp [table, h]

/-- Flags among those asked for have the bit for writing only where it was asked for. -/
theorem epollout_of_reported {events mask : ℕ}
    (h : events &&& (mask ||| EPOLLERR ||| EPOLLHUP) = events) (hout : events &&& EPOLLOUT ≠ 0) :
    mask &&& EPOLLOUT ≠ 0 := by
  intro hmask
  apply hout
  calc events &&& EPOLLOUT
      = events &&& (mask ||| EPOLLERR ||| EPOLLHUP) &&& EPOLLOUT := by rw [h]
    _ = events &&& (mask &&& EPOLLOUT ||| EPOLLERR &&& EPOLLOUT ||| EPOLLHUP &&& EPOLLOUT) := by
        rw [Nat.and_assoc, Nat.and_or_distrib_right, Nat.and_or_distrib_right]
    _ = 0 := by rw [hmask]; simp [EPOLLERR, EPOLLHUP, EPOLLOUT]

/-- An event that `epoll_wait` has written is one of a registered descriptor.
SOURCE: network/iocpEpoll.cc:37-56, network/iocpKqueue.cc:55-76 -/
theorem event_reported (hdoc : Documented K items) {os : ω} {k : κ} {ev : EpollEvent}
    (hev : ev ∈ (K.epoll_wait os k).1.1) : Reported (table items k) (event ev) := by
  obtain ⟨sock, it, hit, hptr, hmask⟩ := hdoc.reports os k ev hev
  have hit' : items k sock = some it := hit
  refine ⟨⟨sock, it.interest, by simp [table, hit'], hptr, fun hw => ?_⟩, by simp [event]⟩
  have hout : ev.events &&& EPOLLOUT ≠ 0 := by simpa [event] using hw
  simpa [EpollEvent.interest] using epollout_of_reported hmask hout

/-- Each call of `iocpEpoll` keeps the promise. -/
theorem step_promised (hdoc : Documented K items) (s : State κ) (c : Call ω) (s' : State κ)
    (hask : Asked (table items) s c) (h : step K s c = some s') :
    Promised (table items) s c s' := by
  cases c with
  | doRegister sock ud os =>
    obtain rfl := Option.some.inj h
    cases hr : (K.epoll_ctl (os 0) s.kernel .EPOLL_CTL_ADD sock (some ⟨EPOLLIN, ud⟩)).1 with
    | true =>
      refine .inl ⟨congrArg some hr, (table_update (hdoc.add _ _ _ _ hr)).trans ?_⟩
      simp [EpollEvent.interest, EPOLLIN, EPOLLOUT]
    | false => exact .inr ⟨congrArg some hr, table_congr (hdoc.failed _ _ _ _ _ hr)⟩
  | doUnRegister sock os =>
    obtain rfl := Option.some.inj h
    cases hr : (K.epoll_ctl (os 0) s.kernel .EPOLL_CTL_DEL sock none).1 with
    | true => simpa [Promised, State.void, hr] using table_update (hdoc.del _ _ _ hr)
    | false =>
      simpa [Promised, State.void, hr] using table_congr (hdoc.failed _ _ _ _ _ hr)
  | close sock =>
    obtain rfl := Option.some.inj h
    exact table_update (hdoc.close _ _)
  | doToWrite sock ud enable os =>
    obtain rfl := Option.some.inj h
    cases hr : (K.epoll_ctl os s.kernel .EPOLL_CTL_MOD sock
      (some ⟨EPOLLIN ||| (if enable then EPOLLOUT else 0), ud⟩)).1 with
    | true =>
      obtain ⟨hthere, hmod⟩ := hdoc.mod _ _ _ _ hr
      obtain ⟨it, hit⟩ := Option.isSome_iff_exists.mp hthere
      have hrow : table items s.kernel sock = some it.interest := by simp [table, hit]
      have hud : it.ptr = ud := hask _ hrow
      have hinterest : EpollEvent.interest ⟨EPOLLIN ||| (if enable then EPOLLOUT else 0), ud⟩
          = { it.interest with write := enable } := by
        cases enable <;> simp [EpollEvent.interest, EPOLLIN, EPOLLOUT, hud]
      have hnew := table_update hmod
      rw [Option.map_some, hinterest] at hnew
      simp only [Promised, State.void, hr, Bool.not_true, Bool.false_eq_true, if_false]
      exact ⟨_, hrow, hnew⟩
    | false =>
      simpa [Promised, State.void, hr] using table_congr (hdoc.failed _ _ _ _ _ hr)
  | onWait os =>
    obtain rfl := Option.some.inj h
    refine ⟨?_, onWait_batch s _ _ (hdoc.maxevents os _) fun ev hev => event_reported hdoc hev⟩
    simpa using table_congr (hdoc.epoll_wait os s.kernel)

end Epoll

/-! ## `iocpKqueue` -/

namespace Kqueue

variable {ω κ : Type} {K : Calls ω κ} {notes : κ → Notes}

/-- A descriptor is registered where it has both notes. -/
def tableOf (n : Notes) : Table := fun sock =>
  match n (sock, .EVFILT_READ), n (sock, .EVFILT_WRITE) with
  | some r, some w => some ⟨r.udata, w.enabled⟩
  | _, _ => none

def table (notes : κ → Notes) (k : κ) : Table := tableOf (notes k)

/-- The notes of a descriptor are both there, with one pointer and that for reading enabled, or both
not. -/
def Paired (n : Notes) : Prop :=
  ∀ sock, (n (sock, .EVFILT_READ) = none ∧ n (sock, .EVFILT_WRITE) = none) ∨
    ∃ ud write, n (sock, .EVFILT_READ) = some ⟨ud, true⟩ ∧
      n (sock, .EVFILT_WRITE) = some ⟨ud, write⟩

/-- The notes of a descriptor, set together. -/
def pair (n : Notes) (sock : ℤ) (it : Option Interest) : Notes := fun i =>
  if i.1 = sock then
    it.map fun it =>
      match i.2 with
      | .EVFILT_READ => ⟨it.ud, true⟩
      | .EVFILT_WRITE => ⟨it.ud, it.write⟩
  else n i

/-- A pair of notes is a row of the table.
SOURCE: network/iocpKqueue.cc:20-38 -/
theorem table_pair (n : Notes) (sock : ℤ) (it : Option Interest) :
    tableOf (pair n sock it) = Function.update (tableOf n) sock it := by
  funext x
  by_cases hx : x = sock
  · subst hx
    cases it <;> simp [tableOf, pair]
  · simp [tableOf, pair, hx]

/-- Notes that come in pairs do so after one more. -/
theorem paired_pair {n : Notes} (h : Paired n) (sock : ℤ) (it : Option Interest) :
    Paired (pair n sock it) := by
  intro x
  by_cases hx : x = sock
  · subst hx
    cases it with
    | none => exact .inl (by simp [pair])
    | some it => exact .inr ⟨it.ud, it.write, by simp [pair]⟩
  · simpa [pair, hx] using h x

/-- A table of notes is known by those of one descriptor and the rest. -/
theorem eq_pair {n n' : Notes} {sock : ℤ} {it : Option Interest}
    (hread : n' (sock, .EVFILT_READ) = it.map fun it => ⟨it.ud, true⟩)
    (hwrite : n' (sock, .EVFILT_WRITE) = it.map fun it => ⟨it.ud, it.write⟩)
    (hrest : ∀ x f, x ≠ sock → n' (x, f) = n (x, f)) : n' = pair n sock it := by
  funext ⟨x, f⟩
  by_cases hx : x = sock
  · subst hx
    cases f with
    | EVFILT_READ => simpa [pair] using hread
    | EVFILT_WRITE => simpa [pair] using hwrite
  · simpa [pair, hx] using hrest x f hx

/-- A row of the table is the two notes of its descriptor. -/
theorem paired_row {n : Notes} (h : Paired n) (sock : ℤ) :
    (n (sock, .EVFILT_READ) = (tableOf n sock).map fun it => ⟨it.ud, true⟩) ∧
      n (sock, .EVFILT_WRITE) = (tableOf n sock).map fun it => ⟨it.ud, it.write⟩ := by
  rcases h sock with ⟨hr, hw⟩ | ⟨ud, write, hr, hw⟩ <;> simp [tableOf, hr, hw]

/-- Nothing is changed where the notes of a descriptor are as the table has them. -/
theorem pair_self {n : Notes} (h : Paired n) (sock : ℤ) : pair n sock (tableOf n sock) = n :=
  (eq_pair (paired_row h sock).1 (paired_row h sock).2 fun _ _ _ => rfl).symm

/-- A note that is deleted is gone, and was not there where that fails. -/
theorem notes_delete (hdoc : Documented K notes) (os : ω) (k : κ) (sock : ℤ) (f : Filter)
    (ud : Option ℕ) :
    notes (K.kevent os k ⟨sock, f, .EV_DELETE, ud⟩).2 = Function.update (notes k) (sock, f) none ∧
      ((K.kevent os k ⟨sock, f, .EV_DELETE, ud⟩).1 = false → notes k (sock, f) = none) := by
  have hnone (hr : (K.kevent os k ⟨sock, f, .EV_DELETE, ud⟩).1 = false) :
      notes k (sock, f) = none := by
    by_contra hthere
    rw [hdoc.deletes os k sock f ud hthere] at hr
    cases hr
  refine ⟨?_, hnone⟩
  cases hr : (K.kevent os k ⟨sock, f, .EV_DELETE, ud⟩).1 with
  | true => exact hdoc.delete os k sock f ud hr
  | false =>
    rw [hdoc.failed os k _ hr]
    exact (Function.update_eq_self_iff.mpr (hnone hr).symm).symm

/-- `doUnRegister` takes both notes, and there were none where a call fails.
SOURCE: network/iocpKqueue.cc:40-46 -/
theorem notes_doUnRegister (hdoc : Documented K notes) (k : κ) (sock : ℤ) (os : ℕ → ω) :
    notes (doUnRegister K k sock os).2 = pair (notes k) sock none ∧
      ((doUnRegister K k sock os).1 = false →
        notes k (sock, .EVFILT_READ) = none ∨ notes k (sock, .EVFILT_WRITE) = none) := by
  obtain ⟨hread, hnoread⟩ := notes_delete hdoc (os 0) k sock .EVFILT_READ none
  obtain ⟨hwrite, hnowrite⟩ := notes_delete hdoc (os 1)
    (K.kevent (os 0) k ⟨sock, .EVFILT_READ, .EV_DELETE, none⟩).2 sock .EVFILT_WRITE none
  rw [hread] at hwrite hnowrite
  constructor
  · exact hwrite.trans (eq_pair (by simp) (by simp) fun x f hx => by simp [hx])
  · intro hfail
    rcases Bool.and_eq_false_iff.mp hfail with hr | hw
    · exact .inl (hnoread hr)
    · exact .inr (by simpa using hnowrite hw)

/-- `doRegister` of a descriptor that is not there sets both notes, or leaves none.
SOURCE: network/iocpKqueue.cc:20-38 -/
theorem notes_doRegister (hdoc : Documented K notes) {k : κ} (h : Paired (notes k)) {sock : ℤ}
    (hnone : tableOf (notes k) sock = none) (ud : Option ℕ) (os : ℕ → ω) :
    ((doRegister K k sock ud os).1 = true ∧
        notes (doRegister K k sock ud os).2 = pair (notes k) sock (some ⟨ud, false⟩)) ∨
      (doRegister K k sock ud os).1 = false ∧ notes (doRegister K k sock ud os).2 = notes k := by
  have hread : notes k (sock, .EVFILT_READ) = none := by
    simpa [hnone] using (paired_row h sock).1
  have hback (n : Notes) (hrest : ∀ x f, x ≠ sock → n (x, f) = notes k (x, f)) :
      pair n sock none = notes k := by
    have hself := pair_self h sock
    rw [hnone] at hself
    exact (eq_pair (by simp [pair]) (by simp [pair])
      fun x f hx => by simpa [pair, hx] using hrest x f hx).trans hself
  unfold doRegister
  generalize hr : K.kevent (os 0) k ⟨sock, .EVFILT_READ, .EV_ADD, ud⟩ = r
  cases hr1 : r.1 with
  | false =>
    subst hr
    exact .inr ⟨by simp [hr1], by simpa [hr1] using hdoc.failed _ _ _ hr1⟩
  | true =>
    have hn1 : notes r.2 = Function.update (notes k) (sock, .EVFILT_READ) (some ⟨ud, true⟩) := by
      subst hr
      exact hdoc.add _ _ _ _ _ hr1
    simp only [hr1, Bool.true_eq_false, if_false]
    generalize hw : K.kevent (os 1) r.2 ⟨sock, .EVFILT_WRITE, .EV_ADD, ud⟩ = w
    cases hw1 : w.1 with
    | false =>
      -- the note for reading is taken back
      have hn2 : notes w.2 = notes r.2 := by
        subst hw
        exact hdoc.failed _ _ _ hw1
      refine .inr ⟨by simp, ?_⟩
      simp only [if_true]
      rw [(notes_delete hdoc _ _ _ _ _).1, hn2, hn1, Function.update_idem]
      exact Function.update_eq_self_iff.mpr hread.symm
    | true =>
      have hn2 : notes w.2 =
          Function.update (notes r.2) (sock, .EVFILT_WRITE) (some ⟨ud, true⟩) := by
        subst hw
        exact hdoc.add _ _ _ _ _ hw1
      have hthere : notes w.2 (sock, .EVFILT_WRITE) = some ⟨ud, true⟩ := by simp [hn2]
      have hrest (x : ℤ) (f : Filter) (hx : x ≠ sock) : notes w.2 (x, f) = notes k (x, f) := by
        simp [hn2, hn1, hx]
      simp only [Bool.true_eq_false, if_false]
      generalize hd : K.kevent (os 2) w.2 ⟨sock, .EVFILT_WRITE, .EV_DISABLE, ud⟩ = d
      cases hd1 : d.1 with
      | false =>
        have hn3 : notes d.2 = notes w.2 := by
          subst hd
          exact hdoc.failed _ _ _ hd1
        refine .inr ⟨by simp, ?_⟩
        simp only [if_true]
        rw [(notes_doUnRegister hdoc _ _ _).1]
        exact hback _ fun x f hx => by rw [hn3, hrest x f hx]
      | true =>
        have hn3 : notes d.2 =
            Function.update (notes w.2) (sock, .EVFILT_WRITE) (some ⟨ud, false⟩) := by
          subst hd
          obtain ⟨note, hnote, hset⟩ := hdoc.disable _ _ _ _ _ hd1
          obtain rfl : note = ⟨ud, true⟩ := Option.some.inj (hnote.symm.trans hthere)
          exact hset rfl
        refine .inl ⟨by simp, ?_⟩
        simp only [Bool.true_eq_false, if_false]
        refine eq_pair ?_ ?_ fun x f hx => ?_
        · simp [hn3, hn2, hn1]
        · simp [hn3]
        · simpa [hn3, hx] using hrest x f hx

/-- A change of the interest in writing that succeeds, with the pointer the descriptor was registered
with. -/
theorem notes_doToWrite (hdoc : Documented K notes) {k : κ} (h : Paired (notes k)) {sock : ℤ}
    {ud : Option ℕ} {enable : Bool} {os : ω} (hud : ∀ it ∈ tableOf (notes k) sock, it.ud = ud)
    (hr : (K.kevent os k
      ⟨sock, .EVFILT_WRITE, if enable then .EV_ENABLE else .EV_DISABLE, ud⟩).1 = true) :
    ∃ it ∈ tableOf (notes k) sock,
      notes (K.kevent os k
        ⟨sock, .EVFILT_WRITE, if enable then .EV_ENABLE else .EV_DISABLE, ud⟩).2 =
          pair (notes k) sock (some { it with write := enable }) := by
  have hset : ∃ note ∈ notes k (sock, .EVFILT_WRITE), note.udata = ud →
      notes (K.kevent os k
        ⟨sock, .EVFILT_WRITE, if enable then .EV_ENABLE else .EV_DISABLE, ud⟩).2 =
          Function.update (notes k) (sock, .EVFILT_WRITE) (some ⟨ud, enable⟩) := by
    cases enable with
    | true => exact hdoc.enable _ _ _ _ _ hr
    | false => exact hdoc.disable _ _ _ _ _ hr
  obtain ⟨note, hnote, hset⟩ := hset
  obtain ⟨hread, hwrite⟩ := paired_row h sock
  obtain ⟨it, hrow, rfl⟩ := Option.map_eq_some_iff.mp (hwrite.symm.trans hnote)
  have hsame : it.ud = ud := hud it hrow
  refine ⟨it, hrow, (hset hsame).trans (eq_pair ?_ ?_ fun x f hx => ?_)⟩
  · simpa [hrow] using hread
  · simp [hsame]
  · simp [hx]

/-- An event that is reported is one of a registered descriptor.
SOURCE: network/iocpEpoll.cc:37-56, network/iocpKqueue.cc:55-76 -/
theorem event_reported (hdoc : Documented K notes) {os : ω} {k : κ} {ev : Kevent}
    (hk : Paired (notes k)) (hev : ev ∈ (K.wait os k).1.1) :
    Reported (table notes k) (event ev) := by
  obtain ⟨sock, note, hnote, hen, hud⟩ := hdoc.reports os k ev hev
  have hnote' : notes k (sock, ev.filter) = some note := hnote
  obtain ⟨hread, hwrite⟩ := paired_row hk sock
  refine ⟨?_, by cases hf : ev.filter <;> simp +contextual [event, hf]⟩
  cases hf : ev.filter with
  | EVFILT_READ =>
    rw [hf, hread] at hnote'
    obtain ⟨it, hrow, rfl⟩ := Option.map_eq_some_iff.mp hnote'
    exact ⟨sock, it, hrow, hud, by simp [event, hf]⟩
  | EVFILT_WRITE =>
    rw [hf, hwrite] at hnote'
    obtain ⟨it, hrow, rfl⟩ := Option.map_eq_some_iff.mp hnote'
    exact ⟨sock, it, hrow, hud, fun _ => hen⟩

/-- Each call of `iocpKqueue` keeps the promise, and the notes paired. -/
theorem step_promised (hdoc : Documented K notes) (s : State κ) (c : Call ω) (s' : State κ)
    (hI : Paired (notes s.kernel)) (hask : Asked (table notes) s c) (h : step K s c = some s') :
    Promised (table notes) s c s' ∧ Paired (notes s'.kernel) := by
  cases c with
  | doRegister sock ud os =>
    obtain rfl := Option.some.inj h
    rcases notes_doRegister hdoc hI hask ud os with ⟨hr, hn⟩ | ⟨hr, hn⟩
    · refine ⟨.inl ⟨congrArg some hr, (congrArg tableOf hn).trans (table_pair _ _ _)⟩, ?_⟩
      exact hn ▸ paired_pair hI sock _
    · exact ⟨.inr ⟨congrArg some hr, congrArg tableOf hn⟩, hn ▸ hI⟩
  | doUnRegister sock os =>
    obtain rfl := Option.some.inj h
    obtain ⟨hn, hfail⟩ := notes_doUnRegister hdoc s.kernel sock os
    refine ⟨?_, hn ▸ paired_pair hI sock none⟩
    have htable : table notes (doUnRegister K s.kernel sock os).2 =
        Function.update (table notes s.kernel) sock none :=
      (congrArg tableOf hn).trans (table_pair _ _ _)
    cases hr : (doUnRegister K s.kernel sock os).1 with
    | true => simpa [Promised, State.void, hr] using htable
    | false =>
      -- a call fails only where the descriptor is not registered
      have hrow : table notes s.kernel sock = none := by
        rcases hfail hr with hnone | hnone <;> simp [table, tableOf, hnone]
      have hsame : Function.update (table notes s.kernel) sock none = table notes s.kernel :=
        Function.update_eq_self_iff.mpr hrow.symm
      simpa [Promised, State.void, hr] using htable.trans hsame
  | close sock =>
    obtain rfl := Option.some.inj h
    have hn : notes (K.close s.kernel sock) = pair (notes s.kernel) sock none :=
      eq_pair (by simp [hdoc.close]) (by simp [hdoc.close]) fun x f hx => by simp [hdoc.close, hx]
    exact ⟨(congrArg tableOf hn).trans (table_pair _ _ _), hn ▸ paired_pair hI sock none⟩
  | doToWrite sock ud enable os =>
    obtain rfl := Option.some.inj h
    cases hr : (K.kevent os s.kernel
      ⟨sock, .EVFILT_WRITE, if enable then .EV_ENABLE else .EV_DISABLE, ud⟩).1 with
    | true =>
      obtain ⟨it, hrow, hn⟩ := notes_doToWrite hdoc hI hask hr
      refine ⟨?_, hn ▸ paired_pair hI sock _⟩
      simp only [Promised, State.void, hr, Bool.not_true, Bool.false_eq_true, if_false]
      exact ⟨it, hrow, (congrArg tableOf hn).trans (table_pair _ _ _)⟩
    | false =>
      have hn := hdoc.failed _ _ _ hr
      have htable : table notes (K.kevent os s.kernel
          ⟨sock, .EVFILT_WRITE, if enable then .EV_ENABLE else .EV_DISABLE, ud⟩).2 =
            table notes s.kernel := congrArg tableOf hn
      exact ⟨by simpa [Promised, State.void, hr] using htable, hn ▸ hI⟩
  | onWait os =>
    obtain rfl := Option.some.inj h
    have hn := hdoc.wait os s.kernel
    refine ⟨⟨?_, onWait_batch s _ _ (hdoc.nevents os _) fun ev hev => event_reported hdoc hI hev⟩, ?_⟩
    · rw [onWait_kernel]
      exact congrArg tableOf hn
    · rw [onWait_kernel, hn]
      exact hI

end Kqueue

/-! ## Both pollers -/

/-- On every kernel of either kind that does what its manual says, in every run in which a descriptor
is registered only while it is not there and asked about with the pointer it was registered with, each
call of the poller does what it promises of one table.

SOURCE: network/iocpEpoll.cc:17-56, network/iocpKqueue.cc:20-76 -/
theorem pollers_refine :
    (∀ (ω κ : Type) (K : Epoll.Calls ω κ) (items : κ → ℤ → Option Epoll.EpollEvent),
      Epoll.Documented K items → ∀ s cs, (Epoll.system K).init s →
        (Epoll.system K).Meets (Asked (Epoll.table items)) s cs →
        (Epoll.system K).Always (Promised (Epoll.table items)) s cs) ∧
    ∀ (ω κ : Type) (K : Kqueue.Calls ω κ) (notes : κ → Kqueue.Notes),
      Kqueue.Documented K notes → ∀ s cs, (Kqueue.system K).init s →
        (Kqueue.system K).Meets (Asked (Kqueue.table notes)) s cs →
        (Kqueue.system K).Always (Promised (Kqueue.table notes)) s cs := by
  constructor
  · intro ω κ K items hdoc s cs _ hmeets
    apply System.always_of_meets (I := fun _ => True) _ trivial hmeets
    exact fun s c s' _ hask hs => ⟨Epoll.step_promised hdoc s c s' hask hs, trivial⟩
  · intro ω κ K notes hdoc s cs hinit hmeets
    apply System.always_of_meets (I := fun s => Kqueue.Paired (notes s.kernel)) _ _ hmeets
    · exact fun s c s' hI hask hs => Kqueue.step_promised hdoc s c s' hI hask hs
    · intro sock
      change s.kernel = K.kqueue at hinit
      rw [hinit]
      exact .inl ⟨hdoc.kqueue _, hdoc.kqueue _⟩

/-! ## Kernels that are tables -/

/-- What decides a call of such a kernel: whether it is refused, what is ready at a wait, and whether
a signal ends that. -/
structure Outcome (ε : Type) where
  refused : Bool
  ready : List ε
  eintr : Bool

namespace Outcome

variable {ε : Type}

def done : Outcome ε := ⟨false, [], false⟩

def refusal : Outcome ε := ⟨true, [], false⟩

end Outcome

namespace Epoll

abbrev Items := ℤ → Option EpollEvent

/-- The event of a descriptor with the flags it is ready for. -/
def report (k : Items) (r : ℤ × ℕ) : Option EpollEvent :=
  (k r.1).map fun it => ⟨r.2 &&& (it.events ||| EPOLLERR ||| EPOLLHUP), it.ptr⟩

def tableCalls : Calls (Outcome (ℤ × ℕ)) Items where
  epoll_create _ := none
  epoll_ctl os k op sock ev :=
    if os.refused then (false, k)
    else
      match op with
      | .EPOLL_CTL_ADD => if (k sock).isSome then (false, k) else (true, Function.update k sock ev)
      | .EPOLL_CTL_MOD => if (k sock).isSome then (true, Function.update k sock ev) else (false, k)
      | .EPOLL_CTL_DEL =>
        if (k sock).isSome then (true, Function.update k sock none) else (false, k)
  epoll_wait os k := (((os.ready.filterMap (report k)).take IOCP_EVENT_WAIT_MAX, os.eintr), k)
  close k sock := Function.update k sock none

/-- A table does what the manual of epoll says. -/
theorem tableCalls_documented : Documented tableCalls id where
  epoll_create _ := rfl
  failed os k op sock ev h := by
    cases op <;> simp only [tableCalls] at h ⊢ <;> split_ifs at h ⊢ <;> rfl
  add os k sock ev h := by
    simp only [tableCalls] at h ⊢
    split_ifs at h ⊢
    rfl
  mod os k sock ev h := by
    simp only [tableCalls] at h ⊢
    split_ifs at h ⊢ with hrefused hthere
    exact ⟨hthere, rfl⟩
  del os k sock h := by
    simp only [tableCalls] at h ⊢
    split_ifs at h ⊢
    rfl
  epoll_wait _ _ := rfl
  maxevents os k := by simp [tableCalls]
  reports os k ev hev := by
    obtain ⟨r, -, hr⟩ := List.mem_filterMap.mp (List.mem_of_mem_take hev)
    obtain ⟨it, hit, rfl⟩ := Option.map_eq_some_iff.mp hr
    refine ⟨r.1, it, hit, rfl, ?_⟩
    change r.2 &&& _ &&& _ = r.2 &&& _
    rw [Nat.and_assoc, Nat.and_self]
  close _ _ := rfl

end Epoll

namespace Kqueue

/-- The event of a note that is enabled, with its flags `EV_EOF` and `EV_ERROR`. -/
def report (k : Notes) (r : (ℤ × Filter) × Bool × Bool) : Option Kevent :=
  match k r.1 with
  | some note => if note.enabled then some ⟨r.1.2, note.udata, r.2.1, r.2.2⟩ else none
  | none => none

def tableCalls : Calls (Outcome ((ℤ × Filter) × Bool × Bool)) Notes where
  kqueue _ := none
  kevent os k c :=
    let i := (c.sock, c.filter)
    match c.flag with
    | .EV_ADD =>
      if os.refused then (false, k) else (true, Function.update k i (some ⟨c.udata, true⟩))
    | .EV_DELETE => if (k i).isSome then (true, Function.update k i none) else (false, k)
    | .EV_ENABLE =>
      if (k i).isSome ∧ ¬ os.refused then (true, Function.update k i (some ⟨c.udata, true⟩))
      else (false, k)
    | .EV_DISABLE =>
      if (k i).isSome ∧ ¬ os.refused then (true, Function.update k i (some ⟨c.udata, false⟩))
      else (false, k)
  wait os k := (((os.ready.filterMap (report k)).take IOCP_EVENT_WAIT_MAX, os.eintr), k)
  close k sock i := if i.1 = sock then none else k i

/-- And what that of kqueue does. -/
theorem tableCalls_documented : Documented tableCalls id where
  kqueue _ := rfl
  failed os k c h := by
    obtain ⟨sock, f, flag, ud⟩ := c
    cases flag <;> simp only [tableCalls] at h ⊢ <;> split_ifs at h ⊢ <;> rfl
  add os k sock f ud h := by
    simp only [tableCalls] at h ⊢
    split_ifs at h ⊢
    rfl
  delete os k sock f ud h := by
    simp only [tableCalls] at h ⊢
    split_ifs at h ⊢
    rfl
  deletes os k sock f ud h := by
    have hthere : (k (sock, f)).isSome = true := Option.isSome_iff_ne_none.mpr h
    simp [tableCalls, hthere]
  enable os k sock f ud h := by
    simp only [tableCalls] at h ⊢
    split at h
    · rename_i hthere
      obtain ⟨note, hnote⟩ := Option.isSome_iff_exists.mp hthere.1
      exact ⟨note, hnote, fun _ => by simp [hthere]⟩
    · cases h
  disable os k sock f ud h := by
    simp only [tableCalls] at h ⊢
    split at h
    · rename_i hthere
      obtain ⟨note, hnote⟩ := Option.isSome_iff_exists.mp hthere.1
      exact ⟨note, hnote, fun _ => by simp [hthere]⟩
    · cases h
  wait _ _ := rfl
  nevents os k := by simp [tableCalls]
  reports os k ev hev := by
    obtain ⟨r, -, hr⟩ := List.mem_filterMap.mp (List.mem_of_mem_take hev)
    unfold report at hr
    split at hr
    · rename_i note hnote
      obtain ⟨hen, hev⟩ := Option.ite_none_right_eq_some.mp hr
      obtain rfl := Option.some.inj hev
      exact ⟨r.1.1, note, hnote, hen, rfl⟩
    · cases hr
  close _ _ _ := rfl

end Kqueue

/-- A poller before its first call. -/
def started {κ : Type} (k : κ) : State κ where
  kernel := k
  m_evts _ := ⟨none, false, false, false, false⟩
  registered := none
  waited := none
  failed := false

/-- The pipe and a socket, which is refused at first: it waits for writing, which is refused at
first too, has its two events, and is closed while it is still registered; then another one has its
number.
SOURCE: network/iocpKqueue.cc:20-38 -/
theorem pollers_refine_reopened :
    (Epoll.system Epoll.tableCalls).Always (Promised (Epoll.table id)) (started fun _ => none)
      [.doRegister 4 none fun _ => .done, .doRegister 7 (some 1) fun _ => .refusal,
        .doRegister 7 (some 1) fun _ => .done, .doToWrite 7 (some 1) true .refusal,
        .doToWrite 7 (some 1) true .done, .onWait ⟨false, [(7, 5), (4, 1)], false⟩,
        .close 7, .doRegister 7 (some 2) fun _ => .done] ∧
    (Kqueue.system Kqueue.tableCalls).Always (Promised (Kqueue.table id)) (started fun _ => none)
      [.doRegister 4 none fun _ => .done,
        .doRegister 7 (some 1) fun n => if n = 2 then .refusal else .done,
        .doRegister 7 (some 1) fun _ => .done, .doToWrite 7 (some 1) true .refusal,
        .doToWrite 7 (some 1) true .done,
        .onWait ⟨false, [((7, .EVFILT_READ), false, false), ((7, .EVFILT_WRITE), false, false)],
          false⟩,
        .close 7, .doRegister 7 (some 2) fun _ => .done] :=
  ⟨pollers_refine.1 _ _ _ _ Epoll.tableCalls_documented _ _ rfl (by decide +kernel),
    pollers_refine.2 _ _ _ _ Kqueue.tableCalls_documented _ _ rfl (by decide +kernel)⟩

end MagicNet.Iocp
