import MagicNet.Model.PidFile

/-!
# One daemon for each second and directory

The name of the file has the second of the launch in it, and no directory, so the file guards against
launches of the same second in the same directory only: two of them never run at once, as long as no
file is unlinked while another launch of its second and directory stands between `open` and `flock`; and
a launch is kept from running only by one of these.  What the file says of the process that runs is read
back as it was written, whatever was in the file before.

The calls of the system change a table of files as its manual says, so that the invariant is one of the
table and the processes (`View`).

SOURCE: src/launcher/src/daemonOption.cc:15-129, src/launcher/src/main.cc:27-79
-/

set_option autoImplicit false

namespace MagicNet.DaemonOption

open MagicNet.Foundation

/-! ## Decimal numbers -/

/-- Where a number ends can be told from what comes after it. -/
theorem takeWhile_decimal {c : Char} (hc : c.isDigit = false) (n : ℕ) (rest : List Char) :
    (decimal n ++ c :: rest).takeWhile Char.isDigit = decimal n := by
  have hdigits : ∀ d ∈ decimal n, Char.isDigit d = true := fun d hd =>
    Nat.isDigit_of_mem_toDigits (by decide) (by decide) hd
  rw [List.takeWhile_append_of_pos hdigits, List.takeWhile_cons_of_neg (by simp [hc]),
    List.append_nil]

/-- A number that is written is read back up to the char behind it.
SOURCE: src/launcher/src/daemonOption.cc:70-84 -/
theorem scanDigits_decimal {c : Char} (hc : c.isDigit = false) (n : ℕ) (rest : List Char) :
    scanDigits (decimal n ++ c :: rest) = some n := by
  rw [scanDigits, takeWhile_decimal hc, if_neg (show decimal n ≠ [] from Nat.toDigits_ne_nil)]
  exact congrArg some Nat.ofDigitChars_ten_toDigits

/-- What has been printed is scanned again. -/
theorem scanInt_decimal (n : ℕ) (rest : List Char) :
    scanInt (decimal n ++ '\n' :: rest) = some (n : ℤ) := by
  obtain ⟨d, digits, hcons⟩ := List.exists_cons_of_ne_nil
    (show decimal n ≠ [] from Nat.toDigits_ne_nil)
  have hd : d.isDigit = true := by
    refine Nat.isDigit_of_mem_toDigits (b := 10) (n := n) (by decide) (by decide) ?_
    have hmem : d ∈ decimal n := hcons ▸ List.mem_cons_self
    exact hmem
  have hwhite : d.isWhitespace = false := by
    cases hw : d.isWhitespace with
    | false => rfl
    | true =>
      simp only [Char.isWhitespace, Bool.or_eq_true, decide_eq_true_eq] at hw
      rcases hw with ((rfl | rfl) | rfl) | rfl <;> exact absurd hd (by decide)
  have hscan := scanDigits_decimal (c := '\n') (by decide) n rest
  rw [scanInt]
  rw [hcons, List.cons_append] at hscan ⊢
  rw [List.dropWhile_cons_of_neg (by simp [hwhite])]
  split
  · next heq =>
    obtain ⟨rfl, -⟩ := List.cons.inj heq
    exact absurd hd (by decide)
  · next heq =>
    obtain ⟨rfl, -⟩ := List.cons.inj heq
    exact absurd hd (by decide)
  · rw [hscan]
    rfl

/-- Two numbers with something after them. -/
theorem decimal_append_inj {c : Char} (hc : c.isDigit = false) {m n : ℕ} {x y : List Char}
    (h : decimal m ++ c :: x = decimal n ++ c :: y) : m = n ∧ x = y := by
  have hscan := congrArg scanDigits h
  rw [scanDigits_decimal hc, scanDigits_decimal hc] at hscan
  obtain rfl := Option.some.inj hscan
  exact ⟨rfl, (List.cons.inj (List.append_cancel_left h)).2⟩

/-- **The name of the file** tells the second of the launch.
SOURCE: src/launcher/src/daemonOption.cc:22-23 -/
theorem szDmupName_injective {ptm ptm' : Tm} (h : szDmupName ptm = szDmupName ptm') : ptm = ptm' := by
  have hsep : Char.isDigit '_' = false := by decide
  obtain ⟨hyear, h⟩ := decimal_append_inj hsep h
  obtain ⟨hmon, h⟩ := decimal_append_inj hsep h
  obtain ⟨hmday, h⟩ := decimal_append_inj hsep h
  obtain ⟨hhour, h⟩ := decimal_append_inj hsep h
  obtain ⟨hmin, h⟩ := decimal_append_inj hsep h
  obtain ⟨hsec, -⟩ := decimal_append_inj (by decide) h
  cases ptm
  cases ptm'
  simp only [Tm.mk.injEq]
  exact ⟨by simpa using hyear, hmon, hmday, hhour, hmin, hsec⟩

/-- A path tells the directory and the second. -/
theorem path_injective {p q : Proc} (h : p.path = q.path) : p.dir = q.dir ∧ p.ptm = q.ptm :=
  ⟨congrArg Prod.fst h, szDmupName_injective (congrArg Prod.snd h)⟩

/-! ## The files and the processes -/

structure View extends Table where
  procs : ℕ → Option Proc

namespace View

variable (v : View) (pid : ℕ)

/-- A process comes, or is changed. -/
def put (p : Proc) : View := { v with procs := Function.update v.procs pid (some p) }

def setPc (p : Proc) (pc : Pc) : View := v.put pid { p with pc := pc }

def terminate : View where
  toTable := v.release pid
  procs := Function.update v.procs pid none

/-- A process goes on with another content of its file. -/
def write (ino : ℕ) (content : List Char) : View :=
  { v with toTable := v.setFile ino { v.files ino with content := content } }

def lock (ino : ℕ) : View :=
  { v with toTable := v.setFile ino { v.files ino with lock := some pid } }

end View

variable {v v' : View}

/-! ## The invariant -/

/-- The file that the process has open. -/
def Pc.ino : Pc → Option ℕ
  | .opened ino | .locked ino | .running ino _ | .left ino _ => some ino
  | _ => none

/-- The file that the process has locked. -/
def Pc.holds : Pc → Option ℕ
  | .locked ino | .running ino _ | .left ino _ => some ino
  | _ => none

/-- The file that should be found under the name. -/
def Pc.linked : Pc → Option ℕ
  | .opened ino | .locked ino | .running ino _ | .left ino false => some ino
  | _ => none

/-- The locks are those of the processes that have got them, and a process that runs has its own id in
its file. -/
structure Inv (v : View) : Prop where
  held : ∀ pid p ino, v.procs pid = some p → p.pc.holds = some ino → (v.files ino).lock = some pid
  holder : ∀ ino pid, (v.files ino).lock = some pid →
    ∃ p, v.procs pid = some p ∧ p.pc.holds = some ino
  written : ∀ pid p ino, v.procs pid = some p → p.pc = .running ino true →
    scanInt (v.files ino).content = some pid
  known : ∀ pid p ino, v.procs pid = some p → p.pc.ino = some ino → ino < v.inodes
  dir : ∀ name ino, v.names name = some ino → ino < v.inodes
  inj : ∀ name name' ino, v.names name = some ino → v.names name' = some ino → name = name'

/-- The file of a launch is the one under its name, and a file that was unlinked is under none. -/
structure Linked (v : View) : Prop where
  linked : ∀ pid p ino, v.procs pid = some p → p.pc.linked = some ino →
    v.names p.path = some ino
  gone : ∀ pid p ino, v.procs pid = some p → p.pc = .left ino true →
    ∀ name, v.names name ≠ some ino

/-- A process has the file that it holds open. -/
theorem ino_of_holds {pc : Pc} {ino : ℕ} (h : pc.holds = some ino) : pc.ino = some ino := by
  cases pc <;> simp_all [Pc.holds, Pc.ino]

/-! ## Processes that go on, and processes that end -/

/-- The processes after one has gone on. -/
theorem procs_put {pid q : ℕ} {p r : Proc} : (v.put pid p).procs q = some r ↔
    q = pid ∧ r = p ∨ q ≠ pid ∧ v.procs q = some r := by
  rw [View.put]
  by_cases hq : q = pid
  · subst hq
    simp [eq_comm]
  · simp [hq]

/-- The processes after one has ended. -/
theorem procs_terminate {pid q : ℕ} {r : Proc} :
    (v.terminate pid).procs q = some r ↔ q ≠ pid ∧ v.procs q = some r := by
  rw [View.terminate]
  by_cases hq : q = pid
  · subst hq
    simp
  · simp [hq]

/-- Processes that have no lock come, go on and go. -/
theorem Inv.of_procs (h : Inv v) (hfiles : v'.files = v.files) (hnames : v'.names = v.names)
    (hinodes : v'.inodes = v.inodes)
    (hnew : ∀ pid p, v'.procs pid = some p → v.procs pid = some p ∨
      p.pc.holds = none ∧ ∀ ino, p.pc.ino = some ino → ino < v.inodes)
    (hkeep : ∀ pid p, v.procs pid = some p → p.pc.holds ≠ none → v'.procs pid = some p) :
    Inv v' := by
  refine ⟨fun pid p ino hp hholds => ?_, fun ino pid hlock => ?_, fun pid p ino hp hpc => ?_,
    fun pid p ino hp hino => ?_, ?_, ?_⟩
  · rw [hfiles]
    rcases hnew pid p hp with hold | ⟨hnone, -⟩
    · exact h.held pid p ino hold hholds
    · rw [hnone] at hholds
      cases hholds
  · rw [hfiles] at hlock
    obtain ⟨p, hp, hholds⟩ := h.holder ino pid hlock
    exact ⟨p, hkeep pid p hp (by simp [hholds]), hholds⟩
  · rw [hfiles]
    rcases hnew pid p hp with hold | ⟨hnone, -⟩
    · exact h.written pid p ino hold hpc
    · rw [hpc] at hnone
      cases hnone
  · rw [hinodes]
    rcases hnew pid p hp with hold | ⟨-, hlt⟩
    · exact h.known pid p ino hold hino
    · exact hlt ino hino
  · rw [hnames, hinodes]
    exact h.dir
  · rw [hnames]
    exact h.inj

/-- Where the names stay, a process's file does. -/
theorem Linked.of_procs (h : Linked v) (hnames : v'.names = v.names)
    (hnew : ∀ pid p, v'.procs pid = some p → v.procs pid = some p ∨
      (∀ ino, p.pc.linked = some ino → v.names p.path = some ino) ∧
        ∀ ino, p.pc ≠ .left ino true) : Linked v' := by
  refine ⟨fun pid p ino hp hlinked => ?_, fun pid p ino hp hleft => ?_⟩
  · rw [hnames]
    rcases hnew pid p hp with hold | ⟨hnames, -⟩
    · exact h.linked pid p ino hold hlinked
    · exact hnames ino hlinked
  · rw [hnames]
    rcases hnew pid p hp with hold | ⟨-, hnot⟩
    · exact h.gone pid p ino hold hleft
    · exact absurd hleft (hnot ino)

/-- The end of a process keeps the invariant. -/
theorem Inv.terminate (h : Inv v) (pid : ℕ) : Inv (v.terminate pid) := by
  have hlock : ∀ ino q, ((v.terminate pid).files ino).lock = some q →
      q ≠ pid ∧ (v.files ino).lock = some q := by
    intro ino q hq
    simp only [View.terminate, Table.release] at hq
    split at hq
    · cases hq
    · next hother =>
      refine ⟨?_, hq⟩
      rintro rfl
      exact hother hq
  have hcontent : ∀ ino, ((v.terminate pid).files ino).content = (v.files ino).content := by
    intro ino
    simp only [View.terminate, Table.release]
    split <;> rfl
  refine ⟨fun q p ino hp hholds => ?_, fun ino q hq => ?_, fun q p ino hp hpc => ?_,
    fun q p ino hp hino => ?_, h.dir, h.inj⟩
  · obtain ⟨hne, hold⟩ := procs_terminate.mp hp
    have hheld := h.held q p ino hold hholds
    simp only [View.terminate, Table.release]
    rw [if_neg (by rw [hheld]; simpa using hne)]
    exact hheld
  · obtain ⟨hne, hold⟩ := hlock ino q hq
    obtain ⟨p, hp, hholds⟩ := h.holder ino q hold
    exact ⟨p, procs_terminate.mpr ⟨hne, hp⟩, hholds⟩
  · rw [hcontent]
    exact h.written q p ino (procs_terminate.mp hp).2 hpc
  · exact h.known q p ino (procs_terminate.mp hp).2 hino

/-- It leaves the files of the others. -/
theorem Linked.terminate (h : Linked v) (pid : ℕ) : Linked (v.terminate pid) :=
  h.of_procs rfl fun _ _ hp => .inl (procs_terminate.mp hp).2

/-- A process without a lock comes or goes on. -/
theorem Inv.put (h : Inv v) {pid : ℕ} {p : Proc}
    (hold : ∀ q, v.procs pid = some q → q.pc.holds = none) (hnew : p.pc.holds = none)
    (hino : ∀ ino, p.pc.ino = some ino → ino < v.inodes) : Inv (v.put pid p) := by
  refine h.of_procs rfl rfl rfl (fun q r hr => ?_) (fun q r hr hholds => ?_)
  · rcases procs_put.mp hr with ⟨-, rfl⟩ | ⟨-, hr⟩
    · exact .inr ⟨hnew, hino⟩
    · exact .inl hr
  · refine procs_put.mpr (.inr ⟨?_, hr⟩)
    rintro rfl
    exact hholds (hold r hr)

/-- A process goes on with its file. -/
theorem Linked.put (h : Linked v) {pid : ℕ} {p : Proc}
    (hlinked : ∀ ino, p.pc.linked = some ino → v.names p.path = some ino)
    (hnot : ∀ ino, p.pc ≠ .left ino true) : Linked (v.put pid p) := by
  refine h.of_procs rfl fun q r hr => ?_
  rcases procs_put.mp hr with ⟨-, rfl⟩ | ⟨-, hr⟩
  · exact .inr ⟨hlinked, hnot⟩
  · exact .inl hr

/-! ## The calls -/

section Calls

variable {pid ino : ℕ} {p : Proc}

/-- A new file under a name that had none. -/
theorem Inv.create (h : Inv v) {path : Path} : Inv { v with toTable := v.create path } := by
  have hfile : ∀ ino, ino < v.inodes → (v.create path).files ino = v.files ino :=
    fun ino hlt => Function.update_of_ne hlt.ne _ _
  have hdir : ∀ path' ino, (v.create path).names path' = some ino →
      path' = path ∧ ino = v.inodes ∨ path' ≠ path ∧ v.names path' = some ino := by
    intro path' ino hname
    simp only [Table.create] at hname
    by_cases heq : path' = path
    · subst heq
      rw [Function.update_self] at hname
      exact .inl ⟨rfl, (Option.some.inj hname).symm⟩
    · rw [Function.update_of_ne heq] at hname
      exact .inr ⟨heq, hname⟩
  refine ⟨fun q r ino hr hholds => ?_, fun ino q hlock => ?_, fun q r ino hr hpc => ?_,
    fun q r ino hr hino => ?_, fun path' ino hname => ?_, fun path' path'' ino hname hname' => ?_⟩
  · rw [hfile ino (h.known q r ino hr (ino_of_holds hholds))]
    exact h.held q r ino hr hholds
  · by_cases heq : ino = v.inodes
    · subst heq
      simp [Table.create] at hlock
    · simp only [Table.create, Function.update_of_ne heq] at hlock
      exact h.holder ino q hlock
  · rw [hfile ino (h.known q r ino hr (by rw [hpc]; rfl))]
    exact h.written q r ino hr hpc
  · exact (h.known q r ino hr hino).trans (Nat.lt_succ_self _)
  · rcases hdir path' ino hname with ⟨-, rfl⟩ | ⟨-, hold⟩
    · exact Nat.lt_succ_self _
    · exact (h.dir path' ino hold).trans (Nat.lt_succ_self _)
  · rcases hdir path' ino hname with ⟨rfl, rfl⟩ | ⟨-, hold⟩
    · rcases hdir path'' _ hname' with ⟨rfl, -⟩ | ⟨-, hold'⟩
      · rfl
      · exact absurd (h.dir path'' _ hold') (lt_irrefl _)
    · rcases hdir path'' _ hname' with ⟨-, rfl⟩ | ⟨-, hold'⟩
      · exact absurd (h.dir path' _ hold) (lt_irrefl _)
      · exact h.inj path' path'' ino hold hold'

/-- A new file has its own name.
SOURCE: src/launcher/src/daemonOption.cc:86-129 -/
theorem Linked.create (hinv : Inv v) (h : Linked v) {path : Path} (hnone : v.names path = none) :
    Linked { v with toTable := v.create path } := by
  refine ⟨fun q r ino hr hlinked => ?_, fun q r ino hr hleft path' hname => ?_⟩
  · have hold := h.linked q r ino hr hlinked
    have hne : r.path ≠ path := by
      rintro rfl
      rw [hnone] at hold
      cases hold
    exact (Function.update_of_ne hne _ _).trans hold
  · simp only [Table.create] at hname
    by_cases heq : path' = path
    · subst heq
      simp only [Function.update_self, Option.some.injEq] at hname
      have hlt := hinv.known q r ino hr (by rw [hleft]; rfl)
      omega
    · simp only [Function.update_of_ne heq] at hname
      exact h.gone q r ino hr hleft path' hname

/-- The first to lock the file gets the lock. -/
theorem Inv.lock (h : Inv v) (hp : v.procs pid = some p) (hpc : p.pc = .opened ino)
    (hfree : (v.files ino).lock = none) : Inv ((v.lock pid ino).setPc pid p (.locked ino)) := by
  have hother : ∀ i q, (v.files i).lock = some q → i ≠ ino ∧ q ≠ pid := by
    intro i q hlock
    refine ⟨?_, ?_⟩
    · rintro rfl
      rw [hfree] at hlock
      cases hlock
    · rintro rfl
      obtain ⟨r, hr, hholds⟩ := h.holder i q hlock
      rw [hp, Option.some.injEq] at hr
      rw [← hr, hpc] at hholds
      cases hholds
  refine ⟨fun q r i hr hholds => ?_, fun i q hlock => ?_, fun q r i hr hrun => ?_,
    fun q r i hr hino => ?_, h.dir, h.inj⟩
  · rcases procs_put.mp hr with ⟨rfl, rfl⟩ | ⟨-, hold⟩
    · obtain rfl := Option.some.inj hholds
      simp [View.setPc, View.put, View.lock, Table.setFile]
    · have hheld := h.held q r i hold hholds
      simp only [View.setPc, View.put, View.lock, Table.setFile,
        Function.update_of_ne (hother i q hheld).1]
      exact hheld
  · by_cases hi : i = ino
    · subst hi
      simp only [View.setPc, View.put, View.lock, Table.setFile, Function.update_self,
        Option.some.injEq] at hlock
      subst hlock
      exact ⟨_, procs_put.mpr (.inl ⟨rfl, rfl⟩), rfl⟩
    · simp only [View.setPc, View.put, View.lock, Table.setFile,
        Function.update_of_ne hi] at hlock
      obtain ⟨r, hr, hholds⟩ := h.holder i q hlock
      exact ⟨r, procs_put.mpr (.inr ⟨(hother i q hlock).2, hr⟩), hholds⟩
  · rcases procs_put.mp hr with ⟨rfl, rfl⟩ | ⟨-, hold⟩
    · cases hrun
    · have hcontent : ∀ j, ((v.lock pid ino).files j).content = (v.files j).content := by
        intro j
        by_cases hj : j = ino
        · subst hj
          simp [View.lock, Table.setFile]
        · simp [View.lock, Table.setFile, hj]
      exact (congrArg scanInt (hcontent i)).trans (h.written q r i hold hrun)
  · rcases procs_put.mp hr with ⟨rfl, rfl⟩ | ⟨-, hold⟩
    · refine h.known q p i hp ?_
      rw [hpc]
      exact hino
    · exact h.known q r i hold hino

/-- A lock changes no name.
SOURCE: src/launcher/src/daemonOption.cc:86-129 -/
theorem Linked.lock (h : Linked v) (hp : v.procs pid = some p) (hpc : p.pc = .opened ino) :
    Linked ((v.lock pid ino).setPc pid p (.locked ino)) := by
  have hfiles : Linked (v.lock pid ino) := ⟨h.linked, h.gone⟩
  refine hfiles.put (fun i hi => ?_) (fun _ hleft => by cases hleft)
  exact h.linked pid p i hp (by rw [hpc]; exact hi)

/-- What has been written can be read back. -/
theorem Inv.write (h : Inv v) (hp : v.procs pid = some p) (hpc : p.pc = .locked ino)
    {content : List Char} {written : Bool} (hscan : written = true → scanInt content = some (pid : ℤ)) :
    Inv ((v.write ino content).setPc pid p (.running ino written)) := by
  have hmine := h.held pid p ino hp (by rw [hpc]; rfl)
  have hlock : ∀ i, ((v.write ino content).files i).lock = (v.files i).lock := by
    intro i
    by_cases hi : i = ino
    · subst hi
      simp [View.write, Table.setFile]
    · simp [View.write, Table.setFile, hi]
  refine ⟨fun q r i hr hholds => (hlock i).trans ?_, fun i q hq => ?_, fun q r i hr hrun => ?_,
    fun q r i hr hino => ?_, h.dir, h.inj⟩
  · rcases procs_put.mp hr with ⟨rfl, rfl⟩ | ⟨-, hold⟩
    · obtain rfl := Option.some.inj hholds
      exact hmine
    · exact h.held q r i hold hholds
  · obtain ⟨r, hr, hholds⟩ := h.holder i q ((hlock i).symm.trans hq)
    by_cases heq : q = pid
    · subst heq
      rw [hp, Option.some.injEq] at hr
      rw [← hr, hpc] at hholds
      exact ⟨_, procs_put.mpr (.inl ⟨rfl, rfl⟩), hholds⟩
    · exact ⟨r, procs_put.mpr (.inr ⟨heq, hr⟩), hholds⟩
  · rcases procs_put.mp hr with ⟨rfl, rfl⟩ | ⟨hne, hold⟩
    · obtain ⟨rfl, rfl⟩ := Pc.running.inj hrun
      simpa [View.setPc, View.put, View.write, Table.setFile] using hscan rfl
    · have hne : i ≠ ino := by
        rintro rfl
        have hheld := h.held q r i hold (by rw [hrun]; rfl)
        rw [hmine, Option.some.injEq] at hheld
        exact hne hheld.symm
      simp only [View.setPc, View.put, View.write, Table.setFile, Function.update_of_ne hne]
      exact h.written q r i hold hrun
  · rcases procs_put.mp hr with ⟨rfl, rfl⟩ | ⟨-, hold⟩
    · refine h.known q p i hp ?_
      rw [hpc]
      exact hino
    · exact h.known q r i hold hino

/-- Nor does a write.
SOURCE: src/launcher/src/daemonOption.cc:86-129 -/
theorem Linked.write (h : Linked v) (hp : v.procs pid = some p) (hpc : p.pc = .locked ino)
    (content : List Char) (written : Bool) :
    Linked ((v.write ino content).setPc pid p (.running ino written)) := by
  have hfiles : Linked (v.write ino content) := ⟨h.linked, h.gone⟩
  refine hfiles.put (fun i hi => ?_) (fun _ hleft => by cases hleft)
  exact h.linked pid p i hp (by rw [hpc]; exact hi)

/-- A process that holds its lock goes on with it. -/
theorem Inv.leave {written unlinked : Bool} (h : Inv v) (hp : v.procs pid = some p)
    (hpc : p.pc = .running ino written) : Inv (v.setPc pid p (.left ino unlinked)) := by
  have hholds : p.pc.holds = some ino := by rw [hpc]; rfl
  refine ⟨fun q r i hr hi => ?_, fun i q hq => ?_, fun q r i hr hrun => ?_, fun q r i hr hi => ?_,
    h.dir, h.inj⟩
  · rcases procs_put.mp hr with ⟨rfl, rfl⟩ | ⟨-, hold⟩
    · exact h.held q p i hp (hholds.trans hi)
    · exact h.held q r i hold hi
  · obtain ⟨r, hr, hi⟩ := h.holder i q hq
    by_cases heq : q = pid
    · subst heq
      rw [hp, Option.some.injEq] at hr
      rw [← hr, hholds] at hi
      exact ⟨_, procs_put.mpr (.inl ⟨rfl, rfl⟩), hi⟩
    · exact ⟨r, procs_put.mpr (.inr ⟨heq, hr⟩), hi⟩
  · rcases procs_put.mp hr with ⟨rfl, rfl⟩ | ⟨-, hold⟩
    · cases hrun
    · exact h.written q r i hold hrun
  · rcases procs_put.mp hr with ⟨rfl, rfl⟩ | ⟨-, hold⟩
    · exact h.known q p i hp ((ino_of_holds hholds).trans hi)
    · exact h.known q r i hold hi

/-- A name goes. -/
theorem Inv.unlink (h : Inv v) (path : Path) : Inv { v with toTable := v.unlink path } := by
  have hname : ∀ {path' i}, (v.unlink path).names path' = some i → v.names path' = some i := by
    intro path' i hi
    simp only [Table.unlink] at hi
    by_cases heq : path' = path
    · subst heq
      rw [Function.update_self] at hi
      cases hi
    · rwa [Function.update_of_ne heq] at hi
  exact ⟨h.held, h.holder, h.written, h.known, fun path' i hi => h.dir path' i (hname hi),
    fun path' path'' i hi hi' => h.inj path' path'' i (hname hi) (hname hi')⟩

/-- The lock is with the process that unlinks the file, so nobody else has the name in use. -/
theorem Linked.unlink {written : Bool} (hinv : Inv v) (h : Linked v) (hp : v.procs pid = some p)
    (hpc : p.pc = .running ino written)
    (hbetween : ∀ q i, v.procs q ≠ some ⟨p.dir, p.ptm, .opened i⟩) :
    Linked (View.setPc { v with toTable := v.unlink p.path } pid p (.left ino true)) := by
  have hmine := hinv.held pid p ino hp (by rw [hpc]; rfl)
  have hname := h.linked pid p ino hp (by rw [hpc]; rfl)
  refine ⟨fun q r i hr hi => ?_, fun q r i hr hleft path hi => ?_⟩
  · rcases procs_put.mp hr with ⟨rfl, rfl⟩ | ⟨hne, hold⟩
    · cases hi
    · have hr := h.linked q r i hold hi
      refine (Function.update_of_ne (fun heq => ?_) _ _).trans hr
      obtain ⟨dir, ptm, pc⟩ := r
      obtain ⟨rfl, rfl⟩ : dir = p.dir ∧ ptm = p.ptm := path_injective heq
      obtain rfl : ino = i := Option.some.inj (hname.symm.trans hr)
      have hlocked : pc.holds = some ino → False := by
        intro hholds
        have hother := hinv.held q _ ino hold hholds
        exact hne (Option.some.inj (hother.symm.trans hmine))
      cases pc with
      | opened j => exact hbetween q j hold
      | locked j => exact hlocked hi
      | running j w => exact hlocked hi
      | left j unlinked =>
        cases unlinked with
        | false => exact hlocked hi
        | true => cases hi
      | made | scanned _ | checked | forked => cases hi
  · simp only [View.setPc, View.put, Table.unlink] at hi
    by_cases heq : path = p.path
    · subst heq
      rw [Function.update_self] at hi
      cases hi
    · rw [Function.update_of_ne heq] at hi
      rcases procs_put.mp hr with ⟨rfl, rfl⟩ | ⟨-, hold⟩
      · obtain ⟨rfl, -⟩ := Pc.left.inj hleft
        exact heq (hinv.inj path _ ino hi hname)
      · exact h.gone q r i hold hleft path hi

end Calls

/-! ## Steps -/

section Steps

variable {ω κ : Type} {O : Calls ω κ} {table : κ → Table} {s s' : State κ}
  {pid ino : ℕ} {p : Proc} {os : ω}

def State.view (table : κ → Table) (s : State κ) : View := ⟨table s.os, s.procs⟩

/-- The end of a process in what the system does and in the table. -/
theorem view_terminate (hdoc : Documented O table) (s : State κ) (pid : ℕ) :
    (s.terminate O pid).view table = (s.view table).terminate pid := by
  rw [State.view, State.terminate, hdoc.exit]
  rfl

/-- A call that has changed nothing, and a launch that ends for it. -/
theorem view_fails (hdoc : Documented O table) {k : κ} (hk : table k = table s.os) (pid : ℕ) :
    (State.terminate O { s with os := k } pid).view table = (s.view table).terminate pid := by
  rw [view_terminate hdoc]
  exact congrArg (fun t => View.terminate ⟨t, s.procs⟩ pid) hk

/-- `open` finds the file of the name, or makes it, or the launch ends. -/
theorem view_openFile (hdoc : Documented O table) (s : State κ) (pid : ℕ) (p : Proc) (os : ω) :
    (∃ ino, (s.view table).names p.path = some ino ∧
        (s.openFile O pid p os).view table = (s.view table).setPc pid p (.opened ino)) ∨
      ((s.view table).names p.path = none ∧ (s.openFile O pid p os).view table =
        View.setPc { s.view table with toTable := (s.view table).create p.path } pid p
          (.opened (s.view table).inodes)) ∨
      (s.openFile O pid p os).view table = (s.view table).terminate pid := by
  unfold State.openFile
  cases hr : (O.openFile os s.os p.path).1 with
  | none =>
    simp only [hr]
    exact .inr (.inr (view_fails hdoc (hdoc.openFile_failed _ _ _ hr) pid))
  | some ino =>
    simp only [hr]
    rcases hdoc.openFile _ _ _ ino hr with ⟨hname, ht⟩ | ⟨hnone, rfl, ht⟩
    · refine .inl ⟨ino, hname, ?_⟩
      exact congrArg (fun t => View.setPc ⟨t, s.procs⟩ pid p (.opened ino)) ht
    · refine .inr (.inl ⟨hnone, ?_⟩)
      exact congrArg (fun t => View.setPc ⟨t, s.procs⟩ pid p (.opened (table s.os).inodes)) ht

/-- `flock` gets the lock of a file that has none, or the launch ends. -/
theorem view_flock (hdoc : Documented O table) (s : State κ) (pid : ℕ) (p : Proc) (ino : ℕ)
    (os : ω) :
    (((s.view table).files ino).lock = none ∧ (s.flock O pid p ino os).view table =
        ((s.view table).lock pid ino).setPc pid p (.locked ino)) ∨
      (s.flock O pid p ino os).view table = (s.view table).terminate pid := by
  unfold State.flock
  cases hr : (O.flock os s.os pid ino).1 with
  | false =>
    simp only [hr, Bool.false_eq_true, if_false]
    exact .inr (view_fails hdoc (hdoc.flock_failed _ _ _ _ hr) pid)
  | true =>
    simp only [hr, if_true]
    obtain ⟨hfree, ht⟩ := hdoc.flock _ _ _ _ hr
    refine .inl ⟨hfree, ?_⟩
    exact congrArg (fun t => View.setPc ⟨t, s.procs⟩ pid p (.locked ino)) ht

/-- `fprintf` leaves something in the file, and where it has succeeded the id. -/
theorem view_fprintf (hdoc : Documented O table) (s : State κ) (pid : ℕ) (p : Proc) (ino : ℕ)
    (os : ω) :
    ∃ content written, (written = true → scanInt content = some (pid : ℤ)) ∧
      (s.fprintf O pid p ino os).view table =
        ((s.view table).write ino content).setPc pid p (.running ino written) := by
  unfold State.fprintf
  cases hr : (O.fprintf os s.os ino (decimal pid ++ ['\n'])).1 with
  | true =>
    have ht := hdoc.fprintf _ _ _ _ hr
    simp only [hr]
    refine ⟨_, true, fun _ => ?_,
      congrArg (fun t => View.setPc ⟨t, s.procs⟩ pid p (.running ino true)) ht⟩
    rw [overwrite, List.append_assoc]
    exact scanInt_decimal pid _
  | false =>
    obtain ⟨content, ht⟩ := hdoc.fprintf_failed _ _ _ _ hr
    simp only [hr]
    refine ⟨content, false, Bool.false_ne_true.elim, ?_⟩
    exact congrArg (fun t => View.setPc ⟨t, s.procs⟩ pid p (.running ino false)) ht

/-- `unlink` takes the name, or fails. -/
theorem view_exit (hdoc : Documented O table) (s : State κ) (pid : ℕ) (p : Proc) (ino : ℕ)
    (os : ω) :
    (s.exit O pid p ino os).view table =
        View.setPc { s.view table with toTable := (s.view table).unlink p.path } pid p
          (.left ino true) ∨
      (s.exit O pid p ino os).view table = (s.view table).setPc pid p (.left ino false) := by
  unfold State.exit
  cases hr : (O.unlink os s.os p.path).1 with
  | true =>
    simp only [hr]
    exact .inl (congrArg (fun t => View.setPc ⟨t, s.procs⟩ pid p (.left ino true))
      (hdoc.unlink _ _ _ hr))
  | false =>
    simp only [hr]
    exact .inr (congrArg (fun t => View.setPc ⟨t, s.procs⟩ pid p (.left ino false))
      (hdoc.unlink_failed _ _ _ hr))

/-- A process without a file goes on without one. -/
theorem goes_on {v : View} (hinv : Inv v) (hlinked : Linked v) (hp : v.procs pid = some p)
    (hold : p.pc.holds = none) {pc : Pc} (hnew : pc.ino = none) :
    Inv (v.setPc pid p pc) ∧ Linked (v.setPc pid p pc) := by
  have hholds : pc.holds = none := by
    cases pc <;> simp_all [Pc.holds, Pc.ino]
  have hname : pc.linked = none := by
    cases pc <;> simp_all [Pc.linked, Pc.ino]
  refine ⟨hinv.put (fun q hq => ?_) hholds fun i hi => ?_, hlinked.put (fun i hi => ?_) fun i hi => ?_⟩
  · rw [hp] at hq
    exact Option.some.inj hq ▸ hold
  · rw [hnew] at hi
    cases hi
  · rw [hname] at hi
    cases hi
  · subst hi
    cases hnew

/-- A process comes where there was none. -/
theorem comes {v : View} (hinv : Inv v) (hlinked : Linked v) (hnone : v.procs pid = none)
    (hnew : p.pc.ino = none) : Inv (v.put pid p) ∧ Linked (v.put pid p) := by
  have hholds : p.pc.holds = none := by
    cases hpc : p.pc <;> simp_all [Pc.holds, Pc.ino]
  refine ⟨hinv.put (fun q hq => ?_) hholds fun i hi => ?_, hlinked.put (fun i hi => ?_) fun i hi => ?_⟩
  · rw [hnone] at hq
    cases hq
  · rw [hnew] at hi
    cases hi
  · cases hpc : p.pc <;> simp_all [Pc.linked, Pc.ino]
  · rw [hi] at hnew
    cases hnew

/-- A process finds its file, or makes it. -/
theorem opens {v : View} (hinv : Inv v) (hlinked : Linked v) (hp : v.procs pid = some p)
    (hold : p.pc.holds = none) (hname : v.names p.path = some ino) :
    Inv (v.setPc pid p (.opened ino)) ∧ Linked (v.setPc pid p (.opened ino)) := by
  refine ⟨hinv.put (fun q hq => ?_) rfl fun i hi => ?_, hlinked.put (fun i hi => ?_) fun i hi => ?_⟩
  · rw [hp] at hq
    exact Option.some.inj hq ▸ hold
  · obtain rfl := Option.some.inj hi
    exact hinv.dir _ _ hname
  · obtain rfl := Option.some.inj hi
    exact hname
  · cases hi

/-- **Each step** keeps the locks with those that have got them, and the names with their files. -/
theorem step_keeps (hdoc : Documented O table) {e : Event ω}
    (h : Inv (s.view table) ∧ Linked (s.view table)) (hc : NotBetween s e)
    (hs : step O s e = some s') : Inv (s'.view table) ∧ Linked (s'.view table) := by
  obtain ⟨hinv, hlinked⟩ := h
  have hends (pid : ℕ) :
      Inv ((s.view table).terminate pid) ∧ Linked ((s.view table).terminate pid) :=
    ⟨hinv.terminate pid, hlinked.terminate pid⟩
  cases e with
  | launch pid dir ptm =>
    simp only [step, Option.ite_none_right_eq_some, Option.some.injEq] at hs
    obtain ⟨hnone, rfl⟩ := hs
    exact comes hinv hlinked hnone rfl
  | fscanf pid os =>
    simp only [step] at hs
    split at hs
    · next dir ptm hp =>
      obtain rfl := Option.some.inj hs
      exact goes_on hinv hlinked hp rfl rfl
    · cases hs
  | kill pid alive =>
    simp only [step] at hs
    split at hs
    · next dir ptm found hp =>
      obtain rfl := Option.some.inj hs
      cases stops pid found alive with
      | true =>
        rw [if_pos rfl, view_terminate hdoc]
        exact hends pid
      | false => exact goes_on hinv hlinked hp rfl rfl
    · cases hs
  | daemon pid child =>
    simp only [step] at hs
    split at hs
    · next dir ptm hp =>
      simp only [Option.ite_none_right_eq_some, Option.some.injEq] at hs
      obtain ⟨hnone, rfl⟩ := hs
      have hview : State.view table
          { s.terminate O pid with
            procs := Function.update (s.terminate O pid).procs child (some ⟨dir, ptm, .forked⟩) } =
          ((s.view table).terminate pid).put child ⟨dir, ptm, .forked⟩ :=
        congrArg (fun v => View.put v child ⟨dir, ptm, .forked⟩) (view_terminate hdoc s pid)
      rw [hview]
      refine comes (hinv.terminate pid) (hlinked.terminate pid) ?_ rfl
      -- the child is another process than its parent
      by_cases hchild : child = pid
      · exact hchild ▸ Function.update_self ..
      · exact (Function.update_of_ne hchild _ _).trans hnone
    · cases hs
  | openFile pid os =>
    simp only [step] at hs
    split at hs
    · next dir ptm hp =>
      obtain rfl := Option.some.inj hs
      rcases view_openFile hdoc s pid ⟨dir, ptm, .forked⟩ os with
        ⟨ino, hname, hview⟩ | ⟨hnone, hview⟩ | hview
      · rw [hview]
        exact opens hinv hlinked hp rfl hname
      · rw [hview]
        exact opens hinv.create (hlinked.create hinv hnone) hp rfl (Function.update_self ..)
      · rw [hview]
        exact hends pid
    · cases hs
  | flock pid os =>
    simp only [step] at hs
    split at hs
    · next dir ptm ino hp =>
      obtain rfl := Option.some.inj hs
      rcases view_flock hdoc s pid ⟨dir, ptm, .opened ino⟩ ino os with ⟨hfree, hview⟩ | hview
      · rw [hview]
        exact ⟨hinv.lock hp rfl hfree, hlinked.lock hp rfl⟩
      · rw [hview]
        exact hends pid
    · cases hs
  | fprintf pid os =>
    simp only [step] at hs
    split at hs
    · next dir ptm ino hp =>
      obtain rfl := Option.some.inj hs
      obtain ⟨content, written, hscan, hview⟩ :=
        view_fprintf hdoc s pid ⟨dir, ptm, .locked ino⟩ ino os
      rw [hview]
      exact ⟨hinv.write hp rfl hscan, hlinked.write hp rfl content written⟩
    · cases hs
  | exit pid os =>
    simp only [step] at hs
    split at hs
    · next dir ptm ino written hp =>
      obtain rfl := Option.some.inj hs
      rcases view_exit hdoc s pid ⟨dir, ptm, .running ino written⟩ ino os with hview | hview
      · rw [hview]
        exact ⟨(hinv.unlink _).leave hp rfl, hlinked.unlink hinv hp rfl (hc pid os _ rfl hp)⟩
      · rw [hview]
        refine ⟨hinv.leave hp rfl, hlinked.put (fun i hi => ?_) fun i hi => ?_⟩
        · exact hlinked.linked pid ⟨dir, ptm, .running ino written⟩ i hp hi
        · cases hi
    · cases hs
  | terminate pid =>
    simp only [step, Option.ite_none_left_eq_some, Option.some.injEq] at hs
    obtain ⟨-, rfl⟩ := hs
    rw [view_terminate hdoc]
    exact hends pid

/-! ## Runs -/

/-- At the start there are no processes. -/
theorem inv_of_starts (h : Starts table s) : Inv (s.view table) ∧ Linked (s.view table) := by
  have hnone : ∀ {pid p}, s.procs pid = some p → False := by
    intro pid p hp
    rw [h.procs pid] at hp
    cases hp
  refine ⟨⟨fun _ _ _ hp => (hnone hp).elim, fun ino pid hlock => ?_,
    fun _ _ _ hp => (hnone hp).elim, fun _ _ _ hp => (hnone hp).elim, h.dir, h.inj⟩,
    fun _ _ _ hp => (hnone hp).elim, fun _ _ _ hp => (hnone hp).elim⟩
  rw [State.view, h.lock ino] at hlock
  cases hlock

end Steps

/-- **One daemon for each second and directory.**  On every system that does what its manual says, in
every run of any launches, from any directories, in which no file is unlinked while another launch of
its second and directory stands between `open` and `flock`, at most one process of each second and
directory runs, also when others end without unlinking their files; a process that runs and has written
its id has it read back by every launch that can open the file; and where a launch finds its file
locked, it is by a launch of the same second and directory that has not unlinked it.
SOURCE: src/launcher/src/daemonOption.cc:15-129, src/launcher/src/main.cc:27-79 -/
theorem single_instance {ω κ : Type} (O : Calls ω κ) (table : κ → Table)
    (hdoc : Documented O table) (s : State κ) (h : (system O table).Via NotBetween s) :
    (∀ pid pid' dir ptm, s.Runs pid dir ptm → s.Runs pid' dir ptm → pid = pid') ∧
      (∀ pid dir ptm ino os, s.procs pid = some ⟨dir, ptm, .running ino true⟩ →
        ∀ text ∈ O.fopen os s.os (dir, szDmupName ptm), scanInt text = some (pid : ℤ)) ∧
        ∀ pid dir ptm ino holder, s.procs pid = some ⟨dir, ptm, .opened ino⟩ →
          ((table s.os).files ino).lock = some holder →
            ∃ pc, s.procs holder = some ⟨dir, ptm, pc⟩ ∧
              (pc = .locked ino ∨ (∃ written, pc = .running ino written) ∨ pc = .left ino false) := by
  obtain ⟨hinv, hlinked⟩ := h.invariant (I := fun s => Inv (s.view table) ∧ Linked (s.view table))
    (fun _ h0 => inv_of_starts h0) fun _ _ _ hI hc hs => step_keeps hdoc hI hc hs
  refine ⟨?_, ?_, ?_⟩
  · rintro pid pid' dir ptm ⟨ino, written, hp⟩ ⟨ino', written', hp'⟩
    have hname := hlinked.linked pid _ ino hp rfl
    have hname' := hlinked.linked pid' _ ino' hp' rfl
    obtain rfl : ino = ino' := Option.some.inj (hname.symm.trans hname')
    have hlock := hinv.held pid _ ino hp rfl
    exact Option.some.inj (hlock.symm.trans (hinv.held pid' _ ino hp' rfl))
  · intro pid dir ptm ino os hp text htext
    obtain ⟨ino', hname', rfl⟩ := hdoc.fopen os s.os _ text htext
    have hname := hlinked.linked pid _ ino hp rfl
    obtain rfl : ino = ino' := Option.some.inj (hname.symm.trans hname')
    exact hinv.written pid _ ino hp rfl
  · intro pid dir ptm ino holder hp hlock
    have hname := hlinked.linked pid _ ino hp rfl
    obtain ⟨⟨dir', ptm', pc⟩, hq, hholds⟩ := hinv.holder ino holder hlock
    have hsame : pc.linked = some ino → dir' = dir ∧ ptm' = ptm := fun hpc =>
      path_injective (hinv.inj _ _ ino (hlinked.linked holder _ ino hq hpc) hname)
    cases pc with
    | locked j =>
      obtain rfl := Option.some.inj hholds
      obtain ⟨rfl, rfl⟩ := hsame rfl
      exact ⟨_, hq, .inl rfl⟩
    | running j w =>
      obtain rfl := Option.some.inj hholds
      obtain ⟨rfl, rfl⟩ := hsame rfl
      exact ⟨_, hq, .inr (.inl ⟨w, rfl⟩)⟩
    | left j unlinked =>
      obtain rfl := Option.some.inj hholds
      cases unlinked with
      | false =>
        obtain ⟨rfl, rfl⟩ := hsame rfl
        exact ⟨_, hq, .inr (.inr rfl)⟩
      | true => exact absurd hname (hlinked.gone holder _ j hq rfl _)
    | made | scanned _ | checked | forked | opened _ => cases hholds

/-! ## A system that is a table -/

/-- Its calls succeed where they may, but for those that are refused. -/
def tableCalls : Calls Bool Table where
  fopen refused t path :=
    if refused then none else (t.names path).map fun ino => (t.files ino).content
  openFile refused t path :=
    if refused then (none, t)
    else
      match t.names path with
      | some ino => (some ino, t)
      | none => (some t.inodes, t.create path)
  flock refused t pid ino :=
    if refused = false ∧ (t.files ino).lock = none then
      (true, t.setFile ino { t.files ino with lock := some pid })
    else (false, t)
  fprintf refused t ino text :=
    if refused then (false, t.setFile ino (t.files ino))
    else
      (true,
        t.setFile ino { t.files ino with content := overwrite (t.files ino).content text })
  unlink refused t path := if refused then (false, t) else (true, t.unlink path)
  exit t pid := t.release pid

/-- A table does what the manuals say. -/
theorem tableCalls_documented : Documented tableCalls id where
  fopen refused t path text htext := by
    simp only [tableCalls] at htext
    obtain ⟨-, hmap⟩ := Option.ite_none_left_eq_some.mp htext
    obtain ⟨ino, hname, rfl⟩ := Option.map_eq_some_iff.mp hmap
    exact ⟨ino, hname, rfl⟩
  openFile refused t path ino hino := by
    cases refused with
    | true => cases hino
    | false =>
      cases hname : t.names path with
      | some i =>
        obtain rfl : i = ino := by simpa [tableCalls, hname] using hino
        exact .inl ⟨hname, by simp [tableCalls, hname]⟩
      | none =>
        obtain rfl : t.inodes = ino := by simpa [tableCalls, hname] using hino
        exact .inr ⟨hname, rfl, by simp [tableCalls, hname]⟩
  openFile_failed refused t path hnone := by
    cases refused with
    | true => rfl
    | false => cases hname : t.names path <;> simp [tableCalls, hname] at hnone
  flock refused t pid ino htrue := by
    simp only [tableCalls] at htrue ⊢
    split_ifs at htrue ⊢ with hfree
    exact ⟨hfree.2, rfl⟩
  flock_failed refused t pid ino hfalse := by
    simp only [tableCalls] at hfalse ⊢
    split_ifs at hfalse ⊢
    rfl
  fprintf refused t ino text htrue := by
    cases refused with
    | true => cases htrue
    | false => rfl
  fprintf_failed refused t ino text hfalse := by
    cases refused with
    | true => exact ⟨_, rfl⟩
    | false => cases hfalse
  unlink refused t path htrue := by
    cases refused with
    | true => cases htrue
    | false => rfl
  unlink_failed refused t path hfalse := by
    cases refused with
    | true => rfl
    | false => cases hfalse
  exit _ _ := rfl

/-- No files are there yet. -/
def start : State Table := ⟨⟨fun _ => none, fun _ => ⟨[], none⟩, 0⟩, fun _ => none⟩

/-- A system without processes. -/
theorem start_starts : Starts id start where
  procs _ := rfl
  lock _ := rfl
  dir _ _ hname := by cases hname
  inj _ _ _ hname := by cases hname

/-- A launch from `fopen` to `flock`, whose check finds nobody. -/
def toLock (pid child : ℕ) : List (Event Bool) :=
  [.fscanf pid false, .kill pid false, .daemon pid child, .openFile child false, .flock child false]

/-- Two launches of one second in one directory, of which the first gets the lock, and one in another
directory. -/
def threeLaunches : List (Event Bool) :=
  [.launch 1 0 ⟨124, 0, 1, 0, 0, 0⟩, .launch 2 0 ⟨124, 0, 1, 0, 0, 0⟩,
    .launch 3 1 ⟨124, 0, 1, 0, 0, 0⟩] ++ toLock 1 11 ++ toLock 2 12 ++ toLock 3 13 ++
    [.fprintf 11 false, .fprintf 13 false]

/-- The second launch ends at `flock`.
SOURCE: src/launcher/src/daemonOption.cc:22-23 -/
theorem single_instance_three : ∃ s, (system tableCalls id).Via NotBetween s ∧ s.procs 12 = none ∧
    (∀ pid, s.Runs pid 0 ⟨124, 0, 1, 0, 0, 0⟩ → pid = 11) ∧ s.Runs 13 1 ⟨124, 0, 1, 0, 0, 0⟩ ∧
      ∀ text ∈ tableCalls.fopen false s.os (0, szDmupName ⟨124, 0, 1, 0, 0, 0⟩),
        scanInt text = some 11 := by
  have hrun : ((system tableCalls id).run start threeLaunches).any (fun s =>
      s.procs 12 == none && s.procs 11 == some ⟨0, ⟨124, 0, 1, 0, 0, 0⟩, .running 0 true⟩ &&
        s.procs 13 == some ⟨1, ⟨124, 0, 1, 0, 0, 0⟩, .running 1 true⟩) = true := by
    decide +kernel
  have hmeets : (system tableCalls id).Meets NotBetween start threeLaunches := by
    refine System.meets_of_forall (fun e he t pid os p hexit => ?_) start
    subst hexit
    simp [threeLaunches, toLock] at he
  obtain ⟨s, hvia, htest⟩ := System.exists_via _ _ start_starts hmeets hrun
  simp only [Bool.and_eq_true, beq_iff_eq] at htest
  obtain ⟨⟨hsecond, hfirst⟩, hthird⟩ := htest
  obtain ⟨honce, hread, -⟩ := single_instance tableCalls id tableCalls_documented s hvia
  exact ⟨s, hvia, hsecond, fun pid hpid => honce pid 11 0 _ hpid ⟨0, true, hfirst⟩,
    ⟨1, true, hthird⟩, hread 11 0 _ 0 false hfirst⟩

/-- The second launch has the file open when the first unlinks it: it locks a file without a name, and a
third one of the same second makes a new file. -/
theorem runs_twice : ¬ ∀ s, (system tableCalls id).Reachable s → ∀ pid pid' dir ptm,
    s.Runs pid dir ptm → s.Runs pid' dir ptm → pid = pid' := by
  intro hall
  have hrun : ((system tableCalls id).run start
      ([.launch 1 0 ⟨124, 0, 1, 0, 0, 0⟩, .launch 2 0 ⟨124, 0, 1, 0, 0, 0⟩] ++ toLock 1 11 ++
        [.fscanf 2 false, .kill 2 false, .daemon 2 12, .openFile 12 false, .fprintf 11 false,
          .exit 11 false, .terminate 11, .flock 12 false, .fprintf 12 false,
          .launch 3 0 ⟨124, 0, 1, 0, 0, 0⟩] ++ toLock 3 13 ++ [.fprintf 13 false])).any (fun s =>
        s.procs 12 == some ⟨0, ⟨124, 0, 1, 0, 0, 0⟩, .running 0 true⟩ &&
          s.procs 13 == some ⟨0, ⟨124, 0, 1, 0, 0, 0⟩, .running 1 true⟩) = true := by
    decide +kernel
  obtain ⟨s, hreach, htest⟩ := System.exists_reachable _ _ start_starts hrun
  rw [Bool.and_eq_true, beq_iff_eq, beq_iff_eq] at htest
  exact absurd (hall s hreach 12 13 0 _ ⟨0, true, htest.1⟩ ⟨1, true, htest.2⟩) (by decide)

end MagicNet.DaemonOption
