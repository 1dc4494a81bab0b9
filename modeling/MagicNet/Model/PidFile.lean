import Mathlib.Data.Nat.Digits.Defs
import Mathlib.Logic.Function.Basic
import MagicNet.Foundation.System

/-!
# The file that keeps a daemon from running twice

A launch with the option `d` builds the name of its file from the local time, looks in the file for the
id of a process that is still there, forks, and takes the file for itself: it opens or creates it, locks
it with `flock` and writes its id.  The lock goes with the process.  At the end of `main` the file is
unlinked.  The name has no directory in it, so the file is in the one that the launch was made in, and
`daemon` is told to stay there.

The system is a parameter: `κ` is its state, `Calls` has what a launch calls of it, `ω` is what the
outcome of a call depends on besides its arguments, and `Documented` has what the manuals say of these
calls, the files being a `Table`.  A step is one call that another process can see; `kill` may give any
answer, and a process may end at any time.

SOURCE: src/launcher/src/daemonOption.cc:15-129, src/launcher/src/main.cc:27-79
-/

set_option autoImplicit false

namespace MagicNet.DaemonOption

open MagicNet.Foundation

/-- `struct tm`, in the fields that go into the name. -/
structure Tm where
  tm_year : ℕ
  tm_mon : ℕ
  tm_mday : ℕ
  tm_hour : ℕ
  tm_min : ℕ
  tm_sec : ℕ
deriving DecidableEq

/-! ## Decimal numbers -/

/-- What `%d` prints. -/
def decimal (n : ℕ) : List Char := Nat.toDigits 10 n

/-- SOURCE: src/launcher/src/daemonOption.cc:22-23 -/
def szDmupName (ptm : Tm) : List Char :=
  decimal (ptm.tm_year + 1900) ++ '_' :: (decimal ptm.tm_mon ++ '_' :: (decimal ptm.tm_mday ++
    '_' :: (decimal ptm.tm_hour ++ '_' :: (decimal ptm.tm_min ++
      '_' :: (decimal ptm.tm_sec ++ ['.', 'd', 'm', 'p'])))))

/-- The digits at the beginning of a text. -/
def scanDigits (text : List Char) : Option ℕ :=
  let digits := text.takeWhile Char.isDigit
  if digits = [] then none else some (Nat.ofDigitChars 10 digits 0)

/-- `fscanf` with `%d`, where it returns 1. -/
def scanInt (text : List Char) : Option ℤ :=
  match text.dropWhile Char.isWhitespace with
  | '-' :: text => (scanDigits text).map fun n => -(n : ℤ)
  | '+' :: text => (scanDigits text).map Int.ofNat
  | text => (scanDigits text).map Int.ofNat

/-- A write at the beginning of a file. -/
def overwrite (content text : List Char) : List Char := text ++ content.drop text.length

/-! ## The system -/

/-- A directory, and a name in it. -/
abbrev Path := ℕ × List Char

/-- `lock` is the process that has the lock. -/
structure File where
  content : List Char
  lock : Option ℕ

/-- The names, and the files that there have been; a file stays when its name goes. -/
structure Table where
  names : Path → Option ℕ
  files : ℕ → File
  inodes : ℕ

namespace Table

variable (t : Table)

/-- A new file under a name. -/
def create (path : Path) : Table where
  names := Function.update t.names path (some t.inodes)
  files := Function.update t.files t.inodes ⟨[], none⟩
  inodes := t.inodes + 1

def setFile (ino : ℕ) (f : File) : Table := { t with files := Function.update t.files ino f }

def unlink (path : Path) : Table := { t with names := Function.update t.names path none }

/-- The end of a process, and of its locks. -/
def release (pid : ℕ) : Table :=
  { t with
    files := fun ino => if (t.files ino).lock = some pid then { t.files ino with lock := none }
      else t.files ino }

end Table

/-- The calls of the system.  `fopen` has the text that can be read then, `openFile` (`open` with
`O_CREAT`) the file, `flock` (with `LOCK_NB`), `fprintf` (with `fflush`) and `unlink` whether they have
succeeded; `exit` is the end of a process. -/
structure Calls (ω κ : Type) where
  fopen : ω → κ → Path → Option (List Char)
  openFile : ω → κ → Path → Option ℕ × κ
  flock : ω → κ → ℕ → ℕ → Bool × κ
  fprintf : ω → κ → ℕ → List Char → Bool × κ
  unlink : ω → κ → Path → Bool × κ
  exit : κ → ℕ → κ

/-- What the manuals say, `table` being the files of the system.  A call that fails changes nothing, but
for a write, of which anything may have been done; a lock is had by one process at a time, and goes with
it; a name is of one file, and a file that is created is new. -/
structure Documented {ω κ : Type} (O : Calls ω κ) (table : κ → Table) : Prop where
  fopen : ∀ os k path, ∀ text ∈ O.fopen os k path,
    ∃ ino ∈ (table k).names path, text = ((table k).files ino).content
  openFile : ∀ os k path, ∀ ino ∈ (O.openFile os k path).1,
    (ino ∈ (table k).names path ∧ table (O.openFile os k path).2 = table k) ∨
      (table k).names path = none ∧ ino = (table k).inodes ∧
        table (O.openFile os k path).2 = (table k).create path
  openFile_failed : ∀ os k path, (O.openFile os k path).1 = none →
    table (O.openFile os k path).2 = table k
  flock : ∀ os k pid ino, (O.flock os k pid ino).1 = true →
    ((table k).files ino).lock = none ∧
      table (O.flock os k pid ino).2 =
        (table k).setFile ino { (table k).files ino with lock := some pid }
  flock_failed : ∀ os k pid ino, (O.flock os k pid ino).1 = false →
    table (O.flock os k pid ino).2 = table k
  fprintf : ∀ os k ino text, (O.fprintf os k ino text).1 = true →
    table (O.fprintf os k ino text).2 =
      (table k).setFile ino
        { (table k).files ino with content := overwrite ((table k).files ino).content text }
  fprintf_failed : ∀ os k ino text, (O.fprintf os k ino text).1 = false →
    ∃ content, table (O.fprintf os k ino text).2 =
      (table k).setFile ino { (table k).files ino with content := content }
  unlink : ∀ os k path, (O.unlink os k path).1 = true →
    table (O.unlink os k path).2 = (table k).unlink path
  unlink_failed : ∀ os k path, (O.unlink os k path).1 = false →
    table (O.unlink os k path).2 = table k
  exit : ∀ k pid, table (O.exit k pid) = (table k).release pid

/-! ## Launches -/

/-- Where a process is: at `fopen` in `local_check_pid`; at `kill` with what was scanned; at `daemon`;
at `open` in `local_write_pid`; at `flock`; at `fprintf`; with `init` behind it, and its id written or
not; behind `unlink`, which has been done or not. -/
inductive Pc where
  | made
  | scanned (pid : Option ℤ)
  | checked
  | forked
  | opened (ino : ℕ)
  | locked (ino : ℕ)
  | running (ino : ℕ) (written : Bool)
  | left (ino : ℕ) (unlinked : Bool)
deriving DecidableEq

/-- A process, in the directory that the launch was made in. -/
structure Proc where
  dir : ℕ
  ptm : Tm
  pc : Pc
deriving DecidableEq

/-- `m_pidFile` -/
def Proc.path (p : Proc) : Path := (p.dir, szDmupName p.ptm)

structure State (κ : Type) where
  os : κ
  procs : ℕ → Option Proc

inductive Event (ω : Type) where
  | launch (pid dir : ℕ) (ptm : Tm)
  | fscanf (pid : ℕ) (os : ω)
  | kill (pid : ℕ) (alive : Bool)
  | daemon (pid child : ℕ)
  | openFile (pid : ℕ) (os : ω)
  | flock (pid : ℕ) (os : ω)
  | fprintf (pid : ℕ) (os : ω)
  | exit (pid : ℕ) (os : ω)
  | terminate (pid : ℕ)

/-- `local_check_pid` finds another process that is there. -/
def stops (pid : ℕ) (found : Option ℤ) (alive : Bool) : Bool :=
  match found with
  | none => false
  | some other => decide (other ≠ 0 ∧ other ≠ pid) && alive

section

variable {ω κ : Type} (O : Calls ω κ)

/-- A process goes on. -/
def State.setPc (s : State κ) (pid : ℕ) (p : Proc) (pc : Pc) : State κ :=
  { s with procs := Function.update s.procs pid (some { p with pc := pc }) }

/-- A process ends. -/
def State.terminate (s : State κ) (pid : ℕ) : State κ where
  os := O.exit s.os pid
  procs := Function.update s.procs pid none

/-- `open`; where it fails the launch ends. -/
def State.openFile (s : State κ) (pid : ℕ) (p : Proc) (os : ω) : State κ :=
  let r := O.openFile os s.os p.path
  match r.1 with
  | some ino => { s with os := r.2 }.setPc pid p (.opened ino)
  | none => State.terminate O { s with os := r.2 } pid

/-- `flock`; without the lock the launch ends. -/
def State.flock (s : State κ) (pid : ℕ) (p : Proc) (ino : ℕ) (os : ω) : State κ :=
  let r := O.flock os s.os pid ino
  if r.1 then { s with os := r.2 }.setPc pid p (.locked ino)
  else State.terminate O { s with os := r.2 } pid

def State.fprintf (s : State κ) (pid : ℕ) (p : Proc) (ino : ℕ) (os : ω) : State κ :=
  let r := O.fprintf os s.os ino (decimal pid ++ ['\n'])
  { s with os := r.2 }.setPc pid p (.running ino r.1)

def State.exit (s : State κ) (pid : ℕ) (p : Proc) (ino : ℕ) (os : ω) : State κ :=
  let r := O.unlink os s.os p.path
  { s with os := r.2 }.setPc pid p (.left ino r.1)

/-- A new process has an id that no other one has. -/
def step (s : State κ) : Event ω → Option (State κ)
  | .launch pid dir ptm =>
    if s.procs pid = none then
      some { s with procs := Function.update s.procs pid (some ⟨dir, ptm, .made⟩) }
    else none
  | .fscanf pid os =>
    match s.procs pid with
    | some ⟨dir, ptm, .made⟩ =>
      some (s.setPc pid ⟨dir, ptm, .made⟩
        (.scanned ((O.fopen os s.os (dir, szDmupName ptm)).bind scanInt)))
    | _ => none
  | .kill pid alive =>
    match s.procs pid with
    | some ⟨dir, ptm, .scanned found⟩ =>
      some (if stops pid found alive then s.terminate O pid
        else s.setPc pid ⟨dir, ptm, .scanned found⟩ .checked)
    | _ => none
  | .daemon pid child =>
    match s.procs pid with
    | some ⟨dir, ptm, .checked⟩ =>
      if s.procs child = none then
        let t := s.terminate O pid
        some { t with procs := Function.update t.procs child (some ⟨dir, ptm, .forked⟩) }
      else none
    | _ => none
  | .openFile pid os =>
    match s.procs pid with
    | some ⟨dir, ptm, .forked⟩ => some (s.openFile O pid ⟨dir, ptm, .forked⟩ os)
    | _ => none
  | .flock pid os =>
    match s.procs pid with
    | some ⟨dir, ptm, .opened ino⟩ => some (s.flock O pid ⟨dir, ptm, .opened ino⟩ ino os)
    | _ => none
  | .fprintf pid os =>
    match s.procs pid with
    | some ⟨dir, ptm, .locked ino⟩ => some (s.fprintf O pid ⟨dir, ptm, .locked ino⟩ ino os)
    | _ => none
  | .exit pid os =>
    match s.procs pid with
    | some ⟨dir, ptm, .running ino written⟩ =>
      some (s.exit O pid ⟨dir, ptm, .running ino written⟩ ino os)
    | _ => none
  | .terminate pid => if s.procs pid = none then none else some (s.terminate O pid)

/-- No launch is there; files may be left from earlier ones, each with one name and without a lock. -/
structure Starts (table : κ → Table) (s : State κ) : Prop where
  procs : ∀ pid, s.procs pid = none
  lock : ∀ ino, ((table s.os).files ino).lock = none
  dir : ∀ path ino, (table s.os).names path = some ino → ino < (table s.os).inodes
  inj : ∀ path path' ino, (table s.os).names path = some ino →
    (table s.os).names path' = some ino → path = path'

def system (table : κ → Table) : System (State κ) (Event ω) where
  init := Starts table
  step := step O

end

/-! ## What is asked of it -/

/-- The process has got through `init` and has not come to the end of `main`. -/
def State.Runs {κ : Type} (s : State κ) (pid dir : ℕ) (ptm : Tm) : Prop :=
  ∃ ino written, s.procs pid = some ⟨dir, ptm, .running ino written⟩

/-- No file is unlinked while another launch of the same second and directory is between `open` and
`flock`. -/
def NotBetween {ω κ : Type} (s : State κ) (e : Event ω) : Prop :=
  ∀ pid os p, e = .exit pid os → s.procs pid = some p →
    ∀ other ino, s.procs other ≠ some ⟨p.dir, p.ptm, .opened ino⟩

end MagicNet.DaemonOption
