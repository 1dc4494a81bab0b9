import MagicNet.Foundation.CriticalSection
import MagicNet.Foundation.System
import Mathlib.Data.List.AList

/-!
# The files that have been read

`ofile::getDataFromFile` keeps the scripts that have been read in `m_data`.  It looks for the name
under the lock and lets go of it; then it takes the lock again, looks again, and reads the file.  Where
the second look finds the name, the lock is freed and the pointer is not returned: the call goes on to
read the file, stores it once more and frees the lock a second time.

Each thread is at a place `Pc` of its call, and a step is one access to what they share.  The blocks of
`util::memory` are numbered as they come; `freed` has those that have been given back.  What `fopen`,
`stat` and `fread` say comes with an event.  The size is an `int`, so it is the file's modulo `2 ^ 32`;
one that is negative is more than there is as a `size_t`, and `memory::malloc` aborts, which is no
step.  `fread` is given the size, so that of a longer file it reads the beginning.

SOURCE: util/ofile.cc:27-111, util/ofile.h:10-14, 37-38, util/spinlock.h:10-28, util/memory.cc:32-58
-/

set_option autoImplicit false

namespace MagicNet.FileCache

open MagicNet.Foundation

structure Data where
  _bytes : ℕ
  _len : ℕ
  deriving DecidableEq, Repr

/-- Where a thread is in `getDataFromFile`: out of it; at a `lock` or the `getUnData` after it, the
first or the second; at the `unlock` of `getData`, with what it has found; at the `unlock` after the
second look has found the name; at `fopen`; at `m_data[filename] = inData`; at the last `unlock`,
`ret` telling whether there is a pointer to return. -/
inductive Pc where
  | out
  | lock (second : Bool) (filename : List Char)
  | getUnData (second : Bool) (filename : List Char)
  | unlockFirst (filename : List Char) (ret : Bool)
  | unlockFound (filename : List Char)
  | fopen (filename : List Char)
  | store (filename : List Char) (inData : Data)
  | unlock (filename : List Char) (ret : Bool)
  deriving DecidableEq, Repr

structure State where
  flag : Bool
  m_data : AList fun _ : List Char => Data
  pc : ℕ → Pc
  blocks : ℕ
  freed : List ℕ

namespace State

variable (s : State)

def goto (t : ℕ) (p : Pc) : State := { s with pc := Function.update s.pc t p }

/-- `clear`, when the threads have stopped. -/
def clear : State :=
  { s with
    m_data := ∅
    freed := s.freed ++ s.m_data.entries.map fun e => e.2._bytes }

end State

/-- A thread calls `getDataFromFile`, takes a step of its own, or opens the file: it cannot be opened;
or `stat` says its size and `fread` how much it has read. -/
inductive Event where
  | getDataFromFile (t : ℕ) (filename : List Char)
  | tick (t : ℕ)
  | fopen (t : ℕ) (file : Option (ℕ × ℕ))
  deriving Repr

def tick (s : State) (t : ℕ) : Option State :=
  match s.pc t with
  | .lock second filename =>
    if s.flag then none else some ({ s with flag := true }.goto t (.getUnData second filename))
  | .getUnData false filename =>
    some (s.goto t (.unlockFirst filename (s.m_data.lookup filename).isSome))
  | .getUnData true filename =>
    some (s.goto t
      (if (s.m_data.lookup filename).isSome then .unlockFound filename else .fopen filename))
  | .unlockFirst filename ret =>
    some ({ s with flag := false }.goto t (if ret then .out else .lock true filename))
  | .unlockFound filename => some ({ s with flag := false }.goto t (.fopen filename))
  | .store filename inData =>
    some ({ s with m_data := s.m_data.insert filename inData }.goto t (.unlock filename true))
  | .unlock _ _ => some ({ s with flag := false }.goto t .out)
  | .out | .fopen _ => none

def step (s : State) : Event → Option State
  | .getDataFromFile t filename =>
    match s.pc t with
    | .out => some (s.goto t (.lock false filename))
    | _ => none
  | .tick t => tick s t
  | .fopen t file =>
    match s.pc t with
    | .fopen filename =>
      match file with
      | none => some (s.goto t (.unlock filename false))
      | some (st_size, readRet) =>
        let size := st_size % 2 ^ 32
        if size < 2 ^ 31 ∧ readRet ≤ size then
          let m := { s with blocks := s.blocks + 1 }
          some (if readRet = size then m.goto t (.store filename ⟨s.blocks, size⟩)
            else { m with freed := s.freed ++ [s.blocks] }.goto t (.unlock filename false))
        else none
    | _ => none

/-- No file has been read, and nobody is reading one. -/
structure Starts (s : State) : Prop where
  flag : s.flag = false
  m_data : s.m_data = ∅
  pc : ∀ t, s.pc t = .out
  blocks : s.blocks = 0
  freed : s.freed = []

def system : System State Event where
  init := Starts
  step := step

@[simp] theorem system_step : system.step = step := rfl

/-- No file has been read. -/
def start : State where
  flag := false
  m_data := ∅
  pc _ := .out
  blocks := 0
  freed := []

end MagicNet.FileCache
