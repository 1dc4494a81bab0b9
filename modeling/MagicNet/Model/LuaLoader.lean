import MagicNet.Foundation.Pieces
import MagicNet.Model.SocketHandle

/-!
# The search for a Lua module

`lua_loader` makes a file name of the name of a module and looks for it behind the prefixes of
`package.path`.  `begin` and `next` are positions in the path; `substr` takes a position and a length,
and `next` is given for the length.  `chunk` has no value before a file is found.

SOURCE: lualib/manual/luaLoader.cc:9-96, util/ofile.cc:8-68
-/

set_option autoImplicit false

namespace MagicNet.LuaLoader

open MagicNet.Foundation MagicNet.Network

structure StdString where
  chars : List Char
  fits : chars.length < 2 ^ 63

/-- What `ofile` finds: which files there are, and what it reads of one, or `nullptr`. -/
structure Files where
  isExist : List Char → Bool
  getDataFromFile : List Char → Option (List UInt8)

inductive Ended where
  /-- `substr` throws. -/
  | throws
  /-- `chunk` is read, and it was not set. -/
  | unset
  /-- `luaLoadBuffer` is called. -/
  | loads (chunkName : List Char) (bytes : List UInt8)
  /-- -1 is returned. -/
  | fails
  deriving DecidableEq, Repr

def BYTECODE_FILE_EXT : List Char := ['.', 'l', 'u', 'a', 'c']

def NOT_BYTECODE_FILE_EXT : List Char := ['.', 'l', 'u', 'a']

def mark : List Char := ['?', '.', 'l', 'u', 'a']

/-- A `size_t`. -/
def toSize (x : ℤ) : ℕ := (x % 2 ^ 64).toNat

/-- A position, or `npos`. -/
def position : Option ℕ → ℕ
  | none => toSize (-1)
  | some pos => pos

/-- `str.substr(0, pos)`. -/
def substr0 (str : List Char) (pos : Option ℕ) : List Char :=
  str.take (position pos)

/-! ## The file name -/

def strip (filename : List Char) : List Char :=
  match rfind BYTECODE_FILE_EXT filename with
  | some pos => substr0 filename (some pos)
  | none =>
    let pos := rfind NOT_BYTECODE_FILE_EXT filename
    if position pos = toSize (filename.length - NOT_BYTECODE_FILE_EXT.length : ℤ) then
      substr0 filename pos
    else filename

/-- The loop that puts `/` in the place of `.`, for so many rounds. -/
def slashes : ℕ → List Char → List Char
  | 0, filename => filename
  | n + 1, filename =>
    match find ['.'] filename with
    | none => filename
    | some pos => slashes n (filename.take pos ++ '/' :: filename.drop (pos + 1))

/-- There are no more dots in it than chars. -/
def fileName (filename : List Char) : List Char :=
  slashes (strip filename).length (strip filename)

/-! ## The search -/

/-- `searchpath.find_first_of(";", begin)`, or the length where it finds none. -/
def nextSeparator (searchpath : List Char) (begin : ℕ) : ℕ :=
  ((find [';'] (searchpath.drop begin)).map (begin + ·)).getD searchpath.length

/-- Without the `./` it begins with. -/
def dropDot (str : List Char) : List Char :=
  if str.getD 0 '\x00' = '.' ∧ str.getD 1 '\x00' = '/' then str.drop 2 else str

/-- What comes before `?.lua`. -/
def beforeMark (str : List Char) : List Char :=
  substr0 (dropDot str) (find mark (dropDot str))

/-- The names that are asked for, and the first of them that there is. -/
def tryPrefix (files : Files) (base : List Char) : List (List Char) × Option (List Char) :=
  if files.isExist (base ++ BYTECODE_FILE_EXT) then
    ([base ++ BYTECODE_FILE_EXT], some (base ++ BYTECODE_FILE_EXT))
  else
    ([base ++ BYTECODE_FILE_EXT, base ++ NOT_BYTECODE_FILE_EXT],
      if files.isExist (base ++ NOT_BYTECODE_FILE_EXT) then
        some (base ++ NOT_BYTECODE_FILE_EXT)
      else none)

/-- The end of the call, for the chunk of a file. -/
def load (chunkName : List Char) : Option (List UInt8) → Ended
  | some (x :: bytes) => .loads chunkName (x :: bytes)
  | _ => .fails

/-- The `do` loop from `begin` on, for so many rounds. -/
def loop (files : Files) (filename searchpath : List Char) :
    ℕ → ℕ → Option (List (List Char) × Ended)
  | 0, _ => none
  | n + 1, begin =>
    if searchpath.length < begin then some ([], .throws)
    else
      let next := nextSeparator searchpath begin
      match tryPrefix files (beforeMark ((searchpath.drop begin).take next) ++ filename) with
      | (asked, some chunkName) => some (asked, load chunkName (files.getDataFromFile chunkName))
      | (asked, none) =>
        if next + 1 < toSize (toInt32 searchpath.length) then
          (loop files filename searchpath n (next + 1)).map (Prod.map (asked ++ ·) id)
        else some (asked, .unset)

def lua_loader (files : Files) (filename searchpath : StdString) (n : ℕ) :
    Option (List (List Char) × Ended) :=
  loop files (fileName filename.chars) searchpath.chars n 0

/-! ## What is asked of it -/

/-- The name without its extension, and `/` in the place of `.`. -/
def moduleName (filename : List Char) : List Char :=
  (if BYTECODE_FILE_EXT <:+ filename then
    filename.take (filename.length - BYTECODE_FILE_EXT.length)
  else if NOT_BYTECODE_FILE_EXT <:+ filename then
    filename.take (filename.length - NOT_BYTECODE_FILE_EXT.length)
  else filename).map fun x => if x = '.' then '/' else x

/-- One entry after the other, up to the first file there is. -/
def search (files : Files) (filename : List Char) : List (List Char) → List (List Char) × Ended
  | [] => ([], .fails)
  | entry :: entries =>
    match tryPrefix files (beforeMark entry ++ filename) with
    | (asked, some chunkName) =>
      (asked, .loads chunkName ((files.getDataFromFile chunkName).getD []))
    | (asked, none) => (search files filename entries).map (asked ++ ·) id

def Searches (files : Files) (filename searchpath : StdString) : Prop :=
  ∃ n, lua_loader files filename searchpath n =
    some (search files (moduleName filename.chars) (searchpath.chars.splitOn ';'))

/-- From the entry that begins at `begin` on: up to the first file there is an entry is the first of
the path, or the last, or has a `?.lua`; the next one begins before the end of the path, in the number
the loop takes for it; and something is read of the file. -/
def Reaches (files : Files) (filename : List Char) (bound : ℕ) : ℕ → List (List Char) → Prop
  | _, [] => False
  | begin, entry :: entries =>
    (begin = 0 ∨ entries = [] ∨ find mark (dropDot entry) ≠ none) ∧
    match (tryPrefix files (beforeMark entry ++ filename)).2 with
    | some chunkName => (files.getDataFromFile chunkName).getD [] ≠ []
    | none =>
      begin + entry.length + 1 < bound ∧
      Reaches files filename bound (begin + entry.length + 1) entries

instance decidableReaches (files : Files) (filename : List Char) (bound : ℕ) :
    ∀ begin entries, Decidable (Reaches files filename bound begin entries)
  | _, [] => isFalse not_false
  | begin, entry :: entries =>
    have := decidableReaches files filename bound (begin + entry.length + 1) entries
    match htry : (tryPrefix files (beforeMark entry ++ filename)).2 with
    | some chunkName =>
      decidable_of_iff ((begin = 0 ∨ entries = [] ∨ find mark (dropDot entry) ≠ none) ∧
        (files.getDataFromFile chunkName).getD [] ≠ []) (by rw [Reaches, htry])
    | none =>
      decidable_of_iff ((begin = 0 ∨ entries = [] ∨ find mark (dropDot entry) ≠ none) ∧
        begin + entry.length + 1 < bound ∧
        Reaches files filename bound (begin + entry.length + 1) entries) (by rw [Reaches, htry])

/-- And in the name `.luac` stands at the end, where it stands last. -/
def Cond (files : Files) (filename searchpath : StdString) : Prop :=
  (rfind BYTECODE_FILE_EXT filename.chars = none ∨ BYTECODE_FILE_EXT <:+ filename.chars) ∧
  Reaches files (moduleName filename.chars) (toSize (toInt32 searchpath.chars.length)) 0
    (searchpath.chars.splitOn ';')

instance (files : Files) (filename searchpath : StdString) :
    Decidable (Cond files filename searchpath) :=
  inferInstanceAs (Decidable (_ ∧ _))

end MagicNet.LuaLoader
