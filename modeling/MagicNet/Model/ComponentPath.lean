import MagicNet.Foundation.CString
import MagicNet.Model.SocketHandle

/-!
# The library of a component

`componentGroup::tryOpen` goes through the templates of the path, puts the name of the component in
the place of the first `?` of each and gives what comes out to `dlopen`, until a library is opened.
The string is put together in `tmp`, an array on the stack; to store outside of it, and to read a
string there that does not end, is `overrun`.  `exit` is the end of the process.

SOURCE: module/componentGroup.cc:92-139
-/

set_option autoImplicit false

namespace MagicNet.ComponentGroup

open MagicNet.Foundation MagicNet.Network

variable {H : Type*}

inductive Ended (H : Type*) where
  | overrun
  | exit
  | returns (dl : Option H)
  deriving DecidableEq, Repr

/-- What stays inside `tmp` goes on. -/
def inside {α : Type*} : Option α → Except (Ended H) α
  | none => .error .overrun
  | some a => .ok a

/-- `memset(tmp, 0, sz)`, where `tmp` has `sz` chars. -/
def cleared (sz : ℤ) : Option (List Char) :=
  if 0 ≤ sz then some (List.replicate sz.toNat '\x00') else none

/-- `path[i]`. -/
def charAt (path : List Char) (i : ℕ) : Char :=
  path.getD i '\x00'

/-- The `for` loop, which has so many chars left; it leaves `i` behind. -/
def copyPrefix (path : List Char) : ℕ → ℕ → List Char → Option (ℕ × List Char)
  | 0, i, tmp => some (i, tmp)
  | left + 1, i, tmp =>
    if charAt path i = '?' then some (i, tmp)
    else (store tmp i (charAt path i)).bind (copyPrefix path left (i + 1))

/-- `strncpy(tmp + i, str, n)` fills up with zeros. -/
def strncpy (tmp : List Char) (i : ℕ) (str : List Char) (n : ℤ) : Option (List Char) :=
  if 0 ≤ n then
    storeAll tmp i (str.take n.toNat ++ List.replicate (n.toNat - str.length) '\x00')
  else none

/-- From the `for` loop to the call of `dlopen`. -/
def build (name path tmp : List Char) (len : ℤ) : Except (Ended H) (List Char) := do
  let (i, tmp) ← inside (copyPrefix path len.toNat 0 tmp)
  let tmp ← inside (storeAll tmp i name)
  if charAt path i = '?' then
    let tmp ← inside (strncpy tmp (i + name.length) (path.drop (i + 1)) (len - i - 1))
    inside (cstring tmp)
  else .error .exit

/-- The body of the loop: the string for `dlopen`, and the path that is left. -/
def pass (name : List Char) (sz : ℤ) (path : List Char) :
    Except (Ended H) (List Char × List Char) := do
  let tmp ← inside (cleared sz)
  let path := path.dropWhile (· = ';')
  if path = [] then .error (.returns none)
  else
    let l := path.dropWhile (· ≠ ';')
    let str ← build name path tmp (toInt32 (path.length - l.length : ℤ))
    .ok (str, l)

/-- The loop, for so many passes: the strings `dlopen` was given, and how it ended. -/
def loop (dlopen : List Char → Option H) (name : List Char) (sz : ℤ) :
    ℕ → List Char → Option (List (List Char) × Ended H)
  | 0, _ => none
  | n + 1, path =>
    match pass name sz path with
    | .error ended => some ([], ended)
    | .ok (str, l) =>
      match dlopen str with
      | some dl => some ([str], .returns (some dl))
      | none => (loop dlopen name sz n l).map (Prod.map (str :: ·) id)

def tryOpen (dlopen : List Char → Option H) (m_path name : CString) (n : ℕ) :
    Option (List (List Char) × Ended H) :=
  loop dlopen name.chars (toInt32 (m_path.chars.length + name.chars.length : ℤ)) n m_path.chars

/-! ## What is asked of it -/

def templates (path : List Char) : List (List Char) :=
  (path.splitOn ';').filter (· ≠ [])

def substituted (name template : List Char) : List Char :=
  template.takeWhile (· ≠ '?') ++ name ++ (template.dropWhile (· ≠ '?')).tail

/-- One template after the other, up to a library that opens or a template without `?`. -/
def search (dlopen : List Char → Option H) (name : List Char) :
    List (List Char) → List (List Char) × Ended H
  | [] => ([], .returns none)
  | template :: templates =>
    if '?' ∈ template then
      match dlopen (substituted name template) with
      | some dl => ([substituted name template], .returns (some dl))
      | none => (search dlopen name templates).map (substituted name template :: ·) id
    else ([], .exit)

end MagicNet.ComponentGroup
