import Mathlib.Data.List.Basic

/-!
# Splitting a string

`stringUtil::split` cuts a string at every char that is one of those of `spl`, and `connect` puts a
delimiter between the strings it is given.  A `std::string` is the list of its chars; `substr` throws
where it begins behind the end.

SOURCE: util/stringUtil.cc:5-17, util/stringUtil.h:36-67
-/

set_option autoImplicit false

namespace MagicNet.Util.StringUtil

/-- `val.find_first_of(spl, ppos)`. -/
def findFirstOf (val spl : List Char) (ppos : ℕ) : Option ℕ :=
  ((val.drop ppos).findIdx? (· ∈ spl)).map (· + ppos)

/-- `val.substr(pos, n)`. -/
def substr (val : List Char) (pos n : ℕ) : Option (List Char) :=
  if pos ≤ val.length then some ((val.drop pos).take n) else none

/-- The loop finds a char that is there, and not before it has begun to look. -/
theorem findFirstOf_bounds {val spl : List Char} {ppos pos : ℕ}
    (h : findFirstOf val spl ppos = some pos) : ppos ≤ pos ∧ pos < val.length := by
  obtain ⟨i, hi, rfl⟩ := Option.map_eq_some_iff.mp h
  have hlt := (List.findIdx?_eq_some_iff_getElem.mp hi).1
  rw [List.length_drop] at hlt
  omega

/-- The loop, with what it has pushed. -/
def splitLoop (val spl : List Char) (ppos : ℕ) (rv : List (List Char)) :
    Option (List (List Char)) :=
  match _h : findFirstOf val spl ppos with
  | some pos => do
    let part ← substr val ppos (pos - ppos)
    splitLoop val spl (pos + 1) (rv ++ [part])
  | none => do
    let part ← substr val ppos val.length
    some (rv ++ [part])
termination_by val.length - ppos
decreasing_by
  have hbounds := findFirstOf_bounds _h
  omega

def split (val spl : List Char) : Option (List (List Char)) := splitLoop val spl 0 []

def connect (value : List (List Char)) (delim : List Char) : List Char :=
  match value with
  | [] => []
  | iter :: value => value.foldl (fun ss iter => ss ++ delim ++ iter) iter

/-- `connect` with something before and after each string. -/
def connectBetween (value : List (List Char)) (delim before after : List Char) : List Char :=
  match value with
  | [] => []
  | iter :: value =>
    value.foldl (fun ss iter => ss ++ delim ++ before ++ iter ++ after) (before ++ iter ++ after)

end MagicNet.Util.StringUtil
