import MagicNet.Foundation.Pieces

/-!
# Replacing in a string

`stringUtil::replace` looks for the old value from the beginning of the string, replaces what it finds
and starts again, until it finds none.  It may not come to an end, so the loop is given a number of
rounds.  A `std::string` is the list of its chars.

SOURCE: util/stringUtil.cc:19-31
-/

set_option autoImplicit false

namespace MagicNet.Util.StringUtil

open MagicNet.Foundation

variable (old_value new_value : List Char)

/-- `str.replace(pos, len, new_value)`. -/
def replaceAt (str : List Char) (pos len : ℕ) : List Char :=
  str.take pos ++ new_value ++ str.drop (pos + len)

/-- A round of the loop; `none` is its `break`. -/
def round (str : List Char) : Option (List Char) :=
  (find old_value str).map fun pos => replaceAt new_value str pos old_value.length

/-- The loop, which is given so many rounds. -/
def replaceLoop : ℕ → List Char → Option (List Char)
  | 0, _ => none
  | n + 1, str =>
    match round old_value new_value str with
    | none => some str
    | some str => replaceLoop n str

/-- The call ends with this result. -/
def Replaces (str_src result : List Char) : Prop :=
  ∃ n, replaceLoop old_value new_value n str_src = some result

/-! ## What is asked of it -/

/-- The occurrences of the old value that are found from left to right, none in another, are
replaced. -/
def replaced (str_src : List Char) : List Char :=
  new_value.intercalate (pieces old_value 0 str_src)

/-- While the pieces that are left are put behind what is done, the first occurrence in the whole
string is the one between them, or to replace it comes to the same; and there is none in the end. -/
def Keeps : List Char → List (List Char) → Prop
  | _, [] => True
  | done, [piece] => round old_value new_value (done ++ piece) = none
  | done, piece :: next :: pieces =>
    round old_value new_value
        (done ++ piece ++ old_value ++ old_value.intercalate (next :: pieces)) =
      some (done ++ piece ++ new_value ++ old_value.intercalate (next :: pieces)) ∧
    Keeps (done ++ piece ++ new_value) (next :: pieces)

instance decidableKeeps : ∀ done pieces, Decidable (Keeps old_value new_value done pieces)
  | _, [] => isTrue trivial
  | _, [_] => inferInstanceAs (Decidable (_ = _))
  | done, piece :: next :: pieces =>
    have := decidableKeeps (done ++ piece ++ new_value) (next :: pieces)
    inferInstanceAs (Decidable (_ ∧ _))

def Cond (str_src : List Char) : Prop :=
  Keeps old_value new_value [] (pieces old_value 0 str_src)

instance (str_src : List Char) : Decidable (Cond old_value new_value str_src) :=
  inferInstanceAs (Decidable (Keeps _ _ _ _))

end MagicNet.Util.StringUtil
