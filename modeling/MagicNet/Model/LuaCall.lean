import MagicNet.Model.LuaLoader

/-!
# Calling Lua

`luaStack::executeFunction` calls a function that stands on the Lua stack below its arguments, and
`executeString` and `executeScriptFile` call a chunk they load.  The functions of the Lua C API are
taken with the effects they are documented to have; what runs inside of them is given by a `Lua`.  The
stack is a list from its top.  `none` is a failed assertion, and the log lines are left out.

SOURCE: lualib/manual/luaStack.cc:154-273, util/ofile.cc:18-68
-/

set_option autoImplicit false

namespace MagicNet.LuaCall

open MagicNet.Foundation MagicNet.Network MagicNet.LuaLoader

inductive Value where
  | function (ref : ℕ)
  | number (n : ℤ)
  | boolean (b : Bool)
  | string (chars : List Char)
  | nil
  | object (ref : ℕ)
  deriving DecidableEq, Repr

/-- The end of a call: a result, or an error object. -/
inductive Called where
  | ok (result : Value)
  | error (object : Value)

/-- What the state has in `__G__TRACKBACK__`, what a function makes of its arguments with a message
handler, what is made of the text of a chunk, a function or the message of an error, and the integer of
a string that stands for a number. -/
structure Lua where
  traceback : Value
  call : Value → List Value → Option Value → Called
  load : List UInt8 → Except (List Char) ℕ
  integer : List Char → Option ℤ

abbrev Stack := List Value

/-! ## The API -/

/-- The value at an index that counts from the top, -1 being the top. -/
def index (stack : Stack) (idx : ℤ) : Option Value :=
  stack[(-idx - 1).toNat]?

def lua_isfunction (stack : Stack) (idx : ℤ) : Bool :=
  match index stack idx with
  | some (.function _) => true
  | _ => false

/-- Pops so many values. -/
def lua_pop (stack : Stack) (n : ℕ) : Stack := stack.drop n

def lua_getglobal (lua : Lua) (stack : Stack) : Stack := lua.traceback :: stack

/-- Moves the top value to the index, and the values above it up. -/
def lua_insert (stack : Stack) (idx : ℤ) : Stack :=
  match stack with
  | [] => []
  | top :: rest => rest.take (-idx - 1).toNat ++ top :: rest.drop (-idx - 1).toNat

/-- Pops the function and its arguments and pushes one result, or one error object. -/
def lua_pcall (lua : Lua) (stack : Stack) (numArgs : ℕ) (msgh : ℤ) : Bool × Stack :=
  let handler := if msgh = 0 then none else index stack msgh
  match lua.call ((stack[numArgs]?).getD .nil) (stack.take numArgs) handler with
  | .ok result => (false, result :: stack.drop (numArgs + 1))
  | .error object => (true, object :: stack.drop (numArgs + 1))

/-- `luaL_loadstring` and `luaL_loadbuffer` push a function or a message. -/
def luaL_load (lua : Lua) (stack : Stack) (chunk : List UInt8) : Bool × Stack :=
  match lua.load chunk with
  | .ok ref => (false, .function ref :: stack)
  | .error message => (true, .string message :: stack)

/-- `lua_isnumber`, `lua_tointeger`, `lua_isboolean` and `lua_toboolean` of the top; a number is given
as its integer. -/
def toRet (lua : Lua) (stack : Stack) : ℤ :=
  match index stack (-1) with
  | some (.number n) => toInt32 n
  | some (.string chars) => ((lua.integer chars).map toInt32).getD 0
  | some (.boolean b) => if b then 1 else 0
  | _ => 0

/-! ## The functions of `luaStack` -/

/-- From `lua_pcall` on, with the index of the traceback function or 0. -/
def callFunction (lua : Lua) (stack : Stack) (numArgs : ℕ) (traceback : ℤ) : ℤ × Stack :=
  let called := lua_pcall lua stack numArgs traceback
  if called.1 = true then
    if traceback = 0 then (0, lua_pop called.2 1) else (0, lua_pop called.2 2)
  else
    let stack := lua_pop called.2 1
    (toRet lua called.2, if traceback ≠ 0 then lua_pop stack 1 else stack)

/-- With the value it returns, the stack it leaves. -/
def executeFunction (lua : Lua) (stack : Stack) (numArgs : ℕ) : ℤ × Stack :=
  let functionIndex : ℤ := -(numArgs + 1)
  if lua_isfunction stack functionIndex = false then (0, lua_pop stack (numArgs + 1))
  else
    let stack := lua_getglobal lua stack
    if lua_isfunction stack (-1) = false then callFunction lua (lua_pop stack 1) numArgs 0
    else
      callFunction lua (lua_insert stack (functionIndex - 1)) numArgs (functionIndex - 1)

def executeString (lua : Lua) (stack : Stack) (codes : List UInt8) : ℤ × Stack :=
  executeFunction lua (luaL_load lua stack codes).2 0

def luaLoadBuffer (lua : Lua) (stack : Stack) (chunk : List UInt8) : Bool × Stack :=
  luaL_load lua stack chunk

/-- `ofile::getfullPathForFilename`. -/
def getfullPathForFilename (m_strDir filename : List Char) : List Char :=
  if filename = [] then []
  else
    match rfind ['/'] m_strDir with
    | none => filename
    | some pos => m_strDir.take (pos + 1) ++ filename

def executeScriptFile (lua : Lua) (files : Files) (m_strDir : List Char) (stack : Stack)
    (filename : List Char) : Option (ℤ × Stack) :=
  let fullPath := getfullPathForFilename m_strDir filename
  if files.isExist fullPath = false then none
  else
    match files.getDataFromFile fullPath with
    | none => some (0, stack)
    | some bytes =>
      match luaLoadBuffer lua stack bytes with
      | (false, stack) => some (executeFunction lua stack 0)
      | (true, stack) => some (0, stack)

/-! ## What is asked of them -/

/-- Where the call returns the stack is as it was. -/
def Balanced (stack : Stack) (result : Option (ℤ × Stack)) : Prop :=
  ∀ r ∈ result, r.2 = stack

/-- The file is not there, or not read, or its chunk loads. -/
def Cond (lua : Lua) (files : Files) (m_strDir filename : List Char) : Prop :=
  let fullPath := getfullPathForFilename m_strDir filename
  files.isExist fullPath = true → ∀ bytes ∈ files.getDataFromFile fullPath,
    (lua.load bytes).isOk = true

end MagicNet.LuaCall
