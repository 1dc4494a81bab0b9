import MagicNet.Model.LuaCall

/-!
# The height of the Lua stack

What a call leaves on the stack is one value more than what was below the function, and the traceback
function with it when there is one.  A message that the load of a chunk leaves is popped by
`executeFunction`, which finds no function, and by nobody else.

SOURCE: lualib/manual/luaStack.cc:154-273
-/

set_option autoImplicit false

namespace MagicNet.LuaCall

open MagicNet.Foundation MagicNet.Network MagicNet.LuaLoader

variable {lua : Lua} {args prior stack : Stack} {f handler : Value}

/-! ## The API on a stack with a function and its arguments -/

/-- Popping the arguments and the function leaves what was before.
SOURCE: lualib/manual/luaStack.cc:184-242 -/
theorem lua_pop_call : lua_pop (args ++ f :: prior) (args.length + 1) = prior := by
  rw [lua_pop, ← List.drop_drop, List.drop_left]
  rfl

/-- The handler goes below the function. -/
theorem lua_insert_call :
    lua_insert (handler :: (args ++ f :: prior)) (-((args.length : ℤ) + 1) - 1) =
      args ++ f :: handler :: prior := by
  have hindex : (-(-((args.length : ℤ) + 1) - 1) - 1).toNat = args.length + 1 := by
    omega
  have habove : (args ++ f :: prior).take (args.length + 1) = args ++ [f] := by
    rw [List.take_length_add_append]
    rfl
  have hbelow : (args ++ f :: prior).drop (args.length + 1) = prior := lua_pop_call
  rw [lua_insert, hindex, habove, hbelow, List.append_assoc]
  rfl

/-- The call takes the function and its arguments, and leaves one value. -/
theorem lua_pcall_call (lua : Lua) (args prior : Stack) (f : Value) (msgh : ℤ) :
    ∃ value, (lua_pcall lua (args ++ f :: prior) args.length msgh).2 = value :: prior := by
  have hrest : (args ++ f :: prior).drop (args.length + 1) = prior := lua_pop_call
  rw [lua_pcall, hrest]
  split
  · next result _ => exact ⟨result, rfl⟩
  · next object _ => exact ⟨object, rfl⟩

/-! ## The functions -/

/-- A call without a handler leaves that.
SOURCE: lualib/manual/luaStack.cc:184-242 -/
theorem callFunction_plain : (callFunction lua (args ++ f :: prior) args.length 0).2 = prior := by
  obtain ⟨value, hvalue⟩ := lua_pcall_call lua args prior f 0
  rw [callFunction, hvalue]
  split <;> rfl

/-- So does a call with one.
SOURCE: lualib/manual/luaStack.cc:184-242 -/
theorem callFunction_handler {traceback : ℤ} (h : traceback ≠ 0) :
    (callFunction lua (args ++ f :: handler :: prior) args.length traceback).2 = prior := by
  obtain ⟨value, hvalue⟩ := lua_pcall_call lua args (handler :: prior) f traceback
  rw [callFunction, hvalue]
  split <;> rfl

/-- The function and its arguments are gone, and nothing else.
SOURCE: lualib/manual/luaStack.cc:184-242 -/
theorem executeFunction_pops (lua : Lua) (args prior : Stack) (f : Value) :
    (executeFunction lua (args ++ f :: prior) args.length).2 = prior := by
  rw [executeFunction]
  split
  · exact lua_pop_call
  · dsimp only
    split
    · exact callFunction_plain
    · rw [lua_getglobal, lua_insert_call]
      exact callFunction_handler (by omega)

/-- The value on the top is popped, a function or not.
SOURCE: lualib/manual/luaStack.cc:184-242 -/
theorem executeFunction_top (lua : Lua) (stack : Stack) (f : Value) :
    (executeFunction lua (f :: stack) 0).2 = stack :=
  executeFunction_pops lua [] stack f

/-- Loading pushes one value.
SOURCE: lualib/manual/luaStack.cc:244-273 -/
theorem luaL_load_pushes (lua : Lua) (stack : Stack) (chunk : List UInt8) :
    ∃ value, (luaL_load lua stack chunk).2 = value :: stack := by
  rw [luaL_load]
  split
  · exact ⟨_, rfl⟩
  · exact ⟨_, rfl⟩

/-- `executeString` leaves the stack as it was.
SOURCE: lualib/manual/luaStack.cc:154-158 -/
theorem executeString_balanced (lua : Lua) (stack : Stack) (codes : List UInt8) :
    (executeString lua stack codes).2 = stack := by
  obtain ⟨value, hvalue⟩ := luaL_load_pushes lua stack codes
  rw [executeString, hvalue]
  exact executeFunction_top lua stack value

/-- `executeScriptFile` does exactly where it meets the condition.
SOURCE: lualib/manual/luaStack.cc:160-182 -/
theorem executeScriptFile_balanced_iff (lua : Lua) (files : Files) (m_strDir : List Char)
    (stack : Stack) (filename : List Char) :
    Balanced stack (executeScriptFile lua files m_strDir stack filename) ↔
      Cond lua files m_strDir filename := by
  rw [Balanced, executeScriptFile, Cond]
  cases hexist : files.isExist (getfullPathForFilename m_strDir filename) with
  | false => simp
  | true =>
    cases hdata : files.getDataFromFile (getfullPathForFilename m_strDir filename) with
    | none => simp
    | some bytes =>
      cases hload : lua.load bytes with
      | ok ref =>
        simp only [luaLoadBuffer, luaL_load, hload, Bool.true_eq_false, if_false]
        simp [executeFunction_top, hload, Except.isOk, Except.toBool]
      | error message =>
        simp only [luaLoadBuffer, luaL_load, hload, Bool.true_eq_false, if_false]
        simp [hload, Except.isOk, Except.toBool]

/-- **The stack is kept** by `executeFunction`, but for the function and its arguments, and by
`executeString`; and by `executeScriptFile` where the condition holds, and only there.
SOURCE: lualib/manual/luaStack.cc:154-158, 160-182, 184-242 -/
theorem stack_kept (lua : Lua) (files : Files) (m_strDir filename : List Char)
    (codes : List UInt8) (stack args prior : Stack) (f : Value) :
    (executeFunction lua (args ++ f :: prior) args.length).2 = prior ∧
      (executeString lua stack codes).2 = stack ∧
      (Balanced stack (executeScriptFile lua files m_strDir stack filename) ↔
        Cond lua files m_strDir filename) :=
  ⟨executeFunction_pops lua args prior f, executeString_balanced lua stack codes,
    executeScriptFile_balanced_iff lua files m_strDir stack filename⟩

/-- A file whose chunk does not load leaves the message on the stack.
SOURCE: lualib/manual/luaStack.cc:160-182 -/
theorem message_left :
    ¬ Balanced [] (executeScriptFile ⟨.nil, fun _ _ _ => .ok .nil, fun _ => .error ['e'],
      fun _ => none⟩ ⟨fun _ => true, fun _ => some [0]⟩ [] [] ['f']) := by
  intro h
  exact absurd (h (0, [.string ['e']]) rfl) (by decide)

end MagicNet.LuaCall
