import MagicNet.Foundation.System
import Mathlib.Algebra.BigOperators.Group.List.Basic

/-!
# The memory of a Lua state

Lua asks for all its memory through `luaStack::alloc`, which counts in `m_mem` what it gives out.  A
call names a block by its pointer and its size, `osize`, or no block, and asks for `nsize` bytes in its
place.  `lalloc` may fail to give them; what it gives is a block that is not in use, and the blocks in
use at one time have less than 2^64 bytes.

SOURCE: lualib/manual/luaStack.cc:7-42, util/memory.cc:94-101
-/

set_option autoImplicit false

namespace MagicNet.LuaMemory

open MagicNet.Foundation

/-- The blocks in use, each a pointer and a size. -/
structure LuaStack where
  m_mem : ℕ
  m_memReport : ℕ
  m_memLimit : ℕ
  blocks : List (ℕ × ℕ)
  deriving DecidableEq, Repr

/-- `given` is what `rxrealloc` returns, if it is called. -/
structure Call where
  ptr : Option ℕ
  osize : ℕ
  nsize : ℕ
  given : Option ℕ
  deriving DecidableEq, Repr

/-- The numbers of a `size_t`. -/
def WORD : ℕ := 2 ^ 64

def LUA_MEMORY_WARNING_REPORT : ℕ := 1024 * 1024 * 32

def total (blocks : List (ℕ × ℕ)) : ℕ :=
  (blocks.map Prod.snd).sum

namespace Call

/-- What the call gives back. -/
def released (e : Call) : ℕ :=
  match e.ptr with
  | none => 0
  | some _ => e.osize

/-- The blocks that the call does not name. -/
def others (e : Call) (blocks : List (ℕ × ℕ)) : List (ℕ × ℕ) :=
  match e.ptr with
  | none => blocks
  | some ptr => blocks.erase (ptr, e.osize)

end Call

namespace LuaStack

variable (s : LuaStack) (e : Call)

/-- `m_mem` as the call first changes it. -/
def counted : ℕ :=
  let m_mem := (s.m_mem + e.nsize) % WORD
  match e.ptr with
  | none => m_mem
  | some _ => (m_mem + (WORD - e.osize)) % WORD

/-- The test against the limit. -/
def Refused : Prop :=
  s.m_memLimit ≠ 0 ∧ s.counted e > s.m_memLimit ∧ (e.ptr = none ∨ e.nsize > e.osize)

instance : Decidable (Refused s e) := inferInstanceAs (Decidable (_ ∧ _ ∧ _))

/-- `memory::lalloc`, with the pointer it returns. -/
def lalloc : LuaStack × Option ℕ :=
  if e.nsize = 0 then ({ s with blocks := e.others s.blocks }, none)
  else
    match e.given with
    | none => (s, none)
    | some ptr => ({ s with blocks := (ptr, e.nsize) :: e.others s.blocks }, some ptr)

def alloc : LuaStack × Option ℕ :=
  if s.Refused e then (s, none)
  else
    lalloc
      { s with
        m_mem := s.counted e
        m_memReport :=
          if s.counted e > s.m_memReport then s.m_memReport * 2 % WORD else s.m_memReport }
      e

/-! ## The runs -/

/-- The contract: a block that is named is in use, with its size. -/
def Contract : Prop :=
  e.osize < WORD ∧ e.nsize < WORD ∧ ∀ ptr ∈ e.ptr, (ptr, e.osize) ∈ s.blocks

instance : Decidable (Contract s e) := inferInstanceAs (Decidable (_ ∧ _ ∧ _))

/-- What is given is not in use. -/
def Fresh : Prop :=
  ∀ ptr ∈ e.given, ptr ∉ (e.others s.blocks).map Prod.fst ∧
    e.nsize + total (e.others s.blocks) < WORD

instance : Decidable (Fresh s e) := inferInstanceAs (Decidable (∀ _ ∈ _, _ ∧ _))

def step : Option LuaStack :=
  if s.Contract e ∧ s.Fresh e then some (s.alloc e).1 else none

end LuaStack

/-- A new state, with any limit. -/
def system : System LuaStack Call where
  init s := s.m_mem = 0 ∧ s.m_memReport = LUA_MEMORY_WARNING_REPORT ∧ s.blocks = []
  step := LuaStack.step

/-! ## What is asked of a call -/

/-- `m_mem` is what the blocks have together; nothing is counted where nothing is given; and no call
grows the memory above the limit. -/
structure Counts (s : LuaStack) (e : Call) (s' : LuaStack) : Prop where
  exact : s'.m_mem = total s'.blocks
  unchanged : (s.alloc e).2 = none → 0 < e.nsize → s'.m_mem = s.m_mem
  limited : s.m_memLimit ≠ 0 → (s.alloc e).2 ≠ none → e.released < e.nsize →
    s.m_mem + e.nsize ≤ s.m_memLimit + e.released

/-- Bytes that pass the test against the limit are given, or as many are asked for as there were. -/
def Cond (s : LuaStack) (e : Call) : Prop :=
  s.Refused e ∨ e.nsize = 0 ∨ e.given ≠ none ∨ e.nsize = e.released

instance (s : LuaStack) (e : Call) : Decidable (Cond s e) :=
  inferInstanceAs (Decidable (_ ∨ _ ∨ _ ∨ _))

end MagicNet.LuaMemory
