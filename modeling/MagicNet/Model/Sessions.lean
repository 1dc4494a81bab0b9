import MagicNet.Model.Component

/-!
# The sessions a component gives out

`genSession` counts up to 2^31 - 1 and begins again at 1.  A call of `doWait` or `doTimeout` takes
the next session, and enters its `coEntry` under it unless there is one already; then `doTimeout`
sets no timer, and `doWait` returns at once, although `doCreateCo` has suspended the task.

The runs are those of a component, with the calls counted, and with the number of the call that made
each entry.

SOURCE: module/actorComponent.cc:29-53, 69-128
-/

set_option autoImplicit false

namespace MagicNet.Sessions

open MagicNet.Foundation MagicNet.Component

/-- The number of sessions. -/
def sessions : ℕ := 2 ^ 31 - 1

/-- `calls` counts the calls of `doWait` and `doTimeout`, and `made` has for a session the number of
the call that has entered it last. -/
structure State where
  cpt : Component.State
  calls : ℕ
  made : ℤ → ℕ

/-- The call takes a session. -/
def Takes : Event → Prop
  | .doWait | .doTimeout _ => True
  | _ => False

instance : DecidablePred Takes
  | .doWait | .doTimeout _ => isTrue trivial
  | .genEntryId | .doWakeup _ | .resoue _ | .timeout _ | .error _ | .resume _ | .doReturn _
  | .callbackReturn _ => isFalse id

/-- The session that the next call takes. -/
def State.next (s : State) : ℤ := genSession s.cpt.m_session

def step (s : State) (e : Event) : Option State := do
  let cpt ← Component.step s.cpt e
  if Takes e then
    some {
      cpt := cpt
      calls := s.calls + 1
      made := if s.cpt.getSusped s.next = none then
          Function.update s.made s.next (s.calls + 1)
        else s.made }
  else some { s with cpt := cpt }

structure Starts (s : State) : Prop where
  cpt : Component.system.init s.cpt
  calls : s.calls = 0

def system : System State Event where
  init := Starts
  step := step

/-! ## Sessions that are free -/

/-- The session that is taken is positive and not in the table, so the call finds it free; a `doWait`
stays until its coroutine has been woken. -/
structure Fresh (s : State) (e : Event) (s' : State) : Prop where
  session : Takes e → 0 < s.next ∧ s.next ∉ s.cpt.m_suspedSession ∧
    s.cpt.insertSusped s.next ⟨0, none, false⟩ ≠ none
  waits : e = .doWait → ∃ w, s'.cpt.waiting = s.cpt.waiting ++ [w] ∧ w.session = s.next ∧
    s'.cpt.phase w.entry = .blocked
  woken : ∀ i w, e = .doReturn i → s.cpt.waiting[i]? = some w → s.cpt.phase w.entry = .resumed

/-- When a session is taken, no entry is left that the call 2^31 - 1 calls before has made. -/
def Cond (s : State) (e : Event) : Prop :=
  Takes e → ∀ session ∈ s.cpt.m_suspedSession.keys, s.made session + sessions ≠ s.calls + 1

instance (s : State) (e : Event) : Decidable (Cond s e) := inferInstanceAs (Decidable (_ → _))

end MagicNet.Sessions
