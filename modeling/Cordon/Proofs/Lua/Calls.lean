import Cordon.Proofs.Lua.Leads

/-!
# The calls that a run makes

`Calls` follows the machine like `Leads` and lists the calls on the way. No native function calls a
program in such a stretch, so the list is complete.
-/

namespace Cordon.Lua

/-- A call, and where it is made. -/
structure Call where
  surroundings : Surroundings
  exec : Exec
  fn : Value
  args : List Value
  store : Store

/-- The call that comes next, if one does. -/
def Control.calls (b : Surroundings) (e : Exec) : Control → List Call
  | .apply fn args s => [⟨b, e, fn, args, s⟩]
  | _ => []

namespace Exec

variable {b : Surroundings} {c c' c'' : Control} {e e' e'' : Exec} {log log' : List Call}

/-- The machine gets from one point to another by steps of which none depends on the caller, and these are
the calls that it makes. -/
inductive Calls (b : Surroundings) : Control → Exec → List Call → Control → Exec → Prop where
  | refl (c : Control) (e : Exec) : Calls b c e [] c e
  | head {c c' c'' : Control} {e e' e'' : Exec} {log : List Call}
      (first : ∀ caller, e.step caller b c = some (.next c' e')) (rest : Calls b c' e' log c'' e'') :
      Calls b c e (c.calls b e ++ log) c'' e''

namespace Calls

theorem single (h : ∀ caller, e.step caller b c = some (.next c' e')) :
    Calls b c e (c.calls b e) c' e' := by
  have := Calls.head h (.refl c' e')
  rwa [List.append_nil] at this

theorem trans (h : Calls b c e log c' e') (h' : Calls b c' e' log' c'' e'') :
    Calls b c e (log ++ log') c'' e'' := by
  induction h with
  | refl => exact h'
  | head first _ ih =>
    rw [List.append_assoc]
    exact .head first (ih h')

theorem leads (h : Calls b c e log c' e') : Leads b c e c' e' := by
  induction h with
  | refl => exact .refl ..
  | head first _ ih => exact .head first ih

end Calls

/-! ## Calls of some functions only -/

end Exec

end Cordon.Lua
