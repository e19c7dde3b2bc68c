import Cordon.Proofs.Lua.Running
import Cordon.Sandbox.Execute
import Cordon.Sandbox.Gate

/-!
# Fatal errors

An error that a searcher broke its contract, or that the memory ran out, stays one in every layer that
it gets on its way to the host.
-/

namespace Cordon

open Lua

/-- A fatal failure, or the engine's own lack of memory, is behind the callback and context layers. -/
inductive Grave : ScriptError → Prop where
  | contract (message : String) : Grave (.host (.searcherContract message))
  | limit (message : String) : Grave (.host (.memoryLimit message))
  | memory (message : String) : Grave (.memory message)
  | callback (traceback : String) {cause : ScriptError} (h : Grave cause) :
    Grave (.callback traceback cause)
  | context (note : String) {cause : ScriptError} (h : Grave cause) : Grave (.context note cause)

namespace Grave

variable {e : ScriptError}

theorem failure?_cases (h : Grave e) :
    (∃ message, e.failure? = some (.searcherContract message)) ∨
      (∃ message, e.failure? = some (.memoryLimit message)) ∨
        e.failure? = none ∧ e.isMemory = true := by
  induction h with
  | contract message => exact .inl ⟨message, rfl⟩
  | limit message => exact .inr (.inl ⟨message, rfl⟩)
  | memory => exact .inr (.inr ⟨rfl, rfl⟩)
  | callback _ _ ih => exact ih
  | context _ _ ih => exact ih

theorem isFatal (h : Grave e) : e.isFatal = true := by
  unfold ScriptError.isFatal
  rcases h.failure?_cases with ⟨message, hf⟩ | ⟨message, hf⟩ | ⟨hf, hm⟩ <;> rw [hf]
  · rfl
  · rfl
  · exact hm

end Grave

/-- A raised value that stands for a fatal error: an error object, or the text of a failed
allocation. -/
inductive Fatal (s : Store) : Value → Prop where
  | fault {id : Nat} (h : Grave (s.fault id)) : Fatal s (.fault id)
  | memory : Fatal s (.str outOfMemoryText)

namespace Fatal

variable {s s' : Store} {v : Value}

theorem isFatalValue (h : Fatal s v) : GateFn.isFatalValue s v = true := by
  cases h with
  | fault h => exact h.isFatal
  | memory =>
    show (Bytes.ofString outOfMemoryText == Bytes.ofString outOfMemoryText) = true
    decide

end Fatal

/-! ## On the way to the host -/

section

variable {ctx : Ctx} {m : Machine} {v : Value}

end

end Cordon
