import Cordon.Text.Quoted

/-!
# Events

What a sandbox reports to whoever watches it.
-/

namespace Cordon

inductive Event.Level where
  | trace | debug | info | warn
  deriving DecidableEq, Repr

/-- A report: where it comes from, what happened, and named details. -/
structure Event where
  level : Event.Level
  target : String
  message : String
  fields : List (String × String) := []

namespace Event

def Level.name : Level → String
  | trace => "TRACE"
  | debug => "DEBUG"
  | info => "INFO"
  | warn => "WARN"

def missingBuiltin (name : String) : Event :=
  ⟨.warn, "lua_trusted_sandbox::sandbox::environment",
    "builtin missing from host globals, skipped", [("builtin", name)]⟩

def cacheHit (module : String) : Event :=
  ⟨.trace, "lua_trusted_sandbox::sandbox::loader", "module cache hit", [("module", module)]⟩

def resolved (module : String) : Event :=
  ⟨.trace, "lua_trusted_sandbox::sandbox::loader", "module resolved", [("module", module)]⟩

def managed (message : String) (fields : List (String × String)) : Event :=
  ⟨.debug, "lua_trusted_sandbox::sandbox::trusted", message, fields⟩

def bound (module exposed : String) : Event :=
  managed "module bound into sandbox" [("module", module), ("exposed", exposed)]

def allowed (module exposed : String) : Event :=
  managed "module allowed in sandbox" [("module", module), ("exposed", exposed)]

def removed (exposed : String) : Event :=
  managed "module removed from sandbox" [("exposed", exposed)]

def opened (allowed : Nat) (maxMemory : Option Nat) : Event :=
  managed "sandbox opened" [("allowed", toString allowed), ("max_memory",
    match maxMemory with
    | none => "None"
    | some n => "Some(" ++ toString n ++ ")")]

def printed (line : String) : Event := ⟨.info, "lua_trusted_sandbox::print", line, []⟩

end Event

end Cordon
