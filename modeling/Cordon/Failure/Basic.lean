/-!
# Failures

A failure of the sandbox may hold an error of the script engine, and an error of the engine may hold
a failure of the sandbox: one raised by a host function travels through script code inside such an
error, one layer per call back into the host.
-/

namespace Cordon

mutual

/-- What went wrong while building or using a sandbox. -/
inductive Failure where
  /-- A function of the sandbox was called with a bad argument. -/
  | argument (function : String) (position : Nat) (message : String)
  /-- No searcher knows the module; `diagnostics` holds every searcher's reason, in search order. -/
  | moduleNotFound (name diagnostics : String)
  /-- A searcher broke its contract. Protected calls do not catch it. -/
  | searcherContract (message : String)
  | script (cause : ScriptError)
  /-- The interpreter ran past its memory limit. -/
  | memoryLimit (message : String)
  /-- The interpreter could not be prepared. -/
  | setup (message : String)
  | config (message : String)
  /-- A sandboxed run failed after printing `output`. -/
  | execution (source : Failure) (output : String)

/-- An error of the script engine. -/
inductive ScriptError where
  /-- The source does not compile; `incomplete` when it ended too early. -/
  | syntaxError (message : String) (incomplete : Bool)
  | runtime (message : String)
  | memory (message : String)
  | safety (message : String)
  | stack
  | unresumable
  | badArgument (function : Option String) (position : Nat) (name : Option String)
      (cause : ScriptError)
  /-- A script value of type `source` where the host wants a `target`. -/
  | conversion (source target : String) (message : Option String)
  /-- An error returned by a host function, with the stack at the time. -/
  | callback (traceback : String) (cause : ScriptError)
  /-- An error with a note put before it. -/
  | context (note : String) (cause : ScriptError)
  /-- A failure of the sandbox on its way through the engine. -/
  | host (failure : Failure)
  /-- An error of some other host component. -/
  | foreign (message : String)

end

instance : Inhabited ScriptError := ⟨.stack⟩

instance : Inhabited Failure := ⟨.script default⟩

inductive Failure.Kind where
  | argument | moduleNotFound | searcherContract | script | memoryLimit | setup | config | execution
  deriving DecidableEq, Repr

inductive ScriptError.Kind where
  | syntaxError | runtime | memory | safety | stack | unresumable | badArgument | conversion
  | callback | context | external
  deriving DecidableEq, Repr

def Failure.kind : Failure → Failure.Kind
  | argument .. => .argument
  | moduleNotFound .. => .moduleNotFound
  | searcherContract _ => .searcherContract
  | script _ => .script
  | memoryLimit _ => .memoryLimit
  | setup _ => .setup
  | config _ => .config
  | execution .. => .execution

def ScriptError.kind : ScriptError → ScriptError.Kind
  | syntaxError .. => .syntaxError
  | runtime _ => .runtime
  | memory _ => .memory
  | safety _ => .safety
  | stack => .stack
  | unresumable => .unresumable
  | badArgument .. => .badArgument
  | conversion .. => .conversion
  | callback .. => .callback
  | context .. => .context
  | host _ => .external
  | foreign _ => .external

/-- The error without its callback and context layers. -/
def ScriptError.peel : ScriptError → ScriptError
  | callback _ cause => cause.peel
  | context _ cause => cause.peel
  | e => e

/-- A failure as the engine carries it: an engine error stays itself. -/
def Failure.toScript : Failure → ScriptError
  | script e => e
  | f => .host f

end Cordon
