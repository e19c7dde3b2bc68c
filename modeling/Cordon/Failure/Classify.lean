import Cordon.Failure.Message

/-!
# Classification

`classify` looks through the layers an error collects on its way through script code and names the
failure behind them. Fatal failures are those a protected call may not turn into a value.
-/

namespace Cordon

/-- The failure a host function raised, if there is one behind the callback and context layers. -/
def ScriptError.failure? : ScriptError → Option Failure
  | .host failure => some failure
  | .callback _ cause => cause.failure?
  | .context _ cause => cause.failure?
  | _ => none

/-- The failure behind this one. -/
def Failure.classify : Failure → Failure
  | .script e => e.failure?.getD (.script e)
  | .execution source _ => source.classify
  | f => f

def Failure.output? : Failure → Option String
  | .execution _ output => some output
  | _ => none

def outOfMemoryText : String := "not enough memory"

/-- The allocation failures: also one that was raised again by its bare message. -/
def ScriptError.isMemory : ScriptError → Bool
  | .memory _ => true
  | .runtime message => message == outOfMemoryText
  | .callback _ cause => cause.isMemory
  | .context _ cause => cause.isMemory
  | _ => false

namespace Failure

def isArgument (f : Failure) : Bool := f.classify.kind == .argument

def isModuleNotFound (f : Failure) : Bool := f.classify.kind == .moduleNotFound

def isSearcherContract (f : Failure) : Bool := f.classify.kind == .searcherContract

def isMemoryLimit (f : Failure) : Bool :=
  match f.classify with
  | .memoryLimit _ => true
  | .script e => e.isMemory
  | _ => false

/-- Fatal failures must not be turned into values by a protected call. -/
def isFatal (f : Failure) : Bool := f.isSearcherContract || f.isMemoryLimit

/-- A memory failure in any wrapping becomes a plain one that carries the full text. -/
def normalizeMemory (f : Failure) : Failure :=
  match f with
  | .memoryLimit _ => f
  | _ => if f.isMemoryLimit then .memoryLimit f.message else f

end Failure

/-- The test by which protected calls raise an engine error again. -/
def ScriptError.isFatal (e : ScriptError) : Bool :=
  match e.failure? with
  | some f => f.isFatal
  | none => e.isMemory

end Cordon
