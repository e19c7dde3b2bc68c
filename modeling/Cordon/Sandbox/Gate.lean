import Cordon.Sandbox.Admission

/-!
# Functions of the sandbox

The native functions that a sandbox holds: printing into the captured output, compiling text, the
two halves of `require`, the test for fatal errors, and the functions of the admin module.
-/

namespace Cordon.Lua.GateFn

/-! ## Printing -/

/-- The texts of the values, each by the host's conversion function. -/
def texts (tostring : Value) : List Value → Host (List String)
  | [] => return []
  | v :: vs => do
    let text := Value.first (← Host.call tostring [v])
    match text.text? with
    | some b => return b.lossy :: (← texts tostring vs)
    | none => Host.conversion text "string" "expected string or number"

/-- Prints one line, or nothing if a conversion fails. -/
def runPrint (tostring : Value) (output : Nat) (echo : Bool) (args : List Value) :
    Host (List Value) := do
  let line := String.intercalate "\t" (← texts tostring args)
  if echo then Host.update fun s => s.report (.printed line)
  Host.update fun s => s.printLine output line
  return []

/-! ## Compiling -/

/-- What the host's compiler is called with: always text mode, and this environment if the caller
gives none. -/
def loadArguments (globals : Nat) (args : List Value) : List Value :=
  let mode : Value := .ofString "t"
  match args with
  | source :: name :: _ :: environment :: _ => [source, name, mode, environment]
  | args => [args.getD 0 .nil, args.getD 1 .nil, mode, .table globals]

def runLoad (hostLoad : Value) (globals : Nat) (args : List Value) : Host (List Value) :=
  Host.call hostLoad (loadArguments globals args)

/-! ## Fatal errors -/

/-- Whether a caught value must be raised again. A failed allocation is caught as a plain string. -/
def isFatalValue (s : Store) : Value → Bool
  | .fault id => (s.fault id).isFatal
  | .str b => b == Bytes.ofString outOfMemoryText
  | _ => false

/-! ## Arguments -/

/-- A string, or the text of a number, as argument `n` of a function. -/
def checkString (function : String) (args : List Value) (n : Nat) : Host Bytes := do
  match args[n - 1]? with
  | none => Host.fail (.argument function n "string expected, got no value")
  | some v =>
    match v.text? with
    | some b => return b
    | none => Host.fail (.argument function n ("string expected, got " ++ v.hostTypeName))

/-- A string that is text. -/
def checkName (function : String) (args : List Value) (n : Nat) : Host String := do
  match (← checkString function args n).text? with
  | some name => return name
  | none => Host.fail (.argument function n "name is not valid UTF-8")

def optName (function : String) (args : List Value) (n : Nat) : Host (Option String) := do
  match args[n - 1]? with
  | none => return none
  | some .nil => return none
  | some _ => return some (← checkName function args n)

/-! ## Requiring -/

/-- The name as a string, whether its module is ready, and the value or the function to call with
its extra argument. -/
def runResolve (m : ModuleSystem) (args : List Value) : Host (List Value) := do
  let name ← checkString "require" args 1
  match ← m.resolve name with
  | .ready v => return [.str name, .bool true, v, .nil]
  | .pending fn extra => return [.str name, .bool false, fn, extra]

def runFinish (m : ModuleSystem) (args : List Value) : Host (List Value) := do
  let name ← checkString "require" args 1
  return [← m.finish name (args.getD 1 .nil)]

/-! ## Administration -/

def runAdminRequire (b : Sandbox) (args : List Value) : Host (List Value) := do
  let module ← checkName "require" args 1
  let exposed ← optName "require" args 2
  b.require module exposed
  return []

def runAdminAllow (b : Sandbox) (args : List Value) : Host (List Value) := do
  let module ← checkName "allow" args 1
  let exposed ← optName "allow" args 2
  b.allow module exposed
  return []

def runAdminRemove (b : Sandbox) (args : List Value) : Host (List Value) := do
  b.remove (← checkName "remove" args 1)
  return []

def runAdminPermitted (b : Sandbox) : Host (List Value) := do
  let names ← Host.read fun s => (s.permit b.modules.permit).names
  let id ← Host.updateGet fun s => s.newTable (.ofItems (names.map Value.ofString))
  return [.table id]

def run (f : GateFn) (args : List Value) : Host (List Value) :=
  match f with
  | print tostring output echo => runPrint tostring output echo args
  | load hostLoad globals => runLoad hostLoad globals args
  | isFatal => return [.bool (← Host.read fun s => isFatalValue s (args.getD 0 .nil))]
  | resolve m => runResolve m args
  | finish m => runFinish m args
  | adminRequire b => runAdminRequire b args
  | adminAllow b => runAdminAllow b args
  | adminRemove b => runAdminRemove b args
  | adminPermitted b => runAdminPermitted b

end Cordon.Lua.GateFn
