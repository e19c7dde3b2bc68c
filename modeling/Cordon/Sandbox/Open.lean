import Cordon.Sandbox.Environment

/-!
# Opening a sandbox
-/

namespace Cordon

open Lua

/-- The name under which the host keeps a sandbox's clock library. -/
def clockModule : String := "trusted.os"

/-- A fresh table of functions of the host's `os` library. -/
def restrictedOs (functions : List String) : Host Nat := do
  match ← Host.field (← Host.globals) "os" with
  | .table host =>
    let id ← Host.updateGet fun s => s.newTable
    for name in functions do
      let found ← ExceptT.lift (Host.functionField (.table host) name).run
      match found with
      | .ok f => Host.update fun s => s.rawSetStr id name f
      | .error _ => Host.fail (.config ("host os library has no function '" ++ name ++ "'"))
    return id
  | _ => Host.fail (.config "host interpreter has no os library")

def applyMemoryLimit (limit : Option Nat) : Host Unit := do
  match limit with
  | none => return ()
  | some bytes =>
    match MemoryUsage.limitRefusal? (← Host.read (·.used)) bytes with
    | some refusal => Host.fail refusal
    | none => Host.update fun s => { s with memoryLimit := some bytes }

def memoryUsage (limit : Option Nat) : Host MemoryUsage := do
  return ⟨← Host.read (·.used), limit⟩

def Sandbox.open (c : Config) : Host Sandbox := do
  match c.validate with
  | .error e => Host.fail e
  | .ok () => pure ()
  let permit ← Host.updateGet Store.newPermit
  let output ← Host.updateGet Store.newOutput
  let globals ← Environment.build c output
  let (modules, require) ← ModuleSystem.open permit
  let b : Sandbox := { globals, modules, output, maxMemory := c.maxMemory }
  b.bind "require" require
  b.bind "package" (.table modules.package)
  for binding in c.libraries ++ c.hostServices do
    b.adopt binding
  for binding in c.allowed do
    b.allow binding.module binding.exposed
  let os ← restrictedOs c.osFunctions
  registerModule clockModule (.table os)
  b.allow clockModule (some "os")
  b.bind "os" (← b.modules.require "os")
  applyMemoryLimit c.maxMemory
  Host.update fun s => s.report (.opened (s.permit permit).size c.maxMemory)
  return b

/-- Makes the admin functions of a sandbox a module of the host. -/
def Sandbox.installAdmin (b : Sandbox) (name : String) : Host Nat := do
  let id ← Host.updateGet fun s => s.newTable
  let put (field : String) (f : GateFn) : Host Unit := do
    let f ← Host.newFunction (.gate f)
    Host.update fun s => s.rawSetStr id field f
  put "require" (.adminRequire b)
  put "allow" (.adminAllow b)
  put "remove" (.adminRemove b)
  put "permitted" (.adminPermitted b)
  Host.update fun s => s.rawSetStr id "sandbox" (.table b.globals)
  registerModule name (.table id)
  return id

/-- The description of a sandbox's handle, as far as it does not depend on its contents. -/
def Sandbox.describe (_ : Sandbox) : String := "Trusted \x7b lua: \"<mlua::Lua>\""

end Cordon
