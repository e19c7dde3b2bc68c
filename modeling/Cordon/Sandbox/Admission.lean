import Cordon.Config.Binding
import Cordon.Sandbox.Modules

/-!
# Admission

The host resolves a module with its own `require` and then binds the value in a sandbox, or allows
the sandbox to require it. What was admitted can be withdrawn, which stops later look-ups only.
-/

namespace Cordon

open Lua

/-- A module by the host's own `require`. -/
def privilegedRequire (module : String) : Host Value := do
  let require ← Host.functionField (← Host.globals) "require"
  return .first (← Host.call require [.str module])

namespace Sandbox

def bind (b : Sandbox) (name : String) (value : Value) : Host Unit :=
  Host.update fun s => s.rawSetStr b.globals name value

def require (b : Sandbox) (module : String) (exposed : Option String) : Host Unit := do
  let exposed := exposed.getD module
  let value ← privilegedRequire module
  b.bind exposed value
  Host.update fun s => s.report (.bound module exposed)

def allow (b : Sandbox) (module : String) (exposed : Option String) : Host Unit := do
  let exposed := exposed.getD module
  let value ← privilegedRequire module
  Host.update fun s =>
    let l := ((s.permit b.modules.permit).insert exposed value).2
    (s.setPermit b.modules.permit l).report (.allowed module exposed)

/-- Withdraws a name from the allow-list, the global variables and the loaded modules. -/
def remove (b : Sandbox) (exposed : String) : Host Unit :=
  Host.update fun s =>
    let s := s.setPermit b.modules.permit ((s.permit b.modules.permit).erase exposed).2
    let s := s.rawSetStr b.globals exposed .nil
    (s.forget b.modules.loaded (.str exposed)).report (.removed exposed)

/-- Allows a module, then requires it in the sandbox and binds what that gives. -/
def adopt (b : Sandbox) (binding : Binding) : Host Unit := do
  b.allow binding.module none
  let value ← b.modules.require binding.module
  b.bind binding.exposedName value

end Sandbox

/-! ## Modules of the host -/

def hostPackageTable (field : String) : Host Value := do
  match ← Host.field (← Host.globals) "package" with
  | .table id =>
    match ← Host.field (.table id) field with
    | .table t => return .table t
    | v => Host.conversion v "table"
  | _ => Host.fail (.config "host interpreter has no package library")

/-- Makes `value` a loaded module of the host. -/
def registerModule (name : String) (value : Value) : Host Unit := do
  Host.setField (← hostPackageTable "loaded") name value

/-- Gives the host a function that makes a module when it is first required. -/
def preloadModule (name : String) (loader : Value) : Host Unit := do
  Host.setField (← hostPackageTable "preload") name loader

end Cordon
