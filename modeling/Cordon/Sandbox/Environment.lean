import Cordon.Config.Basic
import Cordon.Sandbox.Admission
import Cordon.Sandbox.Protect
import Cordon.Sandbox.Require

/-!
# The sandbox environment

The table of global variables of a sandbox starts from nothing: the configured base functions, the
version strings, a reference to itself, and the sandbox's own functions for printing, protected
calls and compiling.
-/

namespace Cordon

open Lua

namespace Environment

def hostVersionName : String := "_HOSTVERSION"

/-- Copies a base function of the host; one that is missing is reported and skipped. -/
def copyBuiltin (globals : Nat) (s : Store) (name : String) : Store :=
  match (s.table s.globals).getStr name with
  | .nil => s.report (.missingBuiltin name)
  | v => s.rawSetStr globals name v

def protectedCalls : Host (Value × Value) := do
  let host ← Host.globals
  let pcall ← Host.functionField host "pcall"
  let xpcall ← Host.functionField host "xpcall"
  let error ← Host.functionField host "error"
  let select ← Host.functionField host "select"
  let type ← Host.functionField host "type"
  let isFatal ← Host.newFunction (.gate .isFatal)
  Host.updateGet fun s =>
    let (pcall, xpcall, s) := Protect.functions s { isFatal, type, select, error, xpcall, pcall }
    ((pcall, xpcall), s)

/-- A function that compiles text for an environment, by way of the host's. -/
def restrictedLoad (globals : Nat) : Host Value := do
  let load ← Host.functionField (← Host.globals) "load"
  Host.newFunction (.gate (.load load globals))

/-- Makes the table of a sandbox and registers it with the interpreter. -/
def build (c : Config) (output : Nat) : Host Nat := do
  let globals ← Host.updateGet fun s => s.newTable
  let put (name : String) (v : Value) : Host Unit := Host.update fun s => s.rawSetStr globals name v
  Host.update fun s => c.builtins.foldl (copyBuiltin globals) s
  put "_VERSION" (← Host.read fun s => (s.table s.globals).getStr "_VERSION")
  put hostVersionName (.ofString c.hostVersion)
  put "_G" (.table globals)
  let tostring ← Host.functionField (← Host.globals) "tostring"
  put "print" (← Host.newFunction (.gate (.print tostring output c.echoPrint)))
  let (pcall, xpcall) ← protectedCalls
  put "pcall" pcall
  put "xpcall" xpcall
  put "load" (← restrictedLoad globals)
  Host.update fun s => { s with registered := some globals }
  return globals

end Environment

def ModuleSystem.open (permit : Nat) : Host (ModuleSystem × Value) := Host.updateGet fun s =>
  let (package, s) := s.newTable
  let (loaded, s) := s.newTable
  let (preload, s) := s.newTable
  let s := s.rawSetStr package "loaded" (.table loaded)
  let s := s.rawSetStr package "preload" (.table preload)
  let m : ModuleSystem := ⟨package, loaded, permit⟩
  let (require, s) := Require.function s m
  ((m, require), s.rawSetStr package "require" require)

end Cordon
