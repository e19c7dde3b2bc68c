/-!
# Handles

What belongs to one sandbox, by reference: tables by their number, the allow-list and the captured
output by their place among all of them. Copies of a handle name the same sandbox.
-/

namespace Cordon

/-- The module system of a sandbox: its `package` table, its table of loaded modules, and its
allow-list. -/
structure ModuleSystem where
  package : Nat
  loaded : Nat
  permit : Nat
  deriving DecidableEq, Inhabited

structure Sandbox where
  globals : Nat
  modules : ModuleSystem
  output : Nat
  maxMemory : Option Nat
  deriving DecidableEq, Inhabited

end Cordon
