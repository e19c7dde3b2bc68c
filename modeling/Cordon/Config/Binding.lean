import Cordon.Text.Quoted

/-!
# Module bindings
-/

namespace Cordon

/-- A host module and the name it gets in the sandbox, its own if no other is given. -/
structure Binding where
  module : String
  exposed : Option String := none
  deriving DecidableEq, Inhabited

namespace Binding

def exposedName (b : Binding) : String := b.exposed.getD b.module

def describe (b : Binding) : String :=
  "ModuleBinding \x7b module: " ++ Quoted.quote b.module ++ ", exposed: " ++
    Quoted.quoteOption b.exposed ++ " \x7d"

def named (b : Binding) : Bool := !b.module.isEmpty && !b.exposedName.isEmpty

end Binding

end Cordon
