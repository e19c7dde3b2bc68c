import Cordon.Lua.Interpreter
import Cordon.Sandbox.Execute

/-!
# Runs on a fresh interpreter
-/

namespace Cordon

open Lua

/-- The standard configuration, less what a fresh interpreter cannot resolve. -/
def Config.plain : Config := { Config.standard with hostServices := [], allowed := [] }

end Cordon
