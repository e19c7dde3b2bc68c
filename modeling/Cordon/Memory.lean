import Cordon.Failure.Classify

/-!
# Memory use and its limit
-/

namespace Cordon

/-- Bytes in use, and the limit on them if there is one. -/
structure MemoryUsage where
  used : Nat
  limit : Option Nat

def MemoryUsage.remaining (u : MemoryUsage) : Option Nat := u.limit.map (· - u.used)

def MemoryUsage.describe (u : MemoryUsage) : String :=
  "MemoryUsage \x7b used: " ++ toString u.used ++ ", limit: " ++
    (match u.limit with
      | none => "None"
      | some n => "Some(" ++ toString n ++ ")") ++ " \x7d"

/-- A limit that is already passed is refused. -/
def MemoryUsage.limitRefusal? (used limit : Nat) : Option Failure :=
  if limit ≤ used then
    some (.memoryLimit ("interpreter already uses " ++ toString used ++ " bytes, limit is " ++
      toString limit))
  else none

end Cordon
