import Cordon.Lua.Store

/-!
# Loaded modules

A sandbox records the modules it has loaded in a table that programs in it see, too. The sandbox's
own accesses are raw: no metatable takes part.
-/

namespace Cordon.Lua.Store

/-- The recorded value under a name; nil and false count as none. -/
def cached? (s : Store) (loaded : Nat) (name : Value) : Option Value :=
  let v := s.rawIndex loaded name
  if v.truthy then some v else none

def record (s : Store) (loaded : Nat) (name value : Value) : Store :=
  match name.key? with
  | some k => s.rawSet loaded k value
  | none => s

def forget (s : Store) (loaded : Nat) (name : Value) : Store := s.record loaded name .nil

end Cordon.Lua.Store
