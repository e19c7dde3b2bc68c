import Cordon.Lua.Store

/-!
# Requiring

The sandbox's own `require`. A preloaded function is called by a program, so that its errors reach
the caller untouched and it may yield.
-/

namespace Cordon.Lua.Require

def chunk : Bytes := "trusted.require"

/-- `function (...)`: the module that the first half resolves, or what the second half makes of the
value of the function found. -/
def program : Func :=
  let own (index : Nat) (name : Bytes) : Expr := .var ⟨index, name, false⟩
  let name := own 3 "name"
  .mk 0 true (.mk [
    .locals ["name", "ready", "value", "extra"]
      [.call (.var ⟨1, "resolve", true⟩) [.vararg] 4],
    .cond (own 2 "ready") (.mk [.ret [own 1 "value"]] []) (.mk [] []),
    .ret [.call (.var ⟨4, "finish", true⟩)
      [name, .paren (.call (own 1 "value") [name, own 0 "extra"] 8)] 8]] []) 3 8

/-- The function of a sandbox, made of its two native halves. -/
def function (s : Store) (m : ModuleSystem) : Value × Store :=
  let (resolve, s) := s.newNative (.gate (.resolve m))
  let (finish, s) := s.newNative (.gate (.finish m))
  let (cells, s) := s.newCells [] [resolve, finish]
  let (id, s) := s.newFunction (.closure chunk program cells)
  (.fn id, s)

end Cordon.Lua.Require
