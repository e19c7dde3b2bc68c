import Cordon.Lua.Store

/-!
# Protected calls

The sandbox's own `pcall` and `xpcall`. They call the host's functions and then look at what was
caught: a fatal error is raised again as it is, and no message handler gets to see it. They are
programs, not native functions, so that what they protect may yield.

Each program sees the variables of `Protect.Held` behind its own ones.
-/

namespace Cordon.Lua.Protect

/-- The values that the programs hold. -/
structure Held where
  isFatal : Value
  type : Value
  select : Value
  error : Value
  xpcall : Value
  pcall : Value

/-- The values in the order of their variables, which follow that of `finish`. -/
def Held.values (h : Held) : List Value :=
  [h.isFatal, h.type, h.select, h.error, h.xpcall, h.pcall]

/-- A variable of the program itself. -/
def own (index : Nat) (name : Bytes) : Expr := .var ⟨index, name, false⟩

/-- A variable that the program holds; `n` counts the variables before those. -/
def finishVar (n : Nat) : Expr := .var ⟨n, "finish", true⟩

def isFatalVar (n : Nat) : Expr := .var ⟨n + 1, "is_fatal", true⟩

def typeVar (n : Nat) : Expr := .var ⟨n + 2, "type", true⟩

def selectVar (n : Nat) : Expr := .var ⟨n + 3, "select", true⟩

def errorVar (n : Nat) : Expr := .var ⟨n + 4, "error", true⟩

def xpcallVar (n : Nat) : Expr := .var ⟨n + 5, "xpcall", true⟩

def pcallVar (n : Nat) : Expr := .var ⟨n + 6, "pcall", true⟩

def chunk : Bytes := "trusted.protect"

/-- `function (ok, ...)`: raises a fatal error again, and returns its arguments otherwise. -/
def finish : Func :=
  let caught : Expr := .paren .vararg
  .mk 1 true (.mk [
    .cond (.and (.unary .not (own 0 "ok") 5) (.call (isFatalVar 1) [caught] 5))
      (.mk [.call (.call (errorVar 1) [caught, .int 0] 6)] [])
      (.mk [] []),
    .ret [own 0 "ok", .vararg]] []) 4 5

/-- `function (f, ...)`: calls `f` with the other arguments. -/
def pcall : Func :=
  .mk 1 true (.mk [
    .ret [.call (finishVar 1) [.call (pcallVar 1) [own 0 "f", .vararg] 12] 12]] []) 11 5

/-- `function (err)` in `xpcall`: passes fatal errors by the message handler. -/
def handler : Func :=
  .mk 1 false (.mk [
    .cond (.call (isFatalVar 3) [own 0 "err"] 22)
      (.mk [.ret [own 0 "err"]] [])
      (.mk [] []),
    .ret [.call (.var ⟨1, "msgh", true⟩) [own 0 "err"] 25]] []) 21 5

/-- `function (...)`: calls the first argument with those from the third on. The second one is the
message handler and has to be a function. -/
def xpcall : Func :=
  .mk 0 true (.mk [
    .locals ["f", "msgh"] [.vararg],
    .cond (.compare .ne (.call (typeVar 2) [own 0 "msgh"] 17) (.str "function") 17)
      (.mk [
        .locals ["got"]
          [.or
            (.and
              (.compare .lt (.call (selectVar 2) [.str "#", .vararg] 18) (.int 2) 18)
              (.str "no value"))
            (.call (typeVar 2) [own 0 "msgh"] 18)],
        .call (.call (errorVar 3)
          [.concat (.str "bad argument #2 to 'xpcall' (function expected, got ")
            (.concat (own 0 "got") (.str ")") 19) 19, .int 2] 19)] [])
      (.mk [] []),
    .ret [.call (finishVar 2)
      [.call (xpcallVar 2)
        [own 1 "f", .func handler, .call (selectVar 2) [.int 3, .vararg] 26] 21] 21]] []) 15 7

def functions (s : Store) (h : Held) : Value × Value × Store :=
  let (held, s) := s.newCells [] h.values.reverse
  let (cell, s) := s.newCell .nil
  let (id, s) := s.newFunction (.closure chunk finish (cell :: held))
  let s := s.setCell cell (.fn id)
  let (pcallId, s) := s.newFunction (.closure chunk pcall (cell :: held))
  let (xpcallId, s) := s.newFunction (.closure chunk xpcall (cell :: held))
  (.fn pcallId, .fn xpcallId, s)

end Cordon.Lua.Protect
