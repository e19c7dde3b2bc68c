import Cordon.Lua.Machine

/-!
# Interpreters

A fresh interpreter with its libraries, and host code run on one.
-/

namespace Cordon.Lua

/-- A state of construction: each function takes the store and gives it back with a new part. -/
abbrev Builder := StateM Store

namespace Builder

def native (f : Native) : Builder Value := fun s => s.newNative f

def put (id : Nat) (name : String) (v : Value) : Builder Unit :=
  modify fun s => s.rawSetStr id name v

def library {α : Type} (functions : List (String × α)) (f : α → Native) : Builder Nat := do
  let id ← fun s => s.newTable
  functions.forM fun (name, g) => do put id name (← native (f g))
  return id

/-- Makes a library a global variable and a loaded module. -/
def install (loaded : Nat) (name : String) (id : Nat) : Builder Unit := do
  put (← get).globals name (.table id)
  put loaded name (.table id)

/-- The metamethods by which strings take part in arithmetic. -/
def stringOperators : List ArithOp := [.add, .sub, .mul, .mod, .pow, .div, .idiv]

def packageFields : List (String × Value) :=
  [("config", .str PackageFn.config), ("path", .str PackageFn.path),
   ("cpath", .str PackageFn.nativePath)]

def baseline : Nat := 30000

def interpreter : Builder Unit := do
  let globals ← library BaseFn.all .base
  modify fun s => { s with globals }
  put globals "_G" (.table globals)
  put globals "_VERSION" (.ofString "Lua 5.4")
  let nextFn ← native (.base .next)
  put globals "next" nextFn
  let ipairsStep ← native .ipairsStep
  let loaded ← fun s => s.newTable
  let preload ← fun s => s.newTable
  let package ← library [("loadlib", PackageFn.loadlib), ("searchpath", .searchpath)] .package
  packageFields.forM fun (name, v) => put package name v
  let searchers ← PackageFn.searchers.mapM fun f => native (.package f)
  let list ← fun s => s.newTable (.ofItems searchers)
  put package "searchers" (.table list)
  put package "loaded" (.table loaded)
  put package "preload" (.table preload)
  modify fun s => { s with nextFn, ipairsStep, loaded, preload, package }
  put loaded "_G" (.table globals)
  install loaded "package" package
  install loaded "coroutine" (← library CoroutineFn.all .coroutine)
  install loaded "table" (← library TableFn.all .table)
  let io ← library IoFn.all .io
  IoFn.streams.forM fun name => do put io name (← fun s => s.newUserdata)
  install loaded "io" io
  install loaded "os" (← library OsFn.all .os)
  let string ← library StringFn.all .string
  install loaded "string" string
  let utf8 ← library Utf8Fn.all .utf8
  put utf8 "charpattern" (.str Utf8Fn.charPattern)
  install loaded "utf8" utf8
  let math ← library MathFn.all .math
  MathFn.constants.forM fun (name, v) => put math name v
  install loaded "math" math
  let strings ← fun s => s.newTable
  put strings "__index" (.table string)
  stringOperators.forM fun op => do
    let f ← native (.stringArith op)
    modify fun s => s.rawSetStr strings (Meta.ofArith op) f
  put strings "__unm" (← native .stringNeg)
  let faults ← fun s => s.newTable
  put faults "__tostring" (← native .faultText)
  put faults "__metatable" (.bool false)
  modify fun s => { s with stringMeta := some strings, faultMeta := some faults, used := baseline }

end Builder

namespace Machine

def fresh : Machine := ⟨(Builder.interpreter {}).2, #[.running]⟩

/-- What host code sees that is not called by a program. -/
def outside (fuel : Nat) : Ctx where
  callee := .nil
  sites := fun _ => []
  handler := fun _ => .none
  thread := 0
  yieldable := false
  natives := 0
  call := fun handler fn args m =>
    let b : Surroundings := { handler, depth := { natives := 1 } }
    (Exec.run fuel b (.apply fn args m.store) (Exec.start b 0 m.threads)).map fun f =>
      (f.result, f.machine)

/-- Runs host code; programs that it calls may take `fuel` steps each. -/
def perform {α : Type} (m : Machine) (fuel : Nat) (p : Host α) :
    Option (Except Failure α × Machine) :=
  p.run (outside fuel) m

end Machine

end Cordon.Lua
