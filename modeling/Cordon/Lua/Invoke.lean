import Cordon.Failure.Message
import Cordon.Lua.Lib.Base
import Cordon.Lua.Lib.Coroutine
import Cordon.Lua.Lib.Io
import Cordon.Lua.Lib.Math
import Cordon.Lua.Lib.Os
import Cordon.Lua.Lib.Package
import Cordon.Lua.Lib.String
import Cordon.Lua.Lib.Table
import Cordon.Lua.Lib.Utf8
import Cordon.Sandbox.Gate

/-!
# Calling native functions
-/

namespace Cordon.Lua

open Script

def StubFn.run (f : StubFn) (args : List Value) : Script Verdict := do
  match f with
  | constant values => return .ret values
  | arguments => return .ret args
  | count => return .ret [.ofNat args.length]
  | counter cell =>
    let n := ((← read fun s => s.cell cell).toInt?.getD 0) + 1
    update fun s => s.setCell cell (.int n)
    return .ret [.int n]
  | failing error => Script.ofHost (Host.fail (.script error))
  | raising value => raise value
  | applying fn args => return .tail fn args

def runFaultText (args : List Value) : Script (List Value) := do
  match arg args 1 with
  | .fault id => return [.ofString (← read fun s => s.fault id).message]
  | _ => badType args 1 "error"

/-- What a native function does with its arguments. -/
def Native.run (f : Native) (args : List Value) : Script Verdict := do
  match f with
  | base f => f.run args
  | coroutine f => f.run args
  | string f => return .ret (← f.run args)
  | utf8 f => return .ret (← f.run args)
  | table f => return .ret (← f.run args)
  | math f => return .ret (← f.run args)
  | os f => return .ret (← f.run args)
  | io f => return .ret (← f.run args)
  | package f => return .ret (← f.run args)
  | stringArith op => return .ret (← StringFn.runArith op args)
  | stringNeg => return .ret (← StringFn.runNeg args)
  | ipairsStep => return .ret (← BaseFn.runIpairsStep args)
  | gmatchStep subject pattern cell => return .ret (← StringFn.runGmatchStep subject pattern cell)
  | codesStep lax => return .ret (← Utf8Fn.runCodesStep lax args)
  | wrapped thread => return .resume thread args true
  | faultText => return .ret (← runFaultText args)
  | stub f => f.run args
  | gate f => return .ret (← Script.ofHost (f.run args))

end Cordon.Lua
