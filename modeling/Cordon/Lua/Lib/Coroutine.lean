import Cordon.Lua.Script

/-!
# Coroutine library

Resuming and yielding are left to the machine; the rest looks at the state of threads.
-/

namespace Cordon.Lua.CoroutineFn

def all : List (String × CoroutineFn) :=
  [("close", close), ("create", create), ("isyieldable", isyieldable), ("resume", resume),
   ("running", running), ("status", status), ("wrap", wrap), ("yield", .yield)]

open Script

def threadState (id : Nat) : Script Thread := ExceptT.lift (Act.thread id)

def setThreadState (id : Nat) (t : Thread) : Script Unit := ExceptT.lift (Act.setThread id t)

def statusText : Thread → String
  | .fresh _ => "suspended"
  | .suspended .. => "suspended"
  | .running => "running"
  | .normal => "normal"
  | .dead _ => "dead"

def newThread (args : List Value) : Script Nat := do
  let f ← checkFunction args 1
  ExceptT.lift (Act.newThread (.fresh f))

def runClose (args : List Value) : Script (List Value) := do
  let id ← checkThread args 1
  match ← threadState id with
  | .fresh _ | .suspended .. =>
    setThreadState id (.dead none)
    return [.bool true]
  | .dead none => return [.bool true]
  | .dead (some error) =>
    setThreadState id (.dead none)
    return [.bool false, error]
  | t => complain ("cannot close a " ++ statusText t ++ " coroutine" : String)

def run (f : CoroutineFn) (args : List Value) : Script Verdict := do
  match f with
  | close => return .ret (← runClose args)
  | create => return .ret [.thread (← newThread args)]
  | isyieldable =>
    let ctx ← context
    match arg args 1 with
    | .thread id => return .ret [.bool (if id = ctx.thread then ctx.yieldable else id ≠ 0)]
    | _ => return .ret [.bool ctx.yieldable]
  | resume => return .resume (← checkThread args 1) (args.drop 1) false
  | running =>
    let ctx ← context
    return .ret [.thread ctx.thread, .bool (ctx.thread = 0)]
  | status => return .ret [Value.ofString (statusText (← threadState (← checkThread args 1)))]
  | wrap =>
    let id ← newThread args
    return .ret [← updateGet fun s => s.newNative (.wrapped id)]
  | .yield => return .yield args

end Cordon.Lua.CoroutineFn
