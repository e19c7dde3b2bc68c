import Cordon.Lua.Script

/-!
# Input and output library

There are no files and no standard streams: opening fails, and reading finds nothing.
-/

namespace Cordon.Lua.IoFn

def all : List (String × IoFn) :=
  [("close", close), ("flush", flush), ("input", input), ("lines", lines), ("open", .open),
   ("output", output), ("popen", popen), ("read", read), ("tmpfile", tmpfile), ("type", type),
   ("write", write)]

def streams : List String := ["stdin", "stdout", "stderr"]

def run (f : IoFn) (args : List Value) : Script (List Value) := do
  match f with
  | .open =>
    let name ← Script.checkText args 1
    return [.nil, .str (name ++ ": No such file or directory"), .int 2]
  | lines =>
    let name ← Script.optText args 1 "stdin"
    Script.complain (name ++ ": No such file or directory")
  | type =>
    let _ ← Script.checkAny args 1
    return [.nil]
  | _ => return [.nil]

end Cordon.Lua.IoFn
