import Cordon.Failure.Basic
import Cordon.Text.Trim

/-!
# The text of a failure

A host function's error prints its root cause and then a traceback. Where several host functions
nest, the traceback is the innermost one, and a mark in it shows where the outermost one begins.
-/

namespace Cordon

/-- What the printed form of an engine error is made of. -/
structure ScriptError.Printed where
  text : String
  /-- The text of the first cause that is no callback. -/
  root : String
  /-- The innermost traceback. -/
  deepest : Option String

def tracebackTitle : String := "stack traceback:"

/-- The traceback `deepest`, a mark where `outer` begins in it. -/
def markTraceback (outer deepest : String) : String :=
  let start := Trim.dropEndBlanks (Trim.dropBlanks
    (Trim.dropHeads tracebackTitle.toList outer.length outer.toList))
  match Trim.splitAt? start deepest.toList with
  | some (before, after) => String.ofList (before ++ '>' :: Trim.dropEndBlanks after)
  | none => String.ofList (Trim.dropEndBlanks deepest.toList)

/-- Prints a callback layer with traceback `outer` over a printed cause. -/
def ScriptError.Printed.callback (outer : String) (cause : ScriptError.Printed) :
    ScriptError.Printed :=
  let trace := match cause.deepest with
    | none => String.ofList (Trim.dropEndBlanks outer.toList)
    | some deepest => markTraceback outer deepest
  { text := cause.root ++ "\n" ++ trace ++ "\n"
    root := cause.root
    deepest := some (cause.deepest.getD outer) }

def ScriptError.Printed.plain (text : String) : ScriptError.Printed := ⟨text, text, none⟩

def badArgumentHead (function : Option String) (position : Nat) (name : Option String) : String :=
  "bad argument " ++
    (match name with
      | some n => "\x60" ++ n ++ "\x60"
      | none => "#" ++ toString position) ++
    (match function with
      | some f => " to \x60" ++ f ++ "\x60"
      | none => "")

def conversionText (source target : String) (message : Option String) : String :=
  "error converting Lua " ++ source ++ " to " ++ target ++
    (match message with
      | some m => " (" ++ m ++ ")"
      | none => "")

mutual

def Failure.message : Failure → String
  | .argument function position message =>
    "bad argument #" ++ toString position ++ " to '" ++ function ++ "' (" ++ message ++ ")"
  | .moduleNotFound name diagnostics => "module '" ++ name ++ "' not found:" ++ diagnostics
  | .searcherContract message => "searcher contract violated: " ++ message
  | .script e => e.printed.text
  | .memoryLimit message => "memory limit exceeded: " ++ message
  | .setup message => "failed to initialize runtime: " ++ message
  | .config message => "configuration error: " ++ message
  | .execution source _ => source.message

def ScriptError.printed : ScriptError → ScriptError.Printed
  | .syntaxError message _ => .plain ("syntax error: " ++ message)
  | .runtime message => .plain ("runtime error: " ++ message)
  | .memory message => .plain ("memory error: " ++ message)
  | .safety message => .plain ("safety error: " ++ message)
  | .stack => .plain ("out of Lua stack, too many arguments to a Lua function or too many " ++
      "return values from a callback")
  | .unresumable => .plain "coroutine is non-resumable"
  | .badArgument function position name cause =>
    .plain (badArgumentHead function position name ++ ": " ++ cause.printed.text)
  | .conversion source target message => .plain (conversionText source target message)
  | .callback traceback cause => cause.printed.callback traceback
  | .context note cause => .plain (note ++ "\n" ++ cause.printed.text)
  | .host failure => .plain failure.message
  | .foreign message => .plain message

end

def ScriptError.message (e : ScriptError) : String := e.printed.text

end Cordon
