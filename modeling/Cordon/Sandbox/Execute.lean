import Cordon.Lua.Compile
import Cordon.Sandbox.Open

/-!
# Running source texts

Untrusted source text is compiled as text only and runs with the sandbox as its environment.
-/

namespace Cordon

open Lua

structure Run where
  values : List Value
  output : String

namespace Run

def first (r : Run) : Value := .first r.values

end Run

/-- Whether a syntax error says that the source ended too early. -/
def isIncomplete (message : Bytes) : Bool :=
  let mark : Bytes := "<eof>"
  message.size ≥ mark.size && message.slice (message.size - mark.size) message.size == mark

/-- Compiles a source for an environment; `chunk` is its full name, which has no zero byte. -/
def compileSource (source chunk : String) (environment : Value) : Host Value := do
  match (Bytes.ofString chunk).find? (.ofList [0]) 0 with
  | some i =>
    Host.fail (.script (.runtime
      ("invalid name: nul byte found in provided data at position: " ++ toString i)))
  | none => pure ()
  match ← Host.read fun s => compile s source chunk .text with
  | .error message =>
    Host.fail (.script (.syntaxError message.beforeNul.lossy (isIncomplete message)))
  | .ok (shown, f) => Host.updateGet fun s => s.instantiate shown f environment

namespace Sandbox

def defaultChunk : String := "=sandbox"

/-- Compiles a source; its environment is the sandbox unless another one is given. -/
def load (b : Sandbox) (source chunk : String) (environment : Option Nat) : Host Value :=
  compileSource source chunk (.table (environment.getD b.globals))

/-- Runs a source under a name. A run that fails after it has started says what it had printed. -/
def executeNamed (b : Sandbox) (source chunk : String) : Host Run := do
  let mark ← Host.read fun s => (s.output b.output).size
  let f ← b.load source chunk none
  let result ← ExceptT.lift (Host.call f []).run
  let output ← Host.read fun s => (s.output b.output).since mark
  match result with
  | .ok values => return ⟨values, output⟩
  | .error e => Host.fail (.execution e.normalizeMemory output)

def execute (b : Sandbox) (source : String) : Host Run := b.executeNamed source defaultChunk

def memoryUsage (b : Sandbox) : Host MemoryUsage := Cordon.memoryUsage b.maxMemory

end Sandbox

end Cordon
