import Cordon.Config.Binding
import Cordon.Failure.Basic

/-!
# Configuration

What goes into a sandbox: base functions, libraries, host services, modules that may be required,
clock functions, and limits.
-/

namespace Cordon

structure Config where
  /-- Base functions copied from the host's globals. -/
  builtins : List String
  libraries : List Binding
  hostServices : List Binding
  /-- Modules that may be required later. -/
  allowed : List Binding
  /-- Functions of the restricted clock library. -/
  osFunctions : List String
  hostVersion : String
  maxMemory : Option Nat
  /-- Whether printed lines are also reported as events. -/
  echoPrint : Bool

namespace Config

def defaultBuiltins : List String :=
  ["assert", "collectgarbage", "error", "getmetatable", "ipairs", "next", "pairs", "rawequal",
   "rawlen", "rawget", "rawset", "select", "setmetatable", "tonumber", "tostring", "type"]

def defaultLibraries : List String := ["coroutine", "string", "utf8", "table", "math"]

/-- The clock functions that change nothing. -/
def readOnlyOsFunctions : List String := ["date", "clock", "time", "difftime"]

def standard : Config where
  builtins := defaultBuiltins
  libraries := defaultLibraries.map fun m => ⟨m, none⟩
  hostServices :=
    [⟨"host.spi", some "spi"⟩, ⟨"host.pgtype", some "pgtype"⟩, ⟨"host.server", some "server"⟩]
  allowed := [⟨"host.numeric", none⟩]
  osFunctions := readOnlyOsFunctions
  hostVersion := "lua-trusted-sandbox 0.1.0"
  maxMemory := none
  echoPrint := true

instance : Inhabited Config := ⟨standard⟩

inductive Fault where
  | unnamedBinding (binding : Binding)
  | unnamedBuiltin
  | notReadOnly (osFunction : String)
  | zeroMemory
  deriving DecidableEq

def Fault.message : Fault → String
  | unnamedBinding b => "empty module name in binding " ++ b.describe
  | unnamedBuiltin => "empty builtin name \"\""
  | notReadOnly f => "os." ++ f ++ " is not a read-only clock function"
  | zeroMemory => "max_memory must be non-zero"

def Fault.toFailure (f : Fault) : Failure := .config f.message

/-- All bindings, in the order in which they are checked. -/
def bindings (c : Config) : List Binding := c.libraries ++ c.hostServices ++ c.allowed

/-- The first thing wrong with a configuration. -/
def fault? (c : Config) : Option Fault :=
  match c.bindings.find? (!·.named) with
  | some b => some (.unnamedBinding b)
  | none =>
    if c.builtins.any (·.isEmpty) then some .unnamedBuiltin
    else match c.osFunctions.find? (!readOnlyOsFunctions.contains ·) with
      | some f => some (.notReadOnly f)
      | none => if c.maxMemory = some 0 then some .zeroMemory else none

def validate (c : Config) : Except Failure Unit :=
  match c.fault? with
  | some f => .error f.toFailure
  | none => .ok ()

/-- Settings to put over the standard ones. -/
structure Settings where
  builtins : Option (List String) := none
  libraries : Option (List Binding) := none
  hostServices : Option (List Binding) := none
  allowed : Option (List Binding) := none
  osFunctions : Option (List String) := none
  hostVersion : Option String := none
  maxMemory : Option Nat := none
  echoPrint : Option Bool := none

/-- The standard configuration with the settings put over it, unchecked. -/
def Settings.apply (s : Settings) : Config where
  builtins := s.builtins.getD standard.builtins
  libraries := s.libraries.getD standard.libraries
  hostServices := s.hostServices.getD standard.hostServices
  allowed := s.allowed.getD standard.allowed
  osFunctions := s.osFunctions.getD standard.osFunctions
  hostVersion := s.hostVersion.getD standard.hostVersion
  maxMemory := s.maxMemory
  echoPrint := s.echoPrint.getD standard.echoPrint

def build (s : Settings) : Except Failure Config := do
  s.apply.validate
  return s.apply

end Config

end Cordon
