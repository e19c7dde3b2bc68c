import Cordon.Lua.Store

/-!
# Actions

What a piece of program does next: return, call, raise, or move within its loops and blocks. An
action holds the store as it is at that moment and the continuation to follow, so that a program is
a tree of actions which a machine walks.
-/

namespace Cordon.Lua

/-- How a program refers to a value. -/
inductive Naming where
  | global | localVar | method | field | captured | constant | metamethod | iterator
  deriving DecidableEq

def Naming.text : Naming → String
  | global => "global"
  | localVar => "local"
  | method => "method"
  | field => "field"
  | captured => "upvalue"
  | constant => "constant"
  | metamethod => "metamethod"
  | iterator => "for iterator"

/-- A name for a value, as far as the program shows one. -/
abbrev Name? := Option (Naming × Bytes)

/-- The name as messages add it. -/
def nameNote : Name? → Bytes
  | some (n, x) => (" (" ++ n.text ++ " '" : String) ++ x ++ "')"
  | none => .empty

/-- Where a call was made: chunk and line, unless by a native function, and the callee's name. -/
structure Site where
  place : Option (Bytes × Nat) := none
  callee : Name? := none

instance : Inhabited Site := ⟨{}⟩

/-- What a function's code runs in: its chunk, its variables, and its extra arguments. -/
structure Env where
  chunk : Bytes
  cells : List Nat
  varargs : List Value

inductive Action where
  | ret (values : List Value) (store : Store)
  | call (fn : Value) (args : List Value) (site : Site) (next : List Value → Store → Action)
      (store : Store)
  /-- The function gives way to another one. -/
  | tail (fn : Value) (args : List Value) (site : Site) (store : Store)
  | raise (value : Value) (store : Store)
  /-- Enters a loop with a first state; `done` follows when it is left. -/
  | loop (state : List Value) (body : List Value → Store → Action) (done : Store → Action)
      (store : Store)
  /-- Goes round the innermost loop again with a new state. -/
  | again (state : List Value) (store : Store)
  | leave (store : Store)
  /-- Enters a block with labels, which can be entered at any statement with given variables. -/
  | scope (labels : List Label) (entry : Nat → List Nat → Store → Action) (cells : List Nat)
      (store : Store)
  /-- Leaves the block with labels at its end. -/
  | endScope (next : Store → Action) (store : Store)
  /-- Goes to the innermost label of this name, from where these variables are visible. -/
  | jump (label : Bytes) (cells : List Nat) (store : Store)

instance : Inhabited Action := ⟨.ret [] {}⟩

end Cordon.Lua
