import Cordon.AllowList
import Cordon.Event
import Cordon.Lua.Native
import Cordon.Lua.Table
import Cordon.Memory
import Cordon.Output

/-!
# The store

Everything that running programs share: tables, variables, functions, error objects, and what the
host keeps for its sandboxes. Objects are numbered in the order in which they were made, and none is
ever taken away.
-/

namespace Cordon.Lua

structure Store where
  tables : Array Table := #[]
  /-- The variables of running functions. -/
  cells : Array Value := #[]
  functions : Array Callable := #[]
  faults : Array ScriptError := #[]
  userdata : Nat := 0
  globals : Nat := 0
  loaded : Nat := 0
  /-- The host's functions for modules not loaded yet. -/
  preload : Nat := 0
  package : Nat := 0
  /-- The functions by which tables are traversed. -/
  nextFn : Value := .nil
  ipairsStep : Value := .nil
  stringMeta : Option Nat := none
  faultMeta : Option Nat := none
  permits : Array (AllowList Value) := #[]
  outputs : Array Output := #[]
  events : Array Event := #[]
  /-- The sandbox table registered with the interpreter. -/
  registered : Option Nat := none
  /-- An estimate of the bytes in use. -/
  used : Nat := 0
  memoryLimit : Option Nat := none
  generational : Bool := false
  /-- Whether the error under way is a failed allocation. -/
  allocationFailed : Bool := false
  seed : UInt64 := 0
  /-- The host's clock, in seconds since the start of 1970. -/
  now : Int := 1700000000

namespace Store

instance : Inhabited Store := ⟨{}⟩

/-! ## Tables -/

def table (s : Store) (id : Nat) : Table := s.tables.getD id {}

def rawGet (s : Store) (id : Nat) (k : Key) : Value := (s.table id).get k

/-- The raw value under any value; nil under one that is no key. -/
def rawIndex (s : Store) (id : Nat) (k : Value) : Value :=
  match k.key? with
  | some k => s.rawGet id k
  | none => .nil

/-- The estimated size of what a value adds to a table. -/
def weight : Value → Nat
  | .nil => 0
  | .str b => 24 + b.size
  | _ => 16

/-- Sets an entry; what it adds counts as memory in use. -/
def rawSet (s : Store) (id : Nat) (k : Key) (v : Value) : Store :=
  let old := weight (s.rawGet id k)
  { s with
    tables := s.tables.modify id fun t => t.set k v
    used := s.used + 2 * weight v - 2 * old }

def rawSetStr (s : Store) (id : Nat) (k : Bytes) (v : Value) : Store := s.rawSet id (.str k) v

def newTable (s : Store) (t : Table := {}) : Nat × Store :=
  (s.tables.size, { s with tables := s.tables.push t, used := s.used + 16 * t.items.size })

/-- Makes `vs` the values of the keys from 1 on, in a table that has none of these keys in its
array. -/
def setItems (s : Store) (id : Nat) (vs : List Value) : Store :=
  if vs.isEmpty then s
  else { s with
    tables := s.tables.modify id fun t => t.setItems vs
    used := s.used + 16 * vs.length }

def setMetatable (s : Store) (id : Nat) (metatable : Option Nat) : Store :=
  { s with tables := s.tables.modify id fun t => { t with metatable } }

/-! ## Variables, functions, error objects -/

def cell (s : Store) (id : Nat) : Value := s.cells.getD id .nil

def setCell (s : Store) (id : Nat) (v : Value) : Store :=
  { s with cells := s.cells.setIfInBounds id v }

def newCell (s : Store) (v : Value) : Nat × Store :=
  (s.cells.size, { s with cells := s.cells.push v })

/-- New variables with these values, put before `cells` in reverse order. -/
def newCells (s : Store) (cells : List Nat) : List Value → List Nat × Store
  | [] => (cells, s)
  | v :: vs =>
    let (id, s) := s.newCell v
    s.newCells (id :: cells) vs

def newFunction (s : Store) (f : Callable) : Nat × Store :=
  (s.functions.size, { s with functions := s.functions.push f, used := s.used + 8 })

def newNative (s : Store) (f : Native) : Value × Store :=
  let (id, s) := s.newFunction (.native f)
  (.fn id, s)

def function? (s : Store) (id : Nat) : Option Callable := s.functions[id]?

def newFault (s : Store) (e : ScriptError) : Value × Store :=
  (.fault s.faults.size, { s with faults := s.faults.push e })

def newUserdata (s : Store) : Value × Store :=
  (.userdata s.userdata, { s with userdata := s.userdata + 1 })

def fault (s : Store) (id : Nat) : ScriptError := s.faults.getD id default

/-! ## Metatables -/

def metatable? (s : Store) : Value → Option Nat
  | .table id => (s.table id).metatable
  | .str _ => s.stringMeta
  | .fault _ => s.faultMeta
  | _ => none

def metafield (s : Store) (v : Value) (name : Bytes) : Value :=
  match s.metatable? v with
  | some id => (s.table id).getStr name
  | none => .nil

/-! ## What the host keeps -/

def report (s : Store) (e : Event) : Store := { s with events := s.events.push e }

def permit (s : Store) (id : Nat) : AllowList Value := s.permits.getD id {}

def newPermit (s : Store) : Nat × Store :=
  (s.permits.size, { s with permits := s.permits.push {} })

def setPermit (s : Store) (id : Nat) (l : AllowList Value) : Store :=
  { s with permits := s.permits.setIfInBounds id l }

def output (s : Store) (id : Nat) : Output := s.outputs.getD id {}

def newOutput (s : Store) : Nat × Store :=
  (s.outputs.size, { s with outputs := s.outputs.push {} })

def printLine (s : Store) (id : Nat) (line : String) : Store :=
  { s with outputs := s.outputs.modify id (·.push line) }

/-! ## Memory -/

def exhausted (s : Store) (more : Nat) : Bool :=
  match s.memoryLimit with
  | some limit => limit < s.used + more
  | none => false

end Store


/-! ## Names of metamethods -/

namespace Meta

def index : Bytes := "__index"

def newindex : Bytes := "__newindex"

def call : Bytes := "__call"

def eq : Bytes := "__eq"

def lt : Bytes := "__lt"

def le : Bytes := "__le"

def len : Bytes := "__len"

def concat : Bytes := "__concat"

def unm : Bytes := "__unm"

def bnot : Bytes := "__bnot"

def tostring : Bytes := "__tostring"

def typeName : Bytes := "__name"

def pairs : Bytes := "__pairs"

def metatable : Bytes := "__metatable"

def ofArith : ArithOp → Bytes
  | .add => "__add"
  | .sub => "__sub"
  | .mul => "__mul"
  | .div => "__div"
  | .mod => "__mod"
  | .pow => "__pow"
  | .idiv => "__idiv"
  | .band => "__band"
  | .bor => "__bor"
  | .bxor => "__bxor"
  | .shl => "__shl"
  | .shr => "__shr"

end Meta

end Cordon.Lua
