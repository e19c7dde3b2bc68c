import Cordon.Failure.Classify
import Cordon.Lua.Access
import Cordon.Lua.Chunk
import Cordon.Text.Lossy

/-!
# Native code

What a native function can do: read and change the store, raise a value, and call back into
programs. Code of the host also works on the store and calls programs, but it fails with failures,
and an error that reaches it from a program is first turned into one.
-/

namespace Cordon.Lua

/-- What a running function may use at once. -/
structure Depth where
  slots : Nat := 0
  natives : Nat := 0

instance : Inhabited Depth := ⟨{}⟩

/-- What a thread has to come back to, innermost first. -/
inductive Frame where
  /-- A call; `depth` is that of the caller. -/
  | call (site : Site) (next : List Value → Store → Action) (depth : Depth)
  | loop (body : List Value → Store → Action) (done : Store → Action)
  | scope (labels : List Label) (entry : Nat → List Nat → Store → Action)
  | guard (handler : Option Value) (depth : Depth)

inductive Thread where
  | fresh (fn : Value)
  | suspended (frames : List Frame) (depth : Depth)
  | running
  /-- Waiting for a thread that it resumed. -/
  | normal
  /-- Ended, by this error if there was one. -/
  | dead (error : Option Value)

instance : Inhabited Thread := ⟨.running⟩

/-- An interpreter between two steps. The first thread is the main one. -/
structure Machine where
  store : Store
  threads : Array Thread

/-- What becomes of an error before it reaches a protected call. -/
inductive Handler where
  | none
  | traceback
  | fn (f : Value)

/-- What native code sees of the interpreter around it. -/
structure Ctx where
  callee : Value
  /-- The calls under way, the one of this function first. -/
  sites : Unit → List Site
  handler : Unit → Handler
  thread : Nat
  yieldable : Bool
  natives : Nat
  /-- Calls a function to its end. No result means that it did not end in time. -/
  call : Handler → Value → List Value → Machine → Option (Except Value (List Value) × Machine)

/-- Work on a machine that may take calls to programs. -/
abbrev Act := ReaderT Ctx (StateT Machine Option)

/-- Native code that may raise a value. -/
abbrev Script := ExceptT Value Act

/-- Host code that may fail. -/
abbrev Host := ExceptT Failure Act

/-- What a native function comes to. -/
inductive Verdict where
  | ret (values : List Value)
  | tail (fn : Value) (args : List Value)
  | protect (handler : Option Value) (fn : Value) (args : List Value)
  /-- Resumes a thread; one that is `wrapped` passes its errors on. -/
  | resume (thread : Nat) (args : List Value) (wrapped : Bool)
  | yield (values : List Value)

/-! ## The store -/

namespace Act

def read {α : Type} (f : Store → α) : Act α := fun _ m =>
  let a := f m.store
  some (a, m)

def update (f : Store → Store) : Act Unit := fun _ m => some ((), { m with store := f m.store })

def updateGet {α : Type} (f : Store → α × Store) : Act α := fun _ m =>
  let (a, store) := f m.store
  some (a, { m with store })

def context : Act Ctx := fun ctx m => some (ctx, m)

def thread (id : Nat) : Act Thread := fun _ m => some (m.threads.getD id default, m)

def setThread (id : Nat) (t : Thread) : Act Unit := fun _ m =>
  some ((), { m with threads := m.threads.setIfInBounds id t })

def newThread (t : Thread) : Act Nat := fun _ m =>
  some (m.threads.size, { m with threads := m.threads.push t })

/-- Calls a function, with what the error became if it raises one. -/
def call (handler : Handler) (f : Value) (args : List Value) : Act (Except Value (List Value)) :=
  fun ctx m => ctx.call handler f args m

def newTable (t : Table := {}) : Act Value := updateGet fun s =>
  let (id, s) := s.newTable t
  (.table id, s)

end Act

/-! ## Raising -/

namespace Script

def read {α : Type} (f : Store → α) : Script α := ExceptT.lift (Act.read f)

def update (f : Store → Store) : Script Unit := ExceptT.lift (Act.update f)

def updateGet {α : Type} (f : Store → α × Store) : Script α := ExceptT.lift (Act.updateGet f)

def raise {α : Type} (v : Value) : Script α := ExceptT.mk (pure (.error v))

def context : Script Ctx := ExceptT.lift Act.context

/-- Calls a function; what it raises is raised here. -/
def call (f : Value) (args : List Value) : Script (List Value) := ExceptT.mk do
  let ctx ← Act.context
  Act.call (ctx.handler ()) f args

/-- Calls a function and returns what it raises. -/
def attempt (f : Value) (args : List Value) : Script (Except Value (List Value)) := ExceptT.lift do
  let ctx ← Act.context
  Act.call (ctx.handler ()) f args

/-- The place of the call at a level, 1 being the call of this function; empty if native code made
it. -/
def position (level : Nat) : Script Bytes := do
  let ctx ← context
  match (ctx.sites ())[level - 1]? with
  | some ⟨some (chunk, line), _⟩ => return chunk ++ ":" ++ (toString line : String) ++ ": "
  | _ => return .empty

/-- Raises a message with the place of the call. -/
def complain {α : Type} (message : Bytes) : Script α := do
  raise (.str ((← position 1) ++ message))

def outOfMemory {α : Type} : Script α := do
  update fun s => { s with allocationFailed := true }
  raise (.str outOfMemoryText)

/-- Ends with a memory error if `more` bytes are too much. -/
def reserve (more : Nat) : Script Unit := do
  if ← read (·.exhausted more) then outOfMemory

/-! ## Arguments -/

/-- The name under which a loaded module holds a function. -/
def globalName (s : Store) (f : Value) : Option Bytes :=
  let modules := (s.table s.loaded).entries.filterMap fun
    | (.str name, .table id) => some (name, id)
    | _ => none
  modules.findSome? fun (name, id) =>
    (s.table id).entries.findSome? fun
      | (.str field, v) =>
        if v == f then
          some (if name == ("_G" : Bytes) then field else name ++ "." ++ field)
        else none
      | _ => none

/-- Complains about argument `n`. The object of a method call does not count as an argument. -/
def badArgument {α : Type} (n : Nat) (message : Bytes) : Script α := do
  let ctx ← context
  let about (n : Nat) (name : Bytes) : Script α :=
    complain (("bad argument #" ++ toString n ++ " to '" : String) ++ name ++ "' (" ++ message ++ ")")
  match ctx.sites () with
  | ⟨_, some (.method, name)⟩ :: _ =>
    if n ≤ 1 then complain (("calling '" : Bytes) ++ name ++ "' on bad self (" ++ message ++ ")")
    else about (n - 1) name
  | ⟨_, some (_, name)⟩ :: _ => about n name
  | _ => about n ((← read fun s => globalName s ctx.callee).getD "?")

/-- The argument at position `n`, nil if there is none. -/
def arg (args : List Value) (n : Nat) : Value := args.getD (n - 1) .nil

/-- The type of an argument as messages name it. -/
def argType (args : List Value) (n : Nat) : Script Bytes := do
  match args[n - 1]? with
  | none => return "no value"
  | some v => read fun s => s.typeNameOf v

def badType {α : Type} (args : List Value) (n : Nat) (expected : String) : Script α := do
  badArgument n ((expected ++ " expected, got " : String) ++ (← argType args n))

def checkAny (args : List Value) (n : Nat) : Script Value := do
  match args[n - 1]? with
  | some v => return v
  | none => badArgument n "value expected"

def checkTable (args : List Value) (n : Nat) : Script Nat := do
  match arg args n with
  | .table id => return id
  | _ => badType args n "table"

def checkFunction (args : List Value) (n : Nat) : Script Value := do
  match arg args n with
  | .fn id => return .fn id
  | _ => badType args n "function"

def checkThread (args : List Value) (n : Nat) : Script Nat := do
  match arg args n with
  | .thread id => return id
  | _ => badType args n "coroutine"

/-- A string, or the text of a number. -/
def checkText (args : List Value) (n : Nat) : Script Bytes := do
  match (arg args n).text? with
  | some b => return b
  | none => badType args n "string"

def optText (args : List Value) (n : Nat) (default : Bytes) : Script Bytes := do
  if (arg args n).isNil then return default else checkText args n

def checkInt (args : List Value) (n : Nat) : Script Int64 := do
  match (arg args n).toInt? with
  | some i => return i
  | none =>
    if (arg args n).numeral?.isSome then badArgument n "number has no integer representation"
    else badType args n "number"

def optInt (args : List Value) (n : Nat) (default : Int64) : Script Int64 := do
  if (arg args n).isNil then return default else checkInt args n

def checkNumber (args : List Value) (n : Nat) : Script Numeral := do
  match (arg args n).numeral? with
  | some x => return x
  | none => badType args n "number"

def checkDouble (args : List Value) (n : Nat) : Script Double := do
  match ← checkNumber args n with
  | .int i => return .ofInt i.toInt
  | .float x => return x

/-- One of a list of words; which one it is. -/
def checkOption (args : List Value) (n : Nat) (default : Option String) (words : List String) :
    Script String := do
  let b ← match default with
    | some d => optText args n d
    | none => checkText args n
  match words.find? fun w => Bytes.ofString w == b with
  | some w => return w
  | none => badArgument n (("invalid option '" : Bytes) ++ b ++ "'")

/-! ## Operations on values -/

/-- Complains about the type of an operand; native code has no place to name. -/
def refuse {α : Type} (activity : String) (v : Value) : Script α := do
  let name ← read fun s => s.typeNameOf v
  raise (.str (("attempt to " ++ activity ++ " a " : String) ++ name ++ " value"))

def index (object key : Value) : Script Value := do
  match ← read fun s => s.access object key with
  | .value v => return v
  | .call fn object => return .first (← call fn [object, key])
  | .missing object _ => refuse "index" object
  | .endless => raise (.str "'__index' chain too long; possibly a loop")

def assign (object key value : Value) : Script Unit := do
  let placed : Script Placing := updateGet fun s =>
    match s.place object key value with
    | .done s => (.done {}, s)
    | p => (p, s)
  match ← placed with
  | .done _ => return ()
  | .call fn object => let _ ← call fn [object, key, value]
  | .missing object _ => refuse "index" object
  | .badKey message => raise (.str message)
  | .endless => raise (.str "'__newindex' chain too long; possibly a loop")

/-- The text of any value. A metamethod may give another one. -/
def text (v : Value) : Script Bytes := do
  match ← read fun s => s.metafield v Meta.tostring with
  | .nil =>
    match v with
    | .nil => return "nil"
    | .bool true => return "true"
    | .bool false => return "false"
    | v =>
      match v.text? with
      | some b => return b
      | none =>
        let name ← read fun s => match s.metafield v Meta.typeName with
          | .str b => b
          | _ => v.typeName
        return name ++ ": " ++ v.addressText
  | h =>
    match (← call h [v]) with
    | .str b :: _ => return b
    | .int i :: _ => return Value.intText i
    | .float x :: _ => return Decimal.text x
    | _ => complain "'__tostring' must return a string"

/-- The length of a value, through its metatable. -/
def length (v : Value) : Script Int64 := do
  let result ← match ← read fun s => s.metafield v Meta.len with
    | .nil =>
      match v with
      | .table id => pure (Value.ofNat (← read fun s => (s.table id).length))
      | .str b => pure (Value.ofNat b.size)
      | v => refuse "get length of" v
    | h => pure (.first (← call h [v]))
  match result.exactInt? with
  | some n => return n
  | none => complain "object length is not an integer"

def less (a b : Value) : Script Bool := do
  match Arith.less? false a b with
  | some r => return r
  | none =>
    match ← read fun s => s.binaryMeta Meta.lt a b with
    | .nil =>
      let ta ← read fun s => s.typeNameOf a
      let tb ← read fun s => s.typeNameOf b
      if ta == tb then raise (.str (("attempt to compare two " : Bytes) ++ ta ++ " values"))
      else raise (.str (("attempt to compare " : Bytes) ++ ta ++ " with " ++ tb))
    | h => return (Value.first (← call h [a, b])).truthy

end Script

/-! ## Errors at the border -/

/-- The end of a text that was made with a traceback. -/
def tracebackText : String := tracebackTitle ++ "\n\t[C]: in ?"

/-- How often an error in a message handler is handed to that handler again. -/
def handlerRounds (natives : Nat) : Nat := 220 - natives

def handlerFailure : String := "error in error handling"

def isMemoryText : Value → Bool
  | .str b => b == Bytes.ofString outOfMemoryText
  | _ => false

/-- What the traceback handler makes of an error: its text and a traceback. Error objects stay, and
so does the message of a failed allocation. -/
def Act.withTraceback : Nat → Value → Act Value
  | 0, _ => return .str handlerFailure
  | n + 1, v => do
    match v with
    | .fault id => return .fault id
    | v =>
      if isMemoryText v then return v
      match ← (Script.text v).run with
      | .ok b => return .str (b.beforeNul ++ "\n" ++ tracebackText)
      | .error e => if ← Act.read (·.allocationFailed) then return e else Act.withTraceback n e

/-- An error is caught: no allocation failure is under way any more. -/
def Act.caught : Act Unit := Act.update fun s => { s with allocationFailed := false }

/-- What a handler makes of an error. A failed allocation meets no handler. -/
def Act.handle (handler : Handler) (v : Value) : Act Value := do
  if ← Act.read (·.allocationFailed) then return v
  let ctx ← Act.context
  match handler with
  | .none => return v
  | .traceback => Act.withTraceback (handlerRounds ctx.natives) v
  | .fn h => rounds h (handlerRounds ctx.natives) v
where
  rounds (h : Value) : Nat → Value → Act Value
    | 0, _ => return .str handlerFailure
    | n + 1, v => do
      match ← Act.call (.fn h) h [v] with
      | .ok vs => return .first vs
      | .error e => if ← Act.read (·.allocationFailed) then return e else rounds h n e

namespace Host

def read {α : Type} (f : Store → α) : Host α := ExceptT.lift (Act.read f)

def update (f : Store → Store) : Host Unit := ExceptT.lift (Act.update f)

def updateGet {α : Type} (f : Store → α × Store) : Host α := ExceptT.lift (Act.updateGet f)

def fail {α : Type} (f : Failure) : Host α := ExceptT.mk (pure (.error f))

/-- What a raised value is to the host: an error object is the error it holds, and any other value a
text with a traceback. -/
def errorOf (v : Value) : Act ScriptError := do
  let v ← Act.handle .traceback v
  Act.caught
  match v with
  | .fault id => Act.read fun s => s.fault id
  | .str b => return if isMemoryText (.str b) then .memory outOfMemoryText
      else .runtime b.beforeNul.lossy
  | _ => return .runtime ""

/-- Runs native code; what it raises becomes a failure. -/
def ofScript {α : Type} (p : Script α) : Host α := ExceptT.mk do
  match ← withReader (fun ctx => { ctx with handler := fun _ => .traceback }) p.run with
  | .ok a => return .ok a
  | .error v => return .error (.script (← errorOf v))

/-- Calls a function; what it raises becomes a failure. A call that ends for want of memory leaves
no more in use than there was before it. -/
def call (f : Value) (args : List Value) : Host (List Value) := ExceptT.mk do
  let before ← Act.read (·.used)
  match ← Act.call .traceback f args with
  | .ok vs => return .ok vs
  | .error v =>
    let e ← errorOf v
    if e.isMemory then Act.update fun s => { s with used := min s.used before }
    return .error (.script e)

/-- The complaint that a value is not of the wanted type. -/
def conversion {α : Type} (v : Value) (target : String) (message : Option String := none) :
    Host α :=
  fail (.script (.conversion v.hostTypeName target message))

def field (object : Value) (name : String) : Host Value :=
  ofScript (Script.index object (.str name))

def setField (object : Value) (name : String) (v : Value) : Host Unit :=
  ofScript (Script.assign object (.str name) v)

def functionField (object : Value) (name : String) : Host Value := do
  match ← field object name with
  | .fn id => return .fn id
  | v => conversion v "function"

def globals : Host Value := read fun s => .table s.globals

def newFunction (f : Native) : Host Value := updateGet fun s => s.newNative f

end Host

/-- Runs host code as a native function: a failure is raised as an error object. -/
def Script.ofHost {α : Type} (p : Host α) : Script α := ExceptT.mk do
  match ← p.run with
  | .ok a => return .ok a
  | .error f =>
    let e ← Act.updateGet fun s => s.newFault (.callback tracebackText f.toScript)
    return .error e

end Cordon.Lua
