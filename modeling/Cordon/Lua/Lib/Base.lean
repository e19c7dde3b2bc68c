import Cordon.Lua.Compile

/-!
# Base library
-/

namespace Cordon.Lua.BaseFn

def all : List (String × BaseFn) :=
  [("assert", assert), ("collectgarbage", collectgarbage), ("dofile", dofile), ("error", error),
   ("getmetatable", getmetatable), ("ipairs", ipairs), ("load", load), ("loadfile", loadfile),
   ("next", next), ("pairs", pairs), ("pcall", pcall), ("print", print), ("rawequal", rawequal),
   ("rawget", rawget), ("rawlen", rawlen), ("rawset", rawset), ("require", require),
   ("select", select), ("setmetatable", setmetatable), ("tonumber", tonumber),
   ("tostring", tostring), ("type", type), ("warn", warn), ("xpcall", xpcall)]

open Script

/-- Raises the first argument; text gets the place of the call at `level`. -/
def raiseAt {α : Type} (v : Value) (level : Int64) : Script α := do
  match v with
  | .str b =>
    if level > 0 then raise (.str ((← position level.toNatClampNeg) ++ b)) else raise v
  | v => raise v

def runAssert (args : List Value) : Script (List Value) := do
  if (arg args 1).truthy then return args
  let _ ← checkAny args 1
  match args[1]? with
  | some v => raiseAt v 1
  | none => raiseAt (.str "assertion failed!") 1

/-- There is nothing to collect; the options answer as if the collector ran. -/
def runCollect (args : List Value) : Script (List Value) := do
  let option ← checkOption args 1 (some "collect")
    ["stop", "restart", "collect", "count", "step", "setpause", "setstepmul", "isrunning",
     "generational", "incremental"]
  let modeName (g : Bool) : Value := .str (if g then "generational" else "incremental")
  match option with
  | "count" =>
    let used ← read (·.used)
    return [.float (.ofRatio false (used + 1) 1024)]
  | "step" => return [.bool true]
  | "isrunning" => return [.bool true]
  | "setpause" => return [.int 200]
  | "setstepmul" => return [.int 100]
  | "generational" =>
    return [modeName (← updateGet fun s => (s.generational, { s with generational := true }))]
  | "incremental" =>
    return [modeName (← updateGet fun s => (s.generational, { s with generational := false }))]
  | _ => return [.int 0]

def runGetmetatable (args : List Value) : Script (List Value) := do
  let v ← checkAny args 1
  match ← read fun s => s.metatable? v with
  | none => return [.nil]
  | some id =>
    match ← read fun s => (s.table id).getStr Meta.metatable with
    | .nil => return [.table id]
    | m => return [m]

def runSetmetatable (args : List Value) : Script (List Value) := do
  let id ← checkTable args 1
  let m : Option Nat ← match args.drop 1 with
    | .nil :: _ => pure none
    | .table m :: _ => pure (some m)
    | _ => badType args 2 "nil or table"
  unless (← read fun s => s.metafield (.table id) Meta.metatable).isNil do
    complain "cannot change a protected metatable"
  update fun s => s.setMetatable id m
  return [.table id]

def runNext (args : List Value) : Script (List Value) := do
  let id ← checkTable args 1
  match ← read fun s => (s.table id).next? (arg args 2) with
  | some (some (k, v)) => return [k, v]
  | some none => return [.nil]
  | none => raise (.str "invalid key to 'next'")

def runPairs (args : List Value) : Script (List Value) := do
  let v ← checkAny args 1
  match ← read fun s => s.metafield v Meta.pairs with
  | .nil => return [← read (·.nextFn), v, .nil]
  | h =>
    let rs ← call h [v]
    return [.first rs, .first (rs.drop 1), .first (rs.drop 2)]

def runIpairs (args : List Value) : Script (List Value) := do
  let v ← checkAny args 1
  return [← read (·.ipairsStep), v, .int 0]

def runIpairsStep (args : List Value) : Script (List Value) := do
  let i := (← checkInt args 2) + 1
  let v ← index (arg args 1) (.int i)
  return if v.isNil then [.nil] else [.int i, v]

def runRawget (args : List Value) : Script (List Value) := do
  let id ← checkTable args 1
  let k ← checkAny args 2
  return [← read fun s => s.rawIndex id k]

def runRawset (args : List Value) : Script (List Value) := do
  let id ← checkTable args 1
  let k ← checkAny args 2
  let v ← checkAny args 3
  match k.key? with
  | some key => update fun s => s.rawSet id key v
  | none => raise (.str (if k.isNil then "table index is nil" else "table index is NaN"))
  return [.table id]

def runRawlen (args : List Value) : Script (List Value) := do
  match arg args 1 with
  | .table id => return [.ofNat (← read fun s => (s.table id).length)]
  | .str b => return [.ofNat b.size]
  | _ => badType args 1 "table or string"

def runSelect (args : List Value) : Script (List Value) := do
  match arg args 1 with
  | .str b =>
    if b.size > 0 ∧ b.at0 0 = 35 then return [.ofNat (args.length - 1)]
  | _ => pure ()
  let n ← checkInt args 1
  let count := args.length
  let n : Int := if n < 0 then count + n.toInt else min n.toInt count
  if n < 1 then badArgument 1 "index out of range"
  return args.drop n.toNat

def runTonumber (args : List Value) : Script (List Value) := do
  if (arg args 2).isNil then
    match arg args 1 with
    | .int i => return [.int i]
    | .float x => return [.float x]
    | .str b =>
      match Numeral.read? b.latin with
      | some n => return [.ofNumeral n]
      | none => return [.nil]
    | _ =>
      let _ ← checkAny args 1
      return [.nil]
  else
    let base ← checkInt args 2
    match arg args 1 with
    | .str b =>
      if base < 2 || base > 36 then badArgument 2 "base out of range"
      match Numeral.inBase? base.toNatClampNeg b.latin with
      | some i => return [.int i]
      | none => return [.nil]
    | _ => badType args 1 "string"

/-- What a reader function gives, piece by piece, up to an empty piece or nil. -/
def readPieces (reader : Value) : Nat → Bytes → Script (Except Value Bytes)
  | 0, acc => return .ok acc
  | n + 1, acc => do
    match ← attempt reader [] with
    | .error v => return .error v
    | .ok rs =>
      match Value.first rs with
      | .nil => return .ok acc
      | v =>
        match v.text? with
        | some piece =>
          if piece.isEmpty then return .ok acc
          else if isBinary (acc ++ piece) then return .ok (acc ++ piece)
          else readPieces reader n (acc ++ piece)
        | none => return .error (.str ((← position 1) ++ "reader function must return a string"))

def maxPieces : Nat := 1000000

def runLoad (args : List Value) : Script (List Value) := do
  let mode ← optText args 3 "bt"
  let finish (source chunk : Bytes) : Script (List Value) := do
    match ← read fun s => compile s source chunk ⟨mode.beforeNul⟩ with
    | .error message => return [.nil, .str message]
    | .ok (shown, f) =>
      let environment ← match args[3]? with
        | some v => pure v
        | none => read fun s => Value.table s.globals
      return [← updateGet fun s => s.instantiate shown f environment]
  match (arg args 1).text? with
  | some source => finish source (← optText args 2 source)
  | none =>
    let chunk ← optText args 2 "=(load)"
    let reader ← checkFunction args 1
    match ← readPieces reader maxPieces .empty with
    | .ok source => finish source chunk
    | .error v =>
      let ctx ← context
      let message ← ExceptT.lift (Act.handle (ctx.handler ()) v)
      ExceptT.lift Act.caught
      return [.nil, message]

def missingFile (name : Bytes) : Bytes := "cannot open " ++ name ++ ": No such file or directory"

/-! ## Loading modules -/

/-- The file names that a pattern list gives for a module, each with a question mark replaced. -/
def fileNames (path name : Bytes) : List Bytes :=
  let name := Bytes.ofLatin (name.latin.map fun c => if c = '.' then '/' else c)
  let fill (template : List Char) : Bytes :=
    Bytes.ofLatin (template.flatMap fun c => if c = '?' then name.latin else [c])
  (path.latin.splitOn ';').map fill

def noFiles (names : List Bytes) : Bytes :=
  Bytes.join "\n\t" (names.map fun f => ("no file '" : Bytes) ++ f ++ "'")

def preloadSearch (name : Bytes) : Script (List Value) := do
  let preload ← read fun s => Value.table s.preload
  match ← index preload (.str name) with
  | .nil => return [.str (("no field package.preload['" : Bytes) ++ name ++ "']")]
  | v => return [v, .str ":preload:"]

def fileSearch (name : Bytes) : Script (List Value) := do
  match (← index (.table (← read (·.package))) (.str "path")).text? with
  | some path => return [.str (noFiles (fileNames path name))]
  | none => complain "'package.path' must be a string"

def nativeSearch : List Value := [.str "\n\tcan't load C modules in safe mode"]

/-- Asks the searchers in turn for what loads a module. -/
def findLoader (searchers : Value) (name : Bytes) : Nat → Int64 → Bytes → Script (Value × Value)
  | 0, _, _ => complain "too many searchers"
  | n + 1, i, message => do
    match ← read fun s => match searchers with
      | .table id => s.rawGet id (.int i)
      | _ => .nil with
    | .nil => complain (("module '" : Bytes) ++ name ++ "' not found:" ++ message)
    | searcher =>
      let rs ← call searcher [.str name]
      match Value.first rs with
      | .fn f => return (.fn f, .first (rs.drop 1))
      | v =>
        match v.text? with
        | some m => findLoader searchers name n (i + 1) (message ++ "\n\t" ++ m)
        | none => findLoader searchers name n (i + 1) message

def runRequire (args : List Value) : Script (List Value) := do
  let name := (← checkText args 1).beforeNul
  let loaded ← read fun s => Value.table s.loaded
  let found ← index loaded (.str name)
  if found.truthy then return [found]
  let searchers ← index (.table (← read (·.package))) (.str "searchers")
  match searchers with
  | .table _ => pure ()
  | _ => complain "'package.searchers' must be a table"
  let (loader, extra) ← findLoader searchers name 1000 1 .empty
  let v := Value.first (← call loader [.str (← checkText args 1), extra])
  unless v.isNil do assign loaded (.str name) v
  match ← index loaded (.str name) with
  | .nil =>
    assign loaded (.str name) (.bool true)
    return [.bool true, extra]
  | v => return [v, extra]

def run (f : BaseFn) (args : List Value) : Script Verdict := do
  match f with
  | assert => return .ret (← runAssert args)
  | collectgarbage => return .ret (← runCollect args)
  | dofile => complain (missingFile (← optText args 1 "stdin"))
  | error => raiseAt (arg args 1) (← optInt args 2 1)
  | getmetatable => return .ret (← runGetmetatable args)
  | ipairs => return .ret (← runIpairs args)
  | load => return .ret (← runLoad args)
  | loadfile => return .ret [.nil, .str (missingFile (← optText args 1 "stdin"))]
  | next => return .ret (← runNext args)
  | pairs => return .ret (← runPairs args)
  | pcall =>
    let f ← checkAny args 1
    return .protect none f (args.drop 1)
  | print =>
    args.forM fun v => do let _ ← text v
    return .ret []
  | rawequal =>
    let a ← checkAny args 1
    let b ← checkAny args 2
    return .ret [.bool (a.rawEq b)]
  | rawget => return .ret (← runRawget args)
  | rawlen => return .ret (← runRawlen args)
  | rawset => return .ret (← runRawset args)
  | require => return .ret (← runRequire args)
  | select => return .ret (← runSelect args)
  | setmetatable => return .ret (← runSetmetatable args)
  | tonumber => return .ret (← runTonumber args)
  | tostring => return .ret [.str (← text (← checkAny args 1))]
  | type =>
    match args with
    | v :: _ => return .ret [.str v.typeName]
    | [] => badArgument 1 "value expected"
  | warn =>
    let _ ← checkText args 1
    return .ret []
  | xpcall =>
    let h ← checkFunction args 2
    return .protect (some h) (arg args 1) (args.drop 2)

end Cordon.Lua.BaseFn
