import Cordon.Lua.Lib.Calendar
import Cordon.Lua.Script

/-!
# System library

Dates and times. There is no file system, no shell and no environment behind the other functions:
they answer as if everything they look for were missing.
-/

namespace Cordon.Lua.OsFn

def all : List (String × OsFn) :=
  [("clock", clock), ("date", date), ("difftime", difftime), ("execute", execute), ("exit", exit),
   ("getenv", getenv), ("remove", remove), ("rename", rename), ("setlocale", setlocale),
   ("time", time), ("tmpname", tmpname)]

open Script

def dateFields (c : Calendar) : List (String × Value) :=
  [("year", .int (Int64.ofInt c.year)), ("month", .ofNat c.month), ("day", .ofNat c.day),
   ("hour", .ofNat c.hour), ("min", .ofNat c.minute), ("sec", .ofNat c.second),
   ("yday", .ofNat (c.yearDay + 1)), ("wday", .ofNat (c.weekDay + 1)), ("isdst", .bool false)]

/-- Whether a year, counted from 1900, fits 32 bits. -/
def yearFits (year : Int) : Bool := -0x80000000 ≤ year - 1900 && year - 1900 < 0x80000000

def runDate (args : List Value) : Script (List Value) := do
  let format ← optText args 1 "%c"
  let t ← match arg args 2 with
    | .nil => read (·.now)
    | _ => do pure (← checkInt args 2).toInt
  let format := if format.size > 0 && format.at0 0 = 33 then format.slice 1 format.size else format
  let c := Calendar.ofSeconds t
  unless yearFits c.year do complain "date result cannot be represented in this installation"
  if format.beforeNul == ("*t" : Bytes) then
    let id ← updateGet fun s => s.newTable
    update fun s => (dateFields c).foldl (fun s (k, v) => s.rawSetStr id k v) s
    return [.table id]
  match c.format format.latin with
  | .ok text => return [.str (Bytes.ofLatin text)]
  | .error rest =>
    let rest := (Bytes.ofLatin rest).beforeNul
    badArgument 1 (("invalid conversion specifier '%" : Bytes) ++ rest ++ "'")

/-- An integer field of a date table; without a default it has to be there. -/
def dateField (t : Value) (name : String) (default : Option Int) (delta : Int) : Script Int := do
  match ← index t (.str name) with
  | .nil =>
    match default with
    | some d => return d
    | none => complain ("field '" ++ name ++ "' missing in date table" : String)
  | v =>
    match v.toInt? with
    | some i =>
      let i := i.toInt
      unless (if i ≥ 0 then i - delta < 0x80000000 else -0x80000000 + delta ≤ i) do
        complain ("field '" ++ name ++ "' is out-of-bound" : String)
      return i
    | none => complain ("field '" ++ name ++ "' is not an integer" : String)

def runTime (args : List Value) : Script (List Value) := do
  if (arg args 1).isNil then return [.int (Int64.ofInt (← read (·.now)))]
  let t := Value.table (← checkTable args 1)
  let year ← dateField t "year" none 1900
  let month ← dateField t "month" none 1
  let day ← dateField t "day" none 0
  let hour ← dateField t "hour" (some 12) 0
  let minute ← dateField t "min" (some 0) 0
  let second ← dateField t "sec" (some 0) 0
  let _ ← index t (.str "isdst")
  let seconds := Calendar.secondsOf year month day hour minute second
  let c := Calendar.ofSeconds seconds
  for (k, v) in dateFields c do
    assign t (.str k) v
  -- one second before the start has no representation
  if seconds = -1 || !yearFits c.year then
    complain "time result cannot be represented in this installation"
  return [.int (Int64.ofInt seconds)]

/-- What a function that fails on a file gives. -/
def noFile (name : Bytes) : List Value :=
  [.nil, .str (name ++ ": No such file or directory"), .int 2]

def run (f : OsFn) (args : List Value) : Script (List Value) := do
  match f with
  | clock => return [.float (.ofRatio false 1 1000)]
  | date => runDate args
  | difftime =>
    let a ← checkInt args 1
    let b ← checkInt args 2
    return [.float (.sub (.ofInt a.toInt) (.ofInt b.toInt))]
  | execute =>
    if (arg args 1).isNil then return [.bool false]
    let _ ← checkText args 1
    return [.nil, Value.ofString "exit", .int 127]
  | exit => complain "the host cannot be ended"
  | getenv =>
    let _ ← checkText args 1
    return [.nil]
  | remove => return noFile (← checkText args 1)
  | rename =>
    let name ← checkText args 1
    let _ ← checkText args 2
    return noFile name
  | setlocale =>
    let name ← optText args 1 .empty
    return [if name == ("" : Bytes) || name == ("C" : Bytes) then Value.ofString "C" else .nil]
  | time => runTime args
  | tmpname => return [Value.ofString "/tmp/lua_000000"]

end Cordon.Lua.OsFn
