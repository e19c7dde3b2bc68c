import Cordon.Lua.Script

/-!
# Math library

Integers stay integers where the result is one; everything else is done on floats.
-/

namespace Cordon.Lua.MathFn

def all : List (String × MathFn) :=
  [("abs", abs), ("acos", acos), ("asin", asin), ("atan", atan), ("ceil", ceil), ("cos", cos),
   ("deg", deg), ("exp", exp), ("floor", floor), ("fmod", fmod), ("log", log), ("max", max),
   ("min", min), ("modf", modf), ("rad", rad), ("random", random), ("randomseed", randomseed),
   ("sin", sin), ("sqrt", sqrt), ("tan", tan), ("tointeger", tointeger), ("type", type),
   ("ult", ult)]

def pi : Double := ⟨0x400921FB54442D18⟩

def constants : List (String × Value) :=
  [("huge", .float (.inf false)), ("maxinteger", .int Int64.maxValue),
   ("mininteger", .int Int64.minValue), ("pi", .float pi)]

open Script

/-- A float without fraction as an integer, if it fits. -/
def whole (x : Double) : Value :=
  match Value.floatToInt? x with
  | some i => .int i
  | none => .float x

def onFloat (args : List Value) (f : Float → Float) : Script (List Value) := do
  return [.float (Double.lift1 f (← checkDouble args 1))]

/-- A rounding; integers are left alone. -/
def rounded (args : List Value) (f : Double → Double) : Script (List Value) := do
  match arg args 1 with
  | .int i => return [.int i]
  | _ => return [whole (f (← checkDouble args 1))]

def runAbs (args : List Value) : Script (List Value) := do
  match arg args 1 with
  | .int i => return [.int (if i < 0 then -i else i)]
  | _ => return [.float (← checkDouble args 1).abs]

def runFmod (args : List Value) : Script (List Value) := do
  match arg args 1, arg args 2 with
  | .int a, .int b =>
    if b = 0 then badArgument 2 "zero"
    return [.int (if b = -1 then 0 else a % b)]
  | _, _ => return [.float (.truncMod (← checkDouble args 1) (← checkDouble args 2))]

def runModf (args : List Value) : Script (List Value) := do
  match arg args 1 with
  | .int i => return [.int i, .float .zero]
  | _ =>
    let x ← checkDouble args 1
    let n := x.trunc
    return [.float n, .float (if x.eq n then .zero else .sub x n)]

def runLog (args : List Value) : Script (List Value) := do
  let x ← checkDouble args 1
  if (arg args 2).isNil then return [.float (.lift1 Float.log x)]
  let base ← checkDouble args 2
  if base == .ofInt 2 then return [.float (.lift1 Float.log2 x)]
  if base == .ofInt 10 then return [.float (.lift1 Float.log10 x)]
  return [.float (.div (.lift1 Float.log x) (.lift1 Float.log base))]

/-- The first argument that none of the others precedes. -/
def extreme (args : List Value) (precedes : Value → Value → Script Bool) : Script (List Value) := do
  match args with
  | [] => badArgument 1 "value expected"
  | v :: vs =>
    let best ← vs.foldlM (fun best v => do return if ← precedes v best then v else best) v
    return [best]

def nextSeed (seed : UInt64) : UInt64 := seed * 6364136223846793005 + 1442695040888963407

def draw : Script UInt64 := do
  update fun s => { s with seed := nextSeed s.seed }
  let seed ← read (·.seed)
  return seed ^^^ (seed >>> 32)

def runRandom (args : List Value) : Script (List Value) := do
  let bits ← draw
  let between (lo hi : Int64) (n : Nat) : Script (List Value) := do
    unless lo ≤ hi do badArgument n "interval is empty"
    let span := hi.toInt - lo.toInt + 1
    return [.int (Int64.ofInt (lo.toInt + (bits.toNat : Int) % span))]
  match args with
  | [] => return [.float (.ofRatio false ((bits >>> 11).toNat + 1) 0x20000000000001)]
  | [_] =>
    let hi ← checkInt args 1
    if hi = 0 then return [.int bits.toInt64] else between 1 hi 1
  | [_, _] => between (← checkInt args 1) (← checkInt args 2) 2
  | _ => complain "wrong number of arguments"

def runRandomseed (args : List Value) : Script (List Value) := do
  let seed ← match args with
    | [] => pure 0
    | v :: _ =>
      match v.toInt? with
      | some i => pure i
      | none => pure (Int64.ofInt ((← checkDouble args 1).bits.toNat : Int))
  let other ← optInt args 2 0
  update fun s => { s with seed := seed.toUInt64 ^^^ (other.toUInt64 <<< 1) }
  return [.int seed, .int other]

def runTointeger (args : List Value) : Script (List Value) := do
  match (arg args 1).toInt? with
  | some i => return [.int i]
  | none =>
    let _ ← checkAny args 1
    return [.nil]

def runType (args : List Value) : Script (List Value) := do
  match ← checkAny args 1 with
  | .int _ => return [Value.ofString "integer"]
  | .float _ => return [Value.ofString "float"]
  | _ => return [.nil]

def run (f : MathFn) (args : List Value) : Script (List Value) := do
  match f with
  | abs => runAbs args
  | acos => onFloat args Float.acos
  | asin => onFloat args Float.asin
  | atan =>
    let y ← checkDouble args 1
    let x ← if (arg args 2).isNil then pure (Double.ofInt 1) else checkDouble args 2
    return [.float (.lift Float.atan2 y x)]
  | ceil => rounded args Double.ceil
  | cos => onFloat args Float.cos
  | deg => return [.float (.mul (← checkDouble args 1) (.div (.ofInt 180) pi))]
  | exp => onFloat args Float.exp
  | floor => rounded args Double.floor
  | fmod => runFmod args
  | log => runLog args
  | max => extreme args fun v best => less best v
  | min => extreme args fun v best => less v best
  | modf => runModf args
  | rad => return [.float (.mul (← checkDouble args 1) (.div pi (.ofInt 180)))]
  | random => runRandom args
  | randomseed => runRandomseed args
  | sin => onFloat args Float.sin
  | sqrt => onFloat args Float.sqrt
  | tan => onFloat args Float.tan
  | tointeger => runTointeger args
  | type => runType args
  | ult => return [.bool ((← checkInt args 1).toUInt64 < (← checkInt args 2).toUInt64)]

end Cordon.Lua.MathFn
