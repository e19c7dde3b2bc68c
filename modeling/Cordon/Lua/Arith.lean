import Cordon.Lua.Ast
import Cordon.Lua.Value

/-!
# Arithmetic and comparison of numbers

Integers wrap around. Division and powers are done on floats, and the other operators on floats as
soon as one operand is a float. Bit operators take floats without fraction for integers.
-/

namespace Cordon.Lua.Arith

inductive Outcome where
  | value (v : Value)
  /-- The operation has no result: an integer division by zero. -/
  | undefined (message : String)
  /-- The operands are not of the right types. -/
  | unsupported

/-- The quotient rounded down, the divisor not zero. -/
def floorDiv (a b : Int64) : Int64 :=
  if b = -1 then -a
  else
    let q := a / b
    if a % b ≠ 0 ∧ (decide (a < 0) ≠ decide (b < 0)) then q - 1 else q

/-- The remainder that goes with `floorDiv`. -/
def floorMod (a b : Int64) : Int64 :=
  if b = -1 then 0
  else
    let r := a % b
    if r ≠ 0 ∧ (decide (r < 0) ≠ decide (b < 0)) then r + b else r

/-- A logical shift to the left, to the right if the distance is negative. -/
def shiftLeft (a : Int64) (n : Int64) : Int64 :=
  let bits := a.toUInt64.toNat
  let distance := n.toInt.natAbs
  if distance ≥ 64 then 0
  else if n < 0 then (UInt64.ofNat (bits >>> distance)).toInt64
  else (UInt64.ofNat (bits <<< distance)).toInt64

def onInts (op : ArithOp) (a b : Int64) : Outcome :=
  match op with
  | .add => .value (.int (a + b))
  | .sub => .value (.int (a - b))
  | .mul => .value (.int (a * b))
  | .idiv => if b = 0 then .undefined "attempt to perform 'n//0'" else .value (.int (floorDiv a b))
  | .mod => if b = 0 then .undefined "attempt to perform 'n%%0'" else .value (.int (floorMod a b))
  | .div => .value (.float (.div (.ofInt a.toInt) (.ofInt b.toInt)))
  | .pow => .value (.float (.pow (.ofInt a.toInt) (.ofInt b.toInt)))
  | .band => .value (.int (a &&& b))
  | .bor => .value (.int (a ||| b))
  | .bxor => .value (.int (a ^^^ b))
  | .shl => .value (.int (shiftLeft a b))
  | .shr => .value (.int (shiftLeft a (-b)))

def onFloats (op : ArithOp) (x y : Double) : Outcome :=
  match op with
  | .add => .value (.float (.add x y))
  | .sub => .value (.float (.sub x y))
  | .mul => .value (.float (.mul x y))
  | .idiv => .value (.float (.floorDiv x y))
  | .mod => .value (.float (.floorMod x y))
  | .div => .value (.float (.div x y))
  | .pow => .value (.float (.pow x y))
  | _ => .unsupported

def isBitwise : ArithOp → Bool
  | .band | .bor | .bxor | .shl | .shr => true
  | _ => false

/-- The float of a number, strings excluded. -/
def float? : Value → Option Double
  | .int i => some (.ofInt i.toInt)
  | .float x => some x
  | _ => none

/-- What an operator makes of two values without metamethods. -/
def apply (op : ArithOp) (a b : Value) : Outcome :=
  match a, b with
  | .int i, .int j => onInts op i j
  | a, b =>
    if isBitwise op then
      match a.exactInt?, b.exactInt? with
      | some i, some j => onInts op i j
      | _, _ => .unsupported
    else
      match float? a, float? b with
      | some x, some y => onFloats op x y
      | _, _ => .unsupported

def neg : Value → Option Value
  | .int i => some (.int (-i))
  | .float x => some (.float x.neg)
  | _ => none

/-- Comparison of two numbers: whether the order between them is one of `allowed`. -/
def compareNumbers? (a b : Value) : Option (Option Ordering) :=
  match a, b with
  | .int i, .int j => some (some (compare i.toInt j.toInt))
  | .float x, .float y => some (x.compare? y)
  | .int i, .float y => some (y.compareInt? i.toInt)
  | .float x, .int j => some ((x.compareInt? j.toInt).map Ordering.swap)
  | _, _ => none

/-- Whether `a < b`, or `a ≤ b` if `orEqual`, for two numbers or two strings. -/
def less? (orEqual : Bool) (a b : Value) : Option Bool :=
  let holds (o : Option Ordering) : Bool := o == some .lt || (orEqual && o == some .eq)
  match a, b with
  | .str s, .str t => some (holds (some (Bytes.order s t)))
  | a, b => (compareNumbers? a b).map holds

/-- The name of what an operator does, as messages put it. -/
def activity (op : ArithOp) : String :=
  if isBitwise op then "perform bitwise operation on" else "perform arithmetic on"

end Cordon.Lua.Arith
