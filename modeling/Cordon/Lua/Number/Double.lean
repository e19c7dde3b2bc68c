/-!
# Double precision numbers

A double is its 64 bits: a sign, eleven bits of exponent, 52 bits of mantissa. Rounding, remainders,
comparison with integers and decimal text are computed exactly from these.
-/

namespace Cordon.Lua

structure Double where
  bits : UInt64
  deriving DecidableEq, Inhabited, Repr

namespace Double

def ofFloat (x : Float) : Double := ⟨x.toBits⟩

def toFloat (x : Double) : Float := Float.ofBits x.bits

def negative (x : Double) : Bool := x.bits ≥ 0x8000000000000000

def exponentField (x : Double) : Nat := x.bits.toNat / 0x10000000000000 % 0x800

def mantissaField (x : Double) : Nat := x.bits.toNat % 0x10000000000000

def isNaN (x : Double) : Bool := x.exponentField == 2047 && x.mantissaField != 0

def isInf (x : Double) : Bool := x.exponentField == 2047 && x.mantissaField == 0

def isFinite (x : Double) : Bool := x.exponentField != 2047

def isZero (x : Double) : Bool := x.bits.toNat % 0x8000000000000000 == 0

def pack (negative : Bool) (exponent mantissa : Nat) : Double :=
  let sign := if negative then 0x8000000000000000 else 0
  ⟨UInt64.ofNat (sign + exponent * 0x10000000000000 + mantissa)⟩

def zero : Double := ⟨0⟩

def inf (negative : Bool) : Double := pack negative 2047 0

/-- The value that an operation without a result gives. -/
def undefined : Double := ⟨0xFFF8000000000000⟩

/-- A finite double is `m * 2 ^ (e - 1074)` up to sign. -/
def magnitude (x : Double) : Nat × Nat :=
  if x.exponentField = 0 then (x.mantissaField, 0)
  else (x.mantissaField + 0x10000000000000, x.exponentField - 1)

/-- `num / den` to the nearest integer, a tie to the even one. -/
def roundDiv (num den : Nat) : Nat :=
  let q := num / den
  let r := num % den
  if 2 * r < den then q
  else if 2 * r > den then q + 1
  else if q % 2 = 0 then q else q + 1

/-- The double nearest to `num / den`, which is not zero. -/
def ofRatio (negative : Bool) (num den : Nat) : Double :=
  -- the result is m * 2 ^ (e - 1074) with m < 2 ^ 53, and m at least 2 ^ 52 unless e is 0
  let log : Int := (Nat.log2 num : Int) - (Nat.log2 den : Int)
  let estimate : Nat := (log - 53 + 1074).toNat
  let scaled (e : Nat) : Nat × Nat :=
    if e ≤ 1074 then (num <<< (1074 - e), den) else (num, den <<< (e - 1074))
  let e :=
    if (scaled estimate).1 / (scaled estimate).2 < 0x20000000000000 then estimate else estimate + 1
  let m := roundDiv (scaled e).1 (scaled e).2
  let (m, e) := if m = 0x20000000000000 then (0x10000000000000, e + 1) else (m, e)
  if m < 0x10000000000000 then pack negative 0 m
  else if e + 1 ≥ 2047 then inf negative
  else pack negative (e + 1) (m - 0x10000000000000)

def ofInt (i : Int) : Double :=
  if i = 0 then zero else ofRatio (i < 0) i.natAbs 1

/-- The value as a quotient of naturals, sign apart. -/
def ratio (x : Double) : Nat × Nat :=
  let (m, e) := x.magnitude
  if e ≥ 1074 then (m <<< (e - 1074), 1) else (m, 1 <<< (1074 - e))

/-- The greatest integer that is not above a finite `x`. -/
def floorInt (x : Double) : Int :=
  let (num, den) := x.ratio
  if x.negative then -(((num + den - 1) / den : Nat) : Int) else ((num / den : Nat) : Int)

/-- The integer that a finite `x` is, if it is one. -/
def toInt? (x : Double) : Option Int :=
  if x.isFinite then
    let (num, den) := x.ratio
    if num % den = 0 then
      some (if x.negative then -((num / den : Nat) : Int) else ((num / den : Nat) : Int))
    else none
  else none

def neg (x : Double) : Double := ⟨x.bits ^^^ 0x8000000000000000⟩

def abs (x : Double) : Double := ⟨x.bits &&& 0x7FFFFFFFFFFFFFFF⟩

/-- An undefined operand is passed on, the left one first; a new undefined result is `undefined`. -/
def lift (f : Float → Float → Float) (x y : Double) : Double :=
  if x.isNaN then x
  else if y.isNaN then y
  else
    let r := ofFloat (f x.toFloat y.toFloat)
    if r.isNaN then undefined else r

def lift1 (f : Float → Float) (x : Double) : Double :=
  if x.isNaN then x
  else
    let r := ofFloat (f x.toFloat)
    if r.isNaN then undefined else r

def add : Double → Double → Double := lift (· + ·)

def sub : Double → Double → Double := lift (· - ·)

def mul : Double → Double → Double := lift (· * ·)

def div : Double → Double → Double := lift (· / ·)

/-- The zeroth power is one, and so is every power of one, whatever the other operand. -/
def pow (x y : Double) : Double :=
  if y.isZero || x == ofInt 1 then ofInt 1
  else lift Float.pow x y

def floor (x : Double) : Double :=
  if !x.isFinite then x
  else
    let i := x.floorInt
    if i = 0 then ⟨x.bits &&& 0x8000000000000000⟩ else ofInt i

def ceil (x : Double) : Double := (x.neg.floor).neg

/-- `x` with its fraction cut off. -/
def trunc (x : Double) : Double := if x.negative then x.ceil else x.floor

/-- The remainder of the quotient cut toward zero; it has the sign of `x`. -/
def truncMod (x y : Double) : Double :=
  if x.isNaN then x
  else if y.isNaN then y
  else if x.isInf || y.isZero then undefined
  else if y.isInf || x.isZero then x
  else
    let (mx, ex) := x.magnitude
    let (my, ey) := y.magnitude
    let e := min ex ey
    let r := (mx <<< (ex - e)) % (my <<< (ey - e))
    if r = 0 then ⟨x.bits &&& 0x8000000000000000⟩
    else if e ≥ 1074 then ofRatio x.negative (r <<< (e - 1074)) 1
    else ofRatio x.negative r (1 <<< (1074 - e))

/-- Comparison of doubles; `none` if one is undefined. -/
def compare? (x y : Double) : Option Ordering :=
  if x.isNaN || y.isNaN then none
  else if x.isZero && y.isZero then some .eq
  else some <|
    match x.negative, y.negative with
    | true, false => .lt
    | false, true => .gt
    | false, false => compare x.bits y.bits
    | true, true => compare y.bits x.bits

def lt (x y : Double) : Bool := x.compare? y == some .lt

def le (x y : Double) : Bool := x.compare? y == some .lt || x.compare? y == some .eq

def eq (x y : Double) : Bool := x.compare? y == some .eq

/-- The remainder of the quotient rounded down; it has the sign of `y`. -/
def floorMod (x y : Double) : Double :=
  let m := truncMod x y
  if (zero.lt m && y.lt zero) || (m.lt zero && zero.lt y) then add m y else m

def floorDiv (x y : Double) : Double := (div x y).floor

/-- Comparison of an integer with a double; `none` if the double is undefined. -/
def compareInt? (i : Int) (x : Double) : Option Ordering :=
  if x.isNaN then none
  else if x.isInf then some (if x.negative then .gt else .lt)
  else
    let (num, den) := x.ratio
    some (compare (i * (den : Int)) (if x.negative then -(num : Int) else (num : Int)))

end Double

end Cordon.Lua
