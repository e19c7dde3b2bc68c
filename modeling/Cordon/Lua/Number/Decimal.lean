import Cordon.Lua.Number.Double

/-!
# Decimal text of doubles

Digits are rounded exactly, a tie to the even digit. The general form chooses between positional and
scientific notation by the decimal exponent.
-/

namespace Cordon.Lua.Decimal

def digitCount (n : Nat) : Nat := (toString n).length

/-- The digits of `n`, with zeros before them up to `width`. -/
def padded (width n : Nat) : List Char :=
  let ds := (toString n).toList
  List.replicate (width - ds.length) '0' ++ ds

/-- The greatest `k` with `10 ^ k ≤ num / den`. -/
def exponent10 (num den : Nat) : Int :=
  if den ≤ num then (digitCount (num / den) : Int) - 1
  else
    let q := (den + num - 1) / num
    -- the least power of ten that reaches q
    let j := if q ≤ 1 then 0 else digitCount (q - 1)
    Int.neg j

/-- `num / den` rounded to `digits` significant digits: the digits as a number, the exponent of the
first one. -/
def significant (digits num den : Nat) : Nat × Int :=
  if num = 0 then (0, 0)
  else
    let k := exponent10 num den
    let shift := (digits : Int) - 1 - k
    let d := if shift ≥ 0 then Double.roundDiv (num * Nat.pow 10 shift.toNat) den
      else Double.roundDiv num (den * Nat.pow 10 (-shift).toNat)
    if d = Nat.pow 10 digits then (Nat.pow 10 (digits - 1), k + 1) else (d, k)

/-- Digits with a point after the first `whole` of them; no point if none follow, unless `keep`. -/
def pointed (keep : Bool) (ds : List Char) (whole : Nat) : List Char :=
  let fraction := ds.drop whole
  ds.take whole ++ (if fraction.isEmpty && !keep then [] else '.' :: fraction)

def fixed (keep : Bool) (places num den : Nat) : List Char :=
  let n := Double.roundDiv (num * Nat.pow 10 places) den
  let ds := padded (places + 1) n
  pointed keep ds (ds.length - places)

def exponentText (k : Int) : List Char :=
  'e' :: (if k < 0 then '-' else '+') :: padded 2 k.natAbs

def scientific (keep : Bool) (places num den : Nat) : List Char :=
  let (d, k) := significant (places + 1) num den
  pointed keep (padded (places + 1) d) 1 ++ exponentText k

def dropZeros (ds : List Char) : List Char := (ds.reverse.dropWhile (· = '0')).reverse

/-- At most `digits` significant digits: positional if the exponent is at least -4 and below
`digits`. Trailing zeros are dropped, unless `keep`. -/
def general (keep : Bool) (digits num den : Nat) : List Char :=
  let digits := max digits 1
  let (d, k) := significant digits num den
  let ds := padded digits d
  if k < -4 ∨ k ≥ digits then
    pointed keep (ds.take 1 ++ (if keep then ds.drop 1 else dropZeros (ds.drop 1))) 1 ++ exponentText k
  else if k < 0 then
    let ds := List.replicate (-k).toNat '0' ++ ds
    pointed keep (ds.take 1 ++ (if keep then ds.drop 1 else dropZeros (ds.drop 1))) 1
  else
    let whole := k.toNat + 1
    pointed keep (ds.take whole ++ (if keep then ds.drop whole else dropZeros (ds.drop whole))) whole

/-- Hexadecimal notation with a binary exponent; `places` digits after the point, or all. -/
def binary (keep : Bool) (places : Option Nat) (x : Double) : List Char :=
  let (m, e) := x.magnitude
  let hex (n : Nat) : List Char := Nat.toDigits 16 n
  let (m, p) : Nat × Int :=
    if m = 0 then (0, 0) else (m, (e : Int) - 1074 + 52)
  let width := 13
  let (m, n) := match places with
    | some n =>
      if n < width then (Double.roundDiv m (Nat.pow 16 (width - n)), n)
      else (m * Nat.pow 16 (n - width), n)
    | none => (m, width)
  let fraction := (List.replicate n '0' ++ hex (m % Nat.pow 16 n))
  let fraction := fraction.drop (fraction.length - n)
  let fraction := if places.isNone then dropZeros fraction else fraction
  ['0', 'x'] ++ hex (m / Nat.pow 16 n) ++
    (if fraction.isEmpty && !keep then [] else '.' :: fraction) ++
    ['p', if p < 0 then '-' else '+'] ++ (toString p.natAbs).toList

/-- The text of a value that is not finite. -/
def special (x : Double) : String :=
  if x.isNaN then (if x.negative then "-nan" else "nan")
  else if x.negative then "-inf" else "inf"

/-- The default text of a double: fourteen significant digits, and `.0` after an integral value. -/
def text (x : Double) : String :=
  if !x.isFinite then special x
  else
    let body := general false 14 x.ratio.1 x.ratio.2
    let body := if body.all (·.isDigit) then body ++ ['.', '0'] else body
    String.ofList (if x.negative then '-' :: body else body)

end Cordon.Lua.Decimal
