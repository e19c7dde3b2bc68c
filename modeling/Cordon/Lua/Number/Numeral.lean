import Cordon.Lua.Number.Double
import Cordon.Text.Latin

/-!
# Numerals

Reading numbers: decimal and hexadecimal integers, which wrap only in the hexadecimal form, and
decimal and hexadecimal floats.
-/

namespace Cordon.Lua

/-- A number that was read. -/
inductive Numeral where
  | int (i : Int64)
  | float (x : Double)
  deriving DecidableEq, Inhabited

namespace Numeral

def isSpace (c : Char) : Bool := c = ' ' || ('\t' ≤ c && c ≤ '\r')

def digitValue (c : Char) : Nat :=
  if '0' ≤ c ∧ c ≤ '9' then c.toNat - '0'.toNat
  else if 'a' ≤ c ∧ c ≤ 'z' then c.toNat - 'a'.toNat + 10
  else if 'A' ≤ c ∧ c ≤ 'Z' then c.toNat - 'A'.toNat + 10
  else 36

def isHex (c : Char) : Bool := digitValue c < 16

def isDigit (c : Char) : Bool := digitValue c < 10

def ofDigits (base : Nat) (ds : List Char) : Nat :=
  ds.foldl (fun n c => n * base + digitValue c) 0

/-- Splits off a sign: whether it is a minus. -/
def sign : List Char → Bool × List Char
  | '-' :: cs => (true, cs)
  | '+' :: cs => (false, cs)
  | cs => (false, cs)

def hexMark? : List Char → Option (List Char)
  | '0' :: 'x' :: cs => some cs
  | '0' :: 'X' :: cs => some cs
  | _ => none

/-- The integers from `-2^63` on up to the largest one, in wrapping form. -/
def wrap (negative : Bool) (n : Nat) : Int64 :=
  let i := Int64.ofNat n
  if negative then -i else i

def int? (cs : List Char) : Option Int64 :=
  let (negative, cs) := sign cs
  match hexMark? cs with
  | some ds => if !ds.isEmpty && ds.all isHex then some (wrap negative (ofDigits 16 ds)) else none
  | none =>
    if !cs.isEmpty && cs.all isDigit then
      let n := ofDigits 10 cs
      if n ≤ 0x7FFFFFFFFFFFFFFF + (if negative then 1 else 0) then some (wrap negative n) else none
    else none

/-- An exponent after its mark: digits with an optional sign, to the end. -/
def exponent? (cs : List Char) : Option Int :=
  let (negative, ds) := sign cs
  if !ds.isEmpty && ds.all isDigit then
    let n : Int := ofDigits 10 ds
    some (if negative then -n else n)
  else none

/-- A fraction with an optional exponent: digits before and after the point, exponent. -/
def parts? (isDig isMark : Char → Bool) (cs : List Char) : Option (List Char × List Char × Int) :=
  let whole := cs.takeWhile isDig
  let rest := cs.dropWhile isDig
  let (fraction, rest) := match rest with
    | '.' :: r => (r.takeWhile isDig, r.dropWhile isDig)
    | r => ([], r)
  if whole.isEmpty && fraction.isEmpty then none
  else match rest with
    | [] => some (whole, fraction, 0)
    | c :: r => if isMark c then (exponent? r).map (whole, fraction, ·) else none

/-- `n * base ^ e`, correctly rounded; exponents that are out of reach are cut. -/
def scaled (negative : Bool) (n base : Nat) (e : Int) : Double :=
  if n = 0 then (if negative then Double.zero.neg else Double.zero)
  else if e ≥ 0 then
    if e > 2000 then .inf negative else .ofRatio negative (n * Nat.pow base e.toNat) 1
  else
    let e := min (-e).toNat (Nat.log2 n + 1200)
    .ofRatio negative n (Nat.pow base e)

def float? (cs : List Char) : Option Double :=
  let (negative, cs) := sign cs
  match hexMark? cs with
  | some ds =>
    (parts? isHex (fun c => c = 'p' || c = 'P') ds).map fun (whole, fraction, e) =>
      scaled negative (ofDigits 16 (whole ++ fraction)) 2 (e - 4 * (fraction.length : Int))
  | none =>
    (parts? isDigit (fun c => c = 'e' || c = 'E') cs).map fun (whole, fraction, e) =>
      scaled negative (ofDigits 10 (whole ++ fraction)) 10 (e - (fraction.length : Int))

/-- The number a text stands for, blanks around it apart. -/
def read? (cs : List Char) : Option Numeral :=
  let cs := ((cs.dropWhile isSpace).reverse.dropWhile isSpace).reverse
  match int? cs with
  | some i => some (.int i)
  | none => (float? cs).map .float

/-- The integer with these digits in `base`, wrapping; blanks around it and a minus may stand. -/
def inBase? (base : Nat) (cs : List Char) : Option Int64 :=
  let cs := ((cs.dropWhile isSpace).reverse.dropWhile isSpace).reverse
  let (negative, ds) := match cs with
    | '-' :: r => (true, r)
    | r => (false, r)
  if !ds.isEmpty && ds.all (fun c => digitValue c < base && digitValue c < 36) then
    some (wrap negative (ofDigits base ds))
  else none

end Numeral

end Cordon.Lua
