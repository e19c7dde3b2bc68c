import Cordon.Lua.Script

/-!
# Formatting

Texts with conversions: each takes one argument and writes it with flags, a width and a precision.
-/

namespace Cordon.Lua.Format

/-- A conversion: flags, width, precision, letter. -/
structure Spec where
  flags : List Char
  width : Nat
  precision : Option Nat
  letter : Char

namespace Spec

def has (s : Spec) (c : Char) : Bool := s.flags.contains c

/-- Fills up to the width: on the right, after the sign with zeros, or on the left. -/
def fill (s : Spec) (zeros : Bool) (sign body : List Char) : List Char :=
  let n := s.width - sign.length - body.length
  if s.has '-' then sign ++ body ++ List.replicate n ' '
  else if zeros && s.has '0' then sign ++ List.replicate n '0' ++ body
  else List.replicate n ' ' ++ sign ++ body

def sign (s : Spec) (negative : Bool) : List Char :=
  if negative then ['-'] else if s.has '+' then ['+'] else if s.has ' ' then [' '] else []

/-- Digits, at least as many as the precision says. -/
def digits (s : Spec) (base n : Nat) : List Char :=
  let ds := if s.precision = some 0 ∧ n = 0 then [] else Nat.toDigits base n
  List.replicate (s.precision.getD 0 - ds.length) '0' ++ ds

def upper (l : List Char) : List Char := l.map Char.toUpper

def int (s : Spec) (i : Int64) : List Char :=
  match s.letter with
  | 'u' => s.fill s.precision.isNone [] (s.digits 10 i.toUInt64.toNat)
  | 'o' =>
    let ds := s.digits 8 i.toUInt64.toNat
    s.fill s.precision.isNone [] (if s.has '#' && ds.head? != some '0' then '0' :: ds else ds)
  | 'x' =>
    let n := i.toUInt64.toNat
    s.fill s.precision.isNone (if s.has '#' && n ≠ 0 then ['0', 'x'] else []) (s.digits 16 n)
  | 'X' =>
    let n := i.toUInt64.toNat
    let mark := if s.has '#' && n ≠ 0 then ['0', 'X'] else []
    s.fill s.precision.isNone mark (upper (s.digits 16 n))
  | _ => s.fill s.precision.isNone (s.sign (i < 0)) (s.digits 10 i.toInt.natAbs)

def float (s : Spec) (x : Double) : List Char :=
  let sign := s.sign x.negative
  let capital (l : List Char) : List Char := if s.letter.isUpper then upper l else l
  if !x.isFinite then
    s.fill false sign (capital (if x.isNaN then "nan".toList else "inf".toList))
  else
    let (num, den) := x.ratio
    let keep := s.has '#'
    let places := s.precision.getD 6
    let body := match s.letter.toLower with
      | 'f' => Decimal.fixed keep places num den
      | 'e' => Decimal.scientific keep places num den
      | 'a' => Decimal.binary keep s.precision x
      | _ => Decimal.general keep places num den
    s.fill true sign (capital body)

def text (s : Spec) (b : Bytes) : Bytes :=
  let b := match s.precision with
    | some n => b.slice 0 n
    | none => b
  let blanks := Bytes.ofLatin (List.replicate (s.width - b.size) ' ')
  if s.has '-' then b ++ blanks else blanks ++ b

end Spec

/-- The flags that a conversion admits, and whether it admits a precision. -/
def admitted? : Char → Option (List Char × Bool)
  | 'c' => some (['-'], false)
  | 'd' | 'i' => some (['-', '+', '0', ' '], true)
  | 'u' => some (['-', '0'], true)
  | 'x' | 'X' | 'o' => some (['-', '#', '0'], true)
  | 'a' | 'A' | 'e' | 'E' | 'f' | 'g' | 'G' => some (['-', '+', '#', '0', ' '], true)
  | 'p' => some (['-'], false)
  | 's' => some (['-'], true)
  | _ => none

def isModifier (c : Char) : Bool := ['-', '+', '#', '0', ' ', '.'].contains c || Numeral.isDigit c

def maxModifiers : Nat := 20

/-- A width or a precision: at most two digits. -/
def number (cs : List Char) : List Char := (cs.take 2).takeWhile Numeral.isDigit

/-- The conversion with these modifiers, if its letter admits them. A width does not begin
with 0. -/
def spec? (modifiers : List Char) (letter : Char) : Option Spec := do
  let (admitted, precise) ← admitted? letter
  let flags := modifiers.takeWhile admitted.contains
  let rest := modifiers.drop flags.length
  let width := if rest.head? = some '0' then [] else number rest
  match rest.drop width.length with
  | [] => some ⟨flags, Numeral.ofDigits 10 width, none, letter⟩
  | '.' :: digits =>
    if precise && number digits == digits then
      some ⟨flags, Numeral.ofDigits 10 width, some (Numeral.ofDigits 10 digits), letter⟩
    else none
  | _ => none

/-- A string as the language itself would write it. -/
def quoteBytes : List Char → List Char
  | [] => []
  | c :: rest =>
    (if c = '"' || c = '\\' then ['\\', c]
    else if c = '\n' then ['\\', '\n']
    else if c = '\x00' || c.toNat < 32 || c.toNat = 127 then
      let ds := (toString c.toNat).toList
      if rest.head?.any Numeral.isDigit then '\\' :: List.replicate (3 - ds.length) '0' ++ ds
      else '\\' :: ds
    else [c]) ++ quoteBytes rest

def literal (args : List Value) (n : Nat) : Script Bytes := do
  match Script.arg args n with
  | .nil => return "nil"
  | .bool b => return (if b then "true" else "false" : String)
  | .int i =>
    return if i = Int64.minValue then "0x8000000000000000" else Value.intText i
  | .float x =>
    if x.isInf then return if x.negative then "-1e9999" else "1e9999"
    else if x.isNaN then return "(0/0)"
    else return .ofLatin ((if x.negative then ['-'] else []) ++ Decimal.binary false none x)
  | .str b => return .ofLatin (['"'] ++ quoteBytes b.latin ++ ['"'])
  | _ => Script.badArgument n "value has no literal form"

def refuse {α : Type} (modifiers : List Char) (letter : Char) : Script α :=
  Script.complain (("invalid conversion specification: '%" : Bytes) ++
    .ofLatin (modifiers ++ [letter]) ++ "'")

def checkSpec (modifiers : List Char) (letter : Char) : Script Spec :=
  match spec? modifiers letter with
  | some s => return s
  | none => refuse modifiers letter

/-- Writes argument `n` by a conversion. Of a bad number and bad modifiers the number comes
first. -/
def convert (modifiers : List Char) (letter : Char) (args : List Value) (n : Nat) :
    Script Bytes := do
  match letter with
  | 'c' =>
    let s ← checkSpec modifiers letter
    let i ← Script.checkInt args n
    return s.text (.ofList [i.toUInt64.toUInt8])
  | 'd' | 'i' | 'u' | 'x' | 'X' | 'o' =>
    let i ← Script.checkInt args n
    return .ofLatin ((← checkSpec modifiers letter).int i)
  | 'a' | 'A' =>
    let s ← checkSpec modifiers letter
    return .ofLatin (s.float (← Script.checkDouble args n))
  | 'e' | 'E' | 'f' | 'g' | 'G' =>
    let x ← Script.checkDouble args n
    return .ofLatin ((← checkSpec modifiers letter).float x)
  | 'p' =>
    let s ← checkSpec modifiers letter
    let v := Script.arg args n
    return s.text (match v.address? with
      | some _ => v.addressText
      | none => "(null)")
  | 's' =>
    let b ← Script.text (Script.arg args n)
    if modifiers.isEmpty then return b
    if b.toList.contains 0 then Script.badArgument n "string contains zeros"
    let s ← checkSpec modifiers letter
    return if s.precision = none ∧ b.size ≥ 100 then b else s.text b
  | 'q' =>
    if modifiers.isEmpty then literal args n
    else Script.complain "specifier '%q' cannot have modifiers"
  | _ =>
    Script.complain (("invalid conversion '%" : Bytes) ++ .ofLatin (modifiers ++ [letter]) ++
      "' to 'format'")

/-- Writes a format with its arguments, of which `n` were used; `fuel` bounds the length. -/
def run (args : List Value) : Nat → List Char → Nat → Bytes → Script Bytes
  | 0, _, _, acc => return acc
  | fuel + 1, cs, n, acc => do
    let plain := cs.takeWhile (· ≠ '%')
    let acc := acc ++ .ofLatin plain
    match cs.drop plain.length with
    | [] => return acc
    | _ :: '%' :: rest => run args fuel rest n (acc ++ "%")
    | _ :: rest =>
      let n := n + 1
      if n > args.length then Script.badArgument n "no value"
      let modifiers := rest.takeWhile isModifier
      if modifiers.length > maxModifiers then Script.complain "invalid format string to 'format'"
      match rest.drop modifiers.length with
      | letter :: rest => run args fuel rest n (acc ++ (← convert modifiers letter args n))
      | [] =>
        Script.complain (("invalid conversion '%" : Bytes) ++ .ofLatin modifiers ++ "' to 'format'")

end Cordon.Lua.Format
