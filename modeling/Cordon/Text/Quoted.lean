import Cordon.Text.Charset

/-!
# Quoted text

Text between double quotes on one line: quotes and backslashes get a backslash, and a character that
would not show by itself is written by its code point.
-/

namespace Cordon.Quoted

/-- The digits of `n` in base 16, most significant first; `fuel` bounds their number. -/
def hexDigits : Nat → Nat → List Char
  | 0, _ => []
  | fuel + 1, n =>
    (if n < 16 then [] else hexDigits fuel (n / 16)) ++ [Nat.digitChar (n % 16)]

def escape (c : Char) : List Char :=
  if c = '\x00' then ['\\', '0']
  else if c = '\t' then ['\\', 't']
  else if c = '\r' then ['\\', 'r']
  else if c = '\n' then ['\\', 'n']
  else if c = '"' then ['\\', '"']
  else if c = '\\' then ['\\', '\\']
  else if Charset.unprintable.contains c || Charset.extending.contains c then
    ['\\', 'u', '\x7b'] ++ hexDigits 8 c.toNat ++ ['\x7d']
  else [c]

def quote (s : String) : String :=
  String.ofList ('"' :: s.toList.flatMap escape ++ ['"'])

/-- An optional text: `None`, or the quoted text in `Some(…)`. -/
def quoteOption : Option String → String
  | none => "None"
  | some s => "Some(" ++ quote s ++ ")"

end Cordon.Quoted
