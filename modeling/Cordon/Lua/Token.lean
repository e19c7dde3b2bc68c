import Cordon.Lua.Number.Numeral
import Cordon.Text.Latin

/-!
# Tokens

A source text is cut into tokens from left to right. A token keeps its own text and the line on
which it ends. Where no token can be cut, the list ends in a message instead.
-/

namespace Cordon.Lua

inductive Token.Kind where
  | eof
  | name (s : Bytes)
  | str (s : Bytes)
  | num (n : Numeral)
  /-- A reserved word, an operator, or any other single character. -/
  | word (s : String)
  /-- What is wrong, and the text it is wrong near to. -/
  | bad (message near : List Char)
  deriving DecidableEq

structure Token where
  kind : Token.Kind
  text : List Char
  line : Nat

namespace Token

instance : Inhabited Token := ⟨⟨.eof, [], 0⟩⟩

def reserved : List String :=
  ["and", "break", "do", "else", "elseif", "end", "false", "for", "function", "goto", "if", "in",
   "local", "nil", "not", "or", "repeat", "return", "then", "true", "until", "while"]

def symbols : List String := ["//", "..", "...", "==", ">=", "<=", "~=", "<<", ">>", "::"]

def isNameStart (c : Char) : Bool :=
  ('a' ≤ c && c ≤ 'z') || ('A' ≤ c && c ≤ 'Z') || c = '_'

def isNamePart (c : Char) : Bool := isNameStart c || Numeral.isDigit c

def isNewline (c : Char) : Bool := c = '\n' || c = '\r'

/-- Drops one line break, two different newline characters being one break. -/
def dropNewline : List Char → List Char
  | '\r' :: '\n' :: cs => cs
  | '\n' :: '\r' :: cs => cs
  | _ :: cs => cs
  | [] => []

/-- Text as it is quoted in messages: up to a zero byte. -/
def shown (text : List Char) : List Char := ['\''] ++ text.takeWhile (· ≠ '\x00') ++ ['\'']

def eofText : List Char := "<eof>".toList

/-- One character as it is quoted in messages, by its code if it does not show. -/
def shownChar (c : Char) : List Char :=
  if ' ' ≤ c && c ≤ '~' then shown [c]
  else shown ("<\\".toList ++ (toString c.toNat).toList ++ ['>'])

/-! ## Long brackets -/

/-- The level of a long bracket that opens here, after its first bracket, and the text after it. -/
def longOpen? (cs : List Char) : Option (Nat × List Char) :=
  let signs := cs.takeWhile (· = '=')
  match cs.drop signs.length with
  | '[' :: rest => some (signs.length, rest)
  | _ => none

/-- The text after a closing bracket of this level, if one stands here. -/
def longClose? (level : Nat) : List Char → Option (List Char)
  | ']' :: cs =>
    if (cs.take level).all (· = '=') && (cs.take level).length = level then
      match cs.drop level with
      | ']' :: rest => some rest
      | _ => none
    else none
  | _ => none

/-- Reads to the closing bracket: content in reverse, text after it, line; `none` at the end. -/
def longBody (level : Nat) :
    Nat → List Char → List Char → Nat → Option (List Char × List Char × Nat)
  | 0, _, _, _ => none
  | n + 1, acc, cs, line =>
    match cs with
    | [] => none
    | c :: rest =>
      match longClose? level cs with
      | some rest => some (acc, rest, line)
      | none =>
        if isNewline c then longBody level n ('\n' :: acc) (dropNewline cs) (line + 1)
        else longBody level n (c :: acc) rest line

/-- A long bracket after its opening; a newline right after the opening is skipped. -/
def longBracket (level : Nat) (cs : List Char) (line : Nat) :
    Option (List Char × List Char × Nat) :=
  match cs with
  | c :: _ =>
    if isNewline c then longBody level (cs.length + 1) [] (dropNewline cs) (line + 1)
    else longBody level (cs.length + 1) [] cs line
  | [] => none

/-! ## Quoted strings -/

/-- The bytes of a code point in the extended encoding of up to six bytes. -/
def encodePoint (n : Nat) : List Char :=
  let tail (k : Nat) : Char := Char.ofNat (0x80 + n / Nat.pow 64 k % 64)
  if n < 0x80 then [Char.ofNat n]
  else if n < 0x800 then [Char.ofNat (0xC0 + n / 64), tail 0]
  else if n < 0x10000 then [Char.ofNat (0xE0 + n / 0x1000), tail 1, tail 0]
  else if n < 0x200000 then [Char.ofNat (0xF0 + n / 0x40000), tail 2, tail 1, tail 0]
  else if n < 0x4000000 then [Char.ofNat (0xF8 + n / 0x1000000), tail 3, tail 2, tail 1, tail 0]
  else [Char.ofNat (0xFC + n / 0x40000000), tail 4, tail 3, tail 2, tail 1, tail 0]

/-- What an escape sequence gives: content, the text after it, line; or a message and the text up to
where it is wrong. -/
abbrev Escaped := Except (List Char × List Char) (List Char × List Char × Nat)

/-- A bad escape is shown up to the character that is wrong. -/
def badEscape (message : String) (seen rest : List Char) : Escaped :=
  .error (message.toList, seen ++ rest.take 1)

def simpleEscape? : Char → Option Char
  | 'a' => some '\x07'
  | 'b' => some '\x08'
  | 'f' => some '\x0c'
  | 'n' => some '\n'
  | 'r' => some '\r'
  | 't' => some '\t'
  | 'v' => some '\x0b'
  | '\\' => some '\\'
  | '"' => some '"'
  | '\'' => some '\''
  | _ => none

def hexEscape (cs : List Char) (line : Nat) : Escaped :=
  match cs.take 2 with
  | [] => badEscape "hexadecimal digit expected" ['\\', 'x'] cs
  | a :: more =>
    if Numeral.isHex a then
      match more with
      | [b] =>
        if Numeral.isHex b then .ok ([Char.ofNat (Numeral.ofDigits 16 [a, b])], cs.drop 2, line)
        else badEscape "hexadecimal digit expected" ['\\', 'x', a] [b]
      | _ => badEscape "hexadecimal digit expected" ['\\', 'x', a] []
    else badEscape "hexadecimal digit expected" ['\\', 'x'] cs

/-- The digits of a code point escape: the value so far grows below `2 ^ 31`. -/
def pointDigits (seen : List Char) : List Char → Nat → Except (List Char × List Char)
    (Nat × List Char × List Char)
  | c :: rest, n =>
    if Numeral.isHex c then
      if n * 16 + Numeral.digitValue c < 0x80000000 then
        pointDigits (seen ++ [c]) rest (n * 16 + Numeral.digitValue c)
      else .error ("UTF-8 value too large".toList, seen ++ [c])
    else .ok (n, seen, c :: rest)
  | [], n => .ok (n, seen, [])

def pointEscape (cs : List Char) (line : Nat) : Escaped :=
  match cs with
  | '\x7b' :: rest =>
    if (rest.take 1).any Numeral.isHex then
      match pointDigits ['\\', 'u', '\x7b'] rest 0 with
      | .error e => .error e
      | .ok (n, _, '\x7d' :: after) => .ok (encodePoint n, after, line)
      | .ok (_, seen, after) => badEscape "missing '\x7d'" seen after
    else badEscape "hexadecimal digit expected" ['\\', 'u', '\x7b'] rest
  | cs => badEscape "missing '\x7b'" ['\\', 'u'] cs

def decimalEscape (cs : List Char) (line : Nat) : Escaped :=
  let ds := (cs.take 3).takeWhile Numeral.isDigit
  let n := Numeral.ofDigits 10 ds
  if n ≤ 255 then .ok ([Char.ofNat n], cs.drop ds.length, line)
  else badEscape "decimal escape too large" ('\\' :: ds) (cs.drop ds.length)

/-- Skips blanks and counts their line breaks; `fuel` bounds their number. -/
def skipBlanks : Nat → List Char → Nat → List Char × Nat
  | 0, cs, line => (cs, line)
  | n + 1, cs, line =>
    match cs with
    | c :: rest =>
      if isNewline c then skipBlanks n (dropNewline cs) (line + 1)
      else if Numeral.isSpace c then skipBlanks n rest line
      else (cs, line)
    | [] => (cs, line)

def escape (cs : List Char) (line : Nat) : Escaped :=
  match cs with
  | [] => .ok ([], [], line)
  | c :: rest =>
    match simpleEscape? c with
    | some e => .ok ([e], rest, line)
    | none =>
      if c = 'x' then hexEscape rest line
      else if c = 'u' then pointEscape rest line
      else if isNewline c then .ok (['\n'], dropNewline cs, line + 1)
      else if c = 'z' then
        let (rest, line) := skipBlanks rest.length rest line
        .ok ([], rest, line)
      else if Numeral.isDigit c then decimalEscape cs line
      else badEscape "invalid escape sequence" ['\\'] cs

/-- Reads a quoted string to its closing quote; `acc` is the content so far, reversed. An error
shows the string as far as it was understood. -/
def quoted (quote : Char) : Nat → List Char → List Char → Nat →
    Except (List Char × List Char × Nat) (List Char × List Char × Nat)
  | 0, _, _, line => .error ("unfinished string".toList, eofText, line)
  | n + 1, acc, cs, line =>
    match cs with
    | [] => .error ("unfinished string".toList, eofText, line)
    | c :: rest =>
      if c = quote then .ok (acc.reverse, rest, line)
      else if isNewline c then
        .error ("unfinished string".toList, shown (quote :: acc.reverse), line)
      else if c = '\\' then
        match escape rest line with
        | .error (message, near) => .error (message, shown (quote :: acc.reverse ++ near), line)
        | .ok (content, rest, line) => quoted quote n (content.reverse ++ acc) rest line
      else quoted quote n (c :: acc) rest line

/-! ## Numerals -/

/-- The text that reads as one numeral, in reverse, and the text after it. -/
def numeralText (isMark : Char → Bool) : List Char → List Char → List Char × List Char
  | acc, c :: d :: rest =>
    if isMark c && (d = '+' || d = '-') then numeralText isMark (d :: c :: acc) rest
    else if isMark c || Numeral.isHex c || c = '.' then numeralText isMark (c :: acc) (d :: rest)
    else (acc, c :: d :: rest)
  | acc, [c] => if isMark c || Numeral.isHex c || c = '.' then (c :: acc, []) else (acc, [c])
  | acc, [] => (acc, [])

/-- A numeral that begins here. A letter right after it spoils it. -/
def numeral (cs : List Char) (line : Nat) : Token × List Char :=
  let (start, isMark, rest) : List Char × (Char → Bool) × List Char := match cs with
    | '0' :: 'x' :: rest => (['x', '0'], (fun c => c = 'p' || c = 'P'), rest)
    | '0' :: 'X' :: rest => (['X', '0'], (fun c => c = 'p' || c = 'P'), rest)
    | cs => ([], (fun c => c = 'e' || c = 'E'), cs)
  let (text, rest) := numeralText isMark start rest
  let (text, rest) := match rest with
    | c :: after => if isNameStart c then (c :: text, after) else (text, rest)
    | [] => (text, rest)
  let text := text.reverse
  match Numeral.read? text with
  | some n => (⟨.num n, text, line⟩, rest)
  | none => (⟨.bad "malformed number".toList (shown text), text, line⟩, rest)

/-! ## All tokens -/

def nameToken (text : List Char) (line : Nat) : Token :=
  let s := String.ofList text
  if reserved.contains s then ⟨.word s, text, line⟩ else ⟨.name (.ofLatin text), text, line⟩

/-- The operator that begins here, the longest that fits. -/
def symbolToken (cs : List Char) (line : Nat) : Token × List Char :=
  if symbols.contains (String.ofList (cs.take 3)) && cs.length ≥ 3 then
    (⟨.word (String.ofList (cs.take 3)), cs.take 3, line⟩, cs.drop 3)
  else if symbols.contains (String.ofList (cs.take 2)) && cs.length ≥ 2 then
    (⟨.word (String.ofList (cs.take 2)), cs.take 2, line⟩, cs.drop 2)
  else (⟨.word (String.ofList (cs.take 1)), cs.take 1, line⟩, cs.drop 1)

/-- What a comment leaves, after its two signs; a message if it does not end. -/
def dropComment (cs : List Char) (line : Nat) : Except Token (List Char × Nat) :=
  let short := cs.dropWhile (!isNewline ·)
  match cs with
  | '[' :: rest =>
    match longOpen? rest with
    | some (level, rest) =>
      match longBracket level rest line with
      | some (_, rest, line) => .ok (rest, line)
      | none =>
        let lines := line + (rest.filter (· = '\n')).length
        .error ⟨.bad ("unfinished long comment (starting at line ".toList ++ (toString line).toList ++
          [')']) eofText, [], lines⟩
    | none => .ok (short, line)
  | _ => .ok (short, line)

/-- The tokens of a text, and the line of its end; `fuel` bounds the steps. -/
def scan : Nat → List Char → Nat → List Token
  | 0, _, line => [⟨.eof, eofText, line⟩]
  | n + 1, cs, line =>
    match cs with
    | [] => [⟨.eof, eofText, line⟩]
    | c :: rest =>
      if isNewline c then scan n (dropNewline cs) (line + 1)
      else if Numeral.isSpace c then scan n rest line
      else if isNameStart c then
        nameToken (cs.takeWhile isNamePart) line :: scan n (cs.dropWhile isNamePart) line
      else if Numeral.isDigit c || (c = '.' && (rest.take 1).any Numeral.isDigit) then
        let (t, rest) := numeral cs line
        t :: scan n rest line
      else if c = '"' || c = '\'' then
        match quoted c (rest.length + 1) [] rest line with
        | .error (message, near, line) => [⟨.bad message near, [], line⟩]
        | .ok (content, rest, line) =>
          ⟨.str (.ofLatin content), c :: content ++ [c], line⟩ :: scan n rest line
      else if c = '-' && rest.take 1 == ['-'] then
        match dropComment (rest.drop 1) line with
        | .error t => [t]
        | .ok (rest, line) => scan n rest line
      else if c = '[' then
        match longOpen? rest with
        | some (level, body) =>
          match longBracket level body line with
          | some (content, rest, line) =>
            let signs := List.replicate level '='
            let text := '[' :: signs ++ '[' :: content.reverse ++ ']' :: signs ++ [']']
            ⟨.str (.ofLatin content.reverse), text, line⟩ :: scan n rest line
          | none =>
            [⟨.bad ("unfinished long string (starting at line ".toList ++ (toString line).toList ++
              [')']) eofText, [], line + (body.filter (· = '\n')).length⟩]
        | none =>
          if rest.take 1 == ['='] then
            [⟨.bad "invalid long string delimiter".toList
              (shown ('[' :: rest.takeWhile (· = '='))), [], line⟩]
          else ⟨.word "[", ['['], line⟩ :: scan n rest line
      else
        let (t, rest) := symbolToken cs line
        t :: scan n rest line

def ofBytes (b : Bytes) : List Token :=
  let cs := b.latin
  scan (cs.length + 1) cs 1

/-- The text by which a message points at the token. -/
def near (t : Token) : List Char :=
  match t.kind with
  | .eof => eofText
  | .word s => match s.toList with
    | [c] => shownChar c
    | cs => shown cs
  | _ => shown t.text

/-- What a message adds to point at the token. Nothing points at a zero byte. -/
def nearNote (t : Token) : List Char :=
  if t.kind == .word "\x00" then [] else " near ".toList ++ t.near

end Token

end Cordon.Lua
