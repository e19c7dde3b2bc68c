import Cordon.Lua.Script

/-!
# UTF-8 library

Code points and their encodings. Codes may take up to 31 bits where a call asks for the lax form;
otherwise they are those of characters.
-/

namespace Cordon.Lua.Utf8Fn

def all : List (String × Utf8Fn) :=
  [("char", char), ("codepoint", codepoint), ("codes", codes), ("len", len), ("offset", offset)]

def charPattern : Bytes :=
  ("[" : Bytes) ++ .ofList [0] ++ "-" ++ .ofList [0x7F, 0xC2] ++ "-" ++ .ofList [0xFD] ++ "][" ++
    .ofList [0x80] ++ "-" ++ .ofList [0xBF] ++ "]*"

def isContinuation (c : UInt8) : Bool := c &&& 0xC0 == 0x80

/-- The greatest code of an encoding with this many continuation bytes. -/
def limit : Nat → Nat
  | 0 => 0x7F
  | 1 => 0x7FF
  | 2 => 0xFFFF
  | 3 => 0x1FFFFF
  | 4 => 0x3FFFFFF
  | _ => 0x7FFFFFFF

/-- The number of continuation bytes that a first byte announces. -/
def announced (c : UInt8) : Option Nat :=
  if c < 0x80 then some 0
  else if c < 0xC0 then none
  else if c < 0xE0 then some 1
  else if c < 0xF0 then some 2
  else if c < 0xF8 then some 3
  else if c < 0xFC then some 4
  else if c < 0xFE then some 5
  else none

/-- The code encoded at `i`, and where its encoding ends. -/
def decode? (lax : Bool) (b : Bytes) (i : Nat) : Option (Nat × Nat) :=
  let c := b.at0 i
  match announced c with
  | none => none
  | some n =>
    let rest := (b.slice (i + 1) (i + 1 + n)).toList
    if rest.length = n ∧ rest.all isContinuation then
      let head := if n = 0 then c.toNat else c.toNat % Nat.pow 2 (6 - n)
      let code := rest.foldl (fun code c => code * 64 + c.toNat % 64) head
      let least := if n = 0 then 0 else limit (n - 1) + 1
      if code < least then none
      else if !lax && (code > 0x10FFFF || (0xD800 ≤ code && code ≤ 0xDFFF)) then none
      else some (code, i + 1 + n)
    else none

/-- The continuation bytes of a code, `n` of them. -/
def tailOf : Nat → Nat → List UInt8
  | 0, _ => []
  | n + 1, code => tailOf n (code / 64) ++ [UInt8.ofNat (0x80 + code % 64)]

/-- The encoding of a code below 2^31. -/
def encode (code : Nat) : Bytes :=
  let n := ((List.range 5).filter fun k => limit k < code).length
  if n = 0 then .ofList [UInt8.ofNat code]
  else .ofList (UInt8.ofNat (256 - Nat.pow 2 (7 - n) + code / Nat.pow 64 n) :: tailOf n code)

open Script

/-- A position counted from the end if it is negative; 0 if it lies before the start. -/
def relative (i : Int64) (size : Nat) : Int :=
  if i ≥ 0 then i.toInt
  else if i.toInt < -(size : Int) then 0
  else size + i.toInt + 1

def invalidCode : Bytes := "invalid UTF-8 code"

def runChar (args : List Value) : Script (List Value) := do
  let parts ← (List.range args.length).mapM fun n => do
    let code ← checkInt args (n + 1)
    unless code.toUInt64 ≤ 0x7FFFFFFF do badArgument (n + 1) "value out of range"
    return encode code.toNatClampNeg
  return [.str (Bytes.join .empty parts)]

/-- The codes from `i` up to `stop`; `n` bounds their number. -/
def codesFrom (lax : Bool) (b : Bytes) (stop : Nat) : Nat → Nat → Script (List Value)
  | 0, _ => return []
  | n + 1, i => do
    if i ≥ stop then return []
    match decode? lax b i with
    | some (code, next) => return .ofNat code :: (← codesFrom lax b stop n next)
    | none => complain invalidCode

def runCodepoint (args : List Value) : Script (List Value) := do
  let b ← checkText args 1
  let i ← optInt args 2 1
  let start := relative i b.size
  let stop := relative (← optInt args 3 (Int64.ofInt start)) b.size
  let lax := (arg args 4).truthy
  unless start ≥ 1 do badArgument 2 "out of bounds"
  unless stop ≤ b.size do badArgument 3 "out of bounds"
  codesFrom lax b stop.toNat (b.size + 1) (start - 1).toNat

/-- The number of encodings that begin from `i` to `last`, or where there is none. -/
def count (lax : Bool) (b : Bytes) (last : Int) : Nat → Nat → Nat → Except Nat Nat
  | 0, _, found => .ok found
  | n + 1, i, found =>
    if (i : Int) > last then .ok found
    else
      match decode? lax b i with
      | some (_, next) => count lax b last n next (found + 1)
      | none => .error i

def runLen (args : List Value) : Script (List Value) := do
  let b ← checkText args 1
  let start := relative (← optInt args 2 1) b.size
  let last := relative (← optInt args 3 (-1)) b.size
  let lax := (arg args 4).truthy
  unless 1 ≤ start ∧ start - 1 ≤ b.size do badArgument 2 "initial position out of bounds"
  unless last - 1 < b.size do badArgument 3 "final position out of bounds"
  match count lax b (last - 1) (b.size + 1) (start - 1).toNat 0 with
  | .ok n => return [.ofNat n]
  | .error i => return [.nil, .ofNat (i + 1)]

/-- The start of the encoding that the byte at `i` belongs to. -/
def startOf (b : Bytes) : Nat → Nat
  | 0 => 0
  | i + 1 => if isContinuation (b.at0 (i + 1)) then startOf b i else i + 1

/-- The first byte from `i` on that continues nothing; `n` bounds the bytes passed. -/
def skip (b : Bytes) : Nat → Nat → Nat
  | 0, i => i
  | n + 1, i => if isContinuation (b.at0 i) then skip b n (i + 1) else i

/-- `n` encodings back from `i`. -/
def back (b : Bytes) : Nat → Nat → Option Nat
  | 0, i => some i
  | _ + 1, 0 => none
  | n + 1, i + 1 => back b n (startOf b i)

/-- `n` encodings on from `i`. -/
def forth (b : Bytes) : Nat → Nat → Option Nat
  | 0, i => some i
  | n + 1, i => if i < b.size then forth b n (skip b b.size (i + 1)) else none

def runOffset (args : List Value) : Script (List Value) := do
  let b ← checkText args 1
  let n ← checkInt args 2
  let i := relative (← optInt args 3 (if n > 0 then 1 else Int64.ofNat (b.size + 1))) b.size
  unless 1 ≤ i ∧ i - 1 ≤ b.size do badArgument 3 "position out of bounds"
  let i := (i - 1).toNat
  let answer (r : Option Nat) : Script (List Value) := return match r with
    | some i => [.ofNat (i + 1)]
    | none => [.nil]
  if n = 0 then answer (some (startOf b i))
  else if isContinuation (b.at0 i) then complain "initial position is a continuation byte"
  else if n < 0 then answer (back b (min n.toInt.natAbs (b.size + 1)) i)
  else answer (forth b (min (n.toNatClampNeg - 1) (b.size + 1)) i)

def runCodes (args : List Value) : Script (List Value) := do
  let b ← checkText args 1
  let lax := (arg args 2).truthy
  if isContinuation (b.at0 0) then badArgument 1 invalidCode
  return [← updateGet fun s => s.newNative (.codesStep lax), .str b, .int 0]

/-- The encoding after the one that begins at the given position, counted from 1. -/
def runCodesStep (lax : Bool) (args : List Value) : Script (List Value) := do
  let b ← checkText args 1
  let i := ((arg args 2).toInt?.getD 0).toUInt64.toNat
  if i ≥ b.size then return []
  let i := skip b b.size i
  if i ≥ b.size then return []
  match decode? lax b i with
  | some (code, next) =>
    if isContinuation (b.at0 next) then complain invalidCode
    return [.ofNat (i + 1), .ofNat code]
  | none => complain invalidCode

def run (f : Utf8Fn) (args : List Value) : Script (List Value) :=
  match f with
  | char => runChar args
  | codepoint => runCodepoint args
  | codes => runCodes args
  | len => runLen args
  | offset => runOffset args

end Cordon.Lua.Utf8Fn
