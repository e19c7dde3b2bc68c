import Cordon.Text.Bytes

/-!
# Lossy decoding

Ill-formed bytes are shown as U+FFFD, one for each longest run that begins a well-formed character.
-/

namespace Cordon.Lossy

/-- A character begun: bytes still `missing`, the code `acc` so far, bounds on the next byte. -/
structure Pending where
  missing : Nat
  acc : Nat
  lo : UInt8
  hi : UInt8

def replacement : Char := '\uFFFD'

/-- What a byte does outside a character: it is one, begins one, or is ill-formed. -/
def begin (b : UInt8) : List Char × Option Pending :=
  if b < 0x80 then ([Char.ofNat b.toNat], none)
  else if b < 0xC2 then ([replacement], none)
  else if b < 0xE0 then ([], some ⟨1, b.toNat - 0xC0, 0x80, 0xBF⟩)
  else if b < 0xF0 then
    ([], some ⟨2, b.toNat - 0xE0, if b = 0xE0 then 0xA0 else 0x80, if b = 0xED then 0x9F else 0xBF⟩)
  else if b < 0xF5 then
    ([], some ⟨3, b.toNat - 0xF0, if b = 0xF0 then 0x90 else 0x80, if b = 0xF4 then 0x8F else 0xBF⟩)
  else ([replacement], none)

def decodeFrom : Option Pending → List UInt8 → List Char
  | none, [] => []
  | some _, [] => [replacement]
  | none, b :: rest => (begin b).1 ++ decodeFrom (begin b).2 rest
  | some p, b :: rest =>
    if p.lo ≤ b ∧ b ≤ p.hi then
      let acc := p.acc * 64 + (b.toNat - 0x80)
      if p.missing ≤ 1 then Char.ofNat acc :: decodeFrom none rest
      else decodeFrom (some ⟨p.missing - 1, acc, 0x80, 0xBF⟩) rest
    else replacement :: ((begin b).1 ++ decodeFrom (begin b).2 rest)

end Cordon.Lossy

namespace Cordon

/-- The text of a byte string, ill-formed parts replaced. -/
def Bytes.lossy (b : Bytes) : String := String.ofList (Lossy.decodeFrom none b.toList)

/-- The bytes before the first zero byte. -/
def Bytes.beforeNul (b : Bytes) : Bytes := .ofList (b.toList.takeWhile (· ≠ 0))

end Cordon
