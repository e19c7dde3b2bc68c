/-!
# Byte strings

Script strings are arbitrary bytes, host strings are text. Two texts are equal iff their encodings
are, so names are compared and ordered by their bytes.
-/

namespace Cordon

/-- A string of arbitrary bytes. -/
abbrev Bytes := ByteArray

namespace Bytes

/-- Compares from position `i`; `n` bounds the positions still to visit. -/
def compareFrom (a b : Bytes) : Nat → Nat → Ordering
  | 0, _ => compare a.size b.size
  | n + 1, i =>
    if h : i < a.size then
      if h' : i < b.size then
        match compare a[i] b[i] with
        | .eq => compareFrom a b n (i + 1)
        | o => o
      else .gt
    else if i < b.size then .lt else .eq

/-- Byte order: the first differing byte decides, and a proper initial part comes first. -/
def order (a b : Bytes) : Ordering := compareFrom a b a.size 0

def lt (a b : Bytes) : Bool := order a b == .lt

def ofString (s : String) : Bytes := s.toUTF8

def ofList (l : List UInt8) : Bytes := ⟨l.toArray⟩

def toList (b : Bytes) : List UInt8 := b.data.toList

/-- The byte at `i`, with zero past the end. -/
def at0 (b : Bytes) (i : Nat) : UInt8 := if h : i < b.size then b[i] else 0

def slice (b : Bytes) (start stop : Nat) : Bytes := b.extract start stop

/-- The text a byte string encodes, if it is well-formed. -/
def text? (b : Bytes) : Option String := String.fromUTF8? b

/-- The first position at or after `i` where `part` occurs in `whole`; `n` bounds the positions
tried. -/
def findFrom (whole part : Bytes) : Nat → Nat → Option Nat
  | 0, _ => none
  | n + 1, i =>
    if i + part.size > whole.size then none
    else if whole.extract i (i + part.size) == part then some i
    else findFrom whole part n (i + 1)

/-- The first occurrence of `part` in `whole` at or after `start`. -/
def find? (whole part : Bytes) (start : Nat) : Option Nat :=
  findFrom whole part (whole.size + 1) start

/-- `parts` with `sep` between neighbours. -/
def join (sep : Bytes) : List Bytes → Bytes
  | [] => .empty
  | b :: rest => rest.foldl (fun acc c => acc ++ sep ++ c) b

end Bytes

instance : Coe String Bytes := ⟨Bytes.ofString⟩

instance : DecidableEq Bytes := ByteArray.instDecidableEq

end Cordon
