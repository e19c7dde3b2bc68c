import Cordon.Text.Bytes

/-!
# Bytes as characters

Source text and numerals are read one byte at a time, a byte being the character of that code.
-/

namespace Cordon.Bytes

def latin (b : Bytes) : List Char := b.toList.map fun c => Char.ofNat c.toNat

def ofLatin (l : List Char) : Bytes := ofList (l.map fun c => UInt8.ofNat c.toNat)

end Cordon.Bytes
