import Cordon.Text.Bytes

/-!
# Captured output

What a sandbox prints, as one text. Positions in it are byte offsets, so that the length at one
moment marks where later output begins.
-/

namespace Cordon

/-- The lines printed so far, each with its newline. -/
structure Output where
  text : String := ""

namespace Output

instance : Inhabited Output := ⟨{}⟩

def push (o : Output) (line : String) : Output := ⟨o.text ++ line ++ "\n"⟩

def clear (_ : Output) : Output := {}

def size (o : Output) : Nat := o.text.utf8ByteSize

def isEmpty (o : Output) : Bool := o.size == 0

/-- The characters from byte `offset` on; nothing if that lies inside a character or past the
end. -/
def dropBytes : Nat → List Char → List Char
  | 0, cs => cs
  | _ + 1, [] => []
  | n + 1, c :: cs => if c.utf8Size ≤ n + 1 then dropBytes (n + 1 - c.utf8Size) cs else []

/-- The output from byte `offset` on. -/
def since (o : Output) (offset : Nat) : String := String.ofList (dropBytes offset o.text.toList)

end Output

end Cordon
