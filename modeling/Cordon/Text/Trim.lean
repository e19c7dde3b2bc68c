import Cordon.Text.Charset

/-!
# Trimming and splitting text
-/

namespace Cordon.Trim

/-- `l` without a leading `p`, if it has one. -/
def dropHead? (p : List Char) (l : List Char) : Option (List Char) :=
  if p.isPrefixOf l then some (l.drop p.length) else none

/-- `l` without leading copies of `p`; `fuel` bounds their number. -/
def dropHeads (p : List Char) : Nat → List Char → List Char
  | 0, l => l
  | n + 1, l =>
    match dropHead? p l with
    | some rest => if p.isEmpty then l else dropHeads p n rest
    | none => l

def dropBlanks (l : List Char) : List Char := l.dropWhile Charset.isBlank

def dropEndBlanks (l : List Char) : List Char := (dropBlanks l.reverse).reverse

/-- The text before and from the first occurrence of `part`. -/
def splitAt? (part : List Char) : List Char → Option (List Char × List Char)
  | [] => if part.isEmpty then some ([], []) else none
  | c :: rest =>
    if part.isPrefixOf (c :: rest) then some ([], c :: rest)
    else (splitAt? part rest).map fun s => (c :: s.1, s.2)

end Cordon.Trim
