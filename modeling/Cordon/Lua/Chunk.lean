import Cordon.Text.Bytes

/-!
# Names of source texts

A source text has a name, by which messages refer to it: `=name` stands for itself, `@name` for a
file, and any other name is the text itself, of which the first line is shown.
-/

namespace Cordon.Lua.Chunk

def room : Nat := 59

def shown (name : Bytes) : Bytes :=
  if name.at0 0 = 61 && name.size > 0 then
    if name.size ≤ room then name.slice 1 name.size else name.slice 1 (room + 1)
  else if name.at0 0 = 64 && name.size > 0 then
    if name.size ≤ room then name.slice 1 name.size
    else ("..." : Bytes) ++ name.slice (name.size - (room - 3)) name.size
  else
    let room := room - 14
    let line := match name.find? "\n" 0 with
      | some n => n
      | none => name.size
    if line = name.size ∧ name.size ≤ room then ("[string \"" : Bytes) ++ name ++ "\"]"
    else ("[string \"" : Bytes) ++ name.slice 0 (min line (room + 1)) ++ "...\"]"

/-- A message with the place it belongs to. -/
def at_ (chunk : Bytes) (line : Nat) (message : Bytes) : Bytes :=
  chunk ++ ":" ++ (toString line : String) ++ ": " ++ message

end Cordon.Lua.Chunk
