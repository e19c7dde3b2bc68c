import Cordon.Lua.Parse
import Cordon.Lua.Script

/-!
# Compiling source texts

A text is refused if its form is not the admitted one: a text whose first byte is an escape
character passes for compiled code, of which only what `dump` made is understood.
-/

namespace Cordon.Lua

/-- Which forms of code are admitted, as named in messages. -/
structure Mode where
  name : Bytes

namespace Mode

def text : Mode := ⟨"t"⟩

def admits (m : Mode) (c : UInt8) : Bool := m.name.toList.contains c

end Mode

def escapeByte : UInt8 := 27

def isBinary (source : Bytes) : Bool := source.size > 0 && source.at0 0 == escapeByte

/-- The head of dumped code; the number of the function follows. -/
def dumpHead : Bytes := .ofList [27, 76, 117, 97]

/-- The code of a dumped function, if this is one. -/
def undump? (s : Store) (source : Bytes) : Option (Bytes × Func) :=
  if source.slice 0 4 == dumpHead then
    let id := Numeral.ofDigits 10 (source.slice 4 source.size).latin
    match s.function? id with
    | some (.closure chunk f _) => if source.size > 4 then some (chunk, f) else none
    | _ => none
  else none

/-- Compiles a source; `chunk` is its name in full. -/
def compile (s : Store) (source chunk : Bytes) (mode : Mode) : Except Bytes (Bytes × Func) :=
  let chunk := chunk.beforeNul
  if isBinary source then
    if mode.admits 98 then
      match undump? s source with
      | some r => .ok r
      | none => .error ((if chunk.at0 0 = 61 || chunk.at0 0 = 64 then chunk.slice 1 chunk.size
          else if isBinary chunk then "binary string" else chunk) ++
          ": bad binary format (truncated chunk)")
    else .error ("attempt to load a binary chunk (mode is '" ++ mode.name ++ "')")
  else if mode.admits 116 then
    let shown := Chunk.shown chunk
    (parse source shown).map fun f => (shown, f)
  else .error ("attempt to load a text chunk (mode is '" ++ mode.name ++ "')")

def Store.instantiate (s : Store) (chunk : Bytes) (f : Func) (environment : Value) :
    Value × Store :=
  let (cell, s) := s.newCell environment
  let (id, s) := s.newFunction (.closure chunk f [cell])
  (.fn id, s)

end Cordon.Lua
