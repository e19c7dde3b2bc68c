import Cordon.Lua.Value
import Std.Data.TreeMap

/-!
# Tables

A table keeps the values of the keys 1 to n in an array and the others in a map. Traversal visits
the array, then the other keys in the order in which they were first set. A key that was removed
keeps its place, so that entries can be removed during a traversal.
-/

namespace Cordon.Lua

structure Table where
  /-- The values of the keys from 1 on; some may be nil. -/
  items : Array Value := #[]
  /-- Every other key with its place in `keys` and its value. -/
  fields : Std.TreeMap Key (Nat × Value) Key.order := {}
  keys : Array Key := #[]
  metatable : Option Nat := none

namespace Table

instance : Inhabited Table := ⟨{}⟩

def field (t : Table) (k : Key) : Value :=
  match t.fields[k]? with
  | some (_, v) => v
  | none => .nil

/-- The index in `items` of a key, if it has one. -/
def slot? (t : Table) : Key → Option Nat
  | .int i =>
    let n := i.toNatClampNeg
    if 1 ≤ n ∧ n ≤ t.items.size then some (n - 1) else none
  | _ => none

def get (t : Table) (k : Key) : Value :=
  match t.slot? k with
  | some n => t.items.getD n .nil
  | none => t.field k

def getStr (t : Table) (s : Bytes) : Value := t.field (.str s)

def setField (t : Table) (k : Key) (v : Value) : Table :=
  match t.fields[k]? with
  | some (place, _) => { t with fields := t.fields.insert k (place, v) }
  | none =>
    if v.isNil then t
    else { t with fields := t.fields.insert k (t.keys.size, v), keys := t.keys.push k }

def isNext (t : Table) : Key → Bool
  | .int i => i.toNatClampNeg = t.items.size + 1
  | _ => false

/-- Moves the keys that follow the array into it; `fuel` bounds their number. -/
def absorb : Nat → Table → Table
  | 0, t => t
  | n + 1, t =>
    -- past the greatest integer the next number is none that follows
    let k := Key.int (Int64.ofNat (t.items.size + 1))
    match t.fields[k]? with
    | some (place, v) =>
      if v.isNil || !t.isNext k then t
      else absorb n { t with
        items := t.items.push v
        fields := t.fields.insert k (place, .nil) }
    | none => t

def set (t : Table) (k : Key) (v : Value) : Table :=
  match t.slot? k with
  | some n => { t with items := t.items.setIfInBounds n v }
  | none =>
    if t.isNext k && !v.isNil then
      let t := if t.fields.isEmpty then t else t.setField k .nil
      absorb t.fields.size { t with items := t.items.push v }
    else t.setField k v

def setStr (t : Table) (s : Bytes) (v : Value) : Table := t.setField (.str s) v

/-- A table of the values, the first under 1; nil among them is kept. -/
def ofItems (vs : List Value) : Table := { items := vs.toArray }

/-- Puts the values under the keys from 1 on. Entries under these keys are replaced, also by nil. -/
def setItems (t : Table) (vs : List Value) : Table :=
  if t.fields.isEmpty then { t with items := vs.toArray }
  else
    let t := (List.range vs.length).foldl
      (fun t n => t.setField (.int (Int64.ofNat (n + 1))) .nil) t
    { t with items := vs.toArray }

/-! ## Traversal -/

/-- The first entry of the array from index `n` on. -/
def itemFrom (t : Table) : Nat → Nat → Option (Value × Value)
  | 0, _ => none
  | fuel + 1, n =>
    if h : n < t.items.size then
      if t.items[n].isNil then itemFrom t fuel (n + 1)
      else some (.ofNat (n + 1), t.items[n])
    else none

/-- The first entry among the other keys from place `n` on. -/
def fieldFrom (t : Table) : Nat → Nat → Option (Value × Value)
  | 0, _ => none
  | fuel + 1, n =>
    if h : n < t.keys.size then
      let v := t.field t.keys[n]
      if v.isNil then fieldFrom t fuel (n + 1) else some (t.keys[n].toValue, v)
    else none

def entryFrom (t : Table) (n : Nat) : Option (Value × Value) :=
  match t.itemFrom (t.items.size + 1) n with
  | some e => some e
  | none => t.fieldFrom (t.keys.size + 1) 0

/-- The entry after a key; `none` if the key has no place in the table. -/
def next? (t : Table) (k : Value) : Option (Option (Value × Value)) :=
  match k with
  | .nil => some (t.entryFrom 0)
  | k =>
    match k.key? with
    | none => none
    | some k =>
      match t.slot? k with
      | some n => some (t.entryFrom (n + 1))
      | none =>
        match t.fields[k]? with
        | some (place, _) => some (t.fieldFrom (t.keys.size + 1) (place + 1))
        | none => none

/-- All entries with a value, in the order of traversal. -/
def entries (t : Table) : List (Value × Value) :=
  let items := t.items.toList.zipIdx.filterMap fun (v, n) =>
    if v.isNil then none else some (.ofNat (n + 1), v)
  let fields := t.keys.toList.filterMap fun k =>
    let v := t.field k
    if v.isNil then none else some (k.toValue, v)
  items ++ fields

/-! ## Length -/

/-- A place between `low` and `high` where a value is followed by nil. -/
def borderBetween (t : Table) : Nat → Nat → Nat → Nat
  | 0, low, _ => low
  | fuel + 1, low, high =>
    if high - low ≤ 1 then low
    else
      let middle := (low + high) / 2
      if (t.items.getD (middle - 1) .nil).isNil then borderBetween t fuel low middle
      else borderBetween t fuel middle high

/-- The first key above `n` that has no value, less one. -/
def borderAfter (t : Table) : Nat → Nat → Nat
  | 0, n => n
  | fuel + 1, n =>
    if (t.field (.int (Int64.ofNat (n + 1)))).isNil then n else borderAfter t fuel (n + 1)

/-- A length: some `n` whose value is not nil while that of `n + 1` is. -/
def length (t : Table) : Nat :=
  let n := t.items.size
  if n = 0 then t.borderAfter t.keys.size 0
  else if (t.items.getD (n - 1) .nil).isNil then
    if n ≥ 2 ∧ !(t.items.getD (n - 2) .nil).isNil then n - 1 else t.borderBetween 64 0 n
  else t.borderAfter t.keys.size n

end Table

end Cordon.Lua
