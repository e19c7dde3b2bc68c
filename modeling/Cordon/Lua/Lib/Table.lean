import Cordon.Lua.Script

/-!
# Table library

Entries are read and written through metatables, so that any object with the right metamethods will
do for a table.
-/

namespace Cordon.Lua.TableFn

def all : List (String × TableFn) :=
  [("concat", concat), ("insert", insert), ("move", move), ("pack", pack), ("remove", remove),
   ("sort", sort), ("unpack", unpack)]

open Script

/-- A table, or an object whose metatable has these metamethods. -/
def checkTableLike (args : List Value) (n : Nat) (methods : List Bytes) : Script Value := do
  let v := arg args n
  match v with
  | .table _ => return v
  | v =>
    if ← read fun s => (s.metatable? v).isSome && methods.all fun m => !(s.metafield v m).isNil then
      return v
    else
      let _ ← checkTable args n
      return v

def readable : List Bytes := [Meta.index]

def writable : List Bytes := [Meta.newindex]

def sized : List Bytes := [Meta.len]

def getAt (t : Value) (i : Int64) : Script Value := index t (.int i)

def setAt (t : Value) (i : Int64) (v : Value) : Script Unit := assign t (.int i) v

/-- The length of argument 1, which has to allow the given access. -/
def checkLength (args : List Value) (methods : List Bytes) : Script (Value × Int64) := do
  let t ← checkTableLike args 1 (methods ++ sized)
  return (t, ← length t)

/-- Whether `1 ≤ i ≤ n + 1`, in the arithmetic of unsigned words. -/
def inBounds (i n : Int64) : Bool := (i - 1).toUInt64 ≤ n.toUInt64

/-- The positions from `i` to `j`, as many as fit a list. -/
def positions (i j : Int64) : List Int64 :=
  (List.range (j.toInt - i.toInt + 1).toNat).map fun (k : Nat) => i + Int64.ofNat k

def runConcat (args : List Value) : Script (List Value) := do
  let (t, n) ← checkLength args readable
  let sep ← optText args 2 .empty
  let i ← optInt args 3 1
  let j ← optInt args 4 n
  let rec go : Nat → Int64 → Bytes → Script Bytes
    | 0, _, acc => return acc
    | k + 1, i, acc => do
      match (← getAt t i).text? with
      | some b =>
        let acc := acc ++ b
        reserve acc.size
        if k = 0 then return acc else go k (i + 1) (acc ++ sep)
      | none =>
        let place : Bytes := "(at index " ++ Value.intText i ++ ")"
        complain ("invalid value " ++ place ++ " in table for 'concat'")
  return [.str (← go (j.toInt - i.toInt + 1).toNat i .empty)]

def runInsert (args : List Value) : Script (List Value) := do
  let (t, n) ← checkLength args (readable ++ writable)
  let e := n + 1
  match args with
  | [_, v] => setAt t e v
  | [_, _, v] =>
    let i ← checkInt args 2
    unless (i - 1).toUInt64 < e.toUInt64 do badArgument 2 "position out of bounds"
    for k in (positions (i + 1) e).reverse do
      setAt t k (← getAt t (k - 1))
    setAt t i v
  | _ => complain "wrong number of arguments to 'insert'"
  return []

def runRemove (args : List Value) : Script (List Value) := do
  let (t, n) ← checkLength args (readable ++ writable)
  let i ← optInt args 2 n
  if i ≠ n then
    unless inBounds i n do badArgument 2 "position out of bounds"
  let v ← getAt t i
  for k in positions i (n - 1) do
    setAt t k (← getAt t (k + 1))
  setAt t (if i < n then n else i) .nil
  return [v]

def runMove (args : List Value) : Script (List Value) := do
  let first ← checkInt args 2
  let last ← checkInt args 3
  let target ← checkInt args 4
  let other := !(arg args 5).isNil
  let source ← checkTableLike args 1 readable
  let goal ← checkTableLike args (if other then 5 else 1) writable
  if last ≥ first then
    unless first > 0 || last.toInt < Int64.maxValue.toInt + first.toInt do
      badArgument 3 "too many elements to move"
    let count := last.toInt - first.toInt + 1
    unless target.toInt ≤ Int64.maxValue.toInt - count + 1 do
      badArgument 4 "destination wrap around"
    let offsets := positions 0 (last - first)
    -- an overlap is copied from the end
    let forward := target > last || target ≤ first || (other && !source.rawEq goal)
    for k in (if forward then offsets else offsets.reverse) do
      setAt goal (target + k) (← getAt source (first + k))
  return [goal]

def runPack (args : List Value) : Script (List Value) := do
  let id ← updateGet fun s => s.newTable (.ofItems args)
  update fun s => s.rawSetStr id "n" (.ofNat args.length)
  return [.table id]

def maxResults : Nat := 1000000

def runUnpack (args : List Value) : Script (List Value) := do
  let t := arg args 1
  let i ← optInt args 2 1
  let j ← if (arg args 3).isNil then length t else checkInt args 3
  if i > j then return []
  if j.toInt - i.toInt ≥ maxResults then complain "too many results to unpack"
  (positions i j).mapM (getAt t)

/-! ## Sorting -/

/-- Exchanges: `a` goes to place `i`, `b` to place `j`. -/
def setTwo (t : Value) (i j : Int64) (a b : Value) : Script Unit := do
  setAt t i a
  setAt t j b

def before (order a b : Value) : Script Bool := do
  if order.isNil then less a b else return (Value.first (← call order [a, b])).truthy

def invalidOrder {α : Type} : Script α := complain "invalid order function for sorting"

/-- The next place above `i` whose value is not before the pivot. -/
def scanUp (t order pivot : Value) (last : Int64) : Nat → Int64 → Script (Int64 × Value)
  | 0, _ => invalidOrder
  | n + 1, i => do
    let i := i + 1
    let v ← getAt t i
    if ← before order v pivot then
      if i = last then invalidOrder
      scanUp t order pivot last n i
    else return (i, v)

/-- The next place below `j` whose value the pivot is not before. -/
def scanDown (t order pivot : Value) (first : Int64) : Nat → Int64 → Script (Int64 × Value)
  | 0, _ => invalidOrder
  | n + 1, j => do
    let j := j - 1
    let v ← getAt t j
    if ← before order pivot v then
      if j < first then invalidOrder
      scanDown t order pivot first n j
    else return (j, v)

/-- Splits the places around the pivot, which stands at `up - 1`; the pivot's last place. -/
def partition (t order pivot : Value) (up : Int64) : Nat → Int64 → Int64 → Script Int64
  | 0, _, _ => invalidOrder
  | n + 1, i, j => do
    let (i, a) ← scanUp t order pivot (up - 1) (n + 1) i
    let (j, b) ← scanDown t order pivot i (n + 1) j
    if j < i then
      setTwo t (up - 1) i a pivot
      return i
    else
      setTwo t i j b a
      partition t order pivot up n i j

def orderTwo (t order : Value) (i j : Int64) : Script Bool := do
  let a ← getAt t i
  let b ← getAt t j
  if ← before order b a then
    setTwo t i j b a
    return true
  else return false

/-- Sorts the places from `lo` to `up`: the median of three is the pivot. -/
def sortRange (t order : Value) : Nat → Int64 → Int64 → Script Unit
  | 0, _, _ => return ()
  | n + 1, lo, up => do
    if lo ≥ up then return ()
    let _ ← orderTwo t order lo up
    if up - lo = 1 then return ()
    let p := (lo + up) / 2
    let a ← getAt t p
    let b ← getAt t lo
    if ← before order a b then setTwo t p lo b a
    else
      let b ← getAt t up
      if ← before order b a then setTwo t p up b a
    if up - lo = 2 then return ()
    let pivot ← getAt t p
    setTwo t p (up - 1) (← getAt t (up - 1)) pivot
    let p ← partition t order pivot up (n + 1) lo (up - 1)
    if p - lo < up - p then
      sortRange t order n lo (p - 1)
      sortRange t order n (p + 1) up
    else
      sortRange t order n (p + 1) up
      sortRange t order n lo (p - 1)

def runSort (args : List Value) : Script (List Value) := do
  let (t, n) ← checkLength args (readable ++ writable)
  if n > 1 then
    unless n < 2147483647 do badArgument 1 "array too big"
    unless (arg args 2).isNil do
      let _ ← checkFunction args 2
    sortRange t (arg args 2) (n.toNatClampNeg + 2) 1 n
  return []

def run (f : TableFn) (args : List Value) : Script (List Value) :=
  match f with
  | concat => runConcat args
  | insert => runInsert args
  | move => runMove args
  | pack => runPack args
  | remove => runRemove args
  | sort => runSort args
  | unpack => runUnpack args

end Cordon.Lua.TableFn
