import Cordon.Lua.Action
import Cordon.Lua.Arith

/-!
# Access through metatables

Reading and writing entries, and the other operations that a metatable may take over: what comes out
by itself, and which function has to be called otherwise.
-/

namespace Cordon.Lua

/-- What reading an entry comes to. -/
inductive Access where
  | value (v : Value)
  /-- `fn` has to be called with the object and the key. -/
  | call (fn object : Value)
  /-- The object has no entries; `first` if it is the one the program named. -/
  | missing (object : Value) (first : Bool)
  | endless

/-- What writing an entry comes to. -/
inductive Placing where
  | done (s : Store)
  | call (fn object : Value)
  | missing (object : Value) (first : Bool)
  | badKey (message : String)
  | endless

def maxChain : Nat := 2000

namespace Store

def isFunction : Value → Bool
  | .fn _ => true
  | _ => false

def accessFrom (s : Store) (key : Value) : Nat → Bool → Value → Access
  | 0, _, _ => .endless
  | n + 1, first, object =>
    let raw := match object with
      | .table id => s.rawIndex id key
      | _ => .nil
    if !raw.isNil then .value raw
    else
      match s.metafield object Meta.index, object with
      | .nil, .table _ => .value .nil
      | .nil, _ => .missing object first
      | .fn f, _ => .call (.fn f) object
      | h, _ => accessFrom s key n false h

def access (s : Store) (object key : Value) : Access := s.accessFrom key maxChain true object

def placeFrom (s : Store) (key value : Value) : Nat → Bool → Value → Placing
  | 0, _, _ => .endless
  | n + 1, first, object =>
    match object with
    | .table id =>
      let here : Unit → Placing := fun _ =>
        match key.key? with
        | some k => .done (s.rawSet id k value)
        | none => .badKey (if key.isNil then "table index is nil" else "table index is NaN")
      match (s.table id).metatable with
      | none => here ()
      | some _ =>
        if !(s.rawIndex id key).isNil then here ()
        else
          match s.metafield object Meta.newindex with
          | .nil => here ()
          | .fn f => .call (.fn f) object
          | h => placeFrom s key value n false h
    | object =>
      match s.metafield object Meta.newindex with
      | .nil => .missing object first
      | .fn f => .call (.fn f) object
      | h => placeFrom s key value n false h

def place (s : Store) (object key value : Value) : Placing :=
  s.placeFrom key value maxChain true object

/-- The name of a value's type in messages; an object may have its own. -/
def typeNameOf (s : Store) (v : Value) : Bytes :=
  match v with
  | .table _ | .fault _ =>
    match s.metafield v Meta.typeName with
    | .str b => b
    | _ => v.typeName
  | _ => v.typeName

/-- The metamethod of a binary operation: the left operand's, or else the right one's. -/
def binaryMeta (s : Store) (name : Bytes) (a b : Value) : Value :=
  match s.metafield a name with
  | .nil => s.metafield b name
  | h => h

/-- Whether two values that are not raw equal may be made equal by a metamethod. -/
def mayEqual : Value → Value → Bool
  | .table _, .table _ => true
  | .userdata _, .userdata _ => true
  | .fault _, .fault _ => true
  | _, _ => false

/-- The two texts that concatenation joins, if both operands have one. -/
def concat? (a b : Value) : Option Bytes :=
  match a.text?, b.text? with
  | some x, some y => some (x ++ y)
  | _, _ => none

end Store

end Cordon.Lua
