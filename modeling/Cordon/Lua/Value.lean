import Cordon.Lua.Number.Decimal
import Cordon.Lua.Number.Numeral

/-!
# Values and table keys

Objects are referred to by number. A key is a value other than nil and NaN, a float without
fraction being the integer of that value.
-/

namespace Cordon.Lua

inductive Value where
  | nil
  | bool (b : Bool)
  | int (i : Int64)
  | float (x : Double)
  | str (s : Bytes)
  | table (id : Nat)
  | fn (id : Nat)
  | thread (id : Nat)
  | userdata (id : Nat)
  /-- The null pointer. -/
  | light
  /-- An error object. -/
  | fault (id : Nat)
  deriving DecidableEq

instance : Inhabited Value := ⟨.nil⟩

instance : Coe Int64 Value := ⟨.int⟩

namespace Value

def ofString (s : String) : Value := .str s

def ofNat (n : Nat) : Value := .int (Int64.ofNat n)

def ofNumeral : Numeral → Value
  | .int i => .int i
  | .float x => .float x

def isNil : Value → Bool
  | nil => true
  | _ => false

/-- Every value but nil and false counts as true. -/
def truthy : Value → Bool
  | nil => false
  | bool b => b
  | _ => true

/-- The first of a list of values, nil if there is none. -/
def first : List Value → Value
  | v :: _ => v
  | [] => nil

/-- Whether two values are one key: numbers are compared by value. -/
def rawEq : Value → Value → Bool
  | int i, float x => Double.compareInt? i.toInt x == some .eq
  | float x, int i => Double.compareInt? i.toInt x == some .eq
  | float x, float y => x.eq y
  | str a, str b => a == b
  | a, b => a == b

def typeName : Value → String
  | nil => "nil"
  | bool _ => "boolean"
  | int _ => "number"
  | float _ => "number"
  | str _ => "string"
  | table _ => "table"
  | fn _ => "function"
  | thread _ => "thread"
  | userdata _ => "userdata"
  | light => "userdata"
  | fault _ => "userdata"

/-- The finer name of a value's type, by which the host speaks of it. -/
def hostTypeName : Value → String
  | int _ => "integer"
  | light => "lightuserdata"
  | fault _ => "error"
  | v => v.typeName

def intText (i : Int64) : String := toString i.toInt

/-- The text of a number or string, the values that pass for strings. -/
def text? : Value → Option Bytes
  | str s => some s
  | int i => some (intText i)
  | float x => some (Decimal.text x)
  | _ => none

/-- The number of a number or a numeric string. -/
def numeral? : Value → Option Numeral
  | int i => some (.int i)
  | float x => some (.float x)
  | str s => Numeral.read? s.latin
  | _ => none

/-- The integer a float is, if it is one and fits. -/
def floatToInt? (x : Double) : Option Int64 :=
  match x.toInt? with
  | some i =>
    if -0x8000000000000000 ≤ i ∧ i < 0x8000000000000000 then some (Int64.ofInt i) else none
  | none => none

/-- The integer of a number without fraction. -/
def exactInt? : Value → Option Int64
  | int i => some i
  | float x => floatToInt? x
  | _ => none

/-- The integer of a number or numeric string without fraction. -/
def toInt? (v : Value) : Option Int64 :=
  match v.numeral? with
  | some n => (ofNumeral n).exactInt?
  | none => none

/-- The float of a number or numeric string. -/
def toDouble? (v : Value) : Option Double :=
  match v.numeral? with
  | some (.int i) => some (.ofInt i.toInt)
  | some (.float x) => some x
  | none => none

/-- The number by which an object's address is shown. -/
def address? : Value → Option Nat
  | table id => some (0x55550000 + id * 64)
  | fn id => some (0x66660000 + id * 64)
  | thread id => some (0x77770000 + id * 64)
  | userdata id => some (0x88880000 + id * 64)
  | fault id => some (0x99990000 + id * 64)
  | light => some 0
  | _ => none

def addressText (v : Value) : String :=
  "0x" ++ String.ofList (let ds := Nat.toDigits 16 (v.address?.getD 0)
    List.replicate (14 - ds.length) '0' ++ ds)

end Value

/-- What a table entry is found by. -/
inductive Key where
  | bool (b : Bool)
  | int (i : Int64)
  | float (x : Double)
  | str (s : Bytes)
  /-- An object, by a number for its type and its own. -/
  | object (type id : Nat)
  deriving DecidableEq

instance : Inhabited Key := ⟨.bool false⟩

namespace Key

def rank : Key → Nat
  | bool _ => 0
  | int _ => 1
  | float _ => 2
  | str _ => 3
  | object .. => 4

/-- A total order on keys, by type first. -/
def order : Key → Key → Ordering
  | int a, int b => compare a.toInt b.toInt
  | str a, str b => Bytes.order a b
  | object t a, object u b => (compare t u).then (compare a b)
  | float a, float b => compare a.bits b.bits
  | bool a, bool b => compare a.toNat b.toNat
  | a, b => compare a.rank b.rank

def toValue : Key → Value
  | bool b => .bool b
  | int i => .int i
  | float x => .float x
  | str s => .str s
  | object 0 id => .table id
  | object 1 id => .fn id
  | object 2 id => .thread id
  | object 3 id => .userdata id
  | object 4 id => .fault id
  | object _ _ => .light

end Key

/-- The key a value stands for; nil and NaN are none. -/
def Value.key? : Value → Option Key
  | nil => none
  | bool b => some (.bool b)
  | int i => some (.int i)
  | float x =>
    if x.isNaN then none
    else match floatToInt? x with
      | some i => some (.int i)
      | none => some (.float x)
  | str s => some (.str s)
  | table id => some (.object 0 id)
  | fn id => some (.object 1 id)
  | thread id => some (.object 2 id)
  | userdata id => some (.object 3 id)
  | fault id => some (.object 4 id)
  | light => some (.object 5 0)

end Cordon.Lua
