import Cordon.Lua.Compile
import Cordon.Lua.Lib.Format
import Cordon.Lua.Pattern

/-!
# String library

Positions in a string count from 1, negative ones from the end.
-/

namespace Cordon.Lua.StringFn

def all : List (String × StringFn) :=
  [("byte", byte), ("char", char), ("dump", dump), ("find", find), ("format", format),
   ("gmatch", gmatch), ("gsub", gsub), ("len", len), ("lower", lower), ("match", .match),
   ("pack", pack), ("packsize", packsize), ("rep", rep), ("reverse", reverse), ("sub", sub),
   ("unpack", unpack), ("upper", upper)]

open Script

/-- A start position as an index from 1 on; it may lie past the end. -/
def startPosition (i : Int64) (size : Nat) : Nat :=
  if i > 0 then i.toNatClampNeg
  else if i = 0 then 1
  else if i.toInt < -(size : Int) then 1
  else (size + i.toInt + 1).toNat

/-- An end position as an index from 0 to the size. -/
def endPosition (i : Int64) (size : Nat) : Nat :=
  if i.toInt > size then size
  else if i ≥ 0 then i.toNatClampNeg
  else if i.toInt < -(size : Int) then 0
  else (size + i.toInt + 1).toNat

def runSub (args : List Value) : Script (List Value) := do
  let b ← checkText args 1
  let start := startPosition (← checkInt args 2) b.size
  let stop := endPosition (← optInt args 3 (-1)) b.size
  return [.str (if start > stop then .empty else b.slice (start - 1) stop)]

def runByte (args : List Value) : Script (List Value) := do
  let b ← checkText args 1
  let i ← optInt args 2 1
  let start := startPosition i b.size
  let stop := endPosition (← optInt args 3 (Int64.ofNat start)) b.size
  if start > stop then return []
  return (b.slice (start - 1) stop).toList.map fun c => .ofNat c.toNat

def runChar (args : List Value) : Script (List Value) := do
  let bytes ← (List.range args.length).mapM fun n => do
    let i ← checkInt args (n + 1)
    if i < 0 || i > 255 then badArgument (n + 1) "value out of range"
    return i.toUInt64.toUInt8
  return [.str (.ofList bytes)]

/-- `n` copies of `b` with `sep` between them. -/
def copies (b sep : Bytes) : Nat → Bytes
  | 0 => .empty
  | 1 => b
  | n + 1 => copies b sep n ++ sep ++ b

def maxString : Nat := 0x80000000

def runRep (args : List Value) : Script (List Value) := do
  let b ← checkText args 1
  let n ← checkInt args 2
  let sep ← optText args 3 .empty
  if n ≤ 0 then return [.str .empty]
  let total := n.toNatClampNeg * (b.size + sep.size)
  if total ≥ 0x8000000000000000 then complain "resulting string too large"
  reserve total
  if total > maxString then outOfMemory
  return [.str (if total = 0 then .empty else copies b sep n.toNatClampNeg)]

def mapBytes (f : UInt8 → UInt8) (b : Bytes) : Bytes := .ofList (b.toList.map f)

def runDump (args : List Value) : Script (List Value) := do
  match ← checkFunction args 1 with
  | .fn id =>
    match ← read fun s => s.function? id with
    | some (.closure ..) => return [.str (dumpHead ++ (toString id : String))]
    | _ => complain "unable to dump given function"
  | _ => complain "unable to dump given function"

/-! ## Patterns -/

def ofPattern {α : Type} (r : Except String α) : Script α :=
  match r with
  | .ok a => return a
  | .error message => complain message

def captureValue (src : Bytes) (c : Pattern.Capture) : Script Value :=
  match c.extent with
  | .unfinished => complain "unfinished capture"
  | .position => return .ofNat (c.start + 1)
  | .closed n => return .str (src.slice c.start (c.start + n))

/-- The captures of a match; the whole match if there are none and it is asked for. -/
def captures (src : Bytes) (whole : Bool) (start stop : Nat) (caps : Array Pattern.Capture) :
    Script (List Value) :=
  if caps.isEmpty then return if whole then [.str (src.slice start stop)] else []
  else caps.toList.mapM (captureValue src)

def runFind (isFind : Bool) (args : List Value) : Script (List Value) := do
  let src ← checkText args 1
  let pat ← checkText args 2
  let start := startPosition (← optInt args 3 1) src.size - 1
  if start > src.size then return [.nil]
  if isFind && ((arg args 4).truthy || Pattern.isPlain pat) then
    match src.find? pat start with
    | some i => return [.ofNat (i + 1), .ofNat (i + pat.size)]
    | none => return [.nil]
  else
    let anchored := Pattern.isAnchored pat
    let p := if anchored then 1 else 0
    match ← ofPattern (Pattern.search src pat anchored p (src.size + 1) start) with
    | none => return [.nil]
    | some (start, stop, caps) =>
      if isFind then
        return .ofNat (start + 1) :: .ofNat stop :: (← captures src false start stop caps)
      else captures src true start stop caps

def runGmatch (args : List Value) : Script (List Value) := do
  let src ← checkText args 1
  let pat ← checkText args 2
  let start := startPosition (← optInt args 3 1) src.size - 1
  let start := if start > src.size then src.size + 1 else start
  let cell ← updateGet fun s => s.newCell (.ofNat start)
  let _ ← updateGet fun s => s.newCell (.int (-1))
  return [← updateGet fun s => s.newNative (.gmatchStep src pat cell)]

/-- The next match that does not end where the last one ended; `n` bounds the tries. -/
def gmatchFrom (src pat : Bytes) (last : Int) : Nat → Nat →
    Except String (Option (Nat × Nat × Array Pattern.Capture))
  | 0, _ => .ok none
  | n + 1, s =>
    if s > src.size then .ok none
    else
      match Pattern.matchAt src pat s 0 with
      | .error e => .error e
      | .ok (some (stop, caps)) =>
        if (stop : Int) = last then gmatchFrom src pat last n (s + 1)
        else .ok (some (s, stop, caps))
      | .ok none => gmatchFrom src pat last n (s + 1)

def runGmatchStep (src pat : Bytes) (cell : Nat) : Script (List Value) := do
  let position (v : Value) : Int := match v with
    | .int i => i.toInt
    | _ => 0
  let start ← read fun s => position (s.cell cell)
  let last ← read fun s => position (s.cell (cell + 1))
  match ← ofPattern (gmatchFrom src pat last (src.size + 2) start.toNat) with
  | none => return [.nil]
  | some (start, stop, caps) =>
    update fun s => (s.setCell cell (.ofNat stop)).setCell (cell + 1) (.ofNat stop)
    captures src true start stop caps

/-- Capture number `n` of a match, the whole match if there is but one and none was made. -/
def capture (src : Bytes) (start stop : Nat) (caps : Array Pattern.Capture) (n : Nat) :
    Script Value :=
  match caps[n]? with
  | some c => captureValue src c
  | none =>
    if n = 0 then return .str (src.slice start stop)
    else complain (Pattern.invalidIndex (n + 1) ++ " in replacement string")

def fillIn (src : Bytes) (start stop : Nat) (caps : Array Pattern.Capture) :
    List UInt8 → Bytes → Script Bytes
  | [], acc => return acc
  | 37 :: d :: rest, acc => do
    if d = 37 then fillIn src start stop caps rest (acc.push 37)
    else if d = 48 then fillIn src start stop caps rest (acc ++ src.slice start stop)
    else if Pattern.isDigit d then
      let v ← capture src start stop caps (d.toNat - 49)
      fillIn src start stop caps rest (acc ++ v.text?.getD .empty)
    else complain "invalid use of '%' in replacement string"
  | [37], _ => complain "invalid use of '%' in replacement string"
  | c :: rest, acc => fillIn src start stop caps rest (acc.push c)

def replacement (src : Bytes) (repl : Value) (start stop : Nat) (caps : Array Pattern.Capture) :
    Script Bytes := do
  let whole := src.slice start stop
  let checked (v : Value) : Script Bytes :=
    match v with
    | .nil => return whole
    | .bool false => return whole
    | v =>
      match v.text? with
      | some b => return b
      | none => do complain (("invalid replacement value (a " : Bytes) ++
          (← read fun s => s.typeNameOf v) ++ ")")
  match repl with
  | .table id => checked (← index (.table id) (← capture src start stop caps 0))
  | .fn id => checked (.first (← call (.fn id) (← captures src true start stop caps)))
  | v => fillIn src start stop caps (v.text?.getD .empty).toList .empty

/-- Replaces matches from `s` on: the text so far and the number of matches; `n` bounds the
steps. -/
def substitute (src pat : Bytes) (repl : Value) (anchored : Bool) (limit : Nat) :
    Nat → Nat → Int → Bytes → Nat → Script (Bytes × Nat)
  | 0, _, _, acc, count => return (acc, count)
  | n + 1, s, last, acc, count => do
    if count ≥ limit then return (acc ++ src.slice s src.size, count)
    let found ← ofPattern (Pattern.matchAt src pat s (if anchored then 1 else 0))
    let hit : Option (Nat × Array Pattern.Capture) := match found with
      | some (stop, caps) => if (stop : Int) = last then none else some (stop, caps)
      | none => none
    match hit with
    | some (stop, caps) =>
      let acc := acc ++ (← replacement src repl s stop caps)
      if anchored then return (acc ++ src.slice stop src.size, count + 1)
      substitute src pat repl anchored limit n stop stop acc (count + 1)
    | none =>
      if s < src.size then
        let acc := acc.push (src.at0 s)
        if anchored then return (acc ++ src.slice (s + 1) src.size, count)
        substitute src pat repl anchored limit n (s + 1) last acc count
      else return (acc, count)

def runGsub (args : List Value) : Script (List Value) := do
  let src ← checkText args 1
  let pat ← checkText args 2
  let repl := arg args 3
  match repl with
  | .str _ | .int _ | .float _ | .table _ | .fn _ => pure ()
  | _ => badType args 3 "string/function/table"
  let limit ← optInt args 4 (Int64.ofNat (src.size + 1))
  let (b, n) ← substitute src pat repl (Pattern.isAnchored pat) limit.toNatClampNeg
    (2 * src.size + 4) 0 (-1) .empty 0
  return [.str b, .ofNat n]

/-! ## Arithmetic on strings -/

/-- The number of a number or a numeric string, as a value. -/
def number? (v : Value) : Option Value := v.numeral?.map Value.ofNumeral

/-- What happens when an operand is no number: the right operand's metamethod, if it is no
string. -/
def otherArith (name : Bytes) (a b : Value) : Script (List Value) := do
  let h ← match b with
    | .str _ => pure Value.nil
    | b => read fun s => s.metafield b name
  match h with
  | .nil => complain (("attempt to perform arithmetic on a " : Bytes) ++
      (← read fun s => s.typeNameOf a) ++ " value")
  | h => return [.first (← call h [a, b])]

def runArith (op : ArithOp) (args : List Value) : Script (List Value) := do
  let a := arg args 1
  let b := arg args 2
  match number? a, number? b with
  | some x, some y =>
    match Arith.apply op x y with
    | .value v => return [v]
    | .undefined message => raise (.str message)
    | .unsupported => otherArith (Meta.ofArith op) a b
  | _, _ => otherArith (Meta.ofArith op) a b

def runNeg (args : List Value) : Script (List Value) := do
  let a := arg args 1
  match (number? a).bind Arith.neg with
  | some v => return [v]
  | none => otherArith Meta.unm a (arg args 2)

/-! ## Packed values -/

/-- The fixed-size integers of a packing format: letter, size, whether signed. -/
def packedSize? : Char → Option (Nat × Bool)
  | 'b' => some (1, true)
  | 'B' => some (1, false)
  | 'h' => some (2, true)
  | 'H' => some (2, false)
  | 'i' => some (4, true)
  | 'I' => some (4, false)
  | 'l' => some (8, true)
  | 'L' => some (8, false)
  | 'j' => some (8, true)
  | 'J' => some (8, false)
  | 'T' => some (8, false)
  | _ => none

inductive Packed where
  | int (size : Nat) (signed : Bool)
  | double
  /-- A string after its length in `size` bytes. -/
  | counted (size : Nat)
  /-- A string up to a zero byte. -/
  | terminated
  | padding

/-- The items of a format with the byte order of each, little-endian at first. -/
def packedItems : Bool → Nat → List Char → Except String (List (Packed × Bool))
  | _, 0, _ => .ok []
  | _, _, [] => .ok []
  | little, n + 1, c :: rest =>
    let ds := rest.takeWhile Numeral.isDigit
    let size := if ds.isEmpty then none else some (Numeral.ofDigits 10 ds)
    let after := rest.drop ds.length
    let tooBig (k : Nat) : Bool := k < 1 || k > 16
    match c with
    | ' ' => packedItems little n rest
    | '<' => packedItems true n rest
    | '=' => packedItems true n rest
    | '>' => packedItems false n rest
    | '!' => packedItems little n after
    | 'd' | 'n' => (packedItems little n rest).map ((.double, little) :: ·)
    | 'z' => (packedItems little n rest).map ((.terminated, little) :: ·)
    | 'x' => (packedItems little n rest).map ((.padding, little) :: ·)
    | 's' =>
      let k := size.getD 8
      if tooBig k then .error ("integral size (" ++ toString k ++ ") out of limits [1,16]")
      else (packedItems little n after).map ((.counted k, little) :: ·)
    | c =>
      match packedSize? c with
      | some (k, signed) =>
        if c = 'i' || c = 'I' then
          let k := size.getD k
          if tooBig k then .error ("integral size (" ++ toString k ++ ") out of limits [1,16]")
          else (packedItems little n after).map ((.int k signed, little) :: ·)
        else (packedItems little n rest).map ((.int k signed, little) :: ·)
      | none => .error ("invalid format option '" ++ String.ofList [c] ++ "'")

/-- The `size` low bytes of `n`. -/
def bytesOf (little : Bool) (size n : Nat) : Bytes :=
  let l := (List.range size).map fun k => UInt8.ofNat (n / Nat.pow 256 k)
  .ofList (if little then l else l.reverse)

def natOf (little : Bool) (b : Bytes) : Nat :=
  (if little then b.toList.reverse else b.toList).foldl (fun n c => n * 256 + c.toNat) 0

def packAll (args : List Value) : List (Packed × Bool) → Nat → Bytes → Script Bytes
  | [], _, acc => return acc
  | (.padding, _) :: rest, n, acc => packAll args rest n (acc.push 0)
  | (.double, little) :: rest, n, acc => do
    let x ← checkDouble args n
    packAll args rest (n + 1) (acc ++ bytesOf little 8 x.bits.toNat)
  | (.int size signed, little) :: rest, n, acc => do
    let i ← checkInt args n
    let limit : Int := Nat.pow 256 size
    if size < 8 then
      if signed then
        unless -(limit / 2) ≤ i.toInt ∧ i.toInt < limit / 2 do badArgument n "integer overflow"
      else unless (i.toUInt64.toNat : Int) < limit do badArgument n "unsigned overflow"
    packAll args rest (n + 1) (acc ++ bytesOf little size (i.toInt % limit).toNat)
  | (.counted size, little) :: rest, n, acc => do
    let b ← checkText args n
    unless size ≥ 8 || b.size < Nat.pow 256 size do
      badArgument n "string length does not fit in given size"
    packAll args rest (n + 1) (acc ++ bytesOf little size b.size ++ b)
  | (.terminated, _) :: rest, n, acc => do
    let b ← checkText args n
    if b.toList.contains 0 then badArgument n "string contains zeros"
    packAll args rest (n + 1) ((acc ++ b).push 0)

def unpackAll (b : Bytes) : List (Packed × Bool) → Nat → List Value → Script (List Value)
  | [], i, acc => return (acc.reverse ++ [.ofNat (i + 1)])
  | (item, little) :: rest, i, acc => do
    let need (n : Nat) : Script Unit := do
      if i + n > b.size then badArgument 2 "data string too short"
    match item with
    | .padding =>
      need 1
      unpackAll b rest (i + 1) acc
    | .double =>
      need 8
      let n := natOf little (b.slice i (i + 8))
      unpackAll b rest (i + 8) (.float ⟨UInt64.ofNat n⟩ :: acc)
    | .int size signed =>
      need size
      let n := natOf little (b.slice i (i + size))
      let v : Int := if signed ∧ 2 * n ≥ Nat.pow 256 size then (n : Int) - Nat.pow 256 size else n
      unpackAll b rest (i + size) (.int (Int64.ofInt v) :: acc)
    | .counted size =>
      need size
      let n := natOf little (b.slice i (i + size))
      need (size + n)
      unpackAll b rest (i + size + n) (.str (b.slice (i + size) (i + size + n)) :: acc)
    | .terminated =>
      match b.find? (.ofList [0]) i with
      | some e => unpackAll b rest (e + 1) (.str (b.slice i e) :: acc)
      | none => badArgument 2 "unfinished string for format 'z'"

def formatItems (args : List Value) : Script (List (Packed × Bool)) := do
  let format ← checkText args 1
  ofPattern (packedItems true (format.size + 1) format.latin)

def runPacksize (args : List Value) : Script (List Value) := do
  let sizes ← (← formatItems args).mapM fun (item, _) =>
    match item with
    | .int size _ => pure size
    | .double => pure 8
    | .padding => pure 1
    | _ => badArgument 1 "variable-length format"
  return [.ofNat (sizes.foldl (fun total size => total + size) 0)]

def runUnpack (args : List Value) : Script (List Value) := do
  let items ← formatItems args
  let b ← checkText args 2
  let start := startPosition (← optInt args 3 1) b.size - 1
  if start > b.size then badArgument 3 "initial position out of string"
  unpackAll b items start []

def run (f : StringFn) (args : List Value) : Script (List Value) := do
  match f with
  | byte => runByte args
  | char => runChar args
  | dump => runDump args
  | find => runFind true args
  | format =>
    let b ← checkText args 1
    return [.str (← Format.run args (b.size + 1) b.latin 1 .empty)]
  | gmatch => runGmatch args
  | gsub => runGsub args
  | len => return [.ofNat (← checkText args 1).size]
  | lower => return [.str (mapBytes Pattern.toLower (← checkText args 1))]
  | .match => runFind false args
  | pack => return [.str (← packAll args (← formatItems args) 2 .empty)]
  | packsize => runPacksize args
  | rep => runRep args
  | reverse => return [.str (.ofList (← checkText args 1).toList.reverse)]
  | sub => runSub args
  | unpack => runUnpack args
  | upper => return [.str (mapBytes Pattern.toUpper (← checkText args 1))]

end Cordon.Lua.StringFn
