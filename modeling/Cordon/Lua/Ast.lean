import Cordon.Lua.Number.Double
import Cordon.Text.Bytes

/-!
# Abstract programs

Variables are resolved: a variable is a position in the list of those visible, the innermost first.
A name that is not a variable is a field of the environment variable.
-/

namespace Cordon.Lua

/-- A variable: its position, its name, and whether it belongs to an enclosing function. -/
structure Var where
  index : Nat
  name : Bytes
  captured : Bool

inductive ArithOp where
  | add | sub | mul | div | mod | pow | idiv | band | bor | bxor | shl | shr
  deriving DecidableEq, Repr

inductive CompareOp where
  | eq | ne | lt | le | gt | ge
  deriving DecidableEq, Repr

inductive UnaryOp where
  | neg | not | len | bnot
  deriving DecidableEq, Repr

/-- A label of a block: the statement it stands before, and how many variables are visible there. -/
structure Label where
  name : Bytes
  position : Nat
  depth : Nat

mutual

/-- Expressions; `line` is where an error in them is reported. -/
inductive Expr where
  | nil
  | bool (b : Bool)
  | int (i : Int64)
  | float (x : Double)
  | str (s : Bytes)
  | vararg
  | var (v : Var)
  | index (object key : Expr) (line : Nat)
  | call (fn : Expr) (args : List Expr) (line : Nat)
  | method (object : Expr) (name : Bytes) (args : List Expr) (line : Nat)
  | func (f : Func)
  | arith (op : ArithOp) (left right : Expr) (line : Nat)
  | compare (op : CompareOp) (left right : Expr) (line : Nat)
  | concat (left right : Expr) (line : Nat)
  | unary (op : UnaryOp) (operand : Expr) (line : Nat)
  | and (left right : Expr)
  | or (left right : Expr)
  /-- Parentheses cut a list of results to one. -/
  | paren (e : Expr)
  | table (fields : List Field) (line : Nat)

inductive Field where
  | item (e : Expr)
  | pair (key value : Expr)

inductive Target where
  | var (v : Var)
  | index (object key : Expr)

inductive Stat where
  /-- Declares as many variables as there are names. -/
  | locals (names : List Bytes) (values : List Expr)
  | localFunc (f : Func)
  | assign (targets : List Target) (values : List Expr) (line : Nat)
  | call (e : Expr)
  | block (body : Block)
  | whileLoop (condition : Expr) (body : Block)
  | repeatLoop (body : Block) (condition : Expr)
  | cond (condition : Expr) (yes no : Block)
  | countLoop (start limit step : Expr) (body : Block) (line : Nat)
  | eachLoop (names : Nat) (values : List Expr) (body : Block) (line : Nat)
  | ret (values : List Expr)
  | breakLoop
  | goto (label : Bytes)
  | noop

inductive Block where
  | mk (stats : List Stat) (labels : List Label)

/-- A function: parameters, whether it takes more arguments than these, body, first line, and an
estimate of the stack it needs. -/
inductive Func where
  | mk (params : Nat) (isVararg : Bool) (body : Block) (line slots : Nat)

end

instance : Inhabited Expr := ⟨.nil⟩

instance : Inhabited Stat := ⟨.noop⟩

instance : Inhabited Block := ⟨.mk [] []⟩

instance : Inhabited Func := ⟨.mk 0 false default 0 0⟩

def Block.stats : Block → List Stat
  | mk stats _ => stats

def Block.labels : Block → List Label
  | mk _ labels => labels

def Func.params : Func → Nat
  | mk params .. => params

def Func.isVararg : Func → Bool
  | mk _ isVararg .. => isVararg

def Func.body : Func → Block
  | mk _ _ body .. => body

def Func.slots : Func → Nat
  | mk _ _ _ _ slots => slots

end Cordon.Lua
