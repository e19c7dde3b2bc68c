import Cordon.Lua.Ast
import Cordon.Lua.Chunk
import Cordon.Lua.Token

/-!
# Parsing

Recursive descent over the tokens. Names are resolved on the way: the parser keeps the variables
visible at each point, and the gotos that still wait for their label. Every function takes fuel, of
which the number of tokens gives enough.
-/

namespace Cordon.Lua

namespace Parse

/-- A visible variable, and the nesting level of the function that owns it. -/
structure Visible where
  name : Bytes
  readOnly : Bool
  level : Nat

/-- A jump whose label is not known yet; `depth` is the number of variables visible at it. -/
structure Jump where
  name : Bytes
  line : Nat
  depth : Nat

structure Seen where
  label : Label
  line : Nat

structure State where
  chunk : Bytes
  tokens : List Token
  lastLine : Nat
  vars : List Visible
  /-- How many variables were visible where the innermost block began. -/
  blockStart : Nat
  level : Nat
  isVararg : Bool
  /-- How many loops of the current function are around this point. -/
  loops : Nat
  /-- The labels of the enclosing blocks of the current function, the innermost block first. -/
  labels : List (List Seen)
  /-- The unresolved jumps of the current block. -/
  jumps : List Jump
  /-- The greatest number of variables the current function had at once. -/
  peak : Nat

end Parse

/-- A parser: it works on the tokens left, or ends with a message. -/
abbrev Parse := StateT Parse.State (Except Bytes)

namespace Parse

def current : Parse Token := do
  match (← get).tokens with
  | t :: _ => return t
  | [] => return default

def fails {α : Type} (line : Nat) (message : Bytes) : Parse α := do
  throw (Chunk.at_ (← get).chunk line message)

def refuse {α : Type} (message : Bytes) : Parse α := do
  let t ← current
  fails t.line (message ++ .ofLatin t.nearNote)

/-- A refusal that points at no token. -/
def refuseHere {α : Type} (message : Bytes) : Parse α := do fails (← current).line message

/-- Ends with the message of a place where no token could be cut. -/
def checkToken (t : Token) : Parse Unit := do
  match t.kind with
  | .bad message near => fails t.line (.ofLatin message ++ " near " ++ .ofLatin near)
  | _ => return ()

def advance : Parse Unit := do
  let s ← get
  match s.tokens with
  | taken :: t :: rest =>
    set { s with tokens := t :: rest, lastLine := taken.line }
    checkToken t
  | _ => return ()

def Token.isWord (t : Token) (s : String) : Bool := t.kind == .word s

def at? (s : String) : Parse Bool := do return Token.isWord (← current) s

def accept (s : String) : Parse Bool := do
  if ← at? s then
    advance
    return true
  else return false

def quotedWord (s : String) : Bytes := ("'" ++ s ++ "'" : String)

def expect (s : String) : Parse Unit := do
  unless ← accept s do refuse (quotedWord s ++ " expected")

/-- Expects what closes `opener` of line `line`. -/
def expectClose (s opener : String) (line : Nat) : Parse Unit := do
  unless ← accept s do
    if (← current).line = line then refuse (quotedWord s ++ " expected")
    else refuse (quotedWord s ++ " expected (to close " ++ quotedWord opener ++ " at line " ++
      (toString line : String) ++ ")")

def name : Parse Bytes := do
  match (← current).kind with
  | .name s =>
    advance
    return s
  | _ => refuse "<name> expected"

/-! ## Variables -/

def depth : Parse Nat := do return (← get).vars.length

/-- How many variables of its own the current function has here. -/
def ownCount (s : State) : Nat := (s.vars.takeWhile fun v => v.level = s.level).length

def declare (x : Bytes) (readOnly : Bool) : Parse Unit := do
  let s ← get
  let s := { s with vars := ⟨x, readOnly, s.level⟩ :: s.vars }
  set { s with peak := max s.peak (ownCount s) }

/-- The innermost variable named `x`, and whether it is read-only. -/
def lookup (x : Bytes) (level : Nat) : Nat → List Visible → Option (Var × Bool)
  | _, [] => none
  | i, v :: rest =>
    if v.name == x then some (⟨i, x, v.level ≠ level⟩, v.readOnly) else lookup x level (i + 1) rest

def environmentName : Bytes := "_ENV"

def findVariable? (x : Bytes) : Parse (Option (Var × Bool)) := do
  let s ← get
  return lookup x s.level 0 s.vars

/-- What a name stands for: a variable, or else a field of the environment. -/
def nameExpr (x : Bytes) (line : Nat) : Parse Expr := do
  match ← findVariable? x with
  | some (v, _) => return .var v
  | none =>
    match ← findVariable? environmentName with
    | some (env, _) => return .index (.var env) (.str x) line
    | none => return .index .nil (.str x) line

def checkAssignable (e : Expr) : Parse Unit := do
  match e with
  | .var v =>
    match (← get).vars[v.index]? with
    | some x =>
      if x.readOnly then refuseHere ("attempt to assign to const variable '" ++ v.name ++ "'")
    | none => return ()
  | _ => return ()

/-! ## Labels and jumps -/

def visibleLabel? (x : Bytes) : Parse (Option Seen) := do
  return (← get).labels.flatten.find? fun l => l.label.name == x

/-- Adds a label to the innermost block and resolves the jumps that wait for it. -/
def addLabel (x : Bytes) (line position labelDepth : Nat) : Parse Unit := do
  let s ← get
  match s.jumps.find? fun j => j.name == x && j.depth < labelDepth with
  | some j =>
    let blocker := match s.vars[s.vars.length - 1 - j.depth]? with
      | some v => v.name
      | none => .empty
    refuseHere ("<goto " ++ x ++ "> at line " ++ (toString j.line : String) ++
      " jumps into the scope of local '" ++ blocker ++ "'")
  | none =>
    let seen : Seen := ⟨⟨x, position, labelDepth⟩, line⟩
    let labels := match s.labels with
      | l :: rest => (seen :: l) :: rest
      | [] => [[seen]]
    set { s with labels, jumps := s.jumps.filter fun j => j.name != x }

/-- Runs `p` in a block of its own: its variables end with it, its unresolved jumps go outward. -/
def inBlock {α : Type} (p : Parse α) : Parse (α × List Label) := do
  let outer ← get
  set { outer with blockStart := outer.vars.length, labels := [] :: outer.labels, jumps := [] }
  let a ← p
  let s ← get
  let start := outer.vars.length
  let left := s.jumps.map fun j => { j with depth := min j.depth start }
  set { s with
    vars := s.vars.drop (s.vars.length - start)
    blockStart := outer.blockStart
    labels := outer.labels
    jumps := outer.jumps ++ left }
  return (a, (s.labels.headD []).map (·.label))

/-- Runs `p` with the variables `xs` in scope. -/
def withVariables {α : Type} (xs : List Bytes) (p : Parse α) : Parse α := do
  let (a, _) ← inBlock (do
    xs.forM fun x => declare x false
    p)
  return a

def inLoop {α : Type} (p : Parse α) : Parse α := do
  modify fun s => { s with loops := s.loops + 1 }
  let a ← p
  modify fun s => { s with loops := s.loops - 1 }
  return a

def breakName : Bytes := "break"

def checkJumps : Parse Unit := do
  match (← get).jumps with
  | j :: _ =>
    let line : Bytes := (toString j.line : String)
    if j.name == breakName then refuseHere ("break outside loop at line " ++ line)
    else refuseHere ("no visible label '" ++ j.name ++ "' for <goto> at line " ++ line)
  | [] => return ()

/-- Runs `p` as the inside of a function. The estimate of its stack comes with the result. -/
def inFunction {α : Type} (isVararg : Bool) (p : Parse α) : Parse (α × Nat) := do
  let outer ← get
  set { outer with
    level := outer.level + 1, isVararg, loops := 0, labels := [], jumps := [], peak := 0 }
  let a ← p
  checkJumps
  let s ← get
  set { outer with tokens := s.tokens }
  return (a, s.peak + 4)

/-! ## Operators -/

inductive BinaryOp where
  | arith (op : ArithOp)
  | compare (op : CompareOp)
  | concat
  | and
  | or

/-- A binary operator with its binding strength to the left and to the right. -/
def binaryOp? (t : Token) : Option (BinaryOp × Nat × Nat) :=
  match t.kind with
  | .word "or" => some (.or, 1, 1)
  | .word "and" => some (.and, 2, 2)
  | .word "<" => some (.compare .lt, 3, 3)
  | .word ">" => some (.compare .gt, 3, 3)
  | .word "<=" => some (.compare .le, 3, 3)
  | .word ">=" => some (.compare .ge, 3, 3)
  | .word "~=" => some (.compare .ne, 3, 3)
  | .word "==" => some (.compare .eq, 3, 3)
  | .word "|" => some (.arith .bor, 4, 4)
  | .word "~" => some (.arith .bxor, 5, 5)
  | .word "&" => some (.arith .band, 6, 6)
  | .word "<<" => some (.arith .shl, 7, 7)
  | .word ">>" => some (.arith .shr, 7, 7)
  | .word ".." => some (.concat, 9, 8)
  | .word "+" => some (.arith .add, 10, 10)
  | .word "-" => some (.arith .sub, 10, 10)
  | .word "*" => some (.arith .mul, 11, 11)
  | .word "/" => some (.arith .div, 11, 11)
  | .word "//" => some (.arith .idiv, 11, 11)
  | .word "%" => some (.arith .mod, 11, 11)
  | .word "^" => some (.arith .pow, 14, 13)
  | _ => none

def unaryStrength : Nat := 12

def unaryOp? (t : Token) : Option UnaryOp :=
  match t.kind with
  | .word "not" => some .not
  | .word "-" => some .neg
  | .word "~" => some .bnot
  | .word "#" => some .len
  | _ => none

/-- Builds an operation from the line of its operator and that of its end. A chain of concatenations
is one operation, of its last operator. -/
def BinaryOp.build (op : BinaryOp) (left right : Expr) (line last : Nat) : Expr :=
  match op, right with
  | arith op, right => .arith op left right line
  | compare op, right => .compare op left right last
  | concat, .concat _ _ inner => .concat left right inner
  | concat, right => .concat left right line
  | and, right => .and left right
  | or, right => .or left right

/-- A sign before a numeral belongs to it. -/
def buildUnary (op : UnaryOp) (e : Expr) (line : Nat) : Expr :=
  match op, e with
  | .neg, .int i => .int (-i)
  | .neg, .float x => if x.isZero then .unary op e line else .float x.neg
  | _, _ => .unary op e line

/-- Whether a block ends here; `until` ends only the block of a `repeat`. -/
def blockEnds (withUntil : Bool) : Parse Bool := do
  match (← current).kind with
  | .eof => return true
  | .word s => return ["else", "elseif", "end"].contains s || (withUntil && s == "until")
  | _ => return false

def maxVariables : Nat := 200

/-- Refuses more variables than a function may have. -/
def checkRoom (more : Nat) (functionLine : Nat) : Parse Unit := do
  let s ← get
  if ownCount s + more > maxVariables then
    let place : Bytes := if functionLine = 0 then "main function"
      else ("function at line " ++ toString functionLine : String)
    refuse ("too many local variables (limit is 200) in " ++ place)

/-! ## Expressions and statements -/

mutual

def expr (n : Nat) : Parse Expr := do
  match n with
  | 0 => refuse "too many levels"
  | n + 1 => operation n 0
termination_by structural n

/-- An expression of operators that bind more than `strength`. -/
def operation (n : Nat) (strength : Nat) : Parse Expr := do
  match n with
  | 0 => refuse "too many levels"
  | n + 1 =>
    let t ← current
    match unaryOp? t with
    | some op =>
      advance
      let e ← operation n unaryStrength
      operators n strength (buildUnary op e t.line)
    | none =>
      let e ← simple n
      operators n strength e
termination_by structural n

/-- Goes on after a first operand. -/
def operators (n : Nat) (strength : Nat) (left : Expr) : Parse Expr := do
  match n with
  | 0 => refuse "too many levels"
  | n + 1 =>
    let t ← current
    match binaryOp? t with
    | some (op, leftStrength, rightStrength) =>
      if leftStrength > strength then
        advance
        let right ← operation n rightStrength
        operators n strength (op.build left right t.line (← get).lastLine)
      else return left
    | none => return left
termination_by structural n

def simple (n : Nat) : Parse Expr := do
  match n with
  | 0 => refuse "too many levels"
  | n + 1 =>
    let t ← current
    match t.kind with
    | .num (.int i) =>
      advance
      return .int i
    | .num (.float x) =>
      advance
      return .float x
    | .str s =>
      advance
      return .str s
    | .word "nil" =>
      advance
      return .nil
    | .word "true" =>
      advance
      return .bool true
    | .word "false" =>
      advance
      return .bool false
    | .word "..." =>
      unless (← get).isVararg do refuse "cannot use '...' outside a vararg function"
      advance
      return .vararg
    | .word "\x7b" => tableExpr n
    | .word "function" =>
      advance
      return .func (← functionBody n false t.line)
    | _ => suffixed n
termination_by structural n

def primary (n : Nat) : Parse Expr := do
  match n with
  | 0 => refuse "too many levels"
  | n + 1 =>
    let t ← current
    match t.kind with
    | .name x =>
      advance
      nameExpr x t.line
    | .word "(" =>
      advance
      let e ← expr n
      expectClose ")" "(" t.line
      return .paren e
    | _ => refuse "unexpected symbol"
termination_by structural n

def suffixed (n : Nat) : Parse Expr := do
  match n with
  | 0 => refuse "too many levels"
  | n + 1 =>
    let e ← primary n
    suffixes n e
termination_by structural n

def suffixes (n : Nat) (e : Expr) : Parse Expr := do
  match n with
  | 0 => refuse "too many levels"
  | n + 1 =>
    let t ← current
    match t.kind with
    | .word "." =>
      advance
      let line := (← current).line
      let x ← name
      suffixes n (.index e (.str x) line)
    | .word "[" =>
      advance
      let key ← expr n
      let line := (← current).line
      expect "]"
      suffixes n (.index e key line)
    | .word ":" =>
      advance
      let x ← name
      let line := (← current).line
      let args ← arguments n
      suffixes n (.method e x args line)
    | .word "(" =>
      let args ← arguments n
      suffixes n (.call e args t.line)
    | .word "\x7b" =>
      let args ← arguments n
      suffixes n (.call e args t.line)
    | .str _ =>
      let args ← arguments n
      suffixes n (.call e args t.line)
    | _ => return e
termination_by structural n

def arguments (n : Nat) : Parse (List Expr) := do
  match n with
  | 0 => refuse "too many levels"
  | n + 1 =>
    let t ← current
    match t.kind with
    | .str s =>
      advance
      return [.str s]
    | .word "\x7b" => return [← tableExpr n]
    | .word "(" =>
      advance
      if ← accept ")" then return []
      let args ← exprs n
      expectClose ")" "(" t.line
      return args
    | _ => refuse "function arguments expected"
termination_by structural n

def exprs (n : Nat) : Parse (List Expr) := do
  match n with
  | 0 => refuse "too many levels"
  | n + 1 =>
    let e ← expr n
    if ← accept "," then return e :: (← exprs n)
    else return [e]
termination_by structural n

def tableExpr (n : Nat) : Parse Expr := do
  match n with
  | 0 => refuse "too many levels"
  | n + 1 =>
    let line := (← current).line
    expect "\x7b"
    let fs ← fields n
    expectClose "\x7d" "\x7b" line
    return .table fs line
termination_by structural n

def fields (n : Nat) : Parse (List Field) := do
  match n with
  | 0 => refuse "too many levels"
  | n + 1 =>
    if ← at? "\x7d" then return []
    let f ← field n
    if (← accept ",") || (← accept ";") then return f :: (← fields n)
    else return [f]
termination_by structural n

def field (n : Nat) : Parse Field := do
  match n with
  | 0 => refuse "too many levels"
  | n + 1 =>
    let t ← current
    match t.kind with
    | .name x =>
      match (← get).tokens with
      | _ :: next :: _ =>
        checkToken next
        if Token.isWord next "=" then
          advance
          advance
          return .pair (.str x) (← expr n)
        else return .item (← expr n)
      | _ => return .item (← expr n)
    | .word "[" =>
      advance
      let key ← expr n
      expect "]"
      expect "="
      return .pair key (← expr n)
    | _ => return .item (← expr n)
termination_by structural n

/-- The names of parameters after the opening bracket; whether more arguments are taken. -/
def parameters (n : Nat) : Parse (List Bytes × Bool) := do
  match n with
  | 0 => refuse "too many levels"
  | n + 1 =>
    let t ← current
    match t.kind with
    | .name x =>
      advance
      if ← accept "," then
        let (xs, isVararg) ← parameters n
        return (x :: xs, isVararg)
      else return ([x], false)
    | .word "..." =>
      advance
      return ([], true)
    | _ => refuse "<name> or '...' expected"
termination_by structural n

def functionBody (n : Nat) (isMethod : Bool) (line : Nat) : Parse Func := do
  match n with
  | 0 => refuse "too many levels"
  | n + 1 =>
    let (f, slots) ← inFunction false (do
      expect "("
      let (xs, isVararg) ← if ← at? ")" then pure ([], false) else parameters n
      let xs := if isMethod then ("self" : Bytes) :: xs else xs
      checkRoom xs.length line
      xs.forM fun x => declare x false
      modify fun s => { s with isVararg }
      expect ")"
      let body ← block n line
      expectClose "end" "function" line
      return (xs.length, isVararg, body))
    return .mk f.1 f.2.1 f.2.2 line slots
termination_by structural n

def block (n : Nat) (functionLine : Nat) : Parse Block := do
  match n with
  | 0 => refuse "too many levels"
  | n + 1 =>
    let (stats, labels) ← inBlock (statements n functionLine 0)
    return .mk stats labels
termination_by structural n

/-- The statements from position `position` of a block on. -/
def statements (n : Nat) (functionLine position : Nat) : Parse (List Stat) := do
  match n with
  | 0 => refuse "too many levels"
  | n + 1 =>
    if ← blockEnds true then return []
    if ← at? "return" then return [← returnStat n]
    let more ← statement n functionLine position
    let rest ← statements n functionLine (position + more.length)
    return more ++ rest
termination_by structural n

def returnStat (n : Nat) : Parse Stat := do
  match n with
  | 0 => refuse "too many levels"
  | n + 1 =>
    advance
    let es ← if (← blockEnds true) || (← at? ";") then pure [] else exprs n
    let _ ← accept ";"
    return .ret es
termination_by structural n

/-- One statement; it may leave nothing, and a label may take more empty statements with it. -/
def statement (n : Nat) (functionLine position : Nat) : Parse (List Stat) := do
  match n with
  | 0 => refuse "too many levels"
  | n + 1 =>
    let t ← current
    match t.kind with
    | .word ";" =>
      advance
      return []
    | .word "if" => return [← ifStat n functionLine t.line]
    | .word "while" =>
      advance
      let c ← expr n
      expect "do"
      let body ← inLoop (block n functionLine)
      expectClose "end" "while" t.line
      return [.whileLoop c body]
    | .word "do" =>
      advance
      let body ← block n functionLine
      expectClose "end" "do" t.line
      return [.block body]
    | .word "for" => return [← forStat n functionLine]
    | .word "repeat" =>
      advance
      let ((stats, c), labels) ← inLoop (inBlock (do
        let stats ← statements n functionLine 0
        expectClose "until" "repeat" t.line
        let c ← expr n
        return (stats, c)))
      return [.repeatLoop (.mk stats labels) c]
    | .word "function" => return [← functionStat n t.line]
    | .word "local" =>
      advance
      if ← accept "function" then
        let x ← name
        checkRoom 1 functionLine
        declare x false
        return [.localFunc (← functionBody n false t.line)]
      else return [← localStat n functionLine]
    | .word "::" =>
      advance
      labelStat n functionLine position t.line
    | .word "break" =>
      advance
      if (← get).loops = 0 then
        modify fun s => { s with jumps := s.jumps ++ [⟨breakName, t.line, s.vars.length⟩] }
      return [.breakLoop]
    | .word "goto" =>
      advance
      let x ← name
      if (← visibleLabel? x).isNone then
        modify fun s => { s with jumps := s.jumps ++ [⟨x, t.line, s.vars.length⟩] }
      return [.goto x]
    | .word "return" => return [← returnStat n]
    | _ => return [← exprStat n]
termination_by structural n

/-- A label; the empty statements and labels after it are read first. -/
def labelStat (n : Nat) (functionLine position line : Nat) : Parse (List Stat) := do
  match n with
  | 0 => refuse "too many levels"
  | n + 1 =>
    let x ← name
    expect "::"
    skipEmpty n functionLine position
    match ← visibleLabel? x with
    | some l => refuseHere ("label '" ++ x ++ "' already defined on line " ++
        (toString l.line : String))
    | none =>
      -- a label at the end of a block admits jumps from anywhere in it
      let s ← get
      addLabel x line position (if ← blockEnds false then s.blockStart else s.vars.length)
      return []
termination_by structural n

def skipEmpty (n : Nat) (functionLine position : Nat) : Parse Unit := do
  match n with
  | 0 => refuse "too many levels"
  | n + 1 =>
    if ← accept ";" then skipEmpty n functionLine position
    else
      let t ← current
      if Token.isWord t "::" then
        advance
        let _ ← labelStat n functionLine position t.line
        skipEmpty n functionLine position
      else return ()
termination_by structural n

def ifStat (n : Nat) (functionLine line : Nat) : Parse Stat := do
  match n with
  | 0 => refuse "too many levels"
  | n + 1 =>
    advance
    let c ← expr n
    expect "then"
    let yes ← block n functionLine
    if ← at? "elseif" then
      let no ← ifStat n functionLine line
      return .cond c yes (.mk [no] [])
    else if ← accept "else" then
      let no ← block n functionLine
      expectClose "end" "if" line
      return .cond c yes no
    else
      expectClose "end" "if" line
      return .cond c yes (.mk [] [])
termination_by structural n

def forStat (n : Nat) (functionLine : Nat) : Parse Stat := do
  match n with
  | 0 => refuse "too many levels"
  | n + 1 =>
    let line := (← current).line
    advance
    let x ← name
    let t ← current
    match t.kind with
    | .word "=" =>
      advance
      let start ← expr n
      expect ","
      let limit ← expr n
      let step ← if ← accept "," then expr n else pure (.int 1)
      expect "do"
      let bodyLine := (← get).lastLine
      let body ← inLoop (withVariables [x] (block n functionLine))
      expectClose "end" "for" line
      return .countLoop start limit step body bodyLine
    | .word "," =>
      advance
      let xs ← names n
      eachLoop n functionLine line (x :: xs)
    | .word "in" => eachLoop n functionLine line [x]
    | _ => refuse "'=' or 'in' expected"
termination_by structural n

def eachLoop (n : Nat) (functionLine line : Nat) (xs : List Bytes) : Parse Stat := do
  match n with
  | 0 => refuse "too many levels"
  | n + 1 =>
    expect "in"
    let es ← exprs n
    expect "do"
    let body ← inLoop (withVariables xs (block n functionLine))
    expectClose "end" "for" line
    return .eachLoop xs.length es body line
termination_by structural n

def names (n : Nat) : Parse (List Bytes) := do
  match n with
  | 0 => refuse "too many levels"
  | n + 1 =>
    let x ← name
    if ← accept "," then return x :: (← names n)
    else return [x]
termination_by structural n

/-- `function a.b:c() … end`. -/
def functionStat (n : Nat) (line : Nat) : Parse Stat := do
  match n with
  | 0 => refuse "too many levels"
  | n + 1 =>
    advance
    let first := (← current).line
    let x ← name
    let e ← nameExpr x first
    let (target, isMethod) ← functionPath n e
    checkAssignable target
    let f ← functionBody n isMethod line
    match target with
    | .var v => return .assign [.var v] [.func f] line
    | .index object key _ => return .assign [.index object key] [.func f] line
    | _ => refuse "syntax error"
termination_by structural n

def functionPath (n : Nat) (e : Expr) : Parse (Expr × Bool) := do
  match n with
  | 0 => refuse "too many levels"
  | n + 1 =>
    if ← accept "." then
      let line := (← current).line
      let x ← name
      functionPath n (.index e (.str x) line)
    else if ← accept ":" then
      let line := (← current).line
      let x ← name
      return (.index e (.str x) line, true)
    else return (e, false)
termination_by structural n

/-- The names of a local declaration, each with whether it is read-only. -/
def localNames (n : Nat) : Parse (List (Bytes × Bool)) := do
  match n with
  | 0 => refuse "too many levels"
  | n + 1 =>
    let x ← name
    let readOnly ← if ← accept "<" then
        let mark ← name
        expect ">"
        if mark == ("const" : Bytes) || mark == ("close" : Bytes) then pure true
        else refuseHere ("unknown attribute '" ++ mark ++ "'")
      else pure false
    if ← accept "," then return (x, readOnly) :: (← localNames n)
    else return [(x, readOnly)]
termination_by structural n

def localStat (n : Nat) (functionLine : Nat) : Parse Stat := do
  match n with
  | 0 => refuse "too many levels"
  | n + 1 =>
    let xs ← localNames n
    checkRoom xs.length functionLine
    let es ← if ← accept "=" then exprs n else pure []
    xs.forM fun (x, readOnly) => declare x readOnly
    return .locals (xs.map (·.1)) es
termination_by structural n

def exprStat (n : Nat) : Parse Stat := do
  match n with
  | 0 => refuse "too many levels"
  | n + 1 =>
    let e ← suffixed n
    if (← at? "=") || (← at? ",") then assignment n [e]
    else match e with
      | .call .. => return .call e
      | .method .. => return .call e
      | _ => refuse "syntax error"
termination_by structural n

/-- An assignment after its targets so far, the last one first. -/
def assignment (n : Nat) (targets : List Expr) : Parse Stat := do
  match n with
  | 0 => refuse "too many levels"
  | n + 1 =>
    match targets with
    | .var _ :: _ => checkAssignable (targets.headD .nil)
    | .index .. :: _ => pure ()
    | _ => refuse "syntax error"
    if ← accept "," then
      let e ← suffixed n
      assignment n (e :: targets)
    else
      expect "="
      let es ← exprs n
      let line := (← current).line
      let targets := targets.reverse.filterMap fun
        | .var v => some (.var v)
        | .index object key _ => some (.index object key)
        | _ => none
      return .assign targets es line
termination_by structural n
end

end Parse

/-- The main function of a source text: it takes any arguments, and its only outer variable is the
environment. -/
def parse (source chunk : Bytes) : Except Bytes Func := do
  let tokens := Token.ofBytes source
  let start : Parse.State := {
    chunk, tokens, lastLine := 1, vars := [⟨Parse.environmentName, false, 0⟩], blockStart := 1,
    level := 0
    isVararg := true, loops := 0, labels := [], jumps := [], peak := 0 }
  let main : Parse (Block × Nat) := do
    Parse.checkToken (tokens.headD default)
    Parse.inFunction true (do
      let body ← Parse.block (12 * tokens.length + 40) 0
      if (← Parse.current).kind != .eof then Parse.refuse "<eof> expected"
      return body)
  let ((body, slots), _) ← main.run start
  return .mk 0 true body 0 slots

end Cordon.Lua
