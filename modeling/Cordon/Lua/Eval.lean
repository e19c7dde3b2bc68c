import Cordon.Lua.Access
import Cordon.Lua.Chunk
import Cordon.Failure.Classify

/-!
# Evaluation

Expressions and statements as functions from the continuation to the action they begin with. They
are defined by recursion on the program; loops and jumps are left to whoever walks the actions.
-/

namespace Cordon.Lua.Eval

abbrev Cont := Value → Store → Action

abbrev Conts := List Value → Store → Action

def fail (env : Env) (line : Nat) (message : Bytes) (s : Store) : Action :=
  .raise (.str (Chunk.at_ env.chunk line message)) s

/-- Raises the complaint that `v` does not allow an operation. -/
def failType (env : Env) (line : Nat) (activity : String) (v : Value) (name : Name?) (s : Store) :
    Action :=
  fail env line (("attempt to " ++ activity ++ " a " : String) ++ s.typeNameOf v ++ " value" ++
    nameNote name) s

def outOfMemory (s : Store) : Action :=
  .raise (.str outOfMemoryText) { s with allocationFailed := true }

def Var.naming (v : Var) : Naming := if v.captured then .captured else .localVar

/-- The name that the key of an entry gives it. -/
def keyName : Expr → Bytes
  | .str k => k
  | .int i => if 0 ≤ i ∧ i ≤ 255 then "integer index" else "?"
  | _ => "?"

/-- The name an expression gives to its value. -/
def describe : Expr → Name?
  | .var v => some (Var.naming v, v.name)
  | .index (.var v) (.str k) _ =>
    some (if v.name == ("_ENV" : Bytes) then .global else .field, k)
  | .index _ key _ => some (.field, keyName key)
  | .str s => some (.constant, s)
  | .paren e => describe e
  | _ => none

def site (env : Env) (line : Nat) (callee : Name?) : Site := ⟨some (env.chunk, line), callee⟩

def metaSite (env : Env) (line : Nat) (name : Bytes) : Site :=
  site env line (some (.metamethod, name.slice 2 name.size))

def readVar (env : Env) (v : Var) (s : Store) : Value :=
  match env.cells[v.index]? with
  | some id => s.cell id
  | none => .nil

def index (env : Env) (line : Nat) (object key : Value) (name : Name?) (k : Cont) (s : Store) :
    Action :=
  match s.access object key with
  | .value v => k v s
  | .call fn object =>
    .call fn [object, key] (metaSite env line Meta.index) (fun vs s => k (.first vs) s) s
  | .missing object first => failType env line "index" object (if first then name else none) s
  | .endless => fail env line "'__index' chain too long; possibly a loop" s

def assignIndex (env : Env) (line : Nat) (object key value : Value) (name : Name?)
    (k : Store → Action) (s : Store) : Action :=
  match s.place object key value with
  | .done s => k s
  | .call fn object =>
    .call fn [object, key, value] (metaSite env line Meta.newindex) (fun _ s => k s) s
  | .missing object first => failType env line "index" object (if first then name else none) s
  | .badKey message => fail env line message s
  | .endless => fail env line "'__newindex' chain too long; possibly a loop" s

def callMeta (env : Env) (line : Nat) (name : Bytes) (h a b : Value) (k : Cont) (s : Store) :
    Action :=
  .call h [a, b] (metaSite env line name) (fun vs s => k (.first vs) s) s

/-- The operand that a message about two operands blames: the first one that is no number. -/
def blame (a b : Value) (nameA nameB : Name?) : Value × Name? :=
  match a with
  | .int _ => (b, nameB)
  | .float _ => (b, nameB)
  | _ => (a, nameA)

def arith (env : Env) (line : Nat) (op : ArithOp) (a b : Value) (nameA nameB : Name?) (k : Cont)
    (s : Store) : Action :=
  match Arith.apply op a b with
  | .value v => k v s
  | .undefined message => fail env line message s
  | .unsupported =>
    match s.binaryMeta (Meta.ofArith op) a b with
    | .nil =>
      if Arith.isBitwise op && (Arith.float? a).isSome && (Arith.float? b).isSome then
        -- the complaint names the first operand that is no integer
        let name := if a.exactInt?.isNone then nameA else nameB
        fail env line ("number" ++ nameNote name ++ " has no integer representation") s
      else
        let (v, name) := blame a b nameA nameB
        failType env line (Arith.activity op) v name s
    | h => callMeta env line (Meta.ofArith op) h a b k s

def neg (env : Env) (line : Nat) (a : Value) (name : Name?) (k : Cont) (s : Store) : Action :=
  match Arith.neg a with
  | some v => k v s
  | none =>
    match s.metafield a Meta.unm with
    | .nil => failType env line "perform arithmetic on" a name s
    | h => callMeta env line Meta.unm h a a k s

def bnot (env : Env) (line : Nat) (a : Value) (name : Name?) (k : Cont) (s : Store) : Action :=
  match a.exactInt? with
  | some i => k (.int (~~~i)) s
  | none =>
    match s.metafield a Meta.bnot with
    | .nil =>
      if (Arith.float? a).isSome then
        fail env line ("number" ++ nameNote name ++ " has no integer representation") s
      else failType env line "perform bitwise operation on" a name s
    | h => callMeta env line Meta.bnot h a a k s

def len (env : Env) (line : Nat) (a : Value) (name : Name?) (k : Cont) (s : Store) : Action :=
  match a with
  | .str b => k (.ofNat b.size) s
  | a =>
    match s.metafield a Meta.len, a with
    | .nil, .table id => k (.ofNat (s.table id).length) s
    | .nil, _ => failType env line "get length of" a name s
    | h, _ => callMeta env line Meta.len h a a k s

def concat (env : Env) (line : Nat) (a b : Value) (nameA nameB : Name?) (k : Cont) (s : Store) :
    Action :=
  match Store.concat? a b with
  | some t => if s.exhausted t.size then outOfMemory s else k (.str t) s
  | none =>
    match s.binaryMeta Meta.concat a b with
    | .nil =>
      if a.text?.isSome then failType env line "concatenate" b nameB s
      else failType env line "concatenate" a nameA s
    | h => callMeta env line Meta.concat h a b k s

def compareMessage (s : Store) (a b : Value) : Bytes :=
  let ta := s.typeNameOf a
  let tb := s.typeNameOf b
  if ta == tb then ("attempt to compare two " : Bytes) ++ ta ++ " values"
  else ("attempt to compare " : Bytes) ++ ta ++ " with " ++ tb

def less (env : Env) (line : Nat) (orEqual : Bool) (a b : Value) (k : Cont) (s : Store) : Action :=
  match Arith.less? orEqual a b with
  | some r => k (.bool r) s
  | none =>
    let name := if orEqual then Meta.le else Meta.lt
    match s.binaryMeta name a b with
    | .nil => fail env line (compareMessage s a b) s
    | h => callMeta env line name h a b (fun v s => k (.bool v.truthy) s) s

def equal (env : Env) (line : Nat) (negated : Bool) (a b : Value) (k : Cont) (s : Store) : Action :=
  if a.rawEq b then k (.bool (!negated)) s
  else if Store.mayEqual a b then
    match s.binaryMeta Meta.eq a b with
    | .nil => k (.bool negated) s
    | h => callMeta env line Meta.eq h a b (fun v s => k (.bool (v.truthy != negated)) s) s
  else k (.bool negated) s

def compare (env : Env) (line : Nat) (op : CompareOp) (a b : Value) (k : Cont) (s : Store) :
    Action :=
  match op with
  | .eq => equal env line false a b k s
  | .ne => equal env line true a b k s
  | .lt => less env line false a b k s
  | .le => less env line true a b k s
  | .gt => less env line false b a k s
  | .ge => less env line true b a k s

def unary (env : Env) (line : Nat) (op : UnaryOp) (a : Value) (name : Name?) (k : Cont)
    (s : Store) : Action :=
  match op with
  | .not => k (.bool !a.truthy) s
  | .neg => neg env line a name k s
  | .len => len env line a name k s
  | .bnot => bnot env line a name k s

/-! ## Expressions -/

mutual

def expr (env : Env) : Expr → Cont → Store → Action
  | .nil, k, s => k .nil s
  | .bool b, k, s => k (.bool b) s
  | .int i, k, s => k (.int i) s
  | .float x, k, s => k (.float x) s
  | .str b, k, s => k (.str b) s
  | .vararg, k, s => k (.first env.varargs) s
  | .var v, k, s => k (readVar env v s) s
  | .index object key line, k, s =>
    expr env object (fun o s => expr env key (fun i s =>
      index env line o i (describe object) k s) s) s
  | .call fn args line, k, s =>
    expr env fn (fun f s => exprs env args (fun vs s =>
      .call f vs (site env line (describe fn)) (fun rs s => k (.first rs) s) s) s) s
  | .method object name args line, k, s =>
    expr env object (fun o s => index env line o (.str name) (describe object) (fun f s =>
      exprs env args (fun vs s =>
        .call f (o :: vs) (site env line (some (.method, name)))
          (fun rs s => k (.first rs) s) s) s) s) s
  | .func f, k, s =>
    let (id, s) := s.newFunction (.closure env.chunk f env.cells)
    k (.fn id) s
  | .arith op left right line, k, s =>
    expr env left (fun a s => expr env right (fun b s =>
      arith env line op a b (describe left) (describe right) k s) s) s
  | .compare op left right line, k, s =>
    expr env left (fun a s => expr env right (fun b s => compare env line op a b k s) s) s
  | .concat left right line, k, s =>
    expr env left (fun a s => expr env right (fun b s =>
      concat env line a b (describe left) (describe right) k s) s) s
  | .unary op operand line, k, s =>
    expr env operand (fun a s => unary env line op a (describe operand) k s) s
  | .and left right, k, s =>
    expr env left (fun a s => if a.truthy then expr env right k s else k a s) s
  | .or left right, k, s =>
    expr env left (fun a s => if a.truthy then k a s else expr env right k s) s
  | .paren e, k, s => expr env e k s
  | .table fs line, k, s =>
    let (id, s) := s.newTable
    fields env line id fs [] (fun s => k (.table id) s) s

/-- Evaluates an expression to all its values. -/
def results (env : Env) : Expr → Conts → Store → Action
  | .vararg, k, s => k env.varargs s
  | .call fn args line, k, s =>
    expr env fn (fun f s => exprs env args (fun vs s =>
      .call f vs (site env line (describe fn)) k s) s) s
  | .method object name args line, k, s =>
    expr env object (fun o s => index env line o (.str name) (describe object) (fun f s =>
      exprs env args (fun vs s =>
        .call f (o :: vs) (site env line (some (.method, name))) k s) s) s) s
  | .paren e, k, s => expr env e (fun v s => k [v] s) s
  | .nil, k, s => k [.nil] s
  | .bool b, k, s => k [.bool b] s
  | .int i, k, s => k [.int i] s
  | .float x, k, s => k [.float x] s
  | .str b, k, s => k [.str b] s
  | .var v, k, s => k [readVar env v s] s
  | .index object key line, k, s =>
    expr env object (fun o s => expr env key (fun i s =>
      index env line o i (describe object) (fun v s => k [v] s) s) s) s
  | .func f, k, s =>
    let (id, s) := s.newFunction (.closure env.chunk f env.cells)
    k [.fn id] s
  | .arith op left right line, k, s =>
    expr env left (fun a s => expr env right (fun b s =>
      arith env line op a b (describe left) (describe right) (fun v s => k [v] s) s) s) s
  | .compare op left right line, k, s =>
    expr env left (fun a s => expr env right (fun b s =>
      compare env line op a b (fun v s => k [v] s) s) s) s
  | .concat left right line, k, s =>
    expr env left (fun a s => expr env right (fun b s =>
      concat env line a b (describe left) (describe right) (fun v s => k [v] s) s) s) s
  | .unary op operand line, k, s =>
    expr env operand (fun a s => unary env line op a (describe operand) (fun v s => k [v] s) s) s
  | .and left right, k, s =>
    expr env left (fun a s =>
      if a.truthy then expr env right (fun v s => k [v] s) s else k [a] s) s
  | .or left right, k, s =>
    expr env left (fun a s =>
      if a.truthy then k [a] s else expr env right (fun v s => k [v] s) s) s
  | .table fs line, k, s =>
    let (id, s) := s.newTable
    fields env line id fs [] (fun s => k [.table id] s) s

/-- Evaluates a list of expressions; the last one gives all its values. -/
def exprs (env : Env) : List Expr → Conts → Store → Action
  | [], k, s => k [] s
  | [e], k, s => results env e k s
  | e :: e' :: es, k, s =>
    expr env e (fun v s => exprs env (e' :: es) (fun vs s => k (v :: vs) s) s) s

/-- Fills a new table; `items` are its positional values so far, the last one first. -/
def fields (env : Env) (line id : Nat) : List Field → List Value → (Store → Action) → Store → Action
  | [], items, k, s => k (s.setItems id items.reverse)
  | [.item e], items, k, s =>
    results env e (fun vs s => k (s.setItems id (items.reverse ++ vs))) s
  | .item e :: f :: fs, items, k, s =>
    expr env e (fun v s => fields env line id (f :: fs) (v :: items) k s) s
  | .pair key value :: fs, items, k, s =>
    expr env key (fun i s => expr env value (fun v s =>
      match i.key? with
      | some i => fields env line id fs items k (s.rawSet id i v)
      | none => fail env line (if i.isNil then "table index is nil" else "table index is NaN") s) s) s

end

/-! ## Statements -/

abbrev Next := Env → Store → Action

inductive Slot where
  | cell (id : Nat)
  | entry (object key : Value) (name : Name?)
  | nowhere

/-- The first `n` values, nil where there are too few. -/
def adjust : Nat → List Value → List Value
  | 0, _ => []
  | n + 1, [] => .nil :: adjust n []
  | n + 1, v :: vs => v :: adjust n vs

def declare (env : Env) (vs : List Value) (k : Next) (s : Store) : Action :=
  let (cells, s) := s.newCells env.cells vs
  k { env with cells } s

def cellSlot (env : Env) (v : Var) : Slot :=
  match env.cells[v.index]? with
  | some id => .cell id
  | none => .nowhere

def slots (env : Env) : List Target → (List Slot → Store → Action) → Store → Action
  | [], k, s => k [] s
  | .var v :: ts, k, s => slots env ts (fun rest s => k (cellSlot env v :: rest) s) s
  | .index object key :: ts, k, s =>
    expr env object (fun o s => expr env key (fun i s =>
      slots env ts (fun rest s => k (.entry o i (describe object) :: rest) s) s) s) s

/-- Stores the values, the last one first. -/
def store (env : Env) (line : Nat) : List (Slot × Value) → (Store → Action) → Store → Action
  | [], k, s => k s
  | (slot, v) :: rest, k, s =>
    store env line rest (fun s =>
      match slot with
      | .cell id => k (s.setCell id v)
      | .entry o i name => assignIndex env line o i v name k s
      | .nowhere => k s) s

/-- A loop from `start` by `step`: first value and how often it goes round. -/
inductive Counting where
  | ints (start step : Int64) (rounds : Nat)
  | floats (start step limit : Double)
  | bad (message : Bytes)

/-- The last integer that a limit admits; `none` if it admits nothing. -/
def intLimit (limit : Value) (step : Int64) : Except Unit (Option Int64) :=
  match limit.numeral? with
  | some (.int i) => .ok (some i)
  | some (.float x) =>
    if x.isNaN then .ok none
    else
      let i := if x.isInf then (if x.negative then -0x10000000000000000 else 0x10000000000000000)
        else if step > 0 then x.floorInt else -(x.neg.floorInt)
      if i ≥ 0x8000000000000000 then .ok (if step < 0 then none else some Int64.maxValue)
      else if i < -0x8000000000000000 then .ok (if step > 0 then none else some Int64.minValue)
      else .ok (some (Int64.ofInt i))
  | none => .error ()

def forMessage (s : Store) (what : String) (v : Value) : Bytes :=
  ("bad 'for' " ++ what ++ " (number expected, got " : String) ++ s.typeNameOf v ++ ")"

def counting (s : Store) (start limit step : Value) : Counting :=
  match start, step with
  | .int i, .int d =>
    if d = 0 then .bad "'for' step is zero"
    else
      match intLimit limit d with
      | .error () => .bad (forMessage s "limit" limit)
      | .ok none => .ints i d 0
      | .ok (some l) =>
        let span := if d > 0 then l.toInt - i.toInt else i.toInt - l.toInt
        .ints i d (if span < 0 then 0 else span.toNat / d.toInt.natAbs + 1)
  | start, step =>
    match limit.toDouble?, step.toDouble?, start.toDouble? with
    | none, _, _ => .bad (forMessage s "limit" limit)
    | _, none, _ => .bad (forMessage s "step" step)
    | _, _, none => .bad (forMessage s "initial value" start)
    | some l, some d, some x =>
      if d.isZero then .bad "'for' step is zero" else .floats x d l

/-- One round of a counting loop: the value of its variable and the state of the next round. -/
def round? : List Value → Option (Value × List Value)
  | [.int i, .int d, .int n] =>
    if n = 0 then none else some (.int i, [.int (i + d), .int d, .int (n - 1)])
  | [.float x, .float d, .float l] =>
    if (if Double.zero.lt d then x.le l else l.le x) then
      some (.float x, [.float (x.add d), .float d, .float l])
    else none
  | _ => none

mutual

def stat (env : Env) : Stat → Next → Store → Action
  | .locals names values, k, s =>
    exprs env values (fun vs s => declare env (adjust names.length vs) k s) s
  | .localFunc f, k, s =>
    let (id, s) := s.newCell .nil
    let env := { env with cells := id :: env.cells }
    let (fn, s) := s.newFunction (.closure env.chunk f env.cells)
    k env (s.setCell id (.fn fn))
  | .assign targets values line, k, s =>
    slots env targets (fun slots s => exprs env values (fun vs s =>
      store env line (slots.zip (adjust slots.length vs)) (k env) s) s) s
  | .call e, k, s => results env e (fun _ s => k env s) s
  | .block body, k, s => block env body (fun _ s => k env s) s
  | .whileLoop condition body, k, s =>
    .loop [] (fun _ s => expr env condition (fun v s =>
      if v.truthy then block env body (fun _ s => .again [] s) s else .leave s) s) (k env) s
  | .repeatLoop body condition, k, s =>
    .loop [] (fun _ s => block env body (fun env s => expr env condition (fun v s =>
      if v.truthy then .leave s else .again [] s) s) s) (k env) s
  | .cond condition yes no, k, s =>
    expr env condition (fun v s =>
      if v.truthy then block env yes (fun _ s => k env s) s
      else block env no (fun _ s => k env s) s) s
  | .countLoop start limit step body line, k, s =>
    expr env start (fun a s => expr env limit (fun l s => expr env step (fun d s =>
      let rounds (state : List Value) : Action :=
        .loop state (fun state s =>
          match round? state with
          | none => .leave s
          | some (v, state) =>
            declare env [v] (fun env s => block env body (fun _ s => .again state s) s) s) (k env) s
      match counting s a l d with
      | .bad message => fail env line message s
      | .ints a d n =>
        -- the number of rounds fits: it wraps only as the loop variable does
        rounds [.int a, .int d, .int (Int64.ofNat n)]
      | .floats a d l => rounds [.float a, .float d, .float l]) s) s) s
  | .eachLoop names values body line, k, s =>
    exprs env values (fun vs s =>
      .loop (adjust 3 vs) (fun state s =>
        match state with
        | [f, object, control] =>
          .call f [object, control] (site env line (some (.iterator, "for iterator"))) (fun rs s =>
            if (Value.first rs).isNil then .leave s
            else declare env (adjust names rs) (fun env s => block env body (fun _ s =>
              .again [f, object, .first rs] s) s) s) s
        | _ => .leave s) (k env) s) s
  | .ret [.call fn args line], _, s =>
    expr env fn (fun f s => exprs env args (fun vs s =>
      .tail f vs (site env line (describe fn)) s) s) s
  | .ret [.method object name args line], _, s =>
    expr env object (fun o s => index env line o (.str name) (describe object) (fun f s =>
      exprs env args (fun vs s => .tail f (o :: vs) (site env line (some (.method, name))) s) s) s) s
  | .ret values, _, s => exprs env values (fun vs s => .ret vs s) s
  | .breakLoop, _, s => .leave s
  | .goto label, _, s => .jump label env.cells s
  | .noop, k, s => k env s

def stats (env : Env) : List Stat → Next → Store → Action
  | [], k, s => k env s
  | st :: rest, k, s => stat env st (fun env s => stats env rest k s) s

def statsFrom (env : Env) : Nat → List Stat → Next → Store → Action
  | _, [], k, s => k env s
  | 0, st :: rest, k, s => stat env st (fun env s => statsFrom env 0 rest k s) s
  | n + 1, _ :: rest, k, s => statsFrom env n rest k s

/-- A block; what follows sees the variables at its end. -/
def block (env : Env) : Block → Next → Store → Action
  | .mk body [], k, s => stats env body k s
  | .mk body labels, k, s =>
    .scope labels (fun position cells s =>
      statsFrom { env with cells } position body (fun env s => .endScope (k env) s) s) env.cells s

end

def call (chunk : Bytes) (f : Func) (cells : List Nat) (args : List Value) (s : Store) : Action :=
  let (cells, s) := s.newCells cells (adjust f.params args)
  let env : Env := ⟨chunk, cells, if f.isVararg then args.drop f.params else []⟩
  block env f.body (fun _ s => .ret [] s) s

end Cordon.Lua.Eval
