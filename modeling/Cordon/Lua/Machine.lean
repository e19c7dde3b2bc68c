import Cordon.Lua.Eval
import Cordon.Lua.Invoke

/-!
# The machine

Walks the actions of programs. What a thread has to come back to is a list of frames, so that
protected calls, coroutines and jumps are matters of taking frames off this list. Native functions
run in one step; a program that one of them calls is walked to its end within that step.
-/

namespace Cordon.Lua

/-- What is to be done next. -/
inductive Control where
  | act (a : Action)
  | apply (fn : Value) (args : List Value) (store : Store)
  | ret (values : List Value) (store : Store)
  | raise (v : Value) (store : Store)

/-- A thread that waits for one it resumed. -/
structure Resumer where
  thread : Nat
  frames : List Frame
  depth : Depth
  wrapped : Bool

/-- What stays the same during a run. -/
structure Surroundings where
  /-- The handler of an error that the run does not catch. -/
  handler : Handler := .none
  /-- The calls that led to the run. -/
  sites : Unit → List Site := fun _ => [{}]
  depth : Depth := {}

/-- A run between two steps, apart from what is to be done next: programs and data are in the
control alone, so that they can be changed in place. -/
structure Exec where
  frames : List Frame := []
  depth : Depth
  /-- The threads that wait, the latest one first. -/
  resumers : List Resumer := []
  thread : Nat
  threads : Array Thread

/-- The end of a run: what it returned or raised. -/
structure Finish where
  result : Except Value (List Value)
  machine : Machine

/-- What a step comes to. -/
inductive Progress where
  | next (c : Control) (e : Exec)
  | done (f : Finish)

/-- Runs a call to its end, in these surroundings. -/
abbrev Caller := Surroundings → Nat → Value → List Value → Machine → Option Finish

/-! ## Limits -/

def maxSlots : Nat := 1000000

/-- How many calls native code may have under way. -/
def maxNatives : Nat := 200

/-- What a call of a native function takes of the stack. -/
def nativeSlots : Nat := 20

def Depth.deeper (d : Depth) : Depth := { d with natives := d.natives + 1 }

/-! ## Frames -/

def Frame.site? : Frame → Option Site
  | call site .. => some site
  | guard .. => some {}
  | _ => none

/-- Takes frames off up to the innermost loop: its body, what follows it, and the frames
around it. -/
def innerLoop? : List Frame →
    Option ((List Value → Store → Action) × (Store → Action) × List Frame)
  | .loop body done :: rest => some (body, done, rest)
  | .scope .. :: rest => innerLoop? rest
  | _ => none

/-- Takes frames off up to the innermost block with a label, which stays. -/
def labelled? (name : Bytes) :
    List Frame → Option (Label × (Nat → List Nat → Store → Action) × List Frame)
  | .scope labels entry :: rest =>
    match labels.find? (·.name == name) with
    | some l => some (l, entry, .scope labels entry :: rest)
    | none => labelled? name rest
  | .loop .. :: rest => labelled? name rest
  | _ => none

/-- Takes frames off up to the innermost protected call: its handler, and what is around it. -/
def innerGuard? : List Frame → Option (Option Value × Depth × List Frame)
  | .guard handler depth :: rest => some (handler, depth, rest)
  | _ :: rest => innerGuard? rest
  | [] => none

/-- The frames of a function that gives way to another one: what is left is its call, by a name that
no longer holds, and the depth around it. -/
def giveWay (outermost : Depth) : List Frame → List Frame × Depth
  | .call site next depth :: rest => (.call { site with callee := none } next depth :: rest, depth)
  | .guard handler depth :: rest => (.guard handler depth :: rest, depth.deeper)
  | _ :: rest => giveWay outermost rest
  | [] => ([], outermost)

namespace Exec

/-- The calls under way in the current thread. -/
def sites (b : Surroundings) (e : Exec) : List Site :=
  e.frames.filterMap Frame.site? ++ (if e.resumers.isEmpty then b.sites () else [])

/-- The handler that an error raised now would meet. -/
def handler (b : Surroundings) (e : Exec) : Handler :=
  match innerGuard? e.frames with
  | some (some h, _, _) => .fn h
  | some (none, _, _) => .none
  | none => if e.resumers.isEmpty then b.handler else .none

/-- The depth at the start of the current thread's part of the run. -/
def outermost (b : Surroundings) (e : Exec) : Depth :=
  match e.resumers with
  | [] => b.depth
  | r :: _ => { slots := 0, natives := r.depth.natives + 1 }

def context (caller : Caller) (b : Surroundings) (e : Exec) (callee : Value) : Ctx where
  callee
  sites := fun _ => e.sites b
  handler := fun _ => e.handler b
  thread := e.thread
  yieldable := !e.resumers.isEmpty
  natives := e.depth.natives
  call := fun handler fn args m =>
    let inner : Surroundings :=
      { handler, sites := fun _ => {} :: e.sites b, depth := e.depth.deeper }
    (caller inner e.thread fn args m).map fun f => (f.result, f.machine)

/-- The place of the innermost call, to put before a message. -/
def place (e : Exec) (b : Surroundings) : Bytes :=
  match (e.sites b).head? with
  | some ⟨some (chunk, line), _⟩ => chunk ++ ":" ++ (toString line : String) ++ ": "
  | _ => .empty

def complain (e : Exec) (b : Surroundings) (message : Bytes) (s : Store) : Control :=
  .raise (.str (e.place b ++ message)) s

def setThread (e : Exec) (id : Nat) (t : Thread) : Exec :=
  { e with threads := e.threads.setIfInBounds id t }

/-- Goes back to the thread that resumed the current one, which is left in state `t`. -/
def backTo (e : Exec) (r : Resumer) (rest : List Resumer) (t : Thread) : Exec :=
  { (e.setThread e.thread t).setThread r.thread .running with
    frames := r.frames
    depth := r.depth
    resumers := rest
    thread := r.thread }

/-! ## Steps -/

def ret (e : Exec) (vs : List Value) (s : Store) : Progress :=
  match e.frames with
  | .call _ next depth :: rest => .next (.act (next vs s)) { e with frames := rest, depth }
  | .guard _ depth :: rest => .next (.ret (.bool true :: vs) s) { e with frames := rest, depth }
  | _ :: rest => .next (.ret vs s) { e with frames := rest }
  | [] =>
    match e.resumers with
    | [] => .done ⟨.ok vs, ⟨s, e.threads⟩⟩
    | r :: rest =>
      let vs := if r.wrapped then vs else .bool true :: vs
      .next (.ret vs s) (e.backTo r rest (.dead none))

/-- What a protected call makes of an error. -/
def caught (handler : Option Value) (v : Value) : Act Value := do
  let v ← match handler with
    | some h => Act.handle (.fn h) v
    | none => pure v
  Act.caught
  return v

/-- Unwinds to the innermost protected call, or to the end of the thread. -/
def raise (caller : Caller) (b : Surroundings) (e : Exec) (v : Value) (s : Store) :
    Option Progress :=
  match innerGuard? e.frames with
  | some (handler, depth, rest) => do
    let (v, m) ← caught handler v (e.context caller b .nil) ⟨s, e.threads⟩
    let e := { e with frames := rest, depth, threads := m.threads }
    return .next (.ret [.bool false, v] m.store) e
  | none =>
    match e.resumers with
    | [] => some (.done ⟨.error v, ⟨s, e.threads⟩⟩)
    | r :: rest =>
      if r.wrapped then
        -- the thread is closed, and its error goes on with the place of the call put before text
        let back := e.backTo r rest (.dead none)
        match v with
        | .str text =>
          if s.allocationFailed then some (.next (.raise v s) back)
          else some (.next (back.complain b text s) back)
        | _ => some (.next (.raise v s) back)
      else
        let s := { s with allocationFailed := false }
        some (.next (.ret [.bool false, v] s) (e.backTo r rest (.dead (some v))))

/-- What can be called in place of a value, with the arguments it then gets. -/
def callable? (s : Store) : Nat → Value → List Value → Option (Value × Callable × List Value)
  | 0, _, _ => none
  | n + 1, v, args =>
    match v with
    | .fn id => (s.function? id).map fun c => (v, c, args)
    | v =>
      match s.metafield v Meta.call with
      | .nil => none
      | h => callable? s n h (v :: args)

/-- How many objects may stand for a function, one for the other. -/
def maxStandIns : Nat := 200

def resume (e : Exec) (b : Surroundings) (id : Nat) (args : List Value) (wrapped : Bool)
    (s : Store) : Progress :=
  let refuse (message : Bytes) : Progress :=
    if wrapped then .next (e.complain b message s) e
    else .next (.ret [.bool false, .str message] s) e
  let r : Resumer := ⟨e.thread, e.frames, e.depth, wrapped⟩
  let enter (frames : List Frame) (depth : Depth) : Exec :=
    { (e.setThread e.thread .normal).setThread id .running with
      frames
      depth
      resumers := r :: e.resumers
      thread := id }
  if e.depth.natives ≥ maxNatives then refuse "C stack overflow"
  else
    match e.threads.getD id default with
    | .fresh fn =>
      .next (.apply fn args s) (enter [] { slots := 0, natives := e.depth.natives + 1 })
    | .suspended frames depth => .next (.ret args s) (enter frames depth)
    | .dead _ => refuse "cannot resume dead coroutine"
    | _ => refuse "cannot resume non-suspended coroutine"

def yield (e : Exec) (vs : List Value) (s : Store) : Progress :=
  match e.resumers with
  | r :: rest =>
    let vs := if r.wrapped then vs else .bool true :: vs
    .next (.ret vs s) (e.backTo r rest (.suspended e.frames e.depth))
  | [] =>
    let message : String :=
      if e.thread = 0 then "attempt to yield from outside a coroutine"
      else "attempt to yield across a C-call boundary"
    .next (.raise (.str message) s) e

def follow (e : Exec) (b : Surroundings) (r : Except Value Verdict) (s : Store) : Progress :=
  match r with
  | .error v => .next (.raise v s) e
  | .ok (.ret vs) => .next (.ret vs s) e
  | .ok (.tail fn args) => .next (.apply fn args s) e
  | .ok (.protect handler fn args) =>
    .next (.apply fn args s)
      { e with frames := .guard handler e.depth :: e.frames, depth := e.depth.deeper }
  | .ok (.resume id args wrapped) => e.resume b id args wrapped s
  | .ok (.yield vs) => e.yield vs s

/-- Calls a value; the innermost frame is that of the call. -/
def apply (caller : Caller) (b : Surroundings) (e : Exec) (fn : Value) (args : List Value)
    (s : Store) : Option Progress :=
  if e.depth.natives = maxNatives then some (.next (e.complain b "C stack overflow" s) e)
  else
    match callable? s maxStandIns fn args with
    | none =>
      let name := ((e.sites b).head?.getD {}).callee
      some (.next (e.complain b
        ("attempt to call a " ++ s.typeNameOf fn ++ " value" ++ nameNote name) s) e)
    | some (_, .closure chunk f cells, args) =>
      let slots := e.depth.slots + f.slots + (if f.isVararg then args.length + 1 else 0)
      if slots > maxSlots then some (.next (e.complain b "stack overflow" s) e)
      else some (.next (.act (Eval.call chunk f cells args s))
        { e with depth := { e.depth with slots } })
    | some (fn, .native f, args) =>
      if e.depth.slots + nativeSlots > maxSlots then
        some (.next (e.complain b "stack overflow" s) e)
      else do
        let (r, m) ← (f.run args).run (e.context caller b fn) ⟨s, e.threads⟩
        return follow { e with threads := m.threads } b r m.store

/-- Whether a call is that of a metamethod, which native code makes. -/
def isMeta (site : Site) : Bool :=
  match site.callee with
  | some (.metamethod, _) => true
  | _ => false

def slotBytes : Nat := 16

/-- Goes on, unless there is no memory left for the stack. -/
def charged (e : Exec) (s : Store) (c : Store → Control) : Progress :=
  if s.exhausted (slotBytes * e.depth.slots) then
    .next (.raise (.str outOfMemoryText) { s with allocationFailed := true }) e
  else .next (c s) e

def act (b : Surroundings) (e : Exec) : Action → Progress
  | .ret vs s => e.ret vs s
  | .call fn args site next s =>
    let depth := if isMeta site then e.depth.deeper else e.depth
    charged { e with frames := .call site next e.depth :: e.frames, depth } s (.apply fn args)
  | .tail fn args site s =>
    match callable? s maxStandIns fn args with
    | some (_, .closure .., _) =>
      let (frames, depth) := giveWay (e.outermost b) e.frames
      charged { e with frames, depth } s (.apply fn args)
    | _ =>
      charged { e with frames := .call site (fun vs s => .ret vs s) e.depth :: e.frames } s
        (.apply fn args)
  | .raise v s => .next (.raise v s) e
  | .loop state body done s =>
    .next (.act (body state s)) { e with frames := .loop body done :: e.frames }
  | .again state s =>
    match innerLoop? e.frames with
    | some (body, done, rest) =>
      charged { e with frames := .loop body done :: rest } s fun s => .act (body state s)
    | none => e.ret [] s
  | .leave s =>
    match innerLoop? e.frames with
    | some (_, done, rest) => .next (.act (done s)) { e with frames := rest }
    | none => e.ret [] s
  | .scope labels entry cells s =>
    .next (.act (entry 0 cells s)) { e with frames := .scope labels entry :: e.frames }
  | .endScope next s => .next (.act (next s)) { e with frames := e.frames.drop 1 }
  | .jump name cells s =>
    match labelled? name e.frames with
    | some (label, entry, frames) =>
      let visible := cells.drop (cells.length - label.depth)
      .next (.act (entry label.position visible s)) { e with frames }
    | none => e.ret [] s

def step (caller : Caller) (b : Surroundings) (e : Exec) : Control → Option Progress
  | .act a => some (e.act b a)
  | .apply fn args s => e.apply caller b fn args s
  | .ret vs s => some (e.ret vs s)
  | .raise v s => e.raise caller b v s

def start (b : Surroundings) (thread : Nat) (threads : Array Thread) : Exec where
  depth := b.depth
  thread
  threads

/-- At most `fuel` steps, those of the runs within them counted apart. -/
def run : Nat → Surroundings → Control → Exec → Option Finish
  | 0, _, _, _ => none
  | fuel + 1, b, c, e =>
    match e.step (fun b thread fn args m =>
        run fuel b (.apply fn args m.store) (start b thread m.threads)) b c with
    | none => none
    | some (.done f) => some f
    | some (.next c e) => run fuel b c e

end Exec

end Cordon.Lua
