import Cordon.Proofs.Lua.Closed
import Cordon.Proofs.Sandbox.Protected

/-!
# What programs may not get hold of

A ward keeps some tables and functions from programs, and some variables from being changed by them. A
value is clear of it if it is none of these tables and functions. A function is clear if nothing that it
holds leads to one of them, or if it is one of the programs behind protected calls, whose variables are
kept but which change none.
-/

namespace Cordon.Lua

/-- The functions that the programs behind protected calls hold. -/
def Protect.Guard.functions (g : Protect.Guard) : List Nat :=
  [g.finish, g.isFatal, g.type, g.select, g.error, g.xpcall, g.pcall]

/-- Tables and functions that are kept from programs, and variables that they may not change. -/
structure Ward where
  table : Nat → Prop
  function : Nat → Prop
  cell : Nat → Prop
  /-- What holds of a kept table as long as programs run. -/
  content : Nat → Table → Prop
  /-- Kept functions that native code calls all the same, in ways that do no harm. -/
  native : Nat → Native → Prop
  /-- Libraries that the host has loaded and may hand out. -/
  library : Bytes → Prop
  /-- Protected calls whose variables are kept. -/
  guards : Protect.Guard → Prop
  /-- The host's own tables. -/
  globals : Nat
  loaded : Nat
  preload : Nat
  package : Nat
  cells : ∀ {g : Protect.Guard}, guards g → ∀ id ∈ g.cells, cell id
  functions : ∀ {g : Protect.Guard}, guards g → ∀ id ∈ g.functions, ¬ function id
  libraries : ∀ {name : Bytes}, library name → table loaded ∧
    ∀ t, content loaded t → ∃ id, t.getStr name = .table id ∧ ¬ table id

/-- Nothing of the host's module system is kept. -/
structure Ward.Open (w : Ward) : Prop where
  globals : ¬ w.table w.globals
  loaded : ¬ w.table w.loaded
  preload : ¬ w.table w.preload
  package : ¬ w.table w.package

variable {w : Ward}

/-- The value is nothing that the ward keeps. -/
def Value.Clear (w : Ward) : Value → Prop
  | .table id => ¬ w.table id
  | .fn id => ¬ w.function id
  | _ => True

theorem Value.clear_str (b : Bytes) : (Value.str b).Clear w := trivial

def Clears (w : Ward) (vs : List Value) : Prop := ∀ v ∈ vs, v.Clear w

namespace Clears

variable {v : Value} {vs us : List Value}

theorem nil : Clears w [] := fun _ h => absurd h List.not_mem_nil

theorem cons (hv : v.Clear w) (hvs : Clears w vs) : Clears w (v :: vs) :=
  List.forall_mem_cons.mpr ⟨hv, hvs⟩

theorem one (hv : v.Clear w) : Clears w [v] := cons hv nil

theorem head (h : Clears w (v :: vs)) : v.Clear w := h v (.head _)

theorem tail (h : Clears w (v :: vs)) : Clears w vs := fun u hu => h u (.tail _ hu)

theorem first (h : Clears w vs) : (Value.first vs).Clear w := by
  cases vs with
  | nil => trivial
  | cons v vs => exact h.head

theorem drop (h : Clears w vs) (n : Nat) : Clears w (vs.drop n) :=
  fun v hv => h v (List.mem_of_mem_drop hv)

theorem append (h : Clears w vs) (h' : Clears w us) : Clears w (vs ++ us) := fun v hv =>
  (List.mem_append.mp hv).elim (h v) (h' v)

theorem reverse (h : Clears w vs) : Clears w vs.reverse := fun v hv => h v (List.mem_reverse.mp hv)

theorem get (h : Clears w vs) {n : Nat} (hv : vs[n]? = some v) : v.Clear w :=
  h v (List.mem_of_getElem? hv)

theorem getD (h : Clears w vs) (n : Nat) : (vs.getD n .nil).Clear w := by
  rw [List.getD_eq_getElem?_getD]
  cases hv : vs[n]? with
  | none => trivial
  | some v => exact h.get hv

theorem arg (h : Clears w vs) (n : Nat) : (Script.arg vs n).Clear w := h.getD (n - 1)

end Clears

/-- The object that a key stands for is clear. -/
def Key.Clear (w : Ward) (k : Key) : Prop := k.toValue.Clear w

theorem Value.Clear.key {v : Value} (hv : v.Clear w) {k : Key} (h : v.key? = some k) : k.Clear w := by
  cases v with
  | table id => cases h; exact hv
  | fn id => cases h; exact hv
  | float x =>
    unfold Value.key? at h
    simp only at h
    split at h
    · cases h
    · split at h <;> cases h <;> trivial
  | nil => cases h
  | _ => cases h; trivial

/-! ## Functions -/

/-- One of the programs behind protected calls, or a message handler that one of them has made. -/
inductive Ward.Program (w : Ward) : Bytes → Func → List Nat → Prop where
  | finish {g : Protect.Guard} (hg : w.guards g) : Program w Protect.chunk Protect.finish g.cells
  | pcall {g : Protect.Guard} (hg : w.guards g) : Program w Protect.chunk Protect.pcall g.cells
  | xpcall {g : Protect.Guard} (hg : w.guards g) : Program w Protect.chunk Protect.xpcall g.cells
  | handler {g : Protect.Guard} (hg : w.guards g) {a b : Nat} (ha : ¬ w.cell a) (hb : ¬ w.cell b) :
    Program w Protect.chunk Protect.handler (a :: b :: g.cells)

/-- The ways in which a kept function does no harm: the compiler is given an environment, or the host's
`require` the name of a library. -/
inductive Native.Harmless (w : Ward) : Native → List Value → Prop where
  | load {args : List Value} (ha : 4 ≤ args.length) : Harmless w (.base .load) args
  | require {name : Bytes} (hn : w.library name.beforeNul) : Harmless w (.base .require) [.str name]

/-- A value that may be called with these arguments. -/
inductive Value.Callable (w : Ward) (args : List Value) : Value → Prop where
  | clear {v : Value} (hv : v.Clear w) : Callable w args v
  | native {id : Nat} {f : Native} (hn : w.native id f) (hf : f.Harmless w args) :
    Callable w args (.fn id)

def StubFn.Clear (w : Ward) : StubFn → Prop
  | .constant vs => Clears w vs
  | .counter cell => ¬ w.cell cell
  | .raising v => v.Clear w
  | .applying fn args => fn.Clear w ∧ Clears w args
  | _ => True

end Cordon.Lua

namespace Cordon

open Lua

/-- The tables of the sandbox are clear. -/
structure ModuleSystem.Clear (w : Ward) (m : ModuleSystem) : Prop where
  package : ¬ w.table m.package
  loaded : ¬ w.table m.loaded

structure Sandbox.Clear (w : Ward) (b : Sandbox) : Prop where
  globals : ¬ w.table b.globals
  modules : b.modules.Clear w

end Cordon

namespace Cordon.Lua

def GateFn.Clear (w : Ward) : GateFn → Prop
  | .print tostring _ _ => tostring.Clear w
  | .load hostLoad globals =>
    (∀ args : List Value, args.length = 4 → hostLoad.Callable w args) ∧ ¬ w.table globals
  | .isFatal => True
  | .resolve m => m.Clear w
  | .finish m => m.Clear w
  | .adminRequire b => w.Open ∧ b.Clear w
  | .adminAllow b => w.Open ∧ b.Clear w
  | .adminRemove b => w.Open ∧ b.Clear w
  | .adminPermitted _ => True

/-- The native functions that a program may have: those that come to the host's own tables only if none
of these is kept. -/
def Native.Clear (w : Ward) : Native → Prop
  | .base .load => ¬ w.table w.globals
  | .base .require | .package _ => w.Open
  | .gmatchStep _ _ cell => ¬ w.cell cell ∧ ¬ w.cell (cell + 1)
  | .stub f => f.Clear w
  | .gate f => f.Clear w
  | _ => True

def Callable.Clear (w : Ward) : Callable → Prop
  | .closure chunk f cells => (∀ id ∈ cells, ¬ w.cell id) ∨ w.Program chunk f cells
  | .native f => f.Clear w

end Cordon.Lua
