import Cordon.Proofs.Sandbox.Furnishing
import Cordon.Proofs.Sandbox.Operations

/-!
# Orders of the host

The host gives modules to a sandbox and takes them back, by its methods or by the functions of the admin
module. An order that fails leaves the allow-list, the global variables and the loaded modules as they
were, and one that succeeds changes what it speaks of and nothing else. Apart from the host's own
`require` no code runs, so it is all the same which metatables programs have put on these tables.
-/

namespace Cordon

open Lua

/-! ## What a sandbox holds -/

/-- The allow-list, and the raw entries of the global variables and of the loaded modules. -/
@[ext] structure Holdings where
  permits : AllowList Value
  globals : Key → Value
  loaded : Key → Value

namespace Holdings

/-- The entries with another value under one name. -/
def setEntry (entries : Key → Value) (name : String) (v : Value) (k : Key) : Value :=
  if .str (Bytes.ofString name) = k then v else entries k

def allow (h : Holdings) (name : String) (v : Value) : Holdings :=
  { h with permits := (h.permits.insert name v).2 }

def bind (h : Holdings) (name : String) (v : Value) : Holdings :=
  { h with globals := setEntry h.globals name v }

def remove (h : Holdings) (name : String) : Holdings where
  permits := (h.permits.erase name).2
  globals := setEntry h.globals name .nil
  loaded := setEntry h.loaded name .nil

end Holdings

/-- The allow-list and the two tables of a sandbox are there, and the tables are different ones. -/
structure Sandbox.Stands (b : Sandbox) (s : Store) : Prop where
  globals : b.globals < s.tables.size
  loaded : b.modules.loaded < s.tables.size
  permit : b.modules.permit < s.permits.size
  apart : b.globals ≠ b.modules.loaded

section

variable {b : Sandbox} {s s' : Store} {n : Nat}

theorem Sandbox.Stands.grown (h : b.Stands s) (hs : s.Grows s') : b.Stands s' where
  globals := Nat.lt_of_lt_of_le h.globals hs.tables
  loaded := Nat.lt_of_lt_of_le h.loaded hs.tables
  permit := Nat.lt_of_lt_of_le h.permit hs.permits
  apart := h.apart

end

section

variable {c : Config} {ctx : Ctx} {m m' : Machine}

end

/-! ## Orders -/

/-- A call of one of the methods of a sandbox, or of one of the functions of its admin module with any
arguments. -/
inductive Order where
  | require (module : String) (exposed : Option String)
  | allow (module : String) (exposed : Option String)
  | remove (name : String)
  | callRequire (args : List Value)
  | callAllow (args : List Value)
  | callRemove (args : List Value)

namespace Order

def run (b : Sandbox) : Order → Host (List Value)
  | require module exposed => do
    b.require module exposed
    return []
  | allow module exposed => do
    b.allow module exposed
    return []
  | remove name => do
    b.remove name
    return []
  | callRequire args => GateFn.run (.adminRequire b) args
  | callAllow args => GateFn.run (.adminAllow b) args
  | callRemove args => GateFn.run (.adminRemove b) args

/-- The module that an order speaks of, and its name in the sandbox. -/
def names : Order → Host (String × String)
  | require module exposed => return (module, exposed.getD module)
  | allow module exposed => return (module, exposed.getD module)
  | remove name => return (name, name)
  | callRequire args => do
    let module ← GateFn.checkName "require" args 1
    let exposed ← GateFn.optName "require" args 2
    return (module, exposed.getD module)
  | callAllow args => do
    let module ← GateFn.checkName "allow" args 1
    let exposed ← GateFn.optName "allow" args 2
    return (module, exposed.getD module)
  | callRemove args => do
    let name ← GateFn.checkName "remove" args 1
    return (name, name)

/-- What the sandbox holds once the order was carried out. -/
def outcome (h : Holdings) (exposed : String) (v : Value) : Order → Holdings
  | require .. => h.bind exposed v
  | callRequire _ => h.bind exposed v
  | allow .. => h.allow exposed v
  | callAllow _ => h.allow exposed v
  | remove _ => h.remove exposed
  | callRemove _ => h.remove exposed

end Order

/-! ## Reading the names -/

/-- Code that comes to the same everywhere, calls nothing and changes nothing. It may fail with an
argument error. -/
def Lua.Host.Reads {α : Type} (p : Host α) : Prop :=
  ∃ r : Except Failure α, (∀ ctx m, p.run ctx m = some (r, m)) ∧ ∀ e, r = .error e → e.kind = .argument

namespace Lua.Host.Reads

variable {α β : Type}

theorem pure (a : α) : Reads (Pure.pure a) := ⟨.ok a, fun _ _ => rfl, nofun⟩

theorem fail {e : Failure} (h : e.kind = .argument) : Reads (Host.fail e : Host α) := by
  refine ⟨.error e, fun _ _ => rfl, fun e' he => ?_⟩
  cases he
  exact h

theorem bind {p : Host α} {f : α → Host β} (hp : p.Reads) (hf : ∀ a, (f a).Reads) :
    (p >>= f).Reads := by
  obtain ⟨r, hr, he⟩ := hp
  cases r with
  | error e =>
    refine ⟨.error e, fun ctx m => by rw [Host.run_bind, hr], fun e' h => ?_⟩
    cases h
    exact he e rfl
  | ok a =>
    obtain ⟨r', hr', he'⟩ := hf a
    exact ⟨r', fun ctx m => by rw [Host.run_bind, hr]; exact hr' ctx m, he'⟩

end Lua.Host.Reads

section

variable {o : Order} {b : Sandbox} {ctx : Ctx} {m m' : Machine}

end

end Cordon
