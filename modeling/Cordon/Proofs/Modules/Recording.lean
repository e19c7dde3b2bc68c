import Cordon.Sandbox.Cache
import Cordon.Proofs.Lua.RawTables
import Cordon.Proofs.Lua.Running
import Cordon.Proofs.Lua.Writes

/-!
# The table of loaded modules as a map

A sandbox keeps its loaded modules in a table that programs see and may give any metatable. Main statement:
what the sandbox finds there under a name is what it wrote last under that name, whichever metatables were
set meanwhile, and nothing is called.
-/

namespace Cordon

open Lua

/-! ## The table in the store -/

namespace Lua.Store

variable (s : Store) (t : Table) (used : Nat)

end Lua.Store

namespace Cache

/-- The sandbox's own accesses to the table, and the metatables that the table is given. -/
inductive Access where
  | store (name value : Value)
  | remove (name : Value)
  | get (name : Value)
  | contains (name : Value)
  | setMetatable (metatable : Option Nat)

inductive Answer where
  | done
  | found (value : Option Value)
  | held (b : Bool)
  deriving DecidableEq

/-- Names are values that can be keys. -/
def Access.Named : Access → Prop
  | store name _ => name.CanBeKey
  | remove name => name.CanBeKey
  | get name => name.CanBeKey
  | contains name => name.CanBeKey
  | setMetatable _ => True

def Access.run (loaded : Nat) : Access → Host Answer
  | store name value => do
    Host.update fun s => s.record loaded name value
    return .done
  | remove name => do
    Host.update fun s => s.forget loaded name
    return .done
  | get name => return .found (← Host.read fun s => s.cached? loaded name)
  | contains name => return .held (← Host.read fun s => (s.cached? loaded name).isSome)
  | setMetatable metatable => do
    Host.update fun s => s.setMetatable loaded metatable
    return .done

/-- The value written last under a name that is raw equal to this one, nil if there is none; the latest
access stands first. -/
def latest (name : Value) : List Access → Value
  | [] => .nil
  | .store name' value :: past => if name'.rawEq name then value else latest name past
  | .remove name' :: past => if name'.rawEq name then .nil else latest name past
  | _ :: past => latest name past

/-- The metatable set last. -/
def metatable : List Access → Option Nat
  | [] => none
  | .setMetatable m :: _ => m
  | _ :: past => metatable past

/-- The value that counts as there: nil and false do not. -/
def hit (name : Value) (past : List Access) : Option Value :=
  if (latest name past).truthy then some (latest name past) else none

def Access.answer (past : List Access) : Access → Answer
  | get name => .found (hit name past)
  | contains name => .held (hit name past).isSome
  | _ => .done

/-- The answers to accesses that follow such a past. -/
def answers (past : List Access) : List Access → List Answer
  | [] => []
  | access :: rest => access.answer past :: answers (access :: past) rest

/-! ## The table and its past -/

/-- The table holds what the accesses say. -/
structure Mirrors (t : Table) (past : List Access) : Prop where
  sound : t.Sound
  get : ∀ {name k}, name.key? = some k → t.get k = latest name past
  metatable : t.metatable = metatable past

namespace Mirrors

variable {t : Table} {past : List Access} {name value : Value} {k : Key}

theorem empty : Mirrors {} [] where
  sound := Table.sound_empty
  get _ := Table.get_empty _
  metatable := rfl

theorem set (h : Mirrors t past) (hname : name.key? = some k) {access : Access}
    (hlatest : ∀ name', latest name' (access :: past) =
      if name.rawEq name' then value else latest name' past)
    (hmetatable : Cache.metatable (access :: past) = Cache.metatable past) :
    Mirrors (t.set k value) (access :: past) where
  sound := (h.sound.set (Key.canonical_of_key? hname) value).1
  get {name' k'} hname' := by
    have hkeys : name.rawEq name' = true ↔ k = k' := by
      rw [Value.rawEq_iff (Value.canBeKey_iff.mpr ⟨k, hname⟩) (Value.canBeKey_iff.mpr ⟨k', hname'⟩),
        hname, hname', Option.some_inj]
    rw [(h.sound.set (Key.canonical_of_key? hname) value).2, hlatest, ← h.get hname']
    simp only [hkeys]
  metatable := by rw [Table.metatable_set, h.metatable, hmetatable]

theorem setMetatable (h : Mirrors t past) (m : Option Nat) :
    Mirrors { t with metatable := m } (.setMetatable m :: past) where
  sound := ⟨h.sound.size, h.sound.apart, h.sound.canonical, h.sound.listed, h.sound.nodup⟩
  get := h.get
  metatable := rfl

end Mirrors

variable {t : Table} {past : List Access} {access : Access} {name : Value} {k : Key}

end Cache

end Cordon
