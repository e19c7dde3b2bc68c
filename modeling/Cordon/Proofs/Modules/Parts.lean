import Cordon.Proofs.Modules.Require
import Cordon.Sandbox.Admission

/-!
# The parts of a sandbox that take part in requiring

`Intact` says that the tables and functions behind a sandbox's `require` are in place, and `Kept` that
nothing which decides a later `require` has changed. Metatables of the global variables and of the
table of loaded modules appear in neither. `Placed` and `Steady` say as much of the tables alone, for
code that uses them by itself.
-/

namespace Cordon

open Lua

structure Parts where
  box : Sandbox
  /-- The table of preloaded functions. -/
  preload : Nat
  /-- The function `require`. -/
  require : Nat
  halves : Require.Halves

namespace Parts

def modules (p : Parts) : ModuleSystem := p.box.modules

def permit (p : Parts) (s : Store) : AllowList Value := s.permit p.modules.permit

end Parts

variable {p : Parts} {s s' s'' : Store}

/-- The tables are four different ones. -/
structure Apart (p : Parts) : Prop where
  loaded_preload : p.modules.loaded ≠ p.preload
  package_loaded : p.modules.package ≠ p.modules.loaded
  package_preload : p.modules.package ≠ p.preload
  globals_loaded : p.box.globals ≠ p.modules.loaded
  globals_preload : p.box.globals ≠ p.preload
  globals_package : p.box.globals ≠ p.modules.package

/-- The tables are in order. -/
structure Placed (p : Parts) (s : Store) : Prop where
  apart : Apart p
  ready : p.modules.Ready p.preload s

/-- The tables are in order, and function `require` uses them. -/
structure Intact (p : Parts) (s : Store) : Prop extends Placed p s where
  serves : Require.Serves p.modules p.require p.halves s

/-- The recorded modules, the preloaded functions and the allow-list are the same. -/
structure Steady (p : Parts) (s s' : Store) : Prop where
  tables : s.tables.size ≤ s'.tables.size
  permits : s.permits.size ≤ s'.permits.size
  loaded : ∀ k : Bytes, s'.rawGet p.modules.loaded (.str k) = s.rawGet p.modules.loaded (.str k)
  preload : ∀ k : Bytes, s'.rawGet p.preload (.str k) = s.rawGet p.preload (.str k)
  permit : p.permit s' = p.permit s
  package : s'.rawGet p.modules.package (.str ("preload" : Bytes)) =
    s.rawGet p.modules.package (.str ("preload" : Bytes))
  plain : (s'.table p.preload).metatable = (s.table p.preload).metatable

/-- In addition `require` is where it was. -/
structure Kept (p : Parts) (s s' : Store) : Prop extends Steady p s s' where
  functions : ∀ id f, s.function? id = some f → s'.function? id = some f
  resolveCell : s'.cell p.halves.resolveCell = s.cell p.halves.resolveCell
  finishCell : s'.cell p.halves.finishCell = s.cell p.halves.finishCell

namespace Steady

theorem refl (p : Parts) (s : Store) : Steady p s s :=
  ⟨Nat.le_refl _, Nat.le_refl _, fun _ => rfl, fun _ => rfl, rfl, rfl, rfl⟩

theorem trans (h : Steady p s s') (h' : Steady p s' s'') : Steady p s s'' where
  tables := Nat.le_trans h.tables h'.tables
  permits := Nat.le_trans h.permits h'.permits
  loaded k := (h'.loaded k).trans (h.loaded k)
  preload k := (h'.preload k).trans (h.preload k)
  permit := h'.permit.trans h.permit
  package := h'.package.trans h.package
  plain := h'.plain.trans h.plain

end Steady

namespace Kept

theorem refl (p : Parts) (s : Store) : Kept p s s :=
  ⟨.refl p s, fun _ _ h => h, rfl, rfl⟩

theorem trans (h : Kept p s s') (h' : Kept p s' s'') : Kept p s s'' where
  toSteady := h.toSteady.trans h'.toSteady
  functions id f hf := h'.functions id f (h.functions id f hf)
  resolveCell := h'.resolveCell.trans h.resolveCell
  finishCell := h'.finishCell.trans h.finishCell

theorem report (p : Parts) (s : Store) (e : Event) : Kept p s (s.report e) :=
  ⟨⟨Nat.le_refl _, Nat.le_refl _, fun _ => rfl, fun _ => rfl, rfl, rfl, rfl⟩, fun _ _ h => h, rfl, rfl⟩

theorem newFault (p : Parts) (s : Store) (e : ScriptError) : Kept p s (s.newFault e).2 :=
  ⟨⟨Nat.le_refl _, Nat.le_refl _, fun _ => rfl, fun _ => rfl, rfl, rfl, rfl⟩, fun _ _ h => h, rfl, rfl⟩

theorem allocationFailed (p : Parts) (s : Store) (failed : Bool) :
    Kept p s { s with allocationFailed := failed } :=
  ⟨⟨Nat.le_refl _, Nat.le_refl _, fun _ => rfl, fun _ => rfl, rfl, rfl, rfl⟩, fun _ _ h => h, rfl, rfl⟩

theorem rawSetStr {id : Nat} (hl : id ≠ p.modules.loaded) (hp : id ≠ p.preload)
    (hk : id ≠ p.modules.package) (s : Store) (k : Bytes) (v : Value) :
    Kept p s (s.rawSetStr id k v) where
  tables := Nat.le_of_eq (s.tables_rawSet_size id (.str k) v).symm
  permits := Nat.le_refl _
  loaded := s.rawGet_rawSetStr_of_ne hl k v
  preload := s.rawGet_rawSetStr_of_ne hp k v
  permit := rfl
  package := s.rawGet_rawSetStr_of_ne hk k v _
  plain := s.metatable_rawSetStr ..
  functions _ _ h := h
  resolveCell := rfl
  finishCell := rfl

theorem setMetatable {id : Nat} (hp : id ≠ p.preload) (s : Store) (m : Option Nat) :
    Kept p s (s.setMetatable id m) where
  tables := Nat.le_of_eq Array.size_modify.symm
  permits := Nat.le_refl _
  loaded k := s.rawGet_setMetatable id m _ (.str k)
  preload k := s.rawGet_setMetatable id m _ (.str k)
  permit := rfl
  package := s.rawGet_setMetatable id m _ _
  plain := congrArg Table.metatable (s.table_setMetatable_of_ne hp m)
  functions _ _ h := h
  resolveCell := rfl
  finishCell := rfl

theorem global (ha : Apart p) (s : Store) (k : Bytes) (v : Value) :
    Kept p s (s.rawSetStr p.box.globals k v) :=
  rawSetStr ha.globals_loaded ha.globals_preload ha.globals_package s k v

end Kept

namespace Placed

theorem steady (h : Placed p s) (hs : Steady p s s') : Placed p s' where
  apart := h.apart
  ready := {
    loaded_lt := Nat.lt_of_lt_of_le h.ready.loaded_lt hs.tables
    preload_lt := Nat.lt_of_lt_of_le h.ready.preload_lt hs.tables
    permit_lt := Nat.lt_of_lt_of_le h.ready.permit_lt hs.permits
    held := hs.package.trans h.ready.held
    plain := hs.plain.trans h.ready.plain }

theorem rawSetStr (h : Placed p s) {id : Nat} (hid : id ≠ p.modules.package) (k : Bytes) (v : Value) :
    Placed p (s.rawSetStr id k v) where
  apart := h.apart
  ready := {
    loaded_lt := by simpa [Store.rawSetStr] using h.ready.loaded_lt
    preload_lt := by simpa [Store.rawSetStr] using h.ready.preload_lt
    permit_lt := h.ready.permit_lt
    held := by rw [Store.rawGet_rawSetStr, if_neg fun he => hid he.1.1, h.ready.held]
    plain := (s.metatable_rawSetStr ..).trans h.ready.plain }

theorem setPermit (h : Placed p s) (l : AllowList Value) :
    Placed p (s.setPermit p.modules.permit l) where
  apart := h.apart
  ready := { h.ready with permit_lt := by simpa [Store.setPermit] using h.ready.permit_lt }

end Placed

namespace Intact

theorem kept (h : Intact p s) (hk : Kept p s s') : Intact p s' where
  toPlaced := h.toPlaced.steady hk.toSteady
  serves := {
    program := hk.functions _ _ h.serves.program
    resolveCell := hk.resolveCell.trans h.serves.resolveCell
    finishCell := hk.finishCell.trans h.serves.finishCell
    resolve := hk.functions _ _ h.serves.resolve
    finish := hk.functions _ _ h.serves.finish }

theorem rawSetStr (h : Intact p s) {id : Nat} (hid : id ≠ p.modules.package) (k : Bytes) (v : Value) :
    Intact p (s.rawSetStr id k v) :=
  ⟨h.toPlaced.rawSetStr hid k v, h.serves.rawSetStr ..⟩

theorem setPermit (h : Intact p s) (l : AllowList Value) :
    Intact p (s.setPermit p.modules.permit l) where
  toPlaced := h.toPlaced.setPermit l
  serves := ⟨h.serves.program, h.serves.resolveCell, h.serves.finishCell, h.serves.resolve,
    h.serves.finish⟩

end Intact

theorem Kept.declared (h : Intact p s) (n : Bytes) (ready : Bool) (v extra : Value) :
    Kept p s (Require.declared s n ready v extra) := by
  have hold {id : Nat} (hid : s.cell id ≠ .nil) :
      (Require.declared s n ready v extra).cell id = s.cell id := by
    have := s.lt_of_cell hid
    rw [Require.cell_declared, if_neg (by omega), if_neg (by omega), if_neg (by omega),
      if_neg (by omega)]
  exact { Kept.refl p s with
    resolveCell := hold (by rw [h.serves.resolveCell]; nofun)
    finishCell := hold (by rw [h.serves.finishCell]; nofun) }

end Cordon
