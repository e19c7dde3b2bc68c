import Cordon.Proofs.Sandbox.Adoption
import Cordon.Proofs.Sandbox.Registration

/-!
# Sandboxes beside each other

The sandboxes of an interpreter share its objects, the host's tables and the places where the host keeps
allow-lists and outputs. An operation on one of them reaches what belongs to another one only by code
that it runs.
-/

namespace Cordon

open Lua

/-! ## What belongs to a sandbox -/

/-- A sandbox and the host's tables are there, and the host registers its modules in a table of its
own. -/
structure Standing (g : Registry) (p : Parts) (s : Store) : Prop where
  ready : g.Ready s
  foreign : ¬ p.Own g.loaded
  globals_loaded : g.globals ≠ g.loaded
  package_loaded : g.package ≠ g.loaded
  tables : ∀ id, p.Own id → id < s.tables.size
  permit : p.modules.permit < s.permits.size
  output : p.box.output < s.outputs.size

/-- All that belongs to a sandbox is as it was, and the host still takes in modules without a call. -/
structure Undisturbed (g : Registry) (p : Parts) (s s' : Store) : Prop where
  tables : s.tables.size ≤ s'.tables.size
  table : ∀ id, p.Own id → s'.table id = s.table id
  permits : s.permits.size ≤ s'.permits.size
  permit : p.permit s' = p.permit s
  outputs : s.outputs.size ≤ s'.outputs.size
  output : s'.output p.box.output = s.output p.box.output
  functions : ∀ id f, s.function? id = some f → s'.function? id = some f
  cells : s.cells.size ≤ s'.cells.size
  cell : ∀ id, id = p.halves.resolveCell ∨ id = p.halves.finishCell → id < s.cells.size →
    s'.cell id = s.cell id
  ready : g.Ready s → g.Ready s'
  memoryLimit : s'.memoryLimit = s.memoryLimit

variable {g : Registry} {p : Parts} {s s' s'' : Store} {n : Nat}

theorem Lua.Store.permit_setPermit_of_ne (s : Store) {id id' : Nat} (h : id ≠ id')
    (l : AllowList Value) : (s.setPermit id l).permit id' = s.permit id' := by
  show (s.permits.setIfInBounds id l).getD id' {} = s.permits.getD id' {}
  rw [Array.getD_eq_getD_getElem?, Array.getD_eq_getD_getElem?, Array.getElem?_setIfInBounds_ne h]

theorem Lua.Store.permit_newPermit (s : Store) (id : Nat) : s.newPermit.2.permit id = s.permit id := by
  show (s.permits.push {}).getD id {} = s.permits.getD id {}
  rw [Array.getD_eq_getD_getElem?, Array.getD_eq_getD_getElem?, Array.getElem?_push]
  split
  · next e => rw [Array.getElem?_eq_none (Nat.le_of_eq e.symm)]; rfl
  · rfl

theorem Lua.Store.output_newOutput (s : Store) (id : Nat) : s.newOutput.2.output id = s.output id := by
  show (s.outputs.push {}).getD id {} = s.outputs.getD id {}
  rw [Array.getD_eq_getD_getElem?, Array.getD_eq_getD_getElem?, Array.getElem?_push]
  split
  · next e => rw [Array.getElem?_eq_none (Nat.le_of_eq e.symm)]; rfl
  · rfl

theorem Lua.Store.output_printLine_of_ne (s : Store) {id id' : Nat} (h : id ≠ id') (line : String) :
    (s.printLine id line).output id' = s.output id' := by
  show (s.outputs.modify id _).getD id' {} = s.outputs.getD id' {}
  rw [Array.getD_eq_getD_getElem?, Array.getD_eq_getD_getElem?, Array.getElem?_modify, if_neg h]

theorem Registry.Ready.rawSet (hg : g.Ready s) {id : Nat} (hglobals : id ≠ g.globals)
    (hpackage : id ≠ g.package) (k : Key) (v : Value) : g.Ready (s.rawSet id k v) where
  globals := hg.globals
  package := by
    rw [Store.rawGet, s.table_rawSet_of_ne hglobals]
    exact hg.package
  loaded := by
    rw [Store.rawGet, s.table_rawSet_of_ne hpackage]
    exact hg.loaded
  plain := by
    rw [s.table_rawSet]
    split
    · exact (Table.metatable_set ..).trans hg.plain
    · exact hg.plain
  exist := by
    rw [s.tables_rawSet_size]
    exact hg.exist

theorem Registry.Ready.newTable (hg : g.Ready s) : g.Ready s.newTable.2 where
  globals := hg.globals
  package := (Store.rawGet_newTable ..).trans hg.package
  loaded := (Store.rawGet_newTable ..).trans hg.loaded
  plain := by
    rw [s.table_newTable, if_neg (Nat.ne_of_lt hg.exist.2.2)]
    exact hg.plain
  exist := by
    have hsize := s.tables_newTable_size {}
    have hexist := hg.exist
    omega

namespace Undisturbed

theorem of_shared (h : s'.shared = s.shared) : Undisturbed g p s s' := by
  simp only [Store.shared, Prod.mk.injEq] at h
  obtain ⟨ht, hf, hc, hg, -, hp, ho, hm⟩ := h
  constructor
  case tables => exact Nat.le_of_eq (congrArg Array.size ht.symm)
  case table => exact fun id _ => by rw [Store.table, ht, Store.table]
  case permits => exact Nat.le_of_eq (congrArg Array.size hp.symm)
  case permit => rw [Parts.permit, Store.permit, hp, Parts.permit, Store.permit]
  case outputs => exact Nat.le_of_eq (congrArg Array.size ho.symm)
  case output => rw [Store.output, ho, Store.output]
  case functions => exact fun id f h => by rw [Store.function?, hf, ← h, Store.function?]
  case cells => exact Nat.le_of_eq (congrArg Array.size hc.symm)
  case cell => exact fun id _ _ => by rw [Store.cell, hc, Store.cell]
  case ready => exact fun h => h.of_tables ht hg
  case memoryLimit => exact hm

theorem refl (g : Registry) (p : Parts) (s : Store) : Undisturbed g p s s := of_shared rfl

theorem registered (t : Nat) : Undisturbed g p s { s with registered := some t } :=
  { refl g p s with ready := fun hg => hg.of_tables rfl rfl }

theorem trans (h : Undisturbed g p s s') (h' : Undisturbed g p s' s'') : Undisturbed g p s s'' where
  tables := Nat.le_trans h.tables h'.tables
  table id hid := (h'.table id hid).trans (h.table id hid)
  permits := Nat.le_trans h.permits h'.permits
  permit := h'.permit.trans h.permit
  outputs := Nat.le_trans h.outputs h'.outputs
  output := h'.output.trans h.output
  functions id f hf := h'.functions id f (h.functions id f hf)
  cells := Nat.le_trans h.cells h'.cells
  cell id hid hlt := (h'.cell id hid (Nat.lt_of_lt_of_le hlt h.cells)).trans (h.cell id hid hlt)
  ready := h'.ready ∘ h.ready
  memoryLimit := h'.memoryLimit.trans h.memoryLimit

theorem rawSet {id : Nat} (hid : ¬ p.Own id) (hglobals : id ≠ g.globals) (hpackage : id ≠ g.package)
    (k : Key) (v : Value) : Undisturbed g p s (s.rawSet id k v) :=
  { refl g p s with
    tables := Nat.le_of_eq (s.tables_rawSet_size id k v).symm
    table := fun id' h => s.table_rawSet_of_ne (fun e : id = id' => hid (e ▸ h)) k v
    ready := fun hg => hg.rawSet hglobals hpackage k v }

theorem newTable : Undisturbed g p s s.newTable.2 :=
  { refl g p s with
    tables := Nat.le_of_lt (Nat.lt_of_lt_of_eq (Nat.lt_succ_self _) (s.tables_newTable_size {}).symm)
    table := fun id _ => by
      rw [s.table_newTable]
      split
      · next e => exact (s.table_of_le (Nat.le_of_eq e.symm)).symm
      · rfl
    ready := fun hg => hg.newTable }

theorem newFunction (f : Callable) : Undisturbed g p s (s.newFunction f).2 :=
  { refl g p s with
    functions := fun _ _ h => s.function?_newFunction_of_some h f
    ready := fun hg => hg.of_tables rfl rfl }

theorem newCell (v : Value) : Undisturbed g p s (s.newCell v).2 :=
  { refl g p s with
    cells := Nat.le_of_lt (Nat.lt_of_lt_of_eq (Nat.lt_succ_self _) (Array.size_push ..).symm)
    cell := fun id _ hlt => by rw [s.cell_newCell, if_neg (Nat.ne_of_lt hlt)]
    ready := fun hg => hg.of_tables rfl rfl }

theorem setCell (h : Undisturbed g p s s') {id : Nat} (hid : s.cells.size ≤ id) (v : Value) :
    Undisturbed g p s (s'.setCell id v) :=
  { h with
    cells := by
      rw [Store.setCell, Array.size_setIfInBounds]
      exact h.cells
    cell := fun id' hid' hlt => by
      have hne : id ≠ id' := fun e => Nat.not_le_of_lt (e ▸ hlt) hid
      rw [s'.cell_setCell_of_ne hne, h.cell id' hid' hlt]
    ready := fun hg => (h.ready hg).of_tables rfl rfl }

theorem newPermit : Undisturbed g p s s.newPermit.2 :=
  { refl g p s with
    permits := Nat.le_of_lt (Nat.lt_of_lt_of_eq (Nat.lt_succ_self _) (Array.size_push ..).symm)
    permit := s.permit_newPermit _
    ready := fun hg => hg.of_tables rfl rfl }

theorem setPermit {id : Nat} (hid : id ≠ p.modules.permit) (l : AllowList Value) :
    Undisturbed g p s (s.setPermit id l) :=
  { refl g p s with
    permits := Nat.le_of_eq (Array.size_setIfInBounds ..).symm
    permit := s.permit_setPermit_of_ne hid l
    ready := fun hg => hg.of_tables rfl rfl }

theorem newOutput : Undisturbed g p s s.newOutput.2 :=
  { refl g p s with
    outputs := Nat.le_of_lt (Nat.lt_of_lt_of_eq (Nat.lt_succ_self _) (Array.size_push ..).symm)
    output := s.output_newOutput _
    ready := fun hg => hg.of_tables rfl rfl }

theorem printLine {id : Nat} (hid : id ≠ p.box.output) (line : String) :
    Undisturbed g p s (s.printLine id line) :=
  { refl g p s with
    outputs := Nat.le_of_eq (Array.size_modify ..).symm
    output := s.output_printLine_of_ne hid line
    ready := fun hg => hg.of_tables rfl rfl }

theorem lasting (hp : ∀ id, p.Own id → id < n) (hg : g.globals < n ∧ g.package < n) :
    Lasting (Undisturbed g p) n fun id => id ≠ p.modules.permit where
  refl := .refl g p
  trans := .trans
  tables h := h.tables
  write s {id} hid k v := by
    have hne {i : Nat} (h : i < n) : id ≠ i := fun e => Nat.not_le_of_lt h (e ▸ hid)
    exact .rawSet (fun h => hne (hp id h) rfl) (hne hg.1) (hne hg.2) k v
  rest := .of_shared
  newTable _ := .newTable
  newFunction _ f := .newFunction f
  newCell _ v := .newCell v
  setCell _ v h hid := h.setCell hid v
  newPermit _ := .newPermit
  newOutput _ := .newOutput
  setPermit _ _ hid l := .setPermit hid l

theorem standing (h : Undisturbed g p s s') (hs : Standing g p s) : Standing g p s' where
  ready := h.ready hs.ready
  foreign := hs.foreign
  globals_loaded := hs.globals_loaded
  package_loaded := hs.package_loaded
  tables id hid := Nat.lt_of_lt_of_le (hs.tables id hid) h.tables
  permit := Nat.lt_of_lt_of_le hs.permit h.permits
  output := Nat.lt_of_lt_of_le hs.output h.outputs

theorem rawGet (h : Undisturbed g p s s') {id : Nat} (hid : p.Own id) (k : Key) :
    s'.rawGet id k = s.rawGet id k := by
  rw [Store.rawGet, h.table id hid, Store.rawGet]

theorem kept (h : Undisturbed g p s s') (hi : Intact p s) : Kept p s s' where
  tables := h.tables
  permits := h.permits
  loaded k := h.rawGet (.inr (.inr (.inl rfl))) _
  preload k := h.rawGet (.inr (.inr (.inr rfl))) _
  permit := h.permit
  package := h.rawGet (.inr (.inl rfl)) _
  plain := by rw [h.table p.preload (.inr (.inr (.inr rfl)))]
  functions := h.functions
  resolveCell := h.cell _ (.inl rfl) (s.lt_of_cell (by rw [hi.serves.resolveCell]; nofun))
  finishCell := h.cell _ (.inr rfl) (s.lt_of_cell (by rw [hi.serves.finishCell]; nofun))

end Undisturbed

/-! ## Opening another sandbox -/

/-- A sandbox has nothing in common with another one, and none of its tables is the host's. -/
structure Stranger (g : Registry) (p : Parts) (b : Sandbox) : Prop where
  globals : ¬ p.Own b.globals ∧ b.globals ≠ g.globals ∧ b.globals ≠ g.package
  loaded : ¬ p.Own b.modules.loaded ∧ b.modules.loaded ≠ g.globals ∧ b.modules.loaded ≠ g.package
  permit : b.modules.permit ≠ p.modules.permit
  output : b.output ≠ p.box.output

section

variable {c : Config} {ctx : Ctx} {m m' : Machine} {b : Sandbox}

theorem Standing.stranger (hs : Standing g p s) (hg : s.tables.size ≤ b.globals)
    (hl : s.tables.size ≤ b.modules.loaded) (hp : s.permits.size ≤ b.modules.permit)
    (ho : s.outputs.size ≤ b.output) : Stranger g p b where
  globals := by
    have hexist := hs.ready.exist
    exact ⟨fun h => Nat.not_lt_of_le hg (hs.tables _ h), by omega, by omega⟩
  loaded := by
    have hexist := hs.ready.exist
    exact ⟨fun h => Nat.not_lt_of_le hl (hs.tables _ h), by omega, by omega⟩
  permit e := Nat.not_lt_of_le hp (e ▸ hs.permit)
  output e := Nat.not_lt_of_le ho (e ▸ hs.output)

theorem Undisturbed.register (hs : Standing g p s) (k : Bytes) (v : Value) :
    Undisturbed g p s (s.rawSetStr g.loaded k v) :=
  .rawSet hs.foreign hs.globals_loaded.symm hs.package_loaded.symm _ v

variable (hctx : ctx.Maintains (Undisturbed g p))
include hctx

theorem Sandbox.found_undisturbed {r : Except Failure (Nat × Nat × Nat)} (hs : Standing g p m.store)
    (h : (found c).run ctx m = some (r, m')) : Undisturbed g p m.store m'.store ∧
      ∀ permit output globals, r = .ok (permit, output, globals) →
        permit = m.store.permits.size ∧ output = m.store.outputs.size ∧
          globals = m.store.tables.size := by
  have hR := Undisturbed.lasting hs.tables ⟨hs.ready.exist.1, hs.ready.exist.2.1⟩
  unfold found at h
  cases hval : c.validate with
  | error e =>
    rw [hval] at h
    cases h
    exact ⟨.refl g p _, nofun⟩
  | ok u =>
    rw [hval] at h
    rw [Host.run_bind, Host.run_updateGet] at h
    simp only at h
    rw [Host.run_bind, Host.run_updateGet] at h
    have hbegun : Undisturbed g p m.store m.store.newPermit.2.newOutput.2 :=
      Undisturbed.newPermit.trans .newOutput
    rcases Host.of_bind h with ⟨t, m₁, hbuild, h⟩ | ⟨e, hbuild, rfl⟩
    · cases h
      obtain ⟨rfl, s, hfounds, -, hstore⟩ := build_registers hR hctx c _ _ _ _ (by exact hbegun.tables) hbuild
      rw [hstore]
      refine ⟨(hbegun.trans hfounds).trans (.registered _), ?_⟩
      rintro _ _ _ ⟨⟩
      exact ⟨rfl, rfl, rfl⟩
    · exact ⟨hbegun.trans (build_registers hR hctx c _ _ _ _ (by exact hbegun.tables) hbuild), nofun⟩

/-- Whether it succeeds or not, an opening disturbs no other sandbox, and the new one is a stranger
to it. -/
theorem Sandbox.open_undisturbed {r : Except Failure Sandbox} (hs : Standing g p m.store)
    (hc : c.maxMemory = none) (h : (Sandbox.open c).run ctx m = some (r, m')) :
    Undisturbed g p m.store m'.store ∧ ∀ b, r = .ok b → Stranger g p b := by
  have hR := Undisturbed.lasting hs.tables ⟨hs.ready.exist.1, hs.ready.exist.2.1⟩
  rw [open_stages] at h
  rcases Host.of_bind h with ⟨⟨permit, output, t⟩, m₁, hfound, h⟩ | ⟨e, hfound, rfl⟩
  · obtain ⟨hleft, hids⟩ := found_undisturbed hctx hs hfound
    obtain ⟨rfl, rfl, rfl⟩ := hids permit output t rfl
    have hpermit := Nat.ne_of_gt hs.permit
    have hfurnish := furnish_maintains hR hctx c _ hpermit m.store.outputs.size (Nat.le_refl _) m₁
    rcases Host.of_bind h with ⟨⟨b, os⟩, m₂, hrun, h⟩ | ⟨e, hrun, rfl⟩
    · have hleft₂ := hleft.trans (hfurnish _ _ hleft.tables hrun)
      have hs₂ := hleft₂.standing hs
      obtain rfl := furnish_value hrun
      rw [Host.run_bind, Registry.register_run hs₂.ready] at h
      have hleft₃ := hleft₂.trans (.register hs₂ (clockModule : String) (.table os))
      have hloaded := Nat.le_succ_of_le hleft.tables
      have hgrant := grant_maintains hR hctx (c := c)
        (b := ⟨m.store.tables.size, .new m.store.permits.size m₁.store, m.store.outputs.size, c.maxMemory⟩)
        hpermit (Nat.le_refl _) hloaded m.store.permits.size fun bytes hb => by
          rw [hc] at hb
          cases hb
      rcases Host.of_bind h with ⟨u, m₃, hlast, h⟩ | ⟨e, hlast, rfl⟩
      · cases h
        refine ⟨hleft₃.trans (hgrant _ _ _ hleft₃.tables hlast), ?_⟩
        rintro b ⟨⟩
        exact hs.stranger (Nat.le_refl _) hloaded (Nat.le_refl _) (Nat.le_refl _)
      · exact ⟨hleft₃.trans (hgrant _ _ _ hleft₃.tables hlast), nofun⟩
    · exact ⟨hleft.trans (hfurnish _ _ hleft.tables hrun), nofun⟩
  · exact ⟨(found_undisturbed hctx hs hfound).1, nofun⟩

end

end Cordon
