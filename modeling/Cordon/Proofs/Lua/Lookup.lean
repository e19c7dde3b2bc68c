import Cordon.Lua.Store
import Cordon.Proofs.Lua.KeyOrder

/-!
# Look-ups after writes

What a table, and the store around it, hold under a string key once something was written. String
keys never go into the array part, so a write concerns the map alone.
-/

namespace Cordon.Lua

open Std

theorem Value.isNil_iff {v : Value} : v.isNil = true ↔ v = .nil := by
  cases v <;> simp [isNil]

namespace Table

theorem get_str (t : Table) (k : Bytes) : t.get (.str k) = t.getStr k := rfl

theorem field_insert (t : Table) (k : Key) (place : Nat) (v : Value) (keys : Array Key) (k' : Key) :
    field { t with fields := t.fields.insert k (place, v), keys } k' =
      if k = k' then v else t.field k' := by
  simp only [field]
  rw [TreeMap.getElem?_insert]
  by_cases h : k = k'
  · rw [if_pos h, if_pos (LawfulEqCmp.compare_eq_iff_eq.mpr h)]
  · rw [if_neg h, if_neg (fun e => h (LawfulEqCmp.eq_of_compare e))]

theorem field_setField (t : Table) (k : Key) (v : Value) (k' : Key) :
    (t.setField k v).field k' = if k = k' then v else t.field k' := by
  unfold setField
  cases h : t.fields[k]? with
  | some p => exact field_insert t k p.1 v t.keys k'
  | none =>
    simp only
    split
    · next hv =>
      obtain rfl := Value.isNil_iff.mp hv
      split
      · next e => rw [← e, field, h]
      · rfl
    · exact field_insert t k t.keys.size v _ k'

theorem set_str (t : Table) (k : Bytes) (v : Value) : t.set (.str k) v = t.setField (.str k) v := rfl

theorem getStr_set (t : Table) (k : Bytes) (v : Value) (k' : Bytes) :
    (t.set (.str k) v).getStr k' = if k = k' then v else t.getStr k' := by
  rw [set_str, getStr, field_setField]
  simp only [Key.str.injEq]
  rfl

theorem items_setField (t : Table) (k : Key) (v : Value) : (t.setField k v).items = t.items := by
  unfold setField
  split
  · rfl
  · split <;> rfl

theorem get_set_str (t : Table) (k : Bytes) (v : Value) (k' : Key) :
    (t.set (.str k) v).get k' = if .str k = k' then v else t.get k' := by
  have hs : (t.setField (.str k) v).slot? k' = t.slot? k' := by
    unfold slot?
    rw [items_setField]
  rw [set_str, get, get, hs, items_setField, field_setField]
  cases hk : t.slot? k' with
  | none => rfl
  | some n =>
    cases k' with
    | str b => cases hk
    | _ => rfl

theorem metatable_setField (t : Table) (k : Key) (v : Value) :
    (t.setField k v).metatable = t.metatable := by
  unfold setField
  split
  · rfl
  · split <;> rfl

theorem metatable_absorb : ∀ (n : Nat) (t : Table), (t.absorb n).metatable = t.metatable
  | 0, _ => rfl
  | n + 1, t => by
    unfold absorb
    simp only
    split
    · split
      · rfl
      · exact metatable_absorb n _
    · rfl

theorem metatable_set (t : Table) (k : Key) (v : Value) : (t.set k v).metatable = t.metatable := by
  unfold set
  split
  · rfl
  · split
    · rw [metatable_absorb]
      split
      · rfl
      · exact metatable_setField ..
    · exact metatable_setField ..

end Table

namespace Store

variable (s : Store)

/-! ## Tables -/

@[simp] theorem tables_rawSet_size (id : Nat) (k : Key) (v : Value) :
    (s.rawSet id k v).tables.size = s.tables.size := Array.size_modify

theorem table_eq (id : Nat) : s.table id = s.tables[id]?.getD {} := Array.getD_eq_getD_getElem?

theorem table_modify (id : Nat) (f : Table → Table) (id' : Nat) :
    ({ s with tables := s.tables.modify id f } : Store).table id' =
      if id = id' ∧ id' < s.tables.size then f (s.table id') else s.table id' := by
  rw [table_eq, table_eq]
  show ((s.tables.modify id f)[id']?).getD {} = _
  rw [Array.getElem?_modify]
  by_cases h : id' < s.tables.size
  · by_cases e : id = id' <;> simp [h, e]
  · simp [h]

theorem table_rawSet (id : Nat) (k : Key) (v : Value) (id' : Nat) :
    (s.rawSet id k v).table id' =
      if id = id' ∧ id' < s.tables.size then (s.table id').set k v else s.table id' :=
  s.table_modify id (fun t => t.set k v) id'

theorem table_rawSet_of_ne {id id' : Nat} (h : id ≠ id') (k : Key) (v : Value) :
    (s.rawSet id k v).table id' = s.table id' := by
  rw [table_rawSet, if_neg fun e => h e.1]

/-- A write under a string key is seen under this key of this table, and nowhere else. -/
theorem rawGet_rawSetStr (id : Nat) (k : Bytes) (v : Value) (id' : Nat) (k' : Bytes) :
    (s.rawSetStr id k v).rawGet id' (.str k') =
      if (id = id' ∧ id' < s.tables.size) ∧ k = k' then v else s.rawGet id' (.str k') := by
  simp only [rawGet, rawSetStr, table_rawSet, Table.get_str]
  by_cases h : id = id' ∧ id' < s.tables.size
  · rw [if_pos h, Table.getStr_set]
    simp only [h, true_and]
  · rw [if_neg h, if_neg (fun hk => h hk.1)]

theorem rawGet_rawSetStr_of_ne {id id' : Nat} (h : id ≠ id') (k : Bytes) (v : Value) (k' : Bytes) :
    (s.rawSetStr id k v).rawGet id' (.str k') = s.rawGet id' (.str k') := by
  rw [rawGet_rawSetStr, if_neg fun e => h e.1.1]

theorem rawGet_rawSetStr_self {id : Nat} (h : id < s.tables.size) (k : Bytes) (v : Value)
    (k' : Bytes) : (s.rawSetStr id k v).rawGet id (.str k') =
      if k = k' then v else s.rawGet id (.str k') := by
  rw [rawGet_rawSetStr]
  simp only [h, and_self, true_and]

theorem metatable_rawSetStr (id : Nat) (k : Bytes) (v : Value) (id' : Nat) :
    ((s.rawSetStr id k v).table id').metatable = (s.table id').metatable := by
  simp only [rawSetStr, table_rawSet]
  split
  · exact Table.metatable_setField ..
  · rfl

theorem rawGet_setMetatable (id : Nat) (m : Option Nat) (id' : Nat) (k : Key) :
    (s.setMetatable id m).rawGet id' k = s.rawGet id' k := by
  have ht := s.table_modify id (fun t => { t with metatable := m }) id'
  rw [rawGet, setMetatable, ht]
  split <;> rfl

theorem table_setMetatable_of_ne {id id' : Nat} (h : id ≠ id') (m : Option Nat) :
    (s.setMetatable id m).table id' = s.table id' :=
  (s.table_modify id (fun t => { t with metatable := m }) id').trans (if_neg fun e => h e.1)

theorem table_newTable (t : Table) (id : Nat) :
    (s.newTable t).2.table id = if id = s.tables.size then t else s.table id := by
  rw [table_eq, table_eq]
  show (s.tables.push t)[id]?.getD {} = _
  rw [Array.getElem?_push]
  split <;> rfl

theorem tables_newTable_size (t : Table) : (s.newTable t).2.tables.size = s.tables.size + 1 :=
  Array.size_push ..

theorem table_of_le {id : Nat} (h : s.tables.size ≤ id) : s.table id = {} := by
  rw [table_eq, Array.getElem?_eq_none h]
  rfl

theorem rawGet_newTable (id : Nat) (k : Key) : s.newTable.2.rawGet id k = s.rawGet id k := by
  rw [rawGet, rawGet, table_newTable]
  split
  · next e => rw [table_of_le s (Nat.le_of_eq e.symm)]
  · rfl

/-! ## Variables, functions and error objects -/

theorem cell_eq (id : Nat) : s.cell id = s.cells[id]?.getD .nil := Array.getD_eq_getD_getElem?

theorem cell_newCell (v : Value) (id : Nat) :
    (s.newCell v).2.cell id = if id = s.cells.size then v else s.cell id := by
  rw [cell_eq, cell_eq]
  show (s.cells.push v)[id]?.getD .nil = _
  rw [Array.getElem?_push]
  split <;> rfl

theorem cell_setCell_of_ne {id id' : Nat} (h : id ≠ id') (v : Value) :
    (s.setCell id v).cell id' = s.cell id' := by
  rw [cell_eq, cell_eq]
  show (s.cells.setIfInBounds id v)[id']?.getD .nil = _
  rw [Array.getElem?_setIfInBounds_ne h]

theorem lt_of_cell {id : Nat} (h : s.cell id ≠ .nil) : id < s.cells.size := by
  rcases Nat.lt_or_ge id s.cells.size with hlt | hge
  · exact hlt
  · rw [cell_eq, Array.getElem?_eq_none hge] at h
    exact absurd rfl h

theorem functions_newFunction_size (f : Callable) :
    (s.newFunction f).2.functions.size = s.functions.size + 1 := Array.size_push ..

theorem function?_newFunction (f : Callable) :
    (s.newFunction f).2.function? s.functions.size = some f := Array.getElem?_push_size

theorem function?_newFunction_of_some {f : Callable} {id : Nat} (h : s.function? id = some f)
    (f' : Callable) : (s.newFunction f').2.function? id = some f := by
  have hid : id < s.functions.size := by
    rcases Nat.lt_or_ge id s.functions.size with hlt | hge
    · exact hlt
    · rw [function?, Array.getElem?_eq_none hge] at h
      cases h
  show (s.functions.push f')[id]? = _
  rw [Array.getElem?_push_lt hid, ← Array.getElem?_eq_getElem hid]
  exact h

theorem fault_newFault (e : ScriptError) : (s.newFault e).2.fault s.faults.size = e := by
  show (s.faults.push e).getD s.faults.size default = e
  rw [Array.getD_eq_getD_getElem?, Array.getElem?_push_size]
  rfl

/-! ## Allow-lists -/

theorem permit_setPermit {id : Nat} (l : AllowList Value) (h : id < s.permits.size) :
    (s.setPermit id l).permit id = l := by
  show (s.permits.setIfInBounds id l).getD id {} = l
  rw [Array.getD_eq_getD_getElem?, Array.getElem?_setIfInBounds_self_of_lt h]
  rfl

theorem permits_setPermit_size (id : Nat) (l : AllowList Value) :
    (s.setPermit id l).permits.size = s.permits.size := Array.size_setIfInBounds

theorem permits_newPermit_size : s.newPermit.2.permits.size = s.permits.size + 1 := Array.size_push ..

theorem permit_newPermit_self : s.newPermit.2.permit s.permits.size = {} := by
  show (s.permits.push {}).getD s.permits.size {} = {}
  rw [Array.getD_eq_getD_getElem?, Array.getElem?_push_size]
  rfl

/-! ## Captured output -/

theorem output_of_modified {s' : Store} {id id' : Nat} {f : Output → Output}
    (h : s'.outputs = s.outputs.modify id f) (hlt : id' < s.outputs.size) :
    id' < s'.outputs.size ∧ s'.output id' = if id = id' then f (s.output id') else s.output id' := by
  refine ⟨by rw [h, Array.size_modify]; exact hlt, ?_⟩
  rw [output, output, h, Array.getD_eq_getD_getElem?, Array.getD_eq_getD_getElem?,
    Array.getElem?_modify, Array.getElem?_eq_getElem hlt]
  split <;> rfl

end Store

end Cordon.Lua
