import Cordon.Proofs.Lua.Closed
import Cordon.Proofs.Lua.Lookup
import Cordon.Proofs.Lua.Maintaining

/-!
# Tables by what was written to them

A table that was empty once and was only written to under string keys since is told by these writes.
-/

namespace Cordon.Lua

/-- What was written under a key last, of these writes with the latest first. -/
def written (ws : List (Bytes × Value)) (k : Key) : Value :=
  match ws with
  | [] => .nil
  | (n, v) :: ws => if .str n = k then v else written ws k

theorem written_append_of_not {ws : List (Bytes × Value)} {k : Key} (h : ∀ w ∈ ws, .str w.1 ≠ k)
    (ws' : List (Bytes × Value)) : written (ws ++ ws') k = written ws' k := by
  induction ws with
  | nil => rfl
  | cons w ws ih =>
    obtain ⟨hw, hws⟩ := List.forall_mem_cons.mp h
    rw [List.cons_append, written, if_neg hw, ih hws]

theorem written_eq_nil {ws : List (Bytes × Value)} {k : Key} (h : ∀ w ∈ ws, .str w.1 ≠ k) :
    written ws k = .nil := by
  have := written_append_of_not h []
  rwa [List.append_nil] at this

theorem mem_of_written {ws : List (Bytes × Value)} {k : Key} {v : Value} (h : written ws k = v)
    (hv : v ≠ .nil) : ∃ n, k = .str n ∧ (n, v) ∈ ws := by
  induction ws with
  | nil => exact absurd h.symm hv
  | cons w ws ih =>
    rw [written] at h
    split at h
    · next e => exact ⟨w.1, e.symm, by rw [← h]; exact .head _⟩
    · obtain ⟨n, hn, hmem⟩ := ih h
      exact ⟨n, hn, .tail _ hmem⟩

theorem written_ne_nil_iff {ws : List (Bytes × Value)} (hws : ∀ w ∈ ws, w.2 ≠ .nil) (k : Key) :
    written ws k ≠ .nil ↔ ∃ w ∈ ws, k = .str w.1 := by
  constructor
  · intro h
    obtain ⟨n, hn, hmem⟩ := mem_of_written rfl h
    exact ⟨_, hmem, hn⟩
  · rintro ⟨w, hmem, rfl⟩
    induction ws with
    | nil => cases hmem
    | cons w' ws ih =>
      obtain ⟨hw', hws⟩ := List.forall_mem_cons.mp hws
      rw [written]
      split
      · exact hw'
      · next hne =>
        rcases List.mem_cons.mp hmem with rfl | hmem
        · exact absurd rfl hne
        · exact ih hws hmem

theorem written_of_mem {x : String × Value} (ws : List (Bytes × Value)) :
    ∀ {l : List (String × Value)}, (l.map Prod.fst).Nodup → x ∈ l →
      written (l.map (fun x => (Bytes.ofString x.1, x.2)) ++ ws) (.str (Bytes.ofString x.1)) = x.2
  | y :: l, hl, hx => by
    rw [List.map_cons, List.nodup_cons] at hl
    rw [List.map_cons, List.cons_append, written]
    split
    · next e =>
      have hname : y.1 = x.1 := Bytes.ofString_inj.mp (Key.str.inj e)
      rcases List.mem_cons.mp hx with rfl | hx
      · rfl
      · exact absurd (hname ▸ List.mem_map_of_mem hx) hl.1
    · next e =>
      rcases List.mem_cons.mp hx with rfl | hx
      · exact absurd rfl e
      · exact written_of_mem ws hl.2 hx

theorem Table.get_empty (k : Key) : ({} : Table).get k = .nil := by
  by_cases hk : ({} : Table).get k = .nil
  · exact hk
  · exact absurd (has_of_get rfl hk) not_has_empty

/-- The table holds what these writes say, and nothing else. -/
structure Store.Holds (s : Store) (id : Nat) (ws : List (Bytes × Value)) : Prop where
  exist : id < s.tables.size
  entries : ∀ k, s.rawGet id k = written ws k

namespace Store.Holds

variable {s s' : Store} {id : Nat} {ws : List (Bytes × Value)}

theorem of_table (h : s.Holds id ws) (hlt : id < s'.tables.size) (ht : s'.table id = s.table id) :
    s'.Holds id ws := ⟨hlt, fun k => by rw [rawGet, ht, ← h.entries k, rawGet]⟩

theorem of_tables (h : s.Holds id ws) (ht : s'.tables = s.tables) : s'.Holds id ws :=
  h.of_table (ht ▸ h.exist) (by rw [table, table, ht])

theorem newTable (s : Store) : s.newTable.2.Holds s.tables.size [] where
  exist := Nat.lt_of_lt_of_eq (Nat.lt_succ_self _) (s.tables_newTable_size {}).symm
  entries k := by
    rw [rawGet, s.table_newTable, if_pos rfl]
    exact Table.get_empty k

theorem another (h : s.Holds id ws) : s.newTable.2.Holds id ws :=
  h.of_table (Nat.lt_of_lt_of_le h.exist (Nat.le_of_lt
    (Nat.lt_of_lt_of_eq (Nat.lt_succ_self _) (s.tables_newTable_size {}).symm)))
    (by rw [s.table_newTable, if_neg (Nat.ne_of_lt h.exist)])

theorem put (h : s.Holds id ws) (n : Bytes) (v : Value) :
    (s.rawSetStr id n v).Holds id ((n, v) :: ws) where
  exist := Nat.lt_of_lt_of_eq h.exist (s.tables_rawSet_size ..).symm
  entries k := by
    rw [rawGet, rawSetStr, s.table_rawSet, if_pos ⟨rfl, h.exist⟩, Table.get_set_str, written]
    split
    · rfl
    · exact h.entries k

theorem again (h : s.Holds id ws) {n : Bytes} {v : Value} (hv : s.rawGet id (.str n) = v) :
    s.Holds id ((n, v) :: ws) where
  exist := h.exist
  entries k := by
    rw [written]
    split
    · next e => rw [← e, hv]
    · exact h.entries k

theorem drop_nil {n : Bytes} (h : s.Holds id ((n, .nil) :: ws)) (hn : written ws (.str n) = .nil) :
    s.Holds id ws where
  exist := h.exist
  entries k := by
    rw [h.entries k, written]
    split
    · next e => rw [← e, hn]
    · rfl

theorem put_other (h : s.Holds id ws) {id' : Nat} (hne : id' ≠ id) (n : Bytes) (v : Value) :
    (s.rawSetStr id' n v).Holds id ws :=
  h.of_table (Nat.lt_of_lt_of_eq h.exist (s.tables_rawSet_size ..).symm)
    (by rw [rawSetStr, s.table_rawSet, if_neg fun e => hne e.1])

end Store.Holds

/-! ## Objects that stay -/

/-- No table and no function goes, and functions stay as they are. -/
structure Store.Extends (s s' : Store) : Prop where
  tables : s.tables.size ≤ s'.tables.size
  functions : ∀ id f, s.function? id = some f → s'.function? id = some f

theorem Store.lasting_extends (n : Nat) : Lasting Store.Extends n fun _ => True := by
  refine .of_coarse ?refl ?trans ?tables ?write ?rest ?newTable ?newFunction
  case refl => exact fun _ => ⟨Nat.le_refl _, fun _ _ h => h⟩
  case trans =>
    exact fun h h' => ⟨Nat.le_trans h.tables h'.tables,
      fun id f hf => h'.functions id f (h.functions id f hf)⟩
  case tables => exact fun h => h.tables
  case write =>
    exact fun s id _ k v => ⟨Nat.le_of_eq (s.tables_rawSet_size id k v).symm, fun _ _ h => h⟩
  case rest =>
    intro s s' ht hf _ _
    refine ⟨Nat.le_of_eq (congrArg Array.size ht.symm), fun id f h => ?_⟩
    rw [function?, hf]
    exact h
  case newTable =>
    intro s
    have hsize := s.tables_newTable_size {}
    exact ⟨by omega, fun _ _ h => h⟩
  case newFunction => exact fun s f => ⟨Nat.le_refl _, fun _ _ h => s.function?_newFunction_of_some h f⟩

/-- A value is a function that was not there before, and this is what it stands for. -/
def Store.Makes (s s' : Store) (v : Value) (f : Callable) : Prop :=
  ∃ id, v = .fn id ∧ s.function? id = none ∧ s'.function? id = some f

theorem Store.Makes.extends {s s' s'' : Store} {v : Value} {f : Callable} (h : s.Makes s' v f)
    (hs : s'.Extends s'') : s.Makes s'' v f := by
  obtain ⟨id, hv, hnone, hf⟩ := h
  exact ⟨id, hv, hnone, hs.functions id f hf⟩

theorem Store.Makes.before {s s' s'' : Store} {v : Value} {f : Callable} (h : s'.Makes s'' v f)
    (hs : s.Extends s') : s.Makes s'' v f := by
  obtain ⟨id, hv, hnone, hf⟩ := h
  refine ⟨id, hv, ?_, hf⟩
  cases hid : s.function? id with
  | none => rfl
  | some f' => rw [hs.functions id f' hid] at hnone; cases hnone

theorem Store.makes_newFunction (s : Store) (f : Callable) :
    s.Makes (s.newFunction f).2 (.fn s.functions.size) f :=
  ⟨_, rfl, Array.getElem?_eq_none (Nat.le_refl _), s.function?_newFunction f⟩

theorem Store.place_done {s s' : Store} {object key value : Value}
    (h : s.place object key value = .done s') : ∃ id k, s' = s.rawSet id k value := by
  have hany : s.Closed fun _ => True :=
    ⟨trivial, fun _ _ => trivial, fun _ _ => trivial, fun _ => trivial, fun _ => trivial⟩
  have hp : Places (fun _ => True) s key value (s.placeFrom key value maxChain true object) :=
    placeFrom_places hany key value maxChain true trivial
  rw [place] at h
  rw [h] at hp
  cases hp with
  | @done id k _ _ => exact ⟨id, k, rfl⟩

end Cordon.Lua
