import Cordon.Proofs.Confinement.Ward
import Cordon.Sandbox.Cache

/-!
# Confined stores

A store is confined if what programs can get at in it is clear of the ward. Every operation on the
store that programs have leaves it so.
-/

namespace Cordon.Lua

variable {w : Ward}

/-- What is in reach is clear, and what the ward keeps is as it should be. -/
structure Store.Confined (w : Ward) (s : Store) : Prop extends s.Closed (Value.Clear w) where
  key : ∀ {id : Nat} {k : Key}, ¬ w.table id → k ∈ (s.table id).keys → k.Clear w
  held : ∀ id : Nat, (s.cell id).Clear w
  callable : ∀ {id : Nat} {f : Callable}, ¬ w.function id → s.function? id = some f → f.Clear w
  nextFn : s.nextFn.Clear w
  ipairsStep : s.ipairsStep.Clear w
  permit : ∀ {id : Nat} {n : String} {v : Value}, (s.permit id).get? n = some v → v.Clear w
  content : ∀ {id : Nat}, w.table id → w.content id (s.table id)
  native : ∀ {id : Nat} {f : Native}, w.native id f → s.function? id = some (.native f)
  installed : ∀ {g : Protect.Guard}, w.guards g → Protect.Installed g s
  tables : ∀ {id : Nat}, w.table id → id < s.tables.size
  functions : ∀ {id : Nat}, w.function id → id < s.functions.size
  cells : ∀ {id : Nat}, w.cell id → id < s.cells.size
  globals : s.globals = w.globals
  loaded : s.loaded = w.loaded
  preload : s.preload = w.preload
  package : s.package = w.package

namespace Table

variable {t : Table} {k k' : Key} {v : Value}

theorem mem_keys_setField (h : k' ∈ (t.setField k v).keys) : k' ∈ t.keys ∨ k' = k := by
  unfold setField at h
  split at h
  · exact .inl h
  · split at h
    · exact .inl h
    · exact Array.mem_push.mp h

theorem keys_absorb : ∀ (n : Nat) (t : Table), (t.absorb n).keys = t.keys
  | 0, _ => rfl
  | n + 1, t => by
    unfold absorb
    simp only
    split
    · split
      · rfl
      · exact keys_absorb n _
    · rfl

theorem mem_keys_set (h : k' ∈ (t.set k v).keys) : k' ∈ t.keys ∨ k' = k := by
  unfold set at h
  split at h
  · exact .inl h
  · split at h
    · rw [keys_absorb] at h
      split at h
      · exact .inl h
      · exact mem_keys_setField h
    · exact mem_keys_setField h

/-- The table once it is rid of the entries that a list of values takes the place of. -/
def cleared (t : Table) (n : Nat) : Table :=
  (List.range n).foldl (fun t n => t.setField (.int (Int64.ofNat (n + 1))) .nil) t

theorem cleared_induct {P : Table → Prop} (h : P t)
    (step : ∀ {t : Table} (n : Nat), P t → P (t.setField (.int (Int64.ofNat (n + 1))) .nil))
    (n : Nat) : P (t.cleared n) := by
  unfold cleared
  induction List.range n generalizing t with
  | nil => exact h
  | cons n ns ih => exact ih (step n h)

theorem has_setItems {vs : List Value} (h : (t.setItems vs).Has v) : t.Has v ∨ v ∈ vs ∨ v = .nil := by
  have hfields {u : Table} (hu : ∀ {k : Key} {place : Nat}, u.fields[k]? = some (place, v) →
      t.Has v ∨ v = .nil) (h : ({ u with items := vs.toArray } : Table).Has v) :
      t.Has v ∨ v ∈ vs ∨ v = .nil := by
    rcases h with h | h
    · exact .inr (.inl (List.mem_toArray.mp h))
    · exact (hu h).imp_right .inr
  unfold setItems at h
  split at h
  · exact hfields (fun h => .inl (.field h)) h
  · refine hfields (fun {k place} hk => ?_) h
    have hcleared : ∀ {v}, (t.cleared vs.length).Has v → t.Has v ∨ v = .nil := by
      refine cleared_induct (P := fun u => ∀ {v}, u.Has v → t.Has v ∨ v = .nil) .inl ?_ vs.length
      intro u n ih v hv
      rcases has_setField hv with hv | hv
      · exact ih hv
      · exact .inr hv
    exact hcleared (.field hk)

theorem metatable_setItems (t : Table) (vs : List Value) :
    (t.setItems vs).metatable = t.metatable := by
  unfold setItems
  split
  · rfl
  · exact cleared_induct (P := fun u => u.metatable = t.metatable) rfl
      (fun n h => (metatable_setField ..).trans h) vs.length

theorem mem_keys_setItems {vs : List Value} (h : k ∈ (t.setItems vs).keys) :
    k ∈ t.keys ∨ ∃ i, k = .int i := by
  unfold setItems at h
  split at h
  · exact .inl h
  · refine cleared_induct (P := fun u => k ∈ u.keys → k ∈ t.keys ∨ ∃ i, k = .int i) .inl ?_
      vs.length h
    intro u n ih hk
    rcases mem_keys_setField hk with hk | hk
    · exact ih hk
    · exact .inr ⟨_, hk⟩

end Table

namespace Store

/-! ## Lookups -/

variable {s s' : Store} {id : Nat} {v : Value}

theorem cell_setCell (v : Value) (id' : Nat) :
    (s.setCell id v).cell id' = if id = id' ∧ id' < s.cells.size then v else s.cell id' := by
  rw [cell_eq, cell_eq]
  show (s.cells.setIfInBounds id v)[id']?.getD .nil = _
  rw [Array.getElem?_setIfInBounds]
  by_cases e : id = id'
  · subst e
    by_cases h : id < s.cells.size <;> simp [h]
  · simp [e]

theorem function?_lt {f : Callable} (h : s.function? id = some f) : id < s.functions.size := by
  rcases Nat.lt_or_ge id s.functions.size with hlt | hge
  · exact hlt
  · rw [function?, Array.getElem?_eq_none hge] at h
    cases h

theorem function?_newFunction_cases {f f' : Callable}
    (h : (s.newFunction f).2.function? id = some f') :
    s.function? id = some f' ∨ id = s.functions.size ∧ f' = f := by
  replace h : (s.functions.push f)[id]? = some f' := h
  rw [Array.getElem?_push] at h
  split at h
  · next hid => exact .inr ⟨hid, (Option.some.inj h).symm⟩
  · exact .inl h

/-! ## Operations -/

/-- All that confinement looks at is the same. -/
structure Alike (s s' : Store) : Prop where
  tables : s'.tables = s.tables
  cells : s'.cells = s.cells
  functions : s'.functions = s.functions
  stringMeta : s'.stringMeta = s.stringMeta
  faultMeta : s'.faultMeta = s.faultMeta
  nextFn : s'.nextFn = s.nextFn
  ipairsStep : s'.ipairsStep = s.ipairsStep
  permits : s'.permits = s.permits
  globals : s'.globals = s.globals
  loaded : s'.loaded = s.loaded
  preload : s'.preload = s.preload
  package : s'.package = s.package

namespace Confined

theorem fresh_table (hs : s.Confined w) : ¬ w.table s.tables.size := fun h =>
  Nat.lt_irrefl _ (hs.tables h)

theorem fresh_function (hs : s.Confined w) : ¬ w.function s.functions.size := fun h =>
  Nat.lt_irrefl _ (hs.functions h)

theorem fresh_cell (hs : s.Confined w) : ¬ w.cell s.cells.size := fun h =>
  Nat.lt_irrefl _ (hs.cells h)

theorem of_alike (hs : s.Confined w) (h : Alike s s') : s'.Confined w := by
  have ht (id : Nat) : s'.table id = s.table id := by rw [table, h.tables]; rfl
  have hc (id : Nat) : s'.cell id = s.cell id := by rw [cell, h.cells]; rfl
  have hf (id : Nat) : s'.function? id = s.function? id := by rw [function?, h.functions]; rfl
  refine ⟨hs.toClosed.of_tables h.tables h.stringMeta h.faultMeta, ?_, ?_, ?_, ?_, ?_, ?_, ?_, ?_, ?_, ?_, ?_,
    ?_, ?_, ?_, ?_, ?_⟩
  · intro id k hid hk
    exact hs.key hid (ht id ▸ hk)
  · intro id
    exact hc id ▸ hs.held id
  · intro id f hid hf'
    exact hs.callable hid (hf id ▸ hf')
  · exact h.nextFn ▸ hs.nextFn
  · exact h.ipairsStep ▸ hs.ipairsStep
  · intro id n v hv
    rw [Store.permit, h.permits] at hv
    exact hs.permit hv
  · intro id hid
    exact (ht id).symm ▸ hs.content hid
  · intro id f hid
    exact (hf id).trans (hs.native hid)
  · intro g hg
    exact (hs.installed hg).keep (fun id _ _ => hc id) fun id f h => (hf id).trans h
  · exact fun hid => h.tables ▸ hs.tables hid
  · exact fun hid => h.functions ▸ hs.functions hid
  · exact fun hid => h.cells ▸ hs.cells hid
  · exact h.globals.trans hs.globals
  · exact h.loaded.trans hs.loaded
  · exact h.preload.trans hs.preload
  · exact h.package.trans hs.package

theorem of_contents (hs : s.Confined w) {tables : Array Table} {used : Nat}
    (hc : ({ s with tables, used } : Store).Closed (Value.Clear w))
    (hk : ∀ {id k}, ¬ w.table id → k ∈ (({ s with tables, used } : Store).table id).keys → k.Clear w)
    (hkept : ∀ {id}, w.table id → w.content id (({ s with tables, used } : Store).table id))
    (hsize : s.tables.size ≤ tables.size) : ({ s with tables, used } : Store).Confined w :=
  { hs with
    toClosed := hc
    key := hk
    content := hkept
    installed := fun hg => (hs.installed hg).keep (fun _ _ _ => rfl) fun _ _ h => h
    tables := fun hid => Nat.lt_of_lt_of_le (hs.tables hid) hsize }

theorem of_tables (hs : s.Confined w) {tables : Array Table} {used : Nat}
    (hc : ({ s with tables, used } : Store).Closed (Value.Clear w))
    (hk : ∀ {id k}, ¬ w.table id → k ∈ (({ s with tables, used } : Store).table id).keys → k.Clear w)
    (hkept : ∀ {id}, w.table id → ({ s with tables, used } : Store).table id = s.table id)
    (hsize : s.tables.size ≤ tables.size) : ({ s with tables, used } : Store).Confined w :=
  hs.of_contents hc hk (fun hid => hkept hid ▸ hs.content hid) hsize

theorem rawSet (hs : s.Confined w) (hid : ¬ w.table id) {k : Key} (hk : k.Clear w)
    (hv : v.Clear w) : (s.rawSet id k v).Confined w := by
  refine hs.of_tables (hs.toClosed.rawSet k fun _ => hv) (fun {id' k'} hid' h => ?_)
    (fun {id'} hid' => ?_) (Nat.le_of_eq (s.tables_rawSet_size id k v).symm)
  · replace h : k' ∈ ((s.rawSet id k v).table id').keys := h
    rw [table_rawSet] at h
    split at h
    · rcases Table.mem_keys_set h with h | rfl
      · exact hs.key hid' h
      · exact hk
    · exact hs.key hid' h
  · show (s.rawSet id k v).table id' = _
    rw [table_rawSet, if_neg fun (e : id = id' ∧ _) => hid (e.1 ▸ hid')]

theorem rawSet_kept (hs : s.Confined w) (hid : w.table id) {k : Key}
    (hc : w.content id ((s.table id).set k v)) : (s.rawSet id k v).Confined w := by
  have ht (id' : Nat) : (s.rawSet id k v).table id' =
      if id = id' then (s.table id').set k v else s.table id' := by
    rw [table_rawSet]
    by_cases e : id = id'
    · rw [if_pos e, if_pos ⟨e, e ▸ hs.tables hid⟩]
    · rw [if_neg e, if_neg fun h => e h.1]
  have hne {id' : Nat} (hid' : ¬ w.table id') : id ≠ id' := fun e => hid' (e ▸ hid)
  refine hs.of_contents (hs.toClosed.rawSet k fun h => absurd hid h) (fun {id' k'} hid' h => ?_)
    (fun {id'} hid' => ?_) (Nat.le_of_eq (s.tables_rawSet_size id k v).symm)
  · replace h : k' ∈ ((s.rawSet id k v).table id').keys := h
    rw [ht, if_neg (hne hid')] at h
    exact hs.key hid' h
  · show w.content id' ((s.rawSet id k v).table id')
    rw [ht]
    split
    · next e => exact e ▸ hc
    · exact hs.content hid'

theorem rawSetStr (hs : s.Confined w) (hid : ¬ w.table id) (k : Bytes) (hv : v.Clear w) :
    (s.rawSetStr id k v).Confined w := hs.rawSet hid trivial hv

theorem newTable (hs : s.Confined w) {t : Table} (he : ∀ v, t.Has v → v.Clear w)
    (hk : ∀ k ∈ t.keys, k.Clear w) (hm : t.metatable = none) : (s.newTable t).2.Confined w := by
  refine hs.of_tables (hs.toClosed.newTable he fun mt h => ?_) (fun {id' k'} hid h => ?_)
    (fun {id'} hid => ?_) ?_
  · rw [hm] at h
    cases h
  · replace h : k' ∈ ((s.newTable t).2.table id').keys := h
    rw [table_newTable] at h
    split at h
    · exact hk k' h
    · exact hs.key hid h
  · show (s.newTable t).2.table id' = _
    rw [table_newTable, if_neg (Nat.ne_of_lt (hs.tables hid))]
  · rw [Array.size_push]
    exact Nat.le_succ _

theorem newTable_empty (hs : s.Confined w) : s.newTable.2.Confined w :=
  hs.newTable (fun _ h => absurd h Table.not_has_empty) (fun _ h => absurd h (Array.not_mem_empty _))
    rfl

theorem newTable_ofItems (hs : s.Confined w) {vs : List Value} (hv : Clears w vs) :
    (s.newTable (.ofItems vs)).2.Confined w := by
  refine hs.newTable (fun v h => ?_) (fun _ h => absurd h (Array.not_mem_empty _)) rfl
  rcases h with h | h
  · exact hv v (List.mem_toArray.mp h)
  · simp [Table.ofItems] at h

theorem setItems (hs : s.Confined w) (hid : ¬ w.table id) {vs : List Value} (hv : Clears w vs) :
    (s.setItems id vs).Confined w := by
  unfold Store.setItems
  split
  · exact hs
  · have ht (id' : Nat) := table_modify (s := s) id (fun t => t.setItems vs) id'
    refine hs.of_tables ⟨hs.nil, ?_, ?_, hs.stringMeta, hs.faultMeta⟩ (fun {id' k} hid h => ?_)
      (fun {id'} hid' => (ht id').trans (if_neg fun (e : id = id' ∧ _) => hid (e.1 ▸ hid')))
      (Nat.le_of_eq Array.size_modify.symm)
    · intro id' v hid h
      replace h := ht id' ▸ h
      split at h
      · rcases Table.has_setItems h with h | h | rfl
        · exact hs.entry hid h
        · exact hv v h
        · trivial
      · exact hs.entry hid h
    · intro id' mt hid h
      replace h := ht id' ▸ h
      split at h
      · rw [Table.metatable_setItems] at h
        exact hs.metatable hid h
      · exact hs.metatable hid h
    · replace h := ht id' ▸ h
      split at h
      · rcases Table.mem_keys_setItems h with h | ⟨i, rfl⟩
        · exact hs.key hid h
        · trivial
      · exact hs.key hid h

theorem setMetatable (hs : s.Confined w) (hid : ¬ w.table id) {mt : Option Nat}
    (hm : ∀ id, mt = some id → ¬ w.table id) : (s.setMetatable id mt).Confined w := by
  have ht (id' : Nat) := table_modify (s := s) id (fun t => { t with metatable := mt }) id'
  refine hs.of_tables ⟨hs.nil, ?_, ?_, hs.stringMeta, hs.faultMeta⟩ (fun {id' k} hid h => ?_)
    (fun {id'} hid' => (ht id').trans (if_neg fun (e : id = id' ∧ _) => hid (e.1 ▸ hid')))
    (Nat.le_of_eq Array.size_modify.symm)
  · intro id' v hid h
    replace h := ht id' ▸ h
    split at h
    · rcases h with h | h
      · exact hs.entry hid (.item h)
      · exact hs.entry hid (.field h)
    · exact hs.entry hid h
  · intro id' mt' hid h
    replace h := ht id' ▸ h
    split at h
    · exact hm mt' h
    · exact hs.metatable hid h
  · replace h := ht id' ▸ h
    split at h
    · exact hs.key hid h
    · exact hs.key hid h

theorem of_cells (hs : s.Confined w) (cells : Array Value) (hsize : s.cells.size ≤ cells.size)
    (hh : ∀ {id}, ¬ w.cell id → (({ s with cells } : Store).cell id).Clear w)
    (hc : ∀ id, w.cell id → ({ s with cells } : Store).cell id = s.cell id) :
    ({ s with cells } : Store).Confined w :=
  { hs with
    toClosed := hs.toClosed.of_tables rfl rfl rfl
    held := fun id => by
      by_cases hid : w.cell id
      · rw [hc id hid]
        exact hs.held id
      · exact hh hid
    installed := fun hg => (hs.installed hg).keep (fun id hid _ => hc id (w.cells hg id hid))
      fun _ _ h => h
    cells := fun hid => Nat.lt_of_lt_of_le (hs.cells hid) hsize }

theorem newCell (hs : s.Confined w) (hv : v.Clear w) : (s.newCell v).2.Confined w := by
  refine hs.of_cells (s.cells.push v) (by rw [Array.size_push]; exact Nat.le_succ _)
    (fun {id} hid => ?_) fun id hid => ?_
  · show ((s.newCell v).2.cell id).Clear w
    rw [cell_newCell]
    split
    · exact hv
    · exact hs.held id
  · show (s.newCell v).2.cell id = _
    rw [cell_newCell, if_neg (Nat.ne_of_lt (hs.cells hid))]

theorem setCell (hs : s.Confined w) (hid : ¬ w.cell id) (hv : v.Clear w) :
    (s.setCell id v).Confined w := by
  refine hs.of_cells (s.cells.setIfInBounds id v) (Nat.le_of_eq Array.size_setIfInBounds.symm)
    (fun {id'} hid' => ?_) fun id' hid' => ?_
  · show ((s.setCell id v).cell id').Clear w
    rw [cell_setCell]
    split
    · exact hv
    · exact hs.held id'
  · show (s.setCell id v).cell id' = _
    rw [cell_setCell, if_neg fun (e : id = id' ∧ _) => hid (e.1 ▸ hid')]

theorem newCells : ∀ {vs : List Value} (cells : List Nat) {s : Store}, s.Confined w → Clears w vs →
    (s.newCells cells vs).2.Confined w
  | [], _, _, hs, _ => hs
  | v :: vs, cells, s, hs, hv => by
    have h := newCells (s.cells.size :: cells) (hs.newCell hv.head) hv.tail
    exact h

theorem fresh_newCells : ∀ {vs : List Value} {cells : List Nat} {s : Store}, s.Confined w →
    Clears w vs → (∀ id ∈ cells, ¬ w.cell id) → ∀ id ∈ (s.newCells cells vs).1, ¬ w.cell id
  | [], _, _, _, _, hc => hc
  | v :: vs, cells, s, hs, hv, hc => by
    have hid : ∀ id ∈ s.cells.size :: cells, ¬ w.cell id :=
      List.forall_mem_cons.mpr ⟨hs.fresh_cell, hc⟩
    have h := fresh_newCells (hs.newCell hv.head) hv.tail hid
    exact h

theorem newFunction (hs : s.Confined w) {f : Callable} (hf : f.Clear w) :
    (s.newFunction f).2.Confined w :=
  have hkept (id : Nat) (f' : Callable) (h : s.function? id = some f') :
      (s.newFunction f).2.function? id = some f' := function?_newFunction_of_some s h f
  { hs with
    toClosed := hs.toClosed.of_tables rfl rfl rfl
    callable := fun hid h => by
      rcases function?_newFunction_cases h with h | ⟨-, rfl⟩
      · exact hs.callable hid h
      · exact hf
    native := fun hid => hkept _ _ (hs.native hid)
    installed := fun hg => (hs.installed hg).keep (fun _ _ _ => rfl) hkept
    functions := fun hid => by
      rw [functions_newFunction_size]
      exact Nat.lt_succ_of_lt (hs.functions hid) }

theorem newNative (hs : s.Confined w) {f : Native} (hf : f.Clear w) :
    (s.newNative f).2.Confined w := hs.newFunction hf

theorem clear_newNative (hs : s.Confined w) (f : Native) : (s.newNative f).1.Clear w :=
  hs.fresh_function

theorem flagged (hs : s.Confined w) (failed : Bool) :
    ({ s with allocationFailed := failed } : Store).Confined w := hs.of_alike (by constructor <;> rfl)

theorem newFault (hs : s.Confined w) (e : ScriptError) : (s.newFault e).2.Confined w :=
  hs.of_alike (by constructor <;> rfl)

theorem newUserdata (hs : s.Confined w) : s.newUserdata.2.Confined w :=
  hs.of_alike (by constructor <;> rfl)

theorem report (hs : s.Confined w) (e : Event) : (s.report e).Confined w :=
  hs.of_alike (by constructor <;> rfl)

theorem printLine (hs : s.Confined w) (id : Nat) (line : String) :
    (s.printLine id line).Confined w := hs.of_alike (by constructor <;> rfl)

theorem setPermit (hs : s.Confined w) (id : Nat) {l : AllowList Value}
    (hl : ∀ {n : String} {v : Value}, l.get? n = some v → v.Clear w) : (s.setPermit id l).Confined w :=
  { hs with
    toClosed := hs.toClosed.of_tables rfl rfl rfl
    installed := fun hg => (hs.installed hg).keep (fun _ _ _ => rfl) fun _ _ h => h
    permit := fun {id' n v} hv => by
      have hget : (s.setPermit id l).permit id' = if id = id' ∧ id' < s.permits.size then l
          else s.permit id' := by
        show (s.permits.setIfInBounds id l).getD id' {} = _
        rw [Array.getD_eq_getD_getElem?, Array.getElem?_setIfInBounds, Store.permit,
          Array.getD_eq_getD_getElem?]
        by_cases e : id = id'
        · subst e
          by_cases h : id < s.permits.size <;> simp [h]
        · simp [e]
      rw [hget] at hv
      split at hv
      · exact hl hv
      · exact hs.permit hv }

theorem record (hs : s.Confined w) (hid : ¬ w.table id) {name : Value} (hn : name.Clear w)
    (hv : v.Clear w) : (s.record id name v).Confined w := by
  unfold Store.record
  split
  · next hk => exact hs.rawSet hid (hn.key hk) hv
  · exact hs

/-! ## Reading -/

theorem clear_cached? (hs : s.Confined w) (hid : ¬ w.table id) {name : Value}
    (h : s.cached? id name = some v) : v.Clear w := by
  unfold Store.cached? at h
  simp only at h
  split at h
  · cases h
    exact hs.rawIndex hid name
  · cases h

theorem clear_itemFrom (hs : s.Confined w) (hid : ¬ w.table id) {e : Value × Value} :
    ∀ (fuel n : Nat), (s.table id).itemFrom fuel n = some e → e.1.Clear w ∧ e.2.Clear w
  | 0, _, h => by cases h
  | fuel + 1, n, h => by
    unfold Table.itemFrom at h
    split at h
    · split at h
      · exact clear_itemFrom hs hid fuel _ h
      · cases h
        exact ⟨trivial, hs.entry hid (.item (Array.getElem_mem _))⟩
    · cases h

theorem clear_fieldFrom (hs : s.Confined w) (hid : ¬ w.table id) {e : Value × Value} :
    ∀ (fuel n : Nat), (s.table id).fieldFrom fuel n = some e → e.1.Clear w ∧ e.2.Clear w
  | 0, _, h => by cases h
  | fuel + 1, n, h => by
    unfold Table.fieldFrom at h
    split at h
    · simp only at h
      split at h
      · exact clear_fieldFrom hs hid fuel _ h
      · next hv =>
        cases h
        refine ⟨hs.key hid (Array.getElem_mem _), hs.entry hid (Table.has_of_field rfl fun e => hv ?_)⟩
        exact congrArg Value.isNil e
    · cases h

theorem clear_next? (hs : s.Confined w) (hid : ¬ w.table id) {k : Value} {e : Value × Value}
    (h : (s.table id).next? k = some (some e)) : e.1.Clear w ∧ e.2.Clear w := by
  have hentry {n : Nat} (h : (s.table id).entryFrom n = some e) : e.1.Clear w ∧ e.2.Clear w := by
    unfold Table.entryFrom at h
    split at h
    · next hi =>
      cases h
      exact hs.clear_itemFrom hid _ _ hi
    · exact hs.clear_fieldFrom hid _ _ h
  unfold Table.next? at h
  split at h
  · exact hentry (Option.some.inj h)
  · split at h
    · cases h
    · split at h
      · exact hentry (Option.some.inj h)
      · split at h
        · exact hs.clear_fieldFrom hid _ _ (Option.some.inj h)
        · cases h

theorem clear_binaryMeta (hs : s.Confined w) {a b : Value} (ha : a.Clear w) (hb : b.Clear w)
    (name : Bytes) : (s.binaryMeta name a b).Clear w := by
  unfold binaryMeta
  split
  · exact hs.metafield hb name
  · exact hs.metafield ha name

end Confined

end Store

end Cordon.Lua
