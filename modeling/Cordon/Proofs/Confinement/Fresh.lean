import Cordon.Lua.Interpreter
import Cordon.Proofs.Confinement.Confined

/-!
# A fresh interpreter is confined

The host keeps its own tables and the functions that come to them or to its files. On a fresh
interpreter nothing else leads there, as a look at every table and every function shows.
-/

namespace Cordon.Lua

open Std

/-! ## What the host has -/

def Store.global (s : Store) (name : String) : Value := (s.table s.globals).getStr name

def Store.hasBase (s : Store) (name : String) (f : BaseFn) : Bool :=
  match s.global name with
  | .fn id => match s.function? id with
    | some (.native (.base g)) => g == f
    | _ => false
  | _ => false

theorem Store.hasBase_iff {s : Store} {name : String} {f : BaseFn} (h : s.hasBase name f = true) :
    ∃ id, s.global name = .fn id ∧ s.function? id = some (.native (.base f)) := by
  unfold Store.hasBase at h
  split at h
  · next id hid =>
    split at h
    · next g hg => exact ⟨id, hid, by rw [hg, eq_of_beq h]⟩
    · cases h
  · cases h

/-! ## What the host keeps -/

/-- The functions that come to the host's tables or to its files. -/
def Native.reserved : Native → Bool
  | .base .dofile | .base .load | .base .loadfile | .base .require | .package _ => true
  | _ => false

/-- The host's global variables and the tables of its module system, and its library for files. -/
def Store.reservedTables (s : Store) : List Nat :=
  [s.globals, s.loaded, s.preload, s.package] ++
    [(s.table s.package).getStr "searchers", (s.table s.globals).getStr "io"].filterMap fun
      | .table id => some id
      | _ => none

def Store.reservedFunctions (s : Store) : List Nat :=
  (List.range s.functions.size).filter fun id =>
    match s.function? id with
    | some (.native f) => f.reserved
    | _ => false

/-! ## A look at every object -/

section

variable (tables functions : List Nat)

/-- The value is none of these tables and functions. -/
def Value.spared : Value → Bool
  | .table id => !tables.contains id
  | .fn id => !functions.contains id
  | _ => true

def Table.spared (t : Table) : Bool :=
  t.items.all (·.spared tables functions) &&
    t.fields.toList.all (·.2.2.spared tables functions) &&
    t.keys.all (·.toValue.spared tables functions) &&
    t.metatable.all (!tables.contains ·)

/-- A library function that comes to nothing of the host's own. -/
def Callable.plain : Callable → Bool
  | .native f => !f.reserved && match f with
    | .stub _ | .gate _ => false
    | _ => true
  | .closure .. => false

/-- Whatever is none of these tables and functions does not lead to one. -/
def Store.spared (s : Store) : Bool :=
  (List.range s.tables.size).all (fun id => tables.contains id || (s.table id).spared tables functions) &&
    (List.range s.functions.size).all
      (fun id => functions.contains id || (s.function? id).all Callable.plain) &&
    s.cells.isEmpty && s.permits.isEmpty &&
    s.stringMeta.all (!tables.contains ·) && s.faultMeta.all (!tables.contains ·) &&
    s.nextFn.spared tables functions && s.ipairsStep.spared tables functions &&
    tables.all (· < s.tables.size) && functions.all (· < s.functions.size)

end

/-! ## The ward of a host -/

/-- The table of loaded modules has these libraries, which the host does not keep. -/
structure Table.Lists (kept : List Nat) (library : Bytes → Prop) (t : Table) : Prop where
  metatable : t.metatable = none
  table : ∀ {name : Bytes}, library name → ∃ id, t.getStr name = .table id ∧ id ∉ kept

/-- The host has loaded these libraries, and keeps none of them. -/
def Table.lists (kept : List Nat) (names : List Bytes) (t : Table) : Bool :=
  t.metatable.isNone && names.all fun name =>
    match t.getStr name with
    | .table id => !kept.contains id
    | _ => false

theorem Table.lists_of {kept : List Nat} {names : List Bytes} {t : Table}
    (h : t.lists kept names = true) : t.Lists kept (· ∈ names) := by
  simp only [Table.lists, Bool.and_eq_true, Option.isNone_iff_eq_none, List.all_eq_true] at h
  refine ⟨h.1, fun {name} hn => ?_⟩
  have h := h.2 name hn
  split at h
  · next id hid =>
    exact ⟨id, hid, by simpa using h⟩
  · cases h

/-- What an interpreter in this state keeps as it is, but for the table of loaded modules, which gets
more of them. -/
def Ward.host (s : Store) (library : Bytes → Prop) : Ward where
  table id := id ∈ s.reservedTables
  function id := id ∈ s.reservedFunctions
  cell _ := False
  content id t := if id = s.loaded then t.Lists s.reservedTables library else t = s.table id
  native id f := s.function? id = some (.native f)
  library
  guards _ := False
  globals := s.globals
  loaded := s.loaded
  preload := s.preload
  package := s.package
  cells h := h.elim
  functions h := h.elim
  libraries h := by
    refine ⟨by simp [Store.reservedTables], fun t ht => ?_⟩
    rw [if_pos rfl] at ht
    exact ht.table h

section

variable {s : Store} {library : Bytes → Prop}

theorem Value.spared_iff {v : Value} :
    v.spared s.reservedTables s.reservedFunctions = true ↔ v.Clear (.host s library) := by
  cases v with
  | table id =>
    simp only [Value.spared, Bool.not_eq_true', List.contains_eq_mem, decide_eq_false_iff_not]
    exact .rfl
  | fn id =>
    simp only [Value.spared, Bool.not_eq_true', List.contains_eq_mem, decide_eq_false_iff_not]
    exact .rfl
  | _ => exact ⟨fun _ => trivial, fun _ => rfl⟩

theorem Value.clear_of_spared {v : Value}
    (h : v.spared s.reservedTables s.reservedFunctions = true) : v.Clear (.host s library) :=
  Value.spared_iff.mp h

theorem Callable.clear_of_plain {f : Callable} (h : f.plain = true) : f.Clear (.host s library) := by
  cases f with
  | closure => cases h
  | native f =>
    cases f with
    | base f => cases f <;> trivial
    | package => cases h
    | stub => cases h
    | gate => cases h
    | gmatchStep => exact ⟨id, id⟩
    | _ => trivial

theorem Table.spared_empty : ({} : Table).spared s.reservedTables s.reservedFunctions = true := by
  simp [Table.spared]

section

variable {t : Table} (h : t.spared s.reservedTables s.reservedFunctions = true)

include h

theorem Table.Has.clear_of_spared {v : Value} (hv : t.Has v) : v.Clear (.host s library) := by
  simp only [Table.spared, Bool.and_eq_true, Array.all_eq_true_iff_forall_mem, List.all_eq_true] at h
  refine Value.clear_of_spared ?_
  rcases hv with hv | @⟨k, place, hv⟩
  · exact h.1.1.1 v hv
  · exact h.1.1.2 _ (TreeMap.mem_toList_iff_getElem?_eq_some.mpr hv)

theorem Key.clear_of_spared {k : Key} (hk : k ∈ t.keys) : k.Clear (.host s library) := by
  simp only [Table.spared, Bool.and_eq_true, Array.all_eq_true_iff_forall_mem] at h
  exact Value.clear_of_spared (h.1.2 k hk)

theorem Table.metatable_of_spared {mt : Nat} (hm : t.metatable = some mt) : mt ∉ s.reservedTables := by
  simp only [Table.spared, Bool.and_eq_true, hm, Option.all_some] at h
  simpa [Value.spared] using h.2

end

/-- If nothing else leads there, the store is confined. -/
theorem Store.confined_of_spared (h : s.spared s.reservedTables s.reservedFunctions = true)
    (hl : (s.table s.loaded).Lists s.reservedTables library) : s.Confined (.host s library) := by
  simp only [Store.spared, Bool.and_eq_true] at h
  obtain ⟨⟨⟨⟨⟨⟨⟨⟨⟨htables, hfunctions⟩, hcells⟩, hpermits⟩, hstring⟩, hfault⟩, hnext⟩, hipairs⟩, hids⟩,
    hfids⟩ := h
  -- tables past the end are empty, so the check of those that are there is enough
  have htable {id : Nat} (hid : id ∉ s.reservedTables) :
      (s.table id).spared s.reservedTables s.reservedFunctions = true := by
    rcases Nat.lt_or_ge id s.tables.size with hlt | hge
    · have h := List.all_eq_true.mp htables id (List.mem_range.mpr hlt)
      rw [Bool.or_eq_true, List.contains_eq_mem, decide_eq_true_eq] at h
      exact h.resolve_left hid
    · rw [s.table_eq, Array.getElem?_eq_none hge]
      exact Table.spared_empty
  have hmeta {m : Option Nat} (h : m.all (!s.reservedTables.contains ·) = true) {mt : Nat}
      (hm : m = some mt) : mt ∉ s.reservedTables := by
    subst hm
    simpa using h
  refine
    { nil := trivial
      entry := fun hid hv => hv.clear_of_spared (htable hid)
      metatable := fun hid hm => Table.metatable_of_spared (htable hid) hm
      stringMeta := hmeta hstring
      faultMeta := hmeta hfault
      key := fun hid hk => Key.clear_of_spared (htable hid) hk
      held := fun id => ?held
      callable := fun {id f} hid hf => ?callable
      nextFn := Value.clear_of_spared hnext
      ipairsStep := Value.clear_of_spared hipairs
      permit := fun {id n v} hv => ?permit
      content := fun {id} hid => ?content
      native := fun h => h
      installed := False.elim
      tables := fun hid => by simpa using List.all_eq_true.mp hids _ hid
      functions := fun hid => by simpa using List.all_eq_true.mp hfids _ hid
      cells := False.elim
      globals := rfl
      loaded := rfl
      preload := rfl
      package := rfl }
  case held =>
    rw [s.cell_eq, Array.isEmpty_iff.mp hcells]
    trivial
  case callable =>
    have h := List.all_eq_true.mp hfunctions id (List.mem_range.mpr (function?_lt hf))
    rw [Bool.or_eq_true, List.contains_eq_mem, decide_eq_true_eq, hf] at h
    exact Callable.clear_of_plain (h.resolve_left hid)
  case permit =>
    rw [Store.permit, Array.isEmpty_iff.mp hpermits] at hv
    cases hv
  case content =>
    show if id = s.loaded then _ else _
    split
    · next e => exact e ▸ hl
    · rfl

/-! ## New modules -/

variable {h : Store}

theorem Ward.content_loaded {t : Table} :
    (Ward.host h library).content h.loaded t ↔ t.Lists h.reservedTables library := by
  show (if h.loaded = h.loaded then _ else _) ↔ _
  rw [if_pos rfl]

theorem Ward.content_kept {id : Nat} (hid : id ≠ h.loaded) {t : Table} :
    (Ward.host h library).content id t ↔ t = h.table id := by
  show (if id = h.loaded then _ else _) ↔ _
  rw [if_neg hid]

theorem Store.loaded_reserved (h : Store) : h.loaded ∈ h.reservedTables := by
  simp [Store.reservedTables]

theorem Store.Confined.lists (hs : s.Confined (.host h library)) :
    (s.table h.loaded).Lists h.reservedTables library :=
  Ward.content_loaded.mp (hs.content h.loaded_reserved)

theorem Store.Confined.register (hs : s.Confined (.host h library)) (name : Bytes) {id : Nat}
    (hid : id ∉ h.reservedTables) :
    (s.rawSetStr h.loaded name (.table id)).Confined (.host h library) := by
  refine hs.rawSet_kept h.loaded_reserved (Ward.content_loaded.mpr ⟨?_, fun {n} hn => ?_⟩)
  · exact (Table.metatable_set ..).trans hs.lists.metatable
  · rw [Table.getStr_set]
    split
    · exact ⟨id, rfl, hid⟩
    · exact hs.lists.table hn

end

end Cordon.Lua
