import Cordon.Proofs.Modules.History
import Cordon.Sandbox.Environment

/-!
# A new module system

The tables, variables and functions that a new module system is made of are new ones, so they are
apart from each other and from everything before.
-/

namespace Cordon

open Lua

/-! ## The function `require` -/

namespace Lua.Require

/-- The halves that a new `require` is made of. -/
def newHalves (s : Store) : Halves :=
  ⟨s.cells.size, s.cells.size + 1, s.functions.size, s.functions.size + 1⟩

/-- The store with both halves, before they are put into variables. -/
def halved (s : Store) (m : ModuleSystem) : Store :=
  ((s.newFunction (.native (.gate (.resolve m)))).2.newFunction (.native (.gate (.finish m)))).2

theorem function_eq (s : Store) (m : ModuleSystem) : function s m =
    (.fn (s.functions.size + 2),
      ((((halved s m).newCell (.fn s.functions.size)).2.newCell (.fn (s.functions.size + 1))).2.newFunction
        (.closure chunk program [s.cells.size + 1, s.cells.size])).2) := by
  simp only [function, halved, Store.newNative, Store.newFunction, Store.newCells, Store.newCell,
    Array.size_push]

theorem function_serves (s : Store) (m : ModuleSystem) :
    Serves m (s.functions.size + 2) (newHalves s) (function s m).2 := by
  have hf := s.functions_newFunction_size (.native (.gate (.resolve m)))
  have hf' : (halved s m).functions.size = s.functions.size + 2 := by
    rw [halved, Store.functions_newFunction_size, hf]
  have hc : ((halved s m).newCell (.fn s.functions.size)).2.cells.size = s.cells.size + 1 :=
    Array.size_push ..
  have hr := s.function?_newFunction (.native (.gate (.resolve m)))
  have hn := (s.newFunction (.native (.gate (.resolve m)))).2.function?_newFunction
    (.native (.gate (.finish m)))
  rw [function_eq]
  constructor
  case program =>
    rw [← hf']
    exact Store.function?_newFunction ..
  case resolveCell =>
    show (((halved s m).newCell _).2.newCell _).2.cell s.cells.size = _
    rw [Store.cell_newCell, if_neg (by omega), Store.cell_newCell]
    exact if_pos rfl
  case finishCell =>
    show (((halved s m).newCell _).2.newCell _).2.cell (s.cells.size + 1) = _
    rw [Store.cell_newCell, if_pos hc.symm]
    rfl
  case resolve =>
    exact Store.function?_newFunction_of_some _ (Store.function?_newFunction_of_some _ hr _) _
  case finish =>
    rw [hf] at hn
    exact Store.function?_newFunction_of_some _ hn _

end Lua.Require

namespace ModuleSystem

/-- The module system that `open` makes from this store. -/
def new (permit : Nat) (s : Store) : ModuleSystem := ⟨s.tables.size, s.tables.size + 1, permit⟩

/-- The store with the three new tables, of which the first one refers to the others. -/
def tabled (s : Store) : Store :=
  ((s.newTable.2.newTable.2.newTable.2.rawSetStr s.tables.size "loaded"
    (.table (s.tables.size + 1))).rawSetStr s.tables.size "preload" (.table (s.tables.size + 2)))

/-- The store that `open` leaves. -/
def opened (permit : Nat) (s : Store) : Store :=
  (Require.function (tabled s) (new permit s)).2.rawSetStr s.tables.size "require"
    (.fn (s.functions.size + 2))

theorem open_run (permit : Nat) (ctx : Ctx) (m : Machine) : (ModuleSystem.open permit).run ctx m =
    some (.ok (new permit m.store, .fn (m.store.functions.size + 2)),
      { m with store := opened permit m.store }) := by
  rw [ModuleSystem.open, Host.run_updateGet]
  simp only [opened, tabled, new, Store.newTable, Array.size_push, Require.function_eq]
  rfl

section opened

variable {permit : Nat} {s : Store}

theorem tables_opened_size : (opened permit s).tables.size = s.tables.size + 3 := by
  rw [opened, Store.rawSetStr, Store.tables_rawSet_size, Require.function_eq]
  show (tabled s).tables.size = _
  simp only [tabled, Store.rawSetStr, Store.tables_rawSet_size, Store.tables_newTable_size]

/-- Before the first table was filled, all three are empty. -/
theorem table_new {id : Nat} (h : s.tables.size ≤ id) :
    s.newTable.2.newTable.2.newTable.2.table id = {} := by
  simp only [Store.table_newTable]
  split
  · rfl
  · split
    · rfl
    · split
      · rfl
      · exact s.table_of_le h

theorem rawGet_opened {id : Nat} (h : s.tables.size < id) (k : Bytes) :
    (opened permit s).rawGet id (.str k) = .nil := by
  have hne : s.tables.size ≠ id := Nat.ne_of_lt h
  rw [opened, Store.rawGet_rawSetStr_of_ne _ hne, Require.function_eq]
  show (tabled s).rawGet id (.str k) = _
  rw [tabled, Store.rawGet_rawSetStr_of_ne _ hne, Store.rawGet_rawSetStr_of_ne _ hne, Store.rawGet,
    table_new (Nat.le_of_lt h)]
  rfl

theorem opened_ready (hp : permit < s.permits.size) :
    (new permit s).Ready (s.tables.size + 2) (opened permit s) where
  loaded_lt := by
    rw [tables_opened_size]
    exact Nat.add_lt_add_left (by decide) _
  preload_lt := by
    rw [tables_opened_size]
    exact Nat.add_lt_add_left (by decide) _
  permit_lt := hp
  held := by
    rw [opened, Store.rawGet_rawSetStr, if_neg fun h => absurd h.2 (by decide), Require.function_eq]
    show (tabled s).rawGet s.tables.size _ = _
    rw [tabled, Store.rawGet_rawSetStr_self]
    · exact if_pos rfl
    · simp only [Store.rawSetStr, Store.tables_rawSet_size, Store.tables_newTable_size]
      omega
  plain := by
    rw [opened, Store.metatable_rawSetStr, Require.function_eq]
    show ((tabled s).table (s.tables.size + 2)).metatable = none
    rw [tabled, Store.metatable_rawSetStr, Store.metatable_rawSetStr,
      table_new (Nat.le_add_right ..)]

end opened

end ModuleSystem

/-- The parts of a sandbox whose module system is new. -/
def Parts.new (b : Sandbox) (s : Store) : Parts where
  box := b
  preload := s.tables.size + 2
  require := s.functions.size + 2
  halves := Require.newHalves s

section

variable {b : Sandbox} {permit : Nat} {s : Store}

theorem Intact.new (hb : b.modules = .new permit s) (hg : b.globals < s.tables.size)
    (hp : permit < s.permits.size) : Intact (.new b s) (ModuleSystem.opened permit s) where
  apart := by
    constructor <;> simp only [Parts.new, Parts.modules, hb, ModuleSystem.new] <;> omega
  ready := by
    simp only [Parts.new, Parts.modules, hb]
    exact ModuleSystem.opened_ready hp
  serves := by
    have h : Require.Serves (.new permit s) (s.functions.size + 2) (Require.newHalves s)
        (Require.function (ModuleSystem.tabled s) (.new permit s)).2 :=
      Require.function_serves (ModuleSystem.tabled s) _
    simp only [Parts.new, Parts.modules, hb]
    exact h.rawSetStr ..

theorem Agrees.new (hb : b.modules = .new permit s) (hp : ∀ name, (s.permit permit).get? name = none) :
    Agrees (.new b s) [] (ModuleSystem.opened permit s) where
  recorded n := by
    simp only [Parts.new, Parts.modules, hb]
    rw [cached?_eq, ModuleSystem.new, ModuleSystem.rawGet_opened (Nat.lt_succ_self _)]
    rfl
  loader n := ModuleSystem.rawGet_opened (Nat.lt_add_of_pos_right (by decide)) n
  allowed name := by
    show ((ModuleSystem.opened permit s).permit b.modules.permit).get? name = none
    rw [hb, ModuleSystem.opened, Require.function_eq]
    exact hp name

end

end Cordon
