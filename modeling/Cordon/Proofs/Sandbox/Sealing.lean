import Cordon.Proofs.Confinement.Fresh
import Cordon.Proofs.Confinement.Keeping
import Cordon.Proofs.Confinement.Programs
import Cordon.Sandbox.Environment

/-!
# The variables of the programs behind protected calls

The programs share variables that nothing else has. They are new when the programs are made, so no
function that there was before has them, and no program can get at them later.
-/

namespace Cordon.Lua

/-- Nothing is kept but the variables of these programs. -/
def Ward.guarding (g : Protect.Guard) (s : Store) : Ward where
  table _ := False
  function _ := False
  cell id := id ∈ g.cells
  content _ _ := True
  native _ _ := False
  library _ := False
  guards g' := g' = g
  globals := s.globals
  loaded := s.loaded
  preload := s.preload
  package := s.package
  cells h _ hid := h ▸ hid
  functions _ _ _ := id
  libraries h := h.elim

/-- The variables of the programs are theirs alone. -/
def Protect.Sealed (g : Protect.Guard) (s : Store) : Prop := s.Confined (.guarding g s)

theorem Value.clear_guarding {g : Protect.Guard} {s : Store} (v : Value) : v.Clear (.guarding g s) := by
  cases v with
  | table => exact id
  | fn => exact id
  | _ => trivial

theorem clears_guarding {g : Protect.Guard} {s : Store} (vs : List Value) :
    Clears (.guarding g s) vs := fun v _ => v.clear_guarding

theorem Handler.clear_guarding {g : Protect.Guard} {s : Store} (h : Handler) :
    h.Clear (.guarding g s) := by
  cases h with
  | fn f => exact f.clear_guarding
  | _ => trivial

section

variable {g : Protect.Guard} {s h : Store}

/-- The variables that a function has. -/
def Callable.variables : Callable → List Nat
  | .closure _ _ cells => cells
  | .native (.gmatchStep _ _ cell) => [cell, cell + 1]
  | .native (.stub (.counter cell)) => [cell]
  | .native _ => []

theorem Callable.clear_of_apart {f : Callable} (hf : ∀ id ∈ f.variables, id ∉ g.cells) :
    f.Clear (.guarding g h) := by
  have hopen : (Ward.guarding g h).Open := ⟨id, id, id, id⟩
  have hmodules (m : ModuleSystem) : m.Clear (.guarding g h) := ⟨id, id⟩
  have hsandbox (b : Sandbox) : b.Clear (.guarding g h) := ⟨id, hmodules _⟩
  cases f with
  | closure chunk f cells => exact .inl hf
  | native f =>
    cases f with
    | base f => cases f <;> first | exact id | exact hopen | trivial
    | package => exact hopen
    | gmatchStep => exact ⟨hf _ (.head _), hf _ (.tail _ (.head _))⟩
    | stub f =>
      cases f with
      | constant => exact clears_guarding _
      | counter => exact hf _ (.head _)
      | raising v => exact v.clear_guarding
      | applying fn args => exact ⟨fn.clear_guarding, clears_guarding _⟩
      | _ => trivial
    | gate f =>
      cases f with
      | print tostring => exact tostring.clear_guarding
      | load hostLoad => exact ⟨fun _ _ => .clear hostLoad.clear_guarding, id⟩
      | resolve m => exact hmodules m
      | finish m => exact hmodules m
      | adminRequire b => exact ⟨hopen, hsandbox b⟩
      | adminAllow b => exact ⟨hopen, hsandbox b⟩
      | adminRemove b => exact ⟨hopen, hsandbox b⟩
      | _ => trivial
    | _ => trivial

namespace Protect

/-- If only the programs have their variables, these are theirs alone. -/
theorem sealed_of (hi : Installed g s) (hs : ∀ {id : Nat} {f : Callable}, s.function? id = some f →
    (∀ id ∈ f.variables, id ∉ g.cells) ∨ ∃ p, Judges g p ∧ f = .closure chunk p g.cells) :
    Sealed g s where
  nil := trivial
  entry _ _ := Value.clear_guarding _
  metatable _ _ := id
  stringMeta _ := id
  faultMeta _ := id
  key _ _ := Value.clear_guarding _
  held _ := Value.clear_guarding _
  callable _ hf := by
    rcases hs hf with hf | ⟨p, hj, rfl⟩
    · exact Callable.clear_of_apart hf
    · cases hj with
      | finish => exact .inr (.finish rfl)
      | pcall => exact .inr (.pcall rfl)
      | xpcall => exact .inr (.xpcall rfl)
  nextFn := Value.clear_guarding _
  ipairsStep := Value.clear_guarding _
  permit _ := Value.clear_guarding _
  content _ := trivial
  native := False.elim
  installed h := h ▸ hi
  tables := False.elim
  functions := False.elim
  cells {id} hid := by
    have hlt {id f : Nat} (hv : s.cell id = .fn f) : id < s.cells.size :=
      s.lt_of_cell (by rw [hv]; nofun)
    have hid : id ∈ g.cells := hid
    simp only [Guard.cells, List.mem_cons, List.not_mem_nil, or_false] at hid
    rcases hid with rfl | rfl | rfl | rfl | rfl | rfl | rfl
    · exact hlt hi.finishCell
    · exact hlt hi.isFatalCell
    · exact hlt hi.typeCell
    · exact hlt hi.selectCell
    · exact hlt hi.errorCell
    · exact hlt hi.xpcallCell
    · exact hlt hi.pcallCell
  globals := rfl
  loaded := rfl
  preload := rfl
  package := rfl

/-- All variables that functions have are there. -/
def Bounded (s : Store) : Prop :=
  ∀ {id : Nat} {f : Callable}, s.function? id = some f → ∀ cell ∈ f.variables, cell < s.cells.size

theorem bounded_of (h : s.functions.all (fun f => f.variables.all (· < s.cells.size)) = true) :
    Bounded s := fun {id f} hf cell hcell => by
  have hall := Array.all_eq_true_iff_forall_mem.mp h f (Array.mem_of_getElem? hf)
  exact of_decide_eq_true (List.all_eq_true.mp hall cell hcell)

/-- The programs that are made next, of these functions. -/
def Guard.made (s : Store) (isFatal type select error xpcall pcall : Nat) : Guard where
  finishCell := s.cells.size + 6
  isFatalCell := s.cells.size + 5
  typeCell := s.cells.size + 4
  selectCell := s.cells.size + 3
  errorCell := s.cells.size + 2
  xpcallCell := s.cells.size + 1
  pcallCell := s.cells.size
  finish := s.functions.size
  isFatal
  type
  select
  error
  xpcall
  pcall

/-- The store with the programs and their variables. -/
def equipped (g : Guard) (s : Store) : Store :=
  { s with
    cells := s.cells ++ #[.fn g.pcall, .fn g.xpcall, .fn g.error, .fn g.select, .fn g.type, .fn g.isFatal,
      .fn g.finish]
    functions := s.functions ++ #[.closure chunk finish g.cells, .closure chunk Protect.pcall g.cells,
      .closure chunk Protect.xpcall g.cells]
    used := s.used + 24 }

theorem functions_eq (s : Store) (isFatal type select error xpcall pcall : Nat) :
    Protect.functions s ⟨.fn isFatal, .fn type, .fn select, .fn error, .fn xpcall, .fn pcall⟩ =
      (.fn (s.functions.size + 1), .fn (s.functions.size + 2),
        equipped (.made s isFatal type select error xpcall pcall) s) := by
  simp only [Protect.functions, Held.values, List.reverse_cons, List.reverse_nil, List.nil_append,
    List.cons_append, Store.newCells, Store.newCell, Store.newFunction, Store.setCell, Array.size_push,
    Array.setIfInBounds]
  rw [dif_pos (Nat.lt_succ_self _), Array.set_push, dif_neg (by simp)]
  rfl

section

variable {isFatal type select error xpcall pcall : Nat}

theorem function?_equipped {id : Nat} {f : Callable} (h : s.function? id = some f) :
    (equipped g s).function? id = some f := by
  have hlt := Store.function?_lt h
  show (s.functions ++ _)[id]? = _
  rw [Array.getElem?_append_left hlt]
  exact h

theorem function?_equipped_cases {id : Nat} {f : Callable} (h : (equipped g s).function? id = some f) :
    s.function? id = some f ∨ ∃ p, Judges g p ∧ f = .closure chunk p g.cells := by
  replace h : (s.functions ++ #[.closure chunk finish g.cells, .closure chunk Protect.pcall g.cells,
    .closure chunk Protect.xpcall g.cells])[id]? = some f := h
  rcases Nat.lt_or_ge id s.functions.size with hlt | hge
  · rw [Array.getElem?_append_left hlt] at h
    exact .inl h
  · rw [Array.getElem?_append_right hge] at h
    rcases hk : id - s.functions.size with _ | _ | _ | k <;> rw [hk] at h <;> cases h
    · exact .inr ⟨_, .finish, rfl⟩
    · exact .inr ⟨_, .pcall, rfl⟩
    · exact .inr ⟨_, .xpcall, rfl⟩

theorem cell_equipped (g : Guard) (s : Store) (k : Nat) : (equipped g s).cell (s.cells.size + k) =
    #[.fn g.pcall, .fn g.xpcall, .fn g.error, .fn g.select, .fn g.type, .fn g.isFatal,
      .fn g.finish].getD k .nil := by
  rw [Store.cell_eq, Array.getD_eq_getD_getElem?]
  show ((s.cells ++ _)[s.cells.size + k]?).getD .nil = _
  rw [Array.getElem?_append_right (Nat.le_add_right ..), Nat.add_sub_cancel_left]

/-- The programs of a sandbox, made of the host's functions: their variables are theirs alone. -/
theorem functions_sealed (hs : Bounded s)
    (hfatal : s.function? isFatal = some (.native (.gate .isFatal)))
    (htype : s.function? type = some (.native (.base .type)))
    (hselect : s.function? select = some (.native (.base .select)))
    (herror : s.function? error = some (.native (.base .error)))
    (hxpcall : s.function? xpcall = some (.native (.base .xpcall)))
    (hpcall : s.function? pcall = some (.native (.base .pcall))) :
    Offered (.made s isFatal type select error xpcall pcall) (s.functions.size + 1)
        (s.functions.size + 2) (equipped (.made s isFatal type select error xpcall pcall) s) ∧
      Sealed (.made s isFatal type select error xpcall pcall)
        (equipped (.made s isFatal type select error xpcall pcall) s) := by
  have hmade {k : Nat} {f : Callable} (g : Guard)
      (h : #[Callable.closure chunk finish g.cells, .closure chunk Protect.pcall g.cells,
        .closure chunk Protect.xpcall g.cells][k]? = some f) :
      (equipped g s).function? (s.functions.size + k) = some f := by
    show (s.functions ++ _)[s.functions.size + k]? = _
    rw [Array.getElem?_append_right (Nat.le_add_right ..), Nat.add_sub_cancel_left]
    exact h
  have hi : Installed (.made s isFatal type select error xpcall pcall)
      (equipped (.made s isFatal type select error xpcall pcall) s) := by
    constructor
    · exact cell_equipped _ s 6
    · exact hmade (k := 0) _ rfl
    · exact cell_equipped _ s 5
    · exact function?_equipped hfatal
    · exact cell_equipped _ s 4
    · exact function?_equipped htype
    · exact cell_equipped _ s 3
    · exact function?_equipped hselect
    · exact cell_equipped _ s 2
    · exact function?_equipped herror
    · exact cell_equipped _ s 1
    · exact function?_equipped hxpcall
    · exact cell_equipped _ s 0
    · exact function?_equipped hpcall
  refine ⟨⟨hi, hmade (k := 1) _ rfl, hmade (k := 2) _ rfl⟩, sealed_of hi fun {id f} hf => ?_⟩
  -- a function that was there before has variables that were there, and those of the programs are new
  refine (function?_equipped_cases hf).imp_left fun hf cell hcell hg => ?_
  have hlt := hs hf cell hcell
  simp only [Guard.made, Guard.cells, List.mem_cons, List.not_mem_nil, or_false] at hg
  omega

end

end Protect

end

/-! ## The programs of a sandbox -/

theorem Host.run_functionField {m : Machine} {name : String} {f : BaseFn}
    (h : m.store.hasBase name f = true) (ctx : Ctx) :
    ∃ id, (Host.functionField (.table m.store.globals) name).run ctx m = some (.ok (.fn id), m) ∧
      m.store.function? id = some (.native (.base f)) := by
  obtain ⟨id, hid, hf⟩ := Store.hasBase_iff h
  have hraw : m.store.rawGet m.store.globals (.str name) = .fn id := by
    rw [Store.rawGet, Table.get_str]
    exact hid
  have hfield : (Host.field (.table m.store.globals) name).run ctx m = some (.ok (.fn id), m) :=
    Host.field_of_value ctx m ((Store.access_of_raw (by rw [hraw]; rfl)).trans (by rw [hraw]))
  refine ⟨id, ?_, hf⟩
  rw [Host.functionField, Host.run_bind, hfield]
  rfl

end Cordon.Lua

namespace Cordon.Environment

open Lua

/-- The host has the functions that the programs behind protected calls are made of. -/
def hasCalls (s : Store) : Bool :=
  s.hasBase "pcall" .pcall && s.hasBase "xpcall" .xpcall && s.hasBase "error" .error &&
    s.hasBase "select" .select && s.hasBase "type" .type

/-- A sandbox's protected calls, made on such a host: the variables of the programs are theirs alone. -/
theorem protectedCalls_sealed {m : Machine} (hs : Protect.Bounded m.store)
    (hc : hasCalls m.store = true) (ctx : Ctx) :
    ∃ g p x m', protectedCalls.run ctx m = some (.ok (.fn p, .fn x), m') ∧
      Protect.Offered g p x m'.store ∧ Protect.Sealed g m'.store ∧ m'.threads = m.threads := by
  simp only [hasCalls, Bool.and_eq_true] at hc
  obtain ⟨⟨⟨⟨hpcall, hxpcall⟩, herror⟩, hselect⟩, htype⟩ := hc
  obtain ⟨pcall, hpcall, hpcall'⟩ := Host.run_functionField hpcall ctx
  obtain ⟨xpcall, hxpcall, hxpcall'⟩ := Host.run_functionField hxpcall ctx
  obtain ⟨error, herror, herror'⟩ := Host.run_functionField herror ctx
  obtain ⟨select, hselect, hselect'⟩ := Host.run_functionField hselect ctx
  obtain ⟨type, htype, htype'⟩ := Host.run_functionField htype ctx
  let s := (m.store.newNative (.gate .isFatal)).2
  have hkept {id : Nat} {f : Callable} (h : m.store.function? id = some f) : s.function? id = some f :=
    m.store.function?_newFunction_of_some h _
  have hs' : Protect.Bounded s := fun {id f} hf cell hcell => by
    rcases Store.function?_newFunction_cases hf with hf | ⟨-, rfl⟩
    · exact hs hf cell hcell
    · cases hcell
  obtain ⟨ho, hsealed⟩ := Protect.functions_sealed hs'
    (m.store.function?_newFunction (.native (.gate .isFatal))) (hkept htype') (hkept hselect')
    (hkept herror') (hkept hxpcall') (hkept hpcall')
  refine ⟨_, _, _, { m with store := _ }, ?_, ho, hsealed, rfl⟩
  have hglobals : Host.globals.run ctx m = some (.ok (.table m.store.globals), m) := rfl
  rw [protectedCalls, Host.run_bind, hglobals]
  simp only [Host.run_bind, hpcall, hxpcall, herror, hselect, htype, Host.newFunction, Host.run_updateGet]
  exact congrArg (fun r : Value × Value × Store =>
    some (Except.ok (ε := Failure) (r.1, r.2.1), (⟨r.2.2, m.threads⟩ : Machine)))
    (Protect.functions_eq s ..)

end Cordon.Environment
