import Cordon.Proofs.Lua.Follows
import Cordon.Sandbox.Protect

/-!
# The programs behind protected calls

What each of them does up to its next call.
-/

namespace Cordon.Lua.Protect

/-- The functions that the programs hold, and their variables. -/
structure Guard where
  finishCell : Nat
  isFatalCell : Nat
  typeCell : Nat
  selectCell : Nat
  errorCell : Nat
  xpcallCell : Nat
  pcallCell : Nat
  finish : Nat
  isFatal : Nat
  type : Nat
  select : Nat
  error : Nat
  xpcall : Nat
  pcall : Nat

/-- The variables in the order in which the programs see them. -/
def Guard.cells (g : Guard) : List Nat :=
  [g.finishCell, g.isFatalCell, g.typeCell, g.selectCell, g.errorCell, g.xpcallCell, g.pcallCell]

/-- The variables hold the test for fatal errors, functions of the host, and the program that looks at
what was caught. -/
structure Installed (g : Guard) (s : Store) : Prop where
  finishCell : s.cell g.finishCell = .fn g.finish
  finish : s.function? g.finish = some (.closure chunk Protect.finish g.cells)
  isFatalCell : s.cell g.isFatalCell = .fn g.isFatal
  isFatal : s.function? g.isFatal = some (.native (.gate .isFatal))
  typeCell : s.cell g.typeCell = .fn g.type
  type : s.function? g.type = some (.native (.base .type))
  selectCell : s.cell g.selectCell = .fn g.select
  select : s.function? g.select = some (.native (.base .select))
  errorCell : s.cell g.errorCell = .fn g.error
  error : s.function? g.error = some (.native (.base .error))
  xpcallCell : s.cell g.xpcallCell = .fn g.xpcall
  xpcall : s.function? g.xpcall = some (.native (.base .xpcall))
  pcallCell : s.cell g.pcallCell = .fn g.pcall
  pcall : s.function? g.pcall = some (.native (.base .pcall))

/-- The programs are in place, and two of them are these functions. -/
structure Offered (g : Guard) (p x : Nat) (s : Store) : Prop where
  installed : Installed g s
  pcall : s.function? p = some (.closure chunk Protect.pcall g.cells)
  xpcall : s.function? x = some (.closure chunk Protect.xpcall g.cells)

/-- Functions and variables stay, and so do error objects and the memory in use. -/
structure Grown (s s' : Store) : Prop where
  functions : ∀ id f, s.function? id = some f → s'.function? id = some f
  cells : ∀ id, s.cell id ≠ .nil → s'.cell id = s.cell id
  faults : s'.faults = s.faults
  used : s'.used = s.used
  memoryLimit : s'.memoryLimit = s.memoryLimit

section

variable {g : Guard} {s s' s'' : Store}

theorem Grown.refl (s : Store) : Grown s s := ⟨fun _ _ h => h, fun _ _ => rfl, rfl, rfl, rfl⟩

theorem Grown.trans (h : Grown s s') (h' : Grown s' s'') : Grown s s'' where
  functions id f hf := h'.functions id f (h.functions id f hf)
  cells id hc := (h'.cells id (by rwa [h.cells id hc])).trans (h.cells id hc)
  faults := h'.faults.trans h.faults
  used := h'.used.trans h.used
  memoryLimit := h'.memoryLimit.trans h.memoryLimit

theorem Grown.newCell (s : Store) (v : Value) : Grown s (s.newCell v).2 where
  functions _ _ h := h
  cells id h := by rw [s.cell_newCell, if_neg (Nat.ne_of_lt (s.lt_of_cell h))]
  faults := rfl
  used := rfl
  memoryLimit := rfl

theorem Grown.flagged (s : Store) (failed : Bool) :
    Grown s { s with allocationFailed := failed } :=
  ⟨fun _ _ h => h, fun _ _ => rfl, rfl, rfl, rfl⟩

/-- The programs stay in place as long as their variables and the functions do. -/
theorem Installed.keep (hi : Installed g s)
    (hcells : ∀ id ∈ g.cells, s.cell id ≠ .nil → s'.cell id = s.cell id)
    (hf : ∀ id f, s.function? id = some f → s'.function? id = some f) : Installed g s' := by
  have hc {id f : Nat} (hv : s.cell id = .fn f) (hid : id ∈ g.cells) : s'.cell id = .fn f :=
    (hcells id hid (by rw [hv]; nofun)).trans hv
  constructor
  · exact hc hi.finishCell (by simp [Guard.cells])
  · exact hf _ _ hi.finish
  · exact hc hi.isFatalCell (by simp [Guard.cells])
  · exact hf _ _ hi.isFatal
  · exact hc hi.typeCell (by simp [Guard.cells])
  · exact hf _ _ hi.type
  · exact hc hi.selectCell (by simp [Guard.cells])
  · exact hf _ _ hi.select
  · exact hc hi.errorCell (by simp [Guard.cells])
  · exact hf _ _ hi.error
  · exact hc hi.xpcallCell (by simp [Guard.cells])
  · exact hf _ _ hi.xpcall
  · exact hc hi.pcallCell (by simp [Guard.cells])
  · exact hf _ _ hi.pcall

theorem Installed.grown (hi : Installed g s) (h : Grown s s') : Installed g s' :=
  hi.keep (fun id _ => h.cells id) h.functions

/-! ## The programs -/

def testSite : Site := ⟨some (chunk, 5), some (.captured, "is_fatal")⟩

def raiseSite : Site := ⟨some (chunk, 6), some (.captured, "error")⟩

theorem run_error (v : Value) (ctx : Ctx) (m : Machine) :
    ((Native.base .error).run [v, .int 0]).run ctx m = some (.error v, m) := by
  cases v <;> rfl

theorem finish_eq (hi : Installed g s) (v : Value) : ∃ next next',
    Eval.call chunk finish g.cells [.bool false, v] s =
      .call (.fn g.isFatal) [v] testSite next (s.newCell (.bool false)).2 ∧
    ∀ s', Installed g s' →
      next [.bool true] s' = .call (.fn g.error) [v, .int 0] raiseSite next' s' := by
  have hcall : ∃ next other, Eval.call chunk finish g.cells [.bool false, v] s =
      (if (Value.bool !((s.newCell (.bool false)).2.cell s.cells.size).truthy).truthy then
        .call ((s.newCell (.bool false)).2.cell g.isFatalCell) [v] testSite next
          (s.newCell (.bool false)).2
      else other) ∧ ∃ next', ∀ s', next [.bool true] s' =
        .call (s'.cell g.errorCell) [v, .int 0] raiseSite next' s' :=
    ⟨_, _, rfl, _, fun _ => rfl⟩
  obtain ⟨next, other, hcall, next', hnext⟩ := hcall
  refine ⟨next, next', ?_, fun s' hi' => ?_⟩
  · rw [hcall, s.cell_newCell, if_pos rfl, (hi.grown (.newCell s _)).isFatalCell]
    rfl
  · rw [hnext, hi'.errorCell]

def handlerSite : Site := ⟨some (chunk, 22), some (.captured, "is_fatal")⟩

theorem handler_eq (hi : Installed g s) (a b : Nat) (v : Value) : ∃ next,
    Eval.call chunk handler (a :: b :: g.cells) [v] s =
      .call (.fn g.isFatal) [v] handlerSite next (s.newCell v).2 ∧
    ∀ s', s'.cell s.cells.size = v → next [.bool true] s' = .ret [v] s' := by
  have hcall : ∃ next, Eval.call chunk handler (a :: b :: g.cells) [v] s =
      .call ((s.newCell v).2.cell g.isFatalCell) [(s.newCell v).2.cell s.cells.size] handlerSite next
        (s.newCell v).2 ∧ ∀ s', next [.bool true] s' = .ret [s'.cell s.cells.size] s' :=
    ⟨_, rfl, fun _ => rfl⟩
  obtain ⟨next, hcall, hnext⟩ := hcall
  refine ⟨next, ?_, fun s' h => ?_⟩
  · rw [hcall, (hi.grown (.newCell s v)).isFatalCell, s.cell_newCell, if_pos rfl]
  · rw [hnext, h]

/-- What follows the host's protected call. -/
def finishing (g : Guard) (line : Nat) (vs : List Value) (s : Store) : Action :=
  .tail (.fn g.finish) vs ⟨some (chunk, line), some (.captured, "finish")⟩ s

def pcallSite : Site := ⟨some (chunk, 12), some (.captured, "pcall")⟩

theorem pcall_eq (hi : Installed g s) (f : Value) (rest : List Value) :
    Eval.call chunk pcall g.cells (f :: rest) s =
      .call (.fn g.pcall) (f :: rest) pcallSite (finishing g 12) (s.newCell f).2 := by
  have hcall : Eval.call chunk pcall g.cells (f :: rest) s =
      .call ((s.newCell f).2.cell g.pcallCell) ((s.newCell f).2.cell s.cells.size :: rest) pcallSite
        (fun vs s' => .tail ((s.newCell f).2.cell g.finishCell) vs
          ⟨some (chunk, 12), some (.captured, "finish")⟩ s') (s.newCell f).2 := rfl
  have hf : (s.newCell f).2.cell s.cells.size = f := by rw [s.cell_newCell, if_pos rfl]
  have hi := hi.grown (.newCell s f)
  rw [hcall, hi.finishCell, hi.pcallCell, hf]
  rfl

def typeSite : Site := ⟨some (chunk, 17), some (.captured, "type")⟩

def selectSite : Site := ⟨some (chunk, 26), some (.captured, "select")⟩

def xpcallSite : Site := ⟨some (chunk, 21), some (.captured, "xpcall")⟩

/-- The store in which `xpcall` has its function and its message handler in variables. -/
def handed (s : Store) (f h : Value) : Store := ((s.newCell f).2.newCell h).2

/-- The handler that `xpcall` makes of a message handler. -/
def wrapper (g : Guard) (s : Store) (f : Value) : Callable :=
  .closure chunk handler ((s.newCell f).2.cells.size :: s.cells.size :: g.cells)

/-- The message handler is wrapped, the host's protected call is made, and `finish` gets what it
returns. -/
theorem xpcall_eq (hi : Installed g s) (f : Value) (h : Nat) (rest : List Value) : ∃ next,
    Eval.call chunk xpcall g.cells (f :: .fn h :: rest) s =
      .call (.fn g.type) [.fn h] typeSite next (handed s f (.fn h)) ∧
    ∀ s', Grown (handed s f (.fn h)) s' → ∃ next',
      next [.str ("function" : Bytes)] s' =
        .call (.fn g.select) (.int 3 :: f :: .fn h :: rest) selectSite next'
          (s'.newFunction (wrapper g s f)).2 ∧
      ∀ vs s'', next' vs s'' =
        .call (.fn g.xpcall) (s'.cell s.cells.size :: .fn s'.functions.size :: vs) xpcallSite
          (finishing g 21) s'' := by
  have hi := hi.grown ((Grown.newCell s f).trans (.newCell _ (.fn h)))
  have hcall : ∃ next, Eval.call chunk xpcall g.cells (f :: .fn h :: rest) s =
      .call ((handed s f (.fn h)).cell g.typeCell)
        [(handed s f (.fn h)).cell (s.newCell f).2.cells.size] typeSite next (handed s f (.fn h)) ∧
      ∀ s', ∃ next', next [.str ("function" : Bytes)] s' =
        .call ((s'.newFunction (wrapper g s f)).2.cell g.selectCell) (.int 3 :: f :: .fn h :: rest)
          selectSite next' (s'.newFunction (wrapper g s f)).2 ∧
        ∀ vs s'', next' vs s'' =
          .call (s'.cell g.xpcallCell) (s'.cell s.cells.size :: .fn s'.functions.size :: vs)
            xpcallSite (fun vs s'' => .tail (s'.cell g.finishCell) vs
              ⟨some (chunk, 21), some (.captured, "finish")⟩ s'') s'' := by
    refine ⟨_, rfl, fun s' => ?_⟩
    have hraw : (Value.str ("function" : Bytes)).rawEq (.str ("function" : Bytes)) = true := by
      decide
    simp only [Eval.expr, Eval.compare, Eval.equal, Value.first, hraw, if_true, Bool.not_true,
      Value.truthy, Bool.false_eq_true, if_false, Eval.block, Eval.stats, Eval.stat, Eval.exprs,
      Eval.results]
    exact ⟨_, rfl, fun _ _ => rfl⟩
  have hi : Installed g (handed s f (.fn h)) := hi
  obtain ⟨next, hcall, hnext⟩ := hcall
  have hh : (handed s f (.fn h)).cell (s.newCell f).2.cells.size = .fn h := by
    rw [handed, Store.cell_newCell, if_pos rfl]
  refine ⟨next, ?_, fun s' hs' => ?_⟩
  · rw [hcall, hi.typeCell, hh]
  · obtain ⟨next', hnext, hnext'⟩ := hnext s'
    have hi' := hi.grown hs'
    refine ⟨next', ?_, fun vs s'' => ?_⟩
    · have hc : (s'.newFunction (wrapper g s f)).2.cell g.selectCell = .fn g.select := hi'.selectCell
      rw [hnext, hc]
    · rw [hnext', hi'.xpcallCell, hi'.finishCell]
      rfl

end

end Cordon.Lua.Protect
