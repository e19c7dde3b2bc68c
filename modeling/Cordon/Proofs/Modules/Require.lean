import Cordon.Lua.Invoke
import Cordon.Proofs.Lua.Calls
import Cordon.Proofs.Modules.Search
import Cordon.Sandbox.Require

/-!
# The sandbox's `require` on the machine

Follows a call of the program through its two native halves. Up to where it calls a preloaded
function, and again from where that function has returned, the machine takes a fixed number of
steps which depend on nothing outside the sandbox.
-/

namespace Cordon.Lua

namespace Require

/-- The store once the variables of the program have their values. -/
def declared (s : Store) (n : Bytes) (ready : Bool) (v extra : Value) : Store :=
  (s.newCells [] [.str n, .bool ready, v, extra]).2

theorem cell_declared (s : Store) (n : Bytes) (ready : Bool) (v extra : Value) (id : Nat) :
    (declared s n ready v extra).cell id =
      if id = s.cells.size + 3 then extra else if id = s.cells.size + 2 then v
      else if id = s.cells.size + 1 then .bool ready else if id = s.cells.size then .str n
      else s.cell id := by
  simp only [declared, Store.newCells, Store.cell_newCell]
  simp only [Store.newCell, Array.size_push]

/-- The variables of the program, before those that it holds. -/
def declaredCells (s : Store) (held : List Nat) : List Nat :=
  (s.cells.size + 3) :: (s.cells.size + 2) :: (s.cells.size + 1) :: s.cells.size :: held

theorem declare_eq (env : Env) (n : Bytes) (ready : Bool) (v extra : Value) (k : Eval.Next)
    (s : Store) : Eval.declare env [.str n, .bool ready, v, extra] k s =
      k { env with cells := declaredCells s env.cells } (declared s n ready v extra) := by
  simp only [Eval.declare, declared, declaredCells, Store.newCells, Store.newCell, Array.size_push]

/-! ## The calls that the program makes -/

def resolveSite : Site := ⟨some (chunk, 4), some (.captured, "resolve")⟩

def loaderSite : Site := ⟨some (chunk, 8), some (.localVar, "value")⟩

def finishSite : Site := ⟨some (chunk, 8), some (.captured, "finish")⟩

/-- What the program does with the value of the function it called. -/
def finishing (finish : Value) (n : Bytes) (vs : List Value) (s : Store) : Action :=
  .tail finish [.str n, .first vs] finishSite s

theorem call_eq (fc rc : Nat) (args : List Value) (s : Store) : ∃ next,
    Eval.call chunk program [fc, rc] args s = .call (s.cell rc) args resolveSite next s ∧
    (∀ n v s, next [.str n, .bool true, v, .nil] s = .ret [v] (declared s n true v .nil)) ∧
    ∀ n f extra s, fc < s.cells.size → next [.str n, .bool false, f, extra] s =
      .call f [.str n, extra] loaderSite (finishing (s.cell fc) n) (declared s n false f extra) := by
  refine ⟨_, rfl, ?_, ?_⟩
  · intro n v s
    refine (declare_eq _ n true v .nil _ s).trans ?_
    show (if ((declared s n true v .nil).cell (s.cells.size + 1)).truthy then
      Action.ret [(declared s n true v .nil).cell (s.cells.size + 2)] (declared s n true v .nil)
      else _) = _
    simp [cell_declared, Value.truthy]
  · intro n f extra s hfc
    refine (declare_eq _ n false f extra _ s).trans ?_
    show (if ((declared s n false f extra).cell (s.cells.size + 1)).truthy then _ else
      Action.call ((declared s n false f extra).cell (s.cells.size + 2))
        [(declared s n false f extra).cell s.cells.size,
          (declared s n false f extra).cell (s.cells.size + 3)] loaderSite
        (fun vs s' => .tail ((declared s n false f extra).cell fc)
          [(declared s n false f extra).cell s.cells.size, .first vs] finishSite s') _) = _
    have hfc' : (declared s n false f extra).cell fc = s.cell fc := by
      rw [cell_declared, if_neg (by omega), if_neg (by omega), if_neg (by omega), if_neg (by omega)]
    rw [hfc']
    simp [cell_declared, Value.truthy]
    rfl

/-! ## The native halves -/

section halves

variable {m : ModuleSystem} {n : Bytes} {v : Value} {rest : List Value} (ctx : Ctx) (mach : Machine)

theorem runResolve_run (hv : v.text? = some n) :
    (GateFn.runResolve m (v :: rest)).run ctx mach =
      match (m.resolve n).run ctx mach with
      | some (.ok (.ready w), mach') => some (.ok [.str n, .bool true, w, .nil], mach')
      | some (.ok (.pending f x), mach') => some (.ok [.str n, .bool false, f, x], mach')
      | some (.error e, mach') => some (.error e, mach')
      | none => none := by
  have hc : (GateFn.checkString "require" (v :: rest) 1).run ctx mach = some (.ok n, mach) := by
    rw [GateFn.checkString]
    simp only [Nat.sub_self, List.getElem?_cons_zero, hv]
    rfl
  rw [GateFn.runResolve, Host.run_bind, hc]
  simp only [Host.run_bind]
  cases (m.resolve n).run ctx mach with
  | none => rfl
  | some r =>
    obtain ⟨r, mach'⟩ := r
    cases r with
    | error e => rfl
    | ok r => cases r <;> rfl

end halves

/-! ## The program -/

/-- The two native halves of a `require`, and the variables that hold them. -/
structure Halves where
  resolveCell : Nat
  finishCell : Nat
  resolve : Nat
  finish : Nat

/-- The call of a preloaded function. -/
def calling (g : Halves) (n : Bytes) (depth : Depth) : Frame :=
  .call loaderSite (finishing (.fn g.finish) n) depth

/-- Function `req` is the `require` of a module system, made of these halves. -/
structure Serves (m : ModuleSystem) (req : Nat) (g : Halves) (s : Store) : Prop where
  program : s.function? req = some (.closure chunk program [g.finishCell, g.resolveCell])
  resolveCell : s.cell g.resolveCell = .fn g.resolve
  finishCell : s.cell g.finishCell = .fn g.finish
  resolve : s.function? g.resolve = some (.native (.gate (.resolve m)))
  finish : s.function? g.finish = some (.native (.gate (.finish m)))

theorem Serves.rawSetStr {m : ModuleSystem} {req : Nat} {g : Halves} {s : Store}
    (h : Serves m req g s) (id : Nat) (k : Bytes) (v : Value) :
    Serves m req g (s.rawSetStr id k v) :=
  ⟨h.program, h.resolveCell, h.finishCell, h.resolve, h.finish⟩

theorem Serves.report {m : ModuleSystem} {req : Nat} {g : Halves} {s : Store}
    (h : Serves m req g s) (ev : Event) : Serves m req g (s.report ev) :=
  ⟨h.program, h.resolveCell, h.finishCell, h.resolve, h.finish⟩

/-- There is room for a call of a native function: on the stack, among the native calls, and in the
memory. -/
structure Room (d : Depth) (s : Store) : Prop where
  natives : d.natives ≠ maxNatives
  slots : d.slots + nativeSlots ≤ maxSlots
  memory : s.exhausted (Exec.slotBytes * d.slots) = false

section program

open Exec

variable {m : ModuleSystem} {req : Nat} {g : Halves} {s s' : Store} {n : Bytes} {v : Value}
variable {args rest : List Value} (b : Surroundings) (e : Exec)

/-- The run inside a call of the program. -/
abbrev within (e : Exec) (args : List Value) : Exec := e.inside program args

theorem calls_resolve (h : Serves m req g s) (room : Room (within e args).depth s) :
    ∃ next, Calls b (.apply (.fn req) args s) e [⟨b, e, .fn req, args, s⟩] (.apply (.fn g.resolve) args s)
        { within e args with
          frames := .call resolveSite next (within e args).depth :: e.frames } ∧
      (∀ n w s, next [.str n, .bool true, w, .nil] s = .ret [w] (declared s n true w .nil)) ∧
      ∀ n f x s, g.finishCell < s.cells.size → next [.str n, .bool false, f, x] s =
        .call f [.str n, x] loaderSite (finishing (s.cell g.finishCell) n)
          (declared s n false f x) := by
  obtain ⟨next, hcall, hready, hpending⟩ := call_eq g.finishCell g.resolveCell args s
  refine ⟨next, ?_, hready, hpending⟩
  have hs : (within e args).depth.slots ≤ maxSlots := Nat.le_trans (Nat.le_add_right ..) room.slots
  refine (Calls.single (step_apply (e := e) h.program room.natives hs)).trans ?_
  rw [hcall, h.resolveCell]
  exact .single (step_call rfl room.memory)

theorem leads_resolve (h : Serves m req g s) (room : Room (within e args).depth s) :
    ∃ next, Leads b (.apply (.fn req) args s) e (.apply (.fn g.resolve) args s)
        { within e args with
          frames := .call resolveSite next (within e args).depth :: e.frames } ∧
      (∀ n w s, next [.str n, .bool true, w, .nil] s = .ret [w] (declared s n true w .nil)) ∧
      ∀ n f x s, g.finishCell < s.cells.size → next [.str n, .bool false, f, x] s =
        .call f [.str n, x] loaderSite (finishing (s.cell g.finishCell) n)
          (declared s n false f x) := by
  obtain ⟨next, hcall, hready, hpending⟩ := calls_resolve b e h room
  exact ⟨next, hcall.leads, hready, hpending⟩

/-- The call of the first half, made by a call with these arguments. -/
def resolving (b : Surroundings) (e : Exec) (g : Halves) (args : List Value) (s : Store)
    (next : List Value → Store → Action) : Call :=
  ⟨b, { within e args with frames := .call resolveSite next (within e args).depth :: e.frames },
    .fn g.resolve, args, s⟩

/-- The module is there at once. -/
theorem calls_ready (h : Serves m req g s) (room : Room (within e (v :: rest)).depth s)
    (hv : v.text? = some n) {w : Value}
    (hr : ∀ ctx, (m.resolve n).run ctx ⟨s, e.threads⟩ = some (.ok (.ready w), ⟨s', e.threads⟩)) :
    ∃ next, Calls b (.apply (.fn req) (v :: rest) s) e
      [⟨b, e, .fn req, v :: rest, s⟩, resolving b e g (v :: rest) s next]
      (.act (.ret [w] (declared s' n true w .nil))) (within e (v :: rest)) := by
  obtain ⟨next, hcall, hready, -⟩ := calls_resolve b e h room
  have hrun (ctx : Ctx) : ((GateFn.resolve m).run (v :: rest)).run ctx ⟨s, e.threads⟩ =
      some (.ok [.str n, .bool true, w, .nil], ⟨s', e.threads⟩) := by
    show (GateFn.runResolve m (v :: rest)).run ctx _ = _
    rw [runResolve_run ctx _ hv, hr]
  rw [← hready]
  exact ⟨next, hcall.trans (.head (step_gate h.resolve room.natives room.slots hrun)
    (.single fun _ => congrArg some (ret_call rfl)))⟩

theorem leads_ready (h : Serves m req g s) (room : Room (within e (v :: rest)).depth s)
    (hv : v.text? = some n) {w : Value}
    (hr : ∀ ctx, (m.resolve n).run ctx ⟨s, e.threads⟩ = some (.ok (.ready w), ⟨s', e.threads⟩)) :
    Leads b (.apply (.fn req) (v :: rest) s) e (.act (.ret [w] (declared s' n true w .nil)))
      (within e (v :: rest)) := by
  obtain ⟨next, hcalls⟩ := calls_ready b e h room hv hr
  exact hcalls.leads

/-- A function has to be called for the module. -/
theorem calls_pending (h : Serves m req g s) (room : Room (within e (v :: rest)).depth s)
    (hv : v.text? = some n) {f x : Value}
    (hr : ∀ ctx, (m.resolve n).run ctx ⟨s, e.threads⟩ = some (.ok (.pending f x), ⟨s, e.threads⟩)) :
    ∃ next, Calls b (.apply (.fn req) (v :: rest) s) e
      [⟨b, e, .fn req, v :: rest, s⟩, resolving b e g (v :: rest) s next]
      (.apply f [.str n, x] (declared s n false f x))
      { within e (v :: rest) with
        frames := calling g n (within e (v :: rest)).depth :: e.frames } := by
  obtain ⟨next, hcall, -, hpending⟩ := calls_resolve b e h room
  have hrun (ctx : Ctx) : ((GateFn.resolve m).run (v :: rest)).run ctx ⟨s, e.threads⟩ =
      some (.ok [.str n, .bool false, f, x], ⟨s, e.threads⟩) := by
    show (GateFn.runResolve m (v :: rest)).run ctx _ = _
    rw [runResolve_run ctx _ hv, hr]
  have hlt : g.finishCell < s.cells.size := s.lt_of_cell (by rw [h.finishCell]; nofun)
  refine ⟨next, hcall.trans (.head (step_gate h.resolve room.natives room.slots hrun)
    (.head (fun _ => congrArg some (ret_call rfl)) ?_))⟩
  rw [hpending n f x s hlt, h.finishCell]
  exact .single (step_call rfl room.memory)

theorem leads_pending (h : Serves m req g s) (room : Room (within e (v :: rest)).depth s)
    (hv : v.text? = some n) {f x : Value}
    (hr : ∀ ctx, (m.resolve n).run ctx ⟨s, e.threads⟩ = some (.ok (.pending f x), ⟨s, e.threads⟩)) :
    Leads b (.apply (.fn req) (v :: rest) s) e (.apply f [.str n, x] (declared s n false f x))
      { within e (v :: rest) with
        frames := calling g n (within e (v :: rest)).depth :: e.frames } := by
  obtain ⟨next, hcalls⟩ := calls_pending b e h room hv hr
  exact hcalls.leads

/-- The search fails: its failure is raised from the native half. -/
theorem calls_failed (h : Serves m req g s) (room : Room (within e (v :: rest)).depth s)
    (hv : v.text? = some n) {err : Failure}
    (hr : ∀ ctx, (m.resolve n).run ctx ⟨s, e.threads⟩ = some (.error err, ⟨s, e.threads⟩)) :
    ∃ next, Calls b (.apply (.fn req) (v :: rest) s) e
      [⟨b, e, .fn req, v :: rest, s⟩, resolving b e g (v :: rest) s next]
      (.raise (.fault s.faults.size) (s.newFault (.callback tracebackText err.toScript)).2)
      { within e (v :: rest) with
        frames := .call resolveSite next (within e (v :: rest)).depth :: e.frames } := by
  obtain ⟨next, hcall, -, -⟩ := calls_resolve b e h room
  have hrun (ctx : Ctx) : ((GateFn.resolve m).run (v :: rest)).run ctx ⟨s, e.threads⟩ =
      some (.error err, ⟨s, e.threads⟩) := by
    show (GateFn.runResolve m (v :: rest)).run ctx _ = _
    rw [runResolve_run ctx _ hv, hr]
  exact ⟨next, hcall.trans (.single (step_gate_error h.resolve room.natives room.slots hrun))⟩

theorem leads_failed (h : Serves m req g s) (room : Room (within e (v :: rest)).depth s)
    (hv : v.text? = some n) {err : Failure}
    (hr : ∀ ctx, (m.resolve n).run ctx ⟨s, e.threads⟩ = some (.error err, ⟨s, e.threads⟩)) :
    ∃ next, Leads b (.apply (.fn req) (v :: rest) s) e
      (.raise (.fault s.faults.size) (s.newFault (.callback tracebackText err.toScript)).2)
      { within e (v :: rest) with
        frames := .call resolveSite next (within e (v :: rest)).depth :: e.frames } := by
  obtain ⟨next, hcalls⟩ := calls_failed b e h room hv hr
  exact ⟨next, hcalls.leads⟩

/-- The call of the second half. -/
def storing (b : Surroundings) (e : Exec) (g : Halves) (n : Bytes) (vs : List Value) (s : Store) : Call :=
  ⟨b, { e with frames := .call finishSite (fun vs s => .ret vs s) e.depth :: e.frames },
    .fn g.finish, [.str n, .first vs], s⟩

/-- The program goes on with the values of the function that it called: the first one is recorded and
returned. -/
theorem calls_finishing (hfin : s.function? g.finish = some (.native (.gate (.finish m))))
    (room : Room e.depth s) (vs : List Value) :
    Calls b (.act (finishing (.fn g.finish) n vs s)) e [storing b e g n vs s]
      (.act (.ret [settled (.first vs)] (m.stored s n (settled (.first vs))))) e := by
  have hrun (ctx : Ctx) : ((GateFn.finish m).run [.str n, .first vs]).run ctx ⟨s, e.threads⟩ =
      some (.ok [settled (.first vs)], ⟨m.stored s n (settled (.first vs)), e.threads⟩) := rfl
  exact .head (step_tail hfin room.memory) (.head (step_gate hfin room.natives room.slots hrun)
    (.single fun _ => congrArg some (ret_call rfl)))

theorem leads_finishing (hfin : s.function? g.finish = some (.native (.gate (.finish m))))
    (room : Room e.depth s) (vs : List Value) :
    Leads b (.act (finishing (.fn g.finish) n vs s)) e
      (.act (.ret [settled (.first vs)] (m.stored s n (settled (.first vs))))) e :=
  (calls_finishing b e hfin room vs).leads

/-- The functions that the program is made of. -/
def own (req : Nat) (g : Halves) : List Value := [.fn req, .fn g.resolve, .fn g.finish]

end program

end Require

end Cordon.Lua
