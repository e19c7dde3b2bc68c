import Cordon.Proofs.Lua.Answers
import Cordon.Proofs.Modules.Opening
import Cordon.Proofs.Sandbox.Stages

/-!
# A `require` that fails

A call of the sandbox's `require` ends with one value, and that is then recorded, or with an error, and
then nothing has been recorded. It may fail for want of stack or memory, in the check of its argument, in
the search, in the function that is to make the module, or between that and the record. An error of that
function is the error of the call.
-/

namespace Cordon

open Lua

namespace Lua

/-! ## Points that a run comes to -/

namespace Exec

/-- With this much fuel the machine comes to such a point, unless the fuel runs out before. -/
inductive Meets (b : Surroundings) (P : Control → Exec → Prop) : Nat → Control → Exec → Prop where
  | here {fuel : Nat} {c : Control} {e : Exec} (h : P c e) : Meets b P fuel c e
  | spent (c : Control) (e : Exec) : Meets b P 0 c e
  | starved {fuel : Nat} {c : Control} {e : Exec} (h : e.step (caller fuel) b c = none) :
      Meets b P (fuel + 1) c e
  | next {fuel : Nat} {c c' : Control} {e e' : Exec}
      (step : e.step (caller fuel) b c = some (.next c' e')) (rest : Meets b P fuel c' e') :
      Meets b P (fuel + 1) c e

variable {b : Surroundings} {P Q : Control → Exec → Prop} {c c' : Control} {e e' : Exec} {s : Store}

theorem Meets.of_leads (h : Leads b c e c' e') (rest : ∀ fuel, Meets b P fuel c' e') :
    ∀ fuel, Meets b P fuel c e := by
  induction h with
  | refl => exact rest
  | head first _ ih =>
    intro fuel
    cases fuel with
    | zero => exact .spent ..
    | succ fuel => exact .next (first _) (ih rest fuel)

/-- A run that comes to its end has come to such a point, and goes on from there. -/
theorem Meets.run {fuel : Nat} {f : Finish} (h : Meets b P fuel c e) (hr : Exec.run fuel b c e = some f) :
    ∃ fuel' c' e', P c' e' ∧ Reaches b fuel c e fuel' c' e' ∧ Exec.run fuel' b c' e' = some f := by
  induction h with
  | here h => exact ⟨_, _, _, h, .refl .., hr⟩
  | spent => cases hr
  | starved h =>
    rw [run_succ, h] at hr
    cases hr
  | next step _ ih =>
    rw [run_succ, step] at hr
    obtain ⟨fuel', c', e', hP, hreaches, hr⟩ := ih hr
    exact ⟨fuel', c', e', hP, .head step hreaches, hr⟩

/-! ### Calls -/

theorem Meets.of_call {fn : Value} {args : List Value} {site : Site} {next : List Value → Store → Action}
    (hm : isMeta site = false)
    (hfull : P (.raise (.str outOfMemoryText) { s with allocationFailed := true })
      { e with frames := .call site next e.depth :: e.frames })
    (hgo : ∀ fuel, Meets b P fuel (.apply fn args s)
      { e with frames := .call site next e.depth :: e.frames }) :
    ∀ fuel, Meets b P fuel (.act (.call fn args site next s)) e := by
  by_cases h : s.exhausted (slotBytes * e.depth.slots) = true
  · exact .of_leads (.of_call_exhausted hm h) fun _ => .here hfull
  · exact .of_leads (.of_call hm (Bool.eq_false_iff.mpr h)) hgo

theorem Meets.of_native {id : Nat} {args : List Value} {f : Native}
    (hf : s.function? id = some (.native f)) (hfull : ∀ text, P (.raise (.str text) s) e)
    (hgo : ∀ fuel r m, (f.run args).run (e.context (caller fuel) b (.fn id)) ⟨s, e.threads⟩ =
      some (r, m) → ∃ c' e', follow { e with threads := m.threads } b r m.store = .next c' e' ∧
        Meets b P fuel c' e') :
    ∀ fuel, Meets b P fuel (.apply (.fn id) args s) e := by
  intro fuel
  cases fuel with
  | zero => exact .spent ..
  | succ fuel =>
    by_cases hn : e.depth.natives = maxNatives
    · exact .next (step_crowded hn _) (.here (hfull _))
    · by_cases hs : maxSlots < e.depth.slots + nativeSlots
      · exact .next (step_full hf hn hs _) (.here (hfull _))
      · have hstep : e.step (caller fuel) b (.apply (.fn id) args s) = _ :=
          step_entered hf hn (Nat.not_lt.mp hs) (caller fuel)
        cases hr : (f.run args).run (e.context (caller fuel) b (.fn id)) ⟨s, e.threads⟩ with
        | none => exact .starved (by rw [hstep, hr]; rfl)
        | some r =>
          obtain ⟨c', e', hfollow, hmeets⟩ := hgo fuel r.1 r.2 hr
          refine .next ?_ hmeets
          rw [hstep, hr]
          exact congrArg some hfollow

end Exec

theorem Native.of_gate {f : GateFn} {args : List Value} {ctx : Ctx} {m m' : Machine}
    {r : Except Value Verdict} (h : ((Native.gate f).run args).run ctx m = some (r, m')) :
    (∃ vs, (f.run args).run ctx m = some (.ok vs, m') ∧ r = .ok (.ret vs)) ∨
    ∃ err m₁, (f.run args).run ctx m = some (.error err, m₁) ∧
      r = .error (.fault m₁.store.faults.size) ∧ m' = Script.blamed m₁ err := by
  cases hr : (f.run args).run ctx m with
  | none =>
    rw [run_gate_none ctx m hr] at h
    cases h
  | some x =>
    obtain ⟨x, m₁⟩ := x
    cases x with
    | ok vs =>
      rw [run_gate_ok ctx m hr] at h
      cases h
      exact .inl ⟨vs, rfl, rfl⟩
    | error err =>
      rw [run_gate_error ctx m hr] at h
      cases h
      exact .inr ⟨err, m₁, rfl, rfl, rfl⟩

namespace Require

variable {m : ModuleSystem} {req : Nat} {g : Halves} {s s' : Store} {n : Bytes}

/-! ## What is left alone -/

/-- The loaded modules are the same, and `require` is where it was. -/
structure Spared (m : ModuleSystem) (req : Nat) (g : Halves) (s s' : Store) : Prop where
  loaded : s'.rawGet m.loaded = s.rawGet m.loaded
  tables : s.tables.size ≤ s'.tables.size
  serves : Serves m req g s → Serves m req g s'

theorem Spared.of_eq (ht : s'.tables = s.tables) (hc : s'.cells = s.cells)
    (hf : s'.functions = s.functions) : Spared m req g s s' where
  loaded := by
    funext k
    rw [Store.rawGet, Store.table, ht, Store.rawGet, Store.table]
  tables := Nat.le_of_eq (congrArg Array.size ht.symm)
  serves h := by
    constructor
    · rw [Store.function?, hf]; exact h.program
    · rw [Store.cell, hc]; exact h.resolveCell
    · rw [Store.cell, hc]; exact h.finishCell
    · rw [Store.function?, hf]; exact h.resolve
    · rw [Store.function?, hf]; exact h.finish

theorem Spared.trans {s'' : Store} (h : Spared m req g s s') (h' : Spared m req g s' s'') :
    Spared m req g s s'' where
  loaded := h'.loaded.trans h.loaded
  tables := Nat.le_trans h.tables h'.tables
  serves hs := h'.serves (h.serves hs)

/-- The surroundings of the search in a call of `require` with these arguments. -/
def searching (b : Surroundings) (e : Exec) (args : List Value) (g : Halves) (fuel : Nat) : Ctx :=
  let frame : Frame := .call resolveSite (fun vs s => .ret vs s) (within e args).depth
  Exec.context (Exec.caller fuel) b { within e args with frames := frame :: e.frames } (.fn g.resolve)

/-- The text that `require` takes its first argument for. -/
def named (args : List Value) : Option Bytes := args.head?.bind Value.text?

/-- One value is returned to the frames that there were, and that value is recorded. -/
inductive Gives (m : ModuleSystem) (n : Bytes) (e : Exec) (r : Value) : Control → Exec → Prop where
  | mk {s' : Store} {e' : Exec} (value : r ≠ .nil) (recorded : s'.rawGet m.loaded (.str n) = r)
      (frames : e'.frames = e.frames) (thread : e'.thread = e.thread) :
      Gives m n e r (.act (.ret [r] s')) e'

/-- A function is called that is to make the module, and the loaded modules are what they were. -/
inductive Loads (m : ModuleSystem) (req : Nat) (g : Halves) (s : Store) (e : Exec) (n : Bytes)
    (f x : Value) : Control → Exec → Prop where
  | mk {s' : Store} {e' : Exec} {depth : Depth} (spared : Spared m req g s s')
      (frames : e'.frames = calling g n depth :: e.frames) (thread : e'.thread = e.thread) :
      Loads m req g s e n f x (.apply f [.str n, x] s') e'

open Exec

variable {args : List Value} (b : Surroundings) (e : Exec)

end Require

end Lua

end Cordon
