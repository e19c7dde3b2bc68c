import Cordon.Lua.Machine
import Cordon.Proofs.Lua.Running

/-!
# Runs without nested runs

`Leads` follows the machine as long as no native function calls a program. Such a stretch is the same
for every caller, so a run that comes upon it goes on from its end.
-/

namespace Cordon.Lua

/-! ## Functions of the sandbox -/

namespace Native

variable {f : GateFn} {args : List Value} (ctx : Ctx) (m : Machine)

theorem run_gate (f : GateFn) (args : List Value) : (Native.gate f).run args =
    Script.ofHost (f.run args) >>= fun vs => pure (Verdict.ret vs) := rfl

theorem run_gate_ok {vs : List Value} {m' : Machine}
    (h : (f.run args).run ctx m = some (.ok vs, m')) :
    ((Native.gate f).run args).run ctx m = some (.ok (.ret vs), m') := by
  rw [run_gate, Script.run_bind, Script.ofHost_of_ok ctx m h]
  rfl

theorem run_gate_error {e : Failure} {m' : Machine}
    (h : (f.run args).run ctx m = some (.error e, m')) :
    ((Native.gate f).run args).run ctx m =
      some (.error (.fault m'.store.faults.size), Script.blamed m' e) := by
  rw [run_gate, Script.run_bind, Script.ofHost_of_error ctx m h]

theorem run_gate_none (h : (f.run args).run ctx m = none) :
    ((Native.gate f).run args).run ctx m = none := by
  have hnone : (Script.ofHost (f.run args)).run ctx m = none := by
    show ((f.run args).run ctx m).bind _ = _
    rw [h]
    rfl
  rw [run_gate, Script.run_bind, hnone]

end Native

namespace Exec

variable {b : Surroundings} {c c' c'' : Control} {e e' e'' : Exec} {s : Store}

/-- The machine gets from one point to another by steps of which none depends on the caller. -/
inductive Leads (b : Surroundings) : Control → Exec → Control → Exec → Prop where
  | refl (c : Control) (e : Exec) : Leads b c e c e
  | head {c c' c'' : Control} {e e' e'' : Exec}
      (first : ∀ caller, e.step caller b c = some (.next c' e')) (rest : Leads b c' e' c'' e'') :
      Leads b c e c'' e''

theorem Leads.single (h : ∀ caller, e.step caller b c = some (.next c' e')) : Leads b c e c' e' :=
  .head h (.refl ..)

theorem Leads.trans (h : Leads b c e c' e') (h' : Leads b c' e' c'' e'') : Leads b c e c'' e'' := by
  induction h with
  | refl => exact h'
  | head first _ ih => exact .head first (ih h')

/-- A stretch takes a fixed number of steps off the fuel. -/
theorem Leads.run (h : Leads b c e c' e') : ∃ j, ∀ k, run (k + j) b c e = run k b c' e' := by
  induction h with
  | refl => exact ⟨0, fun _ => rfl⟩
  | head first _ ih =>
    obtain ⟨j, hj⟩ := ih
    refine ⟨j + 1, fun k => ?_⟩
    rw [← hj k, ← Nat.add_assoc, Exec.run, first]

theorem Leads.run_of_some (h : Leads b c e c' e') {n : Nat} {f : Finish} (hr : Exec.run n b c e = some f) :
    ∃ k, Exec.run k b c' e' = some f := by
  induction h generalizing n with
  | refl => exact ⟨n, hr⟩
  | head first _ ih =>
    cases n with
    | zero => cases hr
    | succ n =>
      rw [Exec.run, first] at hr
      exact ih hr

/-! ## Single steps -/

theorem step_call {fn : Value} {args : List Value} {site : Site} {next : List Value → Store → Action}
    (hm : isMeta site = false) (hs : s.exhausted (slotBytes * e.depth.slots) = false) (caller : Caller) :
    e.step caller b (.act (.call fn args site next s)) =
      some (.next (.apply fn args s) { e with frames := .call site next e.depth :: e.frames }) := by
  simp only [step, act, hm, charged, Bool.false_eq_true, if_false]
  rw [if_neg (by rw [hs]; exact Bool.false_ne_true)]

theorem Leads.of_call {fn : Value} {args : List Value} {site : Site}
    {next : List Value → Store → Action} (hm : isMeta site = false)
    (hs : s.exhausted (slotBytes * e.depth.slots) = false) :
    Leads b (.act (.call fn args site next s)) e (.apply fn args s)
      { e with frames := .call site next e.depth :: e.frames } :=
  .single (step_call hm hs)

theorem step_call_exhausted {fn : Value} {args : List Value} {site : Site}
    {next : List Value → Store → Action} (hm : isMeta site = false)
    (hs : s.exhausted (slotBytes * e.depth.slots) = true) (caller : Caller) :
    e.step caller b (.act (.call fn args site next s)) =
      some (.next (.raise (.str outOfMemoryText) { s with allocationFailed := true })
        { e with frames := .call site next e.depth :: e.frames }) := by
  simp only [step, act, hm, charged, Bool.false_eq_true, if_false]
  rw [if_pos hs]

theorem Leads.of_call_exhausted {fn : Value} {args : List Value} {site : Site}
    {next : List Value → Store → Action} (hm : isMeta site = false)
    (hs : s.exhausted (slotBytes * e.depth.slots) = true) :
    Leads b (.act (.call fn args site next s)) e
      (.raise (.str outOfMemoryText) { s with allocationFailed := true })
      { e with frames := .call site next e.depth :: e.frames } :=
  .single (step_call_exhausted hm hs)

theorem ret_call {vs : List Value} {site : Site} {next : List Value → Store → Action} {d : Depth}
    {frames : List Frame} (hf : e.frames = .call site next d :: frames) :
    e.ret vs s = .next (.act (next vs s)) { e with frames, depth := d } := by
  simp only [ret, hf]

theorem Leads.of_ret {vs : List Value} {site : Site} {next : List Value → Store → Action}
    {d : Depth} {frames : List Frame} (hf : e.frames = .call site next d :: frames) :
    Leads b (.ret vs s) e (.act (next vs s)) { e with frames, depth := d } :=
  .single fun _ => congrArg some (ret_call hf)

theorem callable_fn {id : Nat} {f : Callable} (h : s.function? id = some f) (args : List Value) :
    callable? s maxStandIns (.fn id) args = some (.fn id, f, args) := by
  show (s.function? id).map _ = _
  rw [h]
  rfl

/-- A native function to which a function gives way is called like any other. -/
theorem step_tail {id : Nat} {args : List Value} {site : Site} {f : Native}
    (hf : s.function? id = some (.native f)) (hs : s.exhausted (slotBytes * e.depth.slots) = false)
    (caller : Caller) : e.step caller b (.act (.tail (.fn id) args site s)) =
      some (.next (.apply (.fn id) args s)
        { e with frames := .call site (fun vs s => .ret vs s) e.depth :: e.frames }) := by
  simp only [step, act, callable_fn hf, charged]
  rw [if_neg (by rw [hs]; exact Bool.false_ne_true)]

theorem Leads.of_tail {id : Nat} {args : List Value} {site : Site} {f : Native}
    (hf : s.function? id = some (.native f))
    (hs : s.exhausted (slotBytes * e.depth.slots) = false) :
    Leads b (.act (.tail (.fn id) args site s)) e (.apply (.fn id) args s)
      { e with frames := .call site (fun vs s => .ret vs s) e.depth :: e.frames } :=
  .single (step_tail hf hs)

/-- The run once the innermost function has given way. -/
def givenWay (b : Surroundings) (e : Exec) : Exec :=
  { e with
    frames := (giveWay (e.outermost b) e.frames).1
    depth := (giveWay (e.outermost b) e.frames).2 }

theorem Leads.of_tail_closure {id : Nat} {args : List Value} {site : Site} {chunk : Bytes} {f : Func}
    {cells : List Nat} (hf : s.function? id = some (.closure chunk f cells))
    (hs : s.exhausted (slotBytes * (e.givenWay b).depth.slots) = false) :
    Leads b (.act (.tail (.fn id) args site s)) e (.apply (.fn id) args s) (e.givenWay b) := by
  refine .single fun caller => ?_
  simp only [step, act, callable_fn hf, charged]
  exact congrArg some (if_neg fun h => Bool.false_ne_true (hs.symm.trans h))

theorem Leads.of_tail_exhausted {id : Nat} {args : List Value} {site : Site} {chunk : Bytes}
    {f : Func} {cells : List Nat} (hf : s.function? id = some (.closure chunk f cells))
    (hs : s.exhausted (slotBytes * (e.givenWay b).depth.slots) = true) :
    Leads b (.act (.tail (.fn id) args site s)) e
      (.raise (.str outOfMemoryText) { s with allocationFailed := true }) (e.givenWay b) := by
  refine .single fun caller => ?_
  simp only [step, act, callable_fn hf, charged]
  exact congrArg some (if_pos hs)

/-- The depth in a call of a function of a program. -/
def inside (e : Exec) (f : Func) (args : List Value) : Exec :=
  { e with depth := { e.depth with
      slots := e.depth.slots + f.slots + if f.isVararg then args.length + 1 else 0 } }

theorem step_apply {id : Nat} {args : List Value} {chunk : Bytes} {f : Func} {cells : List Nat}
    (hf : s.function? id = some (.closure chunk f cells)) (hn : e.depth.natives ≠ maxNatives)
    (hs : (e.inside f args).depth.slots ≤ maxSlots) (caller : Caller) :
    e.step caller b (.apply (.fn id) args s) =
      some (.next (.act (Eval.call chunk f cells args s)) (e.inside f args)) := by
  simp only [step, apply, if_neg hn, callable_fn hf]
  exact if_neg (Nat.not_lt.mpr hs)

theorem Leads.of_apply {id : Nat} {args : List Value} {chunk : Bytes} {f : Func} {cells : List Nat}
    (hf : s.function? id = some (.closure chunk f cells)) (hn : e.depth.natives ≠ maxNatives)
    (hs : (e.inside f args).depth.slots ≤ maxSlots) :
    Leads b (.apply (.fn id) args s) e (.act (Eval.call chunk f cells args s)) (e.inside f args) :=
  .single (step_apply hf hn hs)

/-! ### Native functions -/

theorem step_crowded {fn : Value} {args : List Value} (hn : e.depth.natives = maxNatives)
    (caller : Caller) : e.step caller b (.apply fn args s) =
      some (.next (e.complain b "C stack overflow" s) e) := if_pos hn

theorem step_full {id : Nat} {args : List Value} {f : Native} (hf : s.function? id = some (.native f))
    (hn : e.depth.natives ≠ maxNatives) (hs : maxSlots < e.depth.slots + nativeSlots) (caller : Caller) :
    e.step caller b (.apply (.fn id) args s) = some (.next (e.complain b "stack overflow" s) e) := by
  simp only [step, apply, if_neg hn, callable_fn hf]
  exact if_pos hs

theorem step_entered {id : Nat} {args : List Value} {f : Native} (hf : s.function? id = some (.native f))
    (hn : e.depth.natives ≠ maxNatives) (hs : e.depth.slots + nativeSlots ≤ maxSlots) (caller : Caller) :
    e.step caller b (.apply (.fn id) args s) =
      ((f.run args).run (e.context caller b (.fn id)) ⟨s, e.threads⟩).bind fun r =>
        some (follow { e with threads := r.2.threads } b r.1 r.2.store) := by
  simp only [step, apply, if_neg hn, callable_fn hf]
  exact if_neg (Nat.not_lt.mpr hs)

theorem step_native {id : Nat} {args : List Value} {f : Native} {r : Except Value Verdict} {s' : Store}
    (hf : s.function? id = some (.native f)) (hn : e.depth.natives ≠ maxNatives)
    (hs : e.depth.slots + nativeSlots ≤ maxSlots)
    (hr : ∀ ctx, (f.run args).run ctx ⟨s, e.threads⟩ = some (r, ⟨s', e.threads⟩)) (caller : Caller) :
    e.step caller b (.apply (.fn id) args s) = some (e.follow b r s') := by
  rw [step_entered hf hn hs, hr]
  rfl

theorem Leads.of_native {id : Nat} {args : List Value} {f : Native} {r : Except Value Verdict}
    {s' : Store} {c' : Control} (hf : s.function? id = some (.native f))
    (hn : e.depth.natives ≠ maxNatives) (hs : e.depth.slots + nativeSlots ≤ maxSlots)
    (hr : ∀ ctx, (f.run args).run ctx ⟨s, e.threads⟩ = some (r, ⟨s', e.threads⟩))
    (hc : e.follow b r s' = .next c' e') :
    Leads b (.apply (.fn id) args s) e c' e' :=
  .single fun caller => (step_native hf hn hs hr caller).trans (congrArg some hc)

theorem step_gate {id : Nat} {args vs : List Value} {f : GateFn} {s' : Store}
    (hf : s.function? id = some (.native (.gate f))) (hn : e.depth.natives ≠ maxNatives)
    (hs : e.depth.slots + nativeSlots ≤ maxSlots)
    (hr : ∀ ctx, (f.run args).run ctx ⟨s, e.threads⟩ = some (.ok vs, ⟨s', e.threads⟩))
    (caller : Caller) : e.step caller b (.apply (.fn id) args s) = some (.next (.ret vs s') e) :=
  step_native hf hn hs (fun ctx => Native.run_gate_ok ctx _ (hr ctx)) caller

theorem step_gate_error {id : Nat} {args : List Value} {f : GateFn} {err : Failure} {s' : Store}
    (hf : s.function? id = some (.native (.gate f))) (hn : e.depth.natives ≠ maxNatives)
    (hs : e.depth.slots + nativeSlots ≤ maxSlots)
    (hr : ∀ ctx, (f.run args).run ctx ⟨s, e.threads⟩ = some (.error err, ⟨s', e.threads⟩))
    (caller : Caller) : e.step caller b (.apply (.fn id) args s) =
      some (.next (.raise (.fault s'.faults.size)
        (s'.newFault (.callback tracebackText err.toScript)).2) e) :=
  step_native hf hn hs (fun ctx => Native.run_gate_error ctx _ (hr ctx)) caller

theorem Leads.of_gate {id : Nat} {args vs : List Value} {f : GateFn} {s' : Store}
    (hf : s.function? id = some (.native (.gate f))) (hn : e.depth.natives ≠ maxNatives)
    (hs : e.depth.slots + nativeSlots ≤ maxSlots)
    (hr : ∀ ctx, (f.run args).run ctx ⟨s, e.threads⟩ = some (.ok vs, ⟨s', e.threads⟩)) :
    Leads b (.apply (.fn id) args s) e (.ret vs s') e :=
  .single (step_gate hf hn hs hr)

end Exec

end Cordon.Lua
