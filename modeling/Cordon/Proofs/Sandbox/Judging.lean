import Cordon.Proofs.Confinement.Steps
import Cordon.Proofs.Sandbox.Nesting

/-!
# What protected calls return

No protected call returns a fatal error as one that it caught. Wherever it is made, what comes back from
the host's protected call is looked at before anything else. And nothing changes in a run if something
else follows such results.
-/

namespace Cordon.Lua

namespace Exec

variable {b : Surroundings} {e : Exec} {s : Store} {id : Nat} {args : List Value}

theorem leads_closure {chunk : Bytes} {f : Func} {cells : List Nat} (args : List Value)
    (hf : s.function? id = some (.closure chunk f cells)) :
    (∃ v, Leads b (.apply (.fn id) args s) e (.raise v s) e) ∨
      Leads b (.apply (.fn id) args s) e (.act (Eval.call chunk f cells args s)) (e.inside f args) := by
  by_cases hn : e.depth.natives = maxNatives
  · refine .inl ⟨.str (e.place b ++ ("C stack overflow" : Bytes)), .single fun caller => ?_⟩
    simp only [step, apply, if_pos hn]
    rfl
  · by_cases hs : (e.inside f args).depth.slots ≤ maxSlots
    · exact .inr (.of_apply hf hn hs)
    · refine .inl ⟨.str (e.place b ++ ("stack overflow" : Bytes)), .single fun caller => ?_⟩
      simp only [step, apply, if_neg hn, callable_fn hf]
      exact if_pos (Nat.lt_of_not_le hs)

theorem leads_native {f : Native} {r : Except Value Verdict} {c : Control}
    (hf : s.function? id = some (.native f))
    (hr : ∀ ctx, (f.run args).run ctx ⟨s, e.threads⟩ = some (r, ⟨s, e.threads⟩))
    (hc : e.follow b r s = .next c e) :
    (∃ v, Leads b (.apply (.fn id) args s) e (.raise v s) e) ∨
      Leads b (.apply (.fn id) args s) e c e := by
  by_cases hn : e.depth.natives = maxNatives
  · refine .inl ⟨.str (e.place b ++ ("C stack overflow" : Bytes)), .single fun caller => ?_⟩
    simp only [step, apply, if_pos hn]
    rfl
  · by_cases hs : e.depth.slots + nativeSlots ≤ maxSlots
    · exact .inr (.of_native hf hn hs hr hc)
    · refine .inl ⟨.str (e.place b ++ ("stack overflow" : Bytes)), .single fun caller => ?_⟩
      simp only [step, apply, if_neg hn, callable_fn hf]
      exact if_pos (Nat.lt_of_not_le hs)

end Exec

namespace Protect

open Exec

variable {g : Guard} {b : Surroundings} {e : Exec} {s : Store}

/-! ## One return -/

/-- What comes of a protected call: it returns these values, which do not say that a fatal error was
caught, or raises something. -/
inductive Outcome (b : Surroundings) (vs : List Value) (frames : List Frame) (s : Store) (c : Control)
    (e : Exec) : Prop where
  | returned {s' : Store} {e' : Exec} (leads : Leads b c e (.act (.ret vs s')) e')
    (frames : e'.frames = frames) (widened : Widened s s') (judged : Judged s' vs)
  | raised {v : Value} {s' : Store} {e' : Exec} (leads : Leads b c e (.raise v s') e')
    (widened : Widened s s')

theorem Outcome.after {vs : List Value} {frames : List Frame} {c c' : Control} {e' : Exec} {s' : Store}
    (h : Outcome b vs frames s' c' e') (hl : Leads b c e c' e') (hw : Widened s s') :
    Outcome b vs frames s c e := by
  cases h with
  | returned leads hf widened judged => exact .returned (hl.trans leads) hf (hw.trans widened) judged
  | raised leads widened => exact .raised (hl.trans leads) (hw.trans widened)

section

variable {vs : List Value} {frames : List Frame} {id : Nat} {args : List Value}

theorem Outcome.of_tail {site : Site} {chunk : Bytes} {f : Func} {cells : List Nat}
    (hf : s.function? id = some (.closure chunk f cells))
    (h : Outcome b vs frames s (.act (Eval.call chunk f cells args s)) ((e.givenWay b).inside f args)) :
    Outcome b vs frames s (.act (.tail (.fn id) args site s)) e := by
  cases hx : s.exhausted (slotBytes * (e.givenWay b).depth.slots) with
  | true => exact .raised (.of_tail_exhausted hf hx) (.flagged s true)
  | false =>
    refine Outcome.after ?_ (.of_tail_closure hf hx) (.refl s)
    rcases leads_closure (b := b) (e := e.givenWay b) args hf with ⟨v, hraise⟩ | hcalled
    · exact .raised hraise (.refl s)
    · exact h.after hcalled (.refl s)

variable {site : Site} {next : List Value → Store → Action} {f : Native}

theorem Outcome.of_call {rs : List Value} (hm : isMeta site = false)
    (hf : s.function? id = some (.native f))
    (hr : ∀ ctx, (f.run args).run ctx ⟨s, e.threads⟩ = some (.ok (.ret rs), ⟨s, e.threads⟩))
    (h : Outcome b vs frames s (.act (next rs s)) e) :
    Outcome b vs frames s (.act (.call (.fn id) args site next s)) e := by
  cases hx : s.exhausted (slotBytes * e.depth.slots) with
  | true => exact .raised (.of_call_exhausted hm hx) (.flagged s true)
  | false =>
    refine Outcome.after ?_ (.of_call hm hx) (.refl s)
    rcases leads_native (b := b) (e := { e with frames := .call site next e.depth :: e.frames })
      hf hr rfl with ⟨v, hraise⟩ | hret
    · exact .raised hraise (.refl s)
    · exact h.after (hret.trans (.of_ret rfl)) (.refl s)

theorem Outcome.of_failure {v : Value} (hm : isMeta site = false)
    (hf : s.function? id = some (.native f))
    (hr : ∀ ctx, (f.run args).run ctx ⟨s, e.threads⟩ = some (.error v, ⟨s, e.threads⟩)) :
    Outcome b vs frames s (.act (.call (.fn id) args site next s)) e := by
  cases hx : s.exhausted (slotBytes * e.depth.slots) with
  | true => exact .raised (.of_call_exhausted hm hx) (.flagged s true)
  | false =>
    refine Outcome.after ?_ (.of_call hm hx) (.refl s)
    rcases leads_native (b := b) (e := { e with frames := .call site next e.depth :: e.frames })
      hf hr rfl with ⟨v, hraise⟩ | hraise
    · exact .raised hraise (.refl s)
    · exact .raised hraise (.refl s)

end

theorem finishing_outcome (hi : Installed g s) (line : Nat) (ok : Value) (vs : List Value) :
    Outcome b (ok :: vs) (e.givenWay b).frames s (.act (finishing g line (ok :: vs) s)) e := by
  obtain ⟨next, hcall, hnext⟩ := finish_call hi (ok :: vs)
  have hw : Widened s (s.newCell ok).2 := .newCell s ok
  have hi' := hi.grown hw.grown
  have hok : (s.newCell ok).2.cell s.cells.size = ok := by rw [s.cell_newCell, if_pos rfl]
  refine .of_tail hi.finish ?_
  rw [hcall]
  split
  · next h => exact .returned (.refl ..) rfl hw (judged_of_truthy h _)
  · refine (Outcome.of_call rfl hi'.isFatal (fun _ => rfl) ?_).after (.refl ..) hw
    rw [hnext _ _ hi']
    split
    · exact .of_failure rfl hi'.error fun ctx => run_error _ ctx _
    · next h =>
      rw [hok]
      exact .returned (.refl ..) rfl (.refl _) (judged_of_spared (Bool.not_eq_true _ ▸ h))

end Protect

/-! ## Whole runs -/

section

variable {w : Ward}

theorem Thread.Alike.left {t t' : Thread} (h : t.Alike w t') : t.Alike w t := by
  cases h with
  | fresh hf => exact .fresh hf
  | suspended h => exact .suspended h.left
  | running => exact .running
  | normal => exact .normal
  | dead he => exact .dead he

theorem Resumers.Alike.left {rs rs' : List Resumer} (h : Resumers.Alike w rs rs') :
    Resumers.Alike w rs rs := by
  induction h with
  | nil => exact .nil
  | cons hf _ ih => exact .cons hf.left ih

namespace Exec

variable {b : Surroundings} {c c' : Control} {e e' : Exec} {s : Store}

theorem Around.left (h : Around w e e') : Around w e e :=
  ⟨rfl, h.resumers.left, rfl, rfl, fun id => (h.threads.thread id).left⟩

theorem Alike.calling {fn : Value} {args : List Value} (h : Alike w (.apply fn args s) e e') :
    s.Confined w ∧ Clears w args ∧ Frames.Alike w e.frames e.frames ∧ Around w e e := by
  cases h with
  | apply hs _ ha h hf => exact ⟨hs, ha, hf.left, h.left⟩
  | judging _ _ _ hs ha h hf => exact ⟨hs, ha, hf.left, h.left⟩
  | testing _ hs hv h hf => exact ⟨hs, .one hv, hf.left, h.left⟩
  | failing _ hs hv h hl _ => exact ⟨hs, .cons hv (.one trivial), hl, h.left⟩

theorem Reaches.alike {n n' : Nat} (h : Reaches b n c e n' c' e') (hb : b.handler.Clear w)
    (ha : Alike w c e e) : Alike w c' e' e' := by
  induction h with
  | refl => exact ha
  | @head n _ c _ _ e _ _ first _ ih =>
    -- runs within the step have less fuel, and all of them keep machines alike
    have hstep := step_alike (runs_alike w n) hb ha
    have hfirst : e.step (fun b thread fn args m =>
        Exec.run n b (.apply fn args m.store) (start b thread m.threads)) b c = _ := first
    rw [hfirst] at hstep
    cases hstep with
    | next h => exact ih h

theorem Ends.Alike.results {f f' : Option Finish} (h : Ends.Alike w f f') :
    f'.map (fun f => (f.result, f.machine.store)) = f.map fun f => (f.result, f.machine.store) := by
  cases h with
  | none => rfl
  | some _ hm => exact congrArg (fun s => Option.some (_, s)) hm.store

/-- What follows results that say that a fatal error was caught makes no difference to a run that comes
to a protected call. -/
theorem run_judged {g : Protect.Guard} (hg : w.guards g) {f : Func} (hj : Protect.Judges g f) {id : Nat}
    (hid : s.function? id = some (.closure Protect.chunk f g.cells)) {args : List Value} {site : Site}
    {next next' : List Value → Store → Action} {depth : Depth} {frames : List Frame}
    (hf : e.frames = .call site next depth :: frames) (h : Alike w (.apply (.fn id) args s) e e)
    (hb : b.handler.Clear w)
    (hsame : ∀ vs s', s'.Confined w → Clears w vs → Judged s' vs → next' vs s' = next vs s') (n : Nat) :
    Ends.Alike w (run n b (.apply (.fn id) args s) e)
      (run n b (.apply (.fn id) args s) { e with frames := .call site next' depth :: frames }) := by
  -- the two runs differ in the frame below the call, and in nothing else
  obtain ⟨hs, ha, hframes, haround⟩ := h.calling
  rw [hf] at hframes
  obtain ⟨htame, hframes⟩ := hframes.cons_left
  cases htame with
  | call hn =>
    have hbare : Frames.Bare w e.frames (.call site next' depth :: frames) :=
      hf ▸ .intro ⟨hn, hsame⟩ hframes
    exact run_alike n hb (.judging hg hj hid hs ha
      ⟨haround.depth, haround.resumers, haround.thread, haround.threads⟩ hbare)

end Exec

end

end Cordon.Lua
