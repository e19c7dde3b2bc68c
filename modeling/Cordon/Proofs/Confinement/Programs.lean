import Cordon.Proofs.Confinement.Alike
import Cordon.Proofs.Confinement.Evaluation

/-!
# The programs behind protected calls

They see variables that are kept, but change none of them, so what they do is tame. And what `finish`
returns, on behalf of the others too, is judged.
-/

namespace Cordon.Lua.Protect

open Eval

variable {w : Ward} {g : Guard} {s : Store} {args : List Value} {n : Nat}

theorem Guard.clear {w : Ward} {g : Guard} (hg : w.guards g) {id : Nat} (h : id ∈ g.functions) :
    (Value.fn id).Clear w := w.functions hg id h

theorem adjust_one (args : List Value) : adjust 1 args = [.first args] := by
  cases args <;> rfl

/-! ## Finishing -/

/-- What was caught is tested, and raised again if it is fatal; anything else is returned. -/
theorem finish_call (hi : Installed g s) (args : List Value) : ∃ next,
    Eval.call chunk finish g.cells args s =
      (if (Value.first args).truthy then
        .ret (.first args :: args.drop 1) (s.newCell (.first args)).2
      else
        .call (.fn g.isFatal) [.first (args.drop 1)] testSite next (s.newCell (.first args)).2) ∧
    ∀ rs s', Installed g s' → next rs s' =
      if (Value.first rs).truthy then
        .call (.fn g.error) [.first (args.drop 1), .int 0] raiseSite
          (fun _ s'' => .ret (s''.cell s.cells.size :: args.drop 1) s'') s'
      else .ret (s'.cell s.cells.size :: args.drop 1) s' := by
  have hcall : ∃ next, Eval.call chunk finish g.cells args s =
      (if (Value.bool !((s.newCell (.first args)).2.cell s.cells.size).truthy).truthy then
        .call ((s.newCell (.first args)).2.cell g.isFatalCell) [.first (args.drop 1)] testSite next
          (s.newCell (.first args)).2
      else if (Value.bool !((s.newCell (.first args)).2.cell s.cells.size).truthy).truthy then
        .call ((s.newCell (.first args)).2.cell g.errorCell) [.first (args.drop 1), .int 0] raiseSite
          (fun _ s'' => .ret (s''.cell s.cells.size :: args.drop 1) s'') (s.newCell (.first args)).2
      else .ret ((s.newCell (.first args)).2.cell s.cells.size :: args.drop 1)
        (s.newCell (.first args)).2) ∧
      ∀ rs s', next rs s' =
        if (Value.first rs).truthy then
          .call (s'.cell g.errorCell) [.first (args.drop 1), .int 0] raiseSite
            (fun _ s'' => .ret (s''.cell s.cells.size :: args.drop 1) s'') s'
        else .ret (s'.cell s.cells.size :: args.drop 1) s' := by
    unfold Eval.call
    rw [show finish.params = 1 from rfl, adjust_one]
    exact ⟨_, rfl, fun _ _ => rfl⟩
  obtain ⟨next, hcall, hnext⟩ := hcall
  have hok : (s.newCell (.first args)).2.cell s.cells.size = .first args := by
    rw [s.cell_newCell, if_pos rfl]
  refine ⟨next, ?_, fun rs s' hi' => ?_⟩
  · rw [hcall, hok, (hi.grown (.newCell s _)).isFatalCell]
    cases (Value.first args).truthy <;> rfl
  · rw [hnext, hi'.errorCell]

theorem judged_of_truthy {v : Value} (h : v.truthy = true) (vs : List Value) : Judged s (v :: vs) := by
  cases v with
  | bool b =>
    cases b with
    | true => trivial
    | false => cases h
  | _ => trivial

theorem judged_of_spared {v : Value} {vs : List Value}
    (h : GateFn.isFatalValue s (.first vs) = false) : Judged s (v :: vs) := by
  cases v with
  | bool b =>
    cases b with
    | true => trivial
    | false =>
      cases vs with
      | nil => trivial
      | cons u us => exact h
  | _ => trivial

section

variable (hg : w.guards g) (hs : s.Confined w) (ha : Clears w args)

include hg hs ha

theorem finish_tame : (Eval.call chunk finish g.cells args s).Tame w n := by
  have hclear {id : Nat} (h : id ∈ g.functions) : (Value.fn id).Clear w := Guard.clear hg h
  have hs' : (s.newCell (.first args)).2.Confined w := hs.newCell ha.first
  have hret (s' : Store) (hs : s'.Confined w) :
      (Action.ret (s'.cell s.cells.size :: args.drop 1) s').Tame w n :=
    .ret hs (.cons (hs.held _) (ha.drop 1))
  obtain ⟨next, hcall, hnext⟩ := finish_call (hs.installed hg) args
  rw [hcall]
  split
  · exact .ret hs' (.cons ha.first (ha.drop 1))
  · refine .call hs' (hclear (by simp [Guard.functions])) (.one (ha.drop 1).first)
      fun rs s' hs _ => ?_
    rw [hnext rs s' (hs.installed hg)]
    split
    · exact .call hs (hclear (by simp [Guard.functions])) (.cons (ha.drop 1).first (.one trivial))
        fun _ s'' hs _ => hret s'' hs
    · exact hret s' hs

/-- Whatever follows a wrong answer of the test, what is returned after the right one is judged. -/
theorem finish_guarded : (Eval.call chunk finish g.cells args s).Guarded w := by
  have hs' : (s.newCell (.first args)).2.Confined w := hs.newCell ha.first
  obtain ⟨next, hcall, hnext⟩ := finish_call (hs.installed hg) args
  rw [hcall]
  split
  · next h => exact .ret hs' (.cons ha.first (ha.drop 1)) (judged_of_truthy h _)
  · -- only what follows the right answer is returned
    refine .test hg hs' (ha.drop 1).first fun s' hs => ?_
    rw [hnext _ s' (hs.installed hg)]
    split
    · exact .fail hg hs (ha.drop 1).first
    · next h =>
      exact .ret hs (.cons (hs.held _) (ha.drop 1)) (judged_of_spared (Bool.not_eq_true _ ▸ h))

end

/-! ## Calling -/

/-- The set of actions has those which give way to `finish`. -/
def Finishes (w : Ward) (g : Guard) (T : Action → Prop) : Prop :=
  ∀ vs site s, s.Confined w → Clears w vs → T (.tail (.fn g.finish) vs site s)

/-- What `xpcall` got in place of a message handler. -/
def got : Expr :=
  .or
    (.and
      (.compare .lt (.call (selectVar 2) [.str "#", .vararg] 18) (.int 2) 18)
      (.str "no value"))
    (.call (typeVar 2) [own 0 "msgh"] 18)

/-- What `xpcall` complains of. -/
def refusal : Stat :=
  .call (.call (errorVar 3)
    [.concat (.str "bad argument #2 to 'xpcall' (function expected, got ")
      (.concat (own 0 "got") (.str ")") 19) 19, .int 2] 19)

/-- What `xpcall` does with a message handler. -/
def handOn : Stat :=
  .ret [.call (finishVar 2)
    [.call (xpcallVar 2)
      [own 1 "f", .func handler, .call (selectVar 2) [.int 3, .vararg] 26] 21] 21]

/-- What `xpcall` does first, with its function and its message handler in variables. -/
def screening : Stat :=
  .cond (.compare .ne (.call (typeVar 2) [own 0 "msgh"] 17) (.str "function") 17)
    (.mk [.locals ["got"] [got], refusal] []) (.mk [] [])

section

variable {T : Action → Prop} (hT : w.Admits T) {env : Env} {k : Next}

include hT

theorem got_in (hv : Clears w env.varargs) (hs : s.Confined w) {k : Conts} (hk : Conts.In w T k) :
    T (Eval.results env got k s) := by
  have htwo : (Value.int 2).Clear w := trivial
  refine hT.call hs (readVar_clear hs _) (.cons trivial hv) fun rs s hs hrs => ?_
  simp only [expr]
  refine compare_in hT hs hrs.first htwo (fun a s hs ha => ?_) .lt
  have htype : T (Eval.expr env (.call (typeVar 2) [own 0 "msgh"] 18) (fun v s => k [v] s) s) :=
    hT.call hs (readVar_clear hs _) (.one (readVar_clear hs _)) hk.single.first
  by_cases h : a.truthy = true
  · rw [if_pos h]
    exact hk _ s hs (.one (Value.clear_str _))
  · simp only [if_neg h]
    exact htype

theorem refusal_in (hs : s.Confined w) (hk : ∀ s, s.Confined w → T (k env s)) :
    T (Eval.stat env refusal k s) := by
  have htext (b : Bytes) : (Value.str b).Clear w := trivial
  simp only [refusal, stat, results, exprs, expr, own, errorVar]
  refine concat_in hT hs (readVar_clear hs _) (htext _) (fun a s₁ hs₁ ha => ?_) _ _
  refine concat_in hT hs₁ (htext _) ha (fun v s₂ hs₂ hv => ?_) _ _
  exact hT.call hs₂ (readVar_clear hs _) (.cons hv (.one trivial)) fun _ s hs _ => hk s hs

/-- A message handler that is no function is refused, whatever its type is said to be. -/
theorem screening_in (hv : Clears w env.varargs) (hs : s.Confined w)
    (hk : ∀ s, s.Confined w → T (k env s)) :
    T (Eval.stat env screening k s) := by
  refine hT.call hs (readVar_clear hs _) (.one (readVar_clear hs _)) fun rs s hs hrs => ?_
  simp only [expr]
  refine compare_in hT hs hrs.first (Value.clear_str _) (fun v s hs _ => ?_) .ne
  split
  · simp only [block, stats, stat, exprs]
    refine got_in hT hv hs fun vs s hs hvs => ?_
    exact refusal_in hT (k := fun _ s => k env s) (hs.newCells env.cells (clears_adjust hvs 1)) hk
  · exact hk s hs

end

section

variable {T : Action → Prop} (hT : w.Admits T) (hf : Finishes w g T) (hg : w.guards g)
  (hs : s.Confined w) (ha : Clears w args)

include hT hf hg hs

theorem handOn_in {a b : Nat} (hc : ¬ w.cell a) (hc' : ¬ w.cell b) {k : Next} (ha : Clears w args) :
    T (Eval.stat ⟨chunk, b :: a :: g.cells, args⟩ handOn k s) := by
  have hi := hs.installed hg
  have hmade : (s.newFunction (.closure chunk handler (b :: a :: g.cells))).2.Confined w :=
    hs.newFunction (.inr (.handler hg hc' hc))
  refine hT.call hmade (readVar_clear hmade _) (.cons trivial ha) fun vs s' hs' hvs => ?_
  refine hT.call hs' (readVar_clear hs ⟨7, "xpcall", true⟩)
    (.cons (hs.held a) (.cons hs.fresh_function hvs)) fun vs s' hs' hvs => ?_
  -- `finish` is read before the arguments are, when its variable is as it was made
  have hfinish : readVar ⟨chunk, b :: a :: g.cells, args⟩ ⟨2, "finish", true⟩ s = .fn g.finish :=
    hi.finishCell
  have h := hf vs ⟨some (chunk, 21), some (.captured, "finish")⟩ s' hs' hvs
  rw [← hfinish] at h
  exact h

include ha

theorem pcall_in : T (Eval.call chunk pcall g.cells args s) := by
  have hcall (f : Value) (rest : List Value) (hv : Clears w (f :: rest)) :
      T (.call (.fn g.pcall) (f :: rest) pcallSite (finishing g 12) (s.newCell f).2) :=
    hT.call (hs.newCell hv.head) (Guard.clear hg (by simp [Guard.functions])) hv
      fun vs s' hs hvs => hf vs _ s' hs hvs
  cases args with
  | nil =>
    -- without arguments, nil is called
    have h := pcall_eq (hs.installed hg) .nil []
    exact (h ▸ hcall .nil [] (.one trivial) : T (Eval.call chunk pcall g.cells [.nil] s))
  | cons f rest =>
    rw [pcall_eq (hs.installed hg)]
    exact hcall f rest ha

theorem xpcall_in : T (Eval.call chunk xpcall g.cells args s) := by
  obtain ⟨f, h, hfirst⟩ : ∃ f h, adjust 2 args = [f, h] := by
    rcases args with _ | ⟨f, _ | ⟨h, rest⟩⟩ <;> exact ⟨_, _, rfl⟩
  have hv : Clears w [f, h] := hfirst ▸ clears_adjust ha 2
  have hs₁ := hs.newCell hv.head
  have hs₂ := hs₁.newCell hv.tail.head
  have hcall : Eval.call chunk xpcall g.cells args s = declare ⟨chunk, g.cells, args⟩ (adjust 2 args)
      (fun env s => stats env [screening, handOn] (fun _ s => .ret [] s) s) s := rfl
  rw [hcall, hfirst]
  show T (Eval.stat ⟨chunk, (s.newCell f).2.cells.size :: s.cells.size :: g.cells, args⟩ screening
    (fun env s => stats env [handOn] (fun _ s => .ret [] s) s) (handed s f h))
  refine screening_in hT ha hs₂ fun s' hs' => ?_
  simp only [stats]
  exact handOn_in hT hf hg hs' hs.fresh_cell hs₁.fresh_cell ha

end

theorem handler_tame {a b : Nat} (hs : s.Confined w) (ha : Clears w args) :
    (Eval.call chunk handler (a :: b :: g.cells) args s).Tame w n := by
  have hs₁ := hs.newCell ha.first
  have hcall : ∃ site site', Eval.call chunk handler (a :: b :: g.cells) args s =
      .call ((s.newCell (.first args)).2.cell g.isFatalCell)
        [(s.newCell (.first args)).2.cell s.cells.size] site
        (fun rs s' => if (Value.first rs).truthy then .ret [s'.cell s.cells.size] s'
          else .tail (s'.cell a) [s'.cell s.cells.size] site' s') (s.newCell (.first args)).2 := by
    unfold Eval.call
    rw [show handler.params = 1 from rfl, adjust_one]
    exact ⟨_, _, rfl⟩
  obtain ⟨site, site', hcall⟩ := hcall
  rw [hcall]
  refine .call hs₁ (hs₁.held _) (.one (hs₁.held _)) fun rs s' hs' _ => ?_
  split
  · exact .ret hs' (.one (hs'.held _))
  · exact .tail hs' (hs'.held _) (.one (hs'.held _))

/-! ## The programs as functions of a program -/

/-- What one of the programs does, or a message handler that one of them has made. -/
theorem program_tame {chunk : Bytes} {f : Func} {cells : List Nat} (hp : w.Program chunk f cells)
    (hs : s.Confined w) (ha : Clears w args) : (Eval.call chunk f cells args s).Tame w n := by
  have hfinish {g : Guard} (hg : w.guards g) : Finishes w g (Action.Tame w n) := fun _ _ _ hs hv =>
    .tail hs (Guard.clear hg (by simp [Guard.functions])) hv
  cases hp with
  | finish hg => exact finish_tame hg hs ha
  | pcall hg => exact pcall_in w.admits_tame (hfinish hg) hg hs ha
  | xpcall hg => exact xpcall_in w.admits_tame (hfinish hg) hg hs ha
  | handler => exact handler_tame hs ha

/-- One of the programs that look at what was caught, or call it by way of `finish`. -/
inductive Judges (g : Guard) : Func → Prop where
  | finish : Judges g Protect.finish
  | pcall : Judges g Protect.pcall
  | xpcall : Judges g Protect.xpcall

theorem Judges.tame {f : Func} (hf : Judges g f) (hg : w.guards g) (hs : s.Confined w)
    (ha : Clears w args) : (Eval.call chunk f g.cells args s).Tame w n := by
  cases hf with
  | finish => exact program_tame (.finish hg) hs ha
  | pcall => exact program_tame (.pcall hg) hs ha
  | xpcall => exact program_tame (.xpcall hg) hs ha

theorem Judges.guarded {f : Func} (hf : Judges g f) (hg : w.guards g) (hs : s.Confined w)
    (ha : Clears w args) : (Eval.call chunk f g.cells args s).Guarded w := by
  have hfinish : Finishes w g (Action.Guarded w) := fun _ _ _ hs hv => .finish hg hs hv
  cases hf with
  | finish => exact finish_guarded hg hs ha
  | pcall => exact pcall_in w.admits_guarded hfinish hg hs ha
  | xpcall => exact xpcall_in w.admits_guarded hfinish hg hs ha

end Cordon.Lua.Protect
