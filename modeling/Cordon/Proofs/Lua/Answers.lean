import Cordon.Proofs.Lua.Follows

/-!
# How calls end

A call is over when values are returned to what was under way when it was made, or an error is raised
there. Whatever a run comes to a call in, there is something to return to.
-/

namespace Cordon.Lua.Exec

variable {b : Surroundings} {c c' c'' : Control} {e e' e'' : Exec} {s : Store}

/-! ## Stretches of runs -/

/-- With fuel enough the machine gets from one point to another, however many coroutines it changes to in
between. -/
def Comes (b : Surroundings) (c : Control) (e : Exec) (c' : Control) (e' : Exec) : Prop :=
  ∃ i j, ∀ n, i ≤ n → Reaches b (n + j) c e n c' e'

theorem Reaches.trans {n n' n'' : Nat} (h : Reaches b n c e n' c' e')
    (h' : Reaches b n' c' e' n'' c'' e'') : Reaches b n c e n'' c'' e'' := by
  induction h with
  | refl => exact h'
  | head first _ ih => exact .head first (ih h')

theorem Comes.trans (h : Comes b c e c' e') (h' : Comes b c' e' c'' e'') : Comes b c e c'' e'' := by
  obtain ⟨i, j, h⟩ := h
  obtain ⟨i', j', h'⟩ := h'
  refine ⟨i + i', j' + j, fun n hn => ?_⟩
  rw [← Nat.add_assoc]
  exact (h (n + j') (by omega)).trans (h' n (by omega))

theorem Leads.comes (h : Leads b c e c' e') : Comes b c e c' e' := by
  induction h with
  | refl => exact ⟨0, 0, fun n _ => .refl n _ _⟩
  | head first _ ih =>
    obtain ⟨i, j, h⟩ := ih
    exact ⟨i, j + 1, fun n hn => .head (first _) (h n hn)⟩

/-! ## What calls return to -/

/-- What a call returns to: another call, a protected one, or nothing that is part of the thread. -/
inductive Awaiting : List Frame → Prop where
  | outside : Awaiting []
  | call (site : Site) (next : List Value → Store → Action) (depth : Depth) (rest : List Frame) :
      Awaiting (.call site next depth :: rest)
  | guard (handler : Option Value) (depth : Depth) (rest : List Frame) :
      Awaiting (.guard handler depth :: rest)

theorem Awaiting.giveWay (outermost : Depth) : ∀ frames : List Frame,
    Awaiting (Lua.giveWay outermost frames).1
  | [] => .outside
  | .call .. :: _ => .call ..
  | .guard .. :: _ => .guard ..
  | .loop .. :: rest => Awaiting.giveWay outermost rest
  | .scope .. :: rest => Awaiting.giveWay outermost rest

/-- If a call is next, there is something to return to. -/
def Entering (e : Exec) : Control → Prop
  | .apply .. => Awaiting e.frames
  | _ => True

def Progress.Entering : Progress → Prop
  | .next c e => e.Entering c
  | .done _ => True

theorem entering_charged {cont : Store → Control} (h : e.Entering (cont s)) :
    Progress.Entering (e.charged s cont) := by
  unfold charged
  split
  · trivial
  · exact h

theorem entering_ret (vs : List Value) : Progress.Entering (e.ret vs s) := by
  unfold ret
  split
  · trivial
  · trivial
  · trivial
  · split <;> trivial

theorem entering_act (a : Action) : Progress.Entering (e.act b a) := by
  cases a with
  | ret vs s => exact entering_ret vs
  | call => exact entering_charged (.call ..)
  | tail =>
    unfold act
    dsimp only
    split
    · exact entering_charged (Awaiting.giveWay ..)
    · exact entering_charged (.call ..)
  | raise => trivial
  | loop => trivial
  | again =>
    unfold act
    dsimp only
    split
    · exact entering_charged trivial
    · exact entering_ret _
  | leave =>
    unfold act
    dsimp only
    split
    · trivial
    · exact entering_ret _
  | scope => trivial
  | endScope => trivial
  | jump =>
    unfold act
    dsimp only
    split
    · trivial
    · exact entering_ret _

theorem entering_resume (id : Nat) (args : List Value) (wrapped : Bool) :
    Progress.Entering (e.resume b id args wrapped s) := by
  have hrefuse (message : Bytes) : Progress.Entering
      (if wrapped then .next (e.complain b message s) e
        else .next (.ret [.bool false, .str message] s) e) := by
    split <;> trivial
  unfold resume
  dsimp only
  split
  · exact hrefuse _
  · split
    · exact .outside
    · trivial
    · exact hrefuse _
    · exact hrefuse _

theorem entering_follow (h : Awaiting e.frames) (r : Except Value Verdict) :
    Progress.Entering (e.follow b r s) := by
  unfold follow
  split
  · trivial
  · trivial
  · exact h
  · exact .guard ..
  · exact entering_resume ..
  · unfold yield
    split <;> trivial

theorem entering_raise {caller : Caller} {v : Value} {p : Progress}
    (hp : e.raise caller b v s = some p) : Progress.Entering p := by
  unfold raise at hp
  split at hp
  · obtain ⟨_, -, hret⟩ := Option.bind_eq_some_iff.mp hp
    cases hret
    trivial
  · split at hp
    · cases hp
      trivial
    · split at hp
      · dsimp only at hp
        split at hp
        · split at hp <;> cases hp <;> trivial
        · cases hp
          trivial
      · cases hp
        trivial

theorem entering_apply {caller : Caller} {fn : Value} {args : List Value} {p : Progress}
    (h : Awaiting e.frames) (hp : e.apply caller b fn args s = some p) : Progress.Entering p := by
  unfold apply at hp
  split at hp
  · cases hp
    trivial
  · split at hp
    · cases hp
      trivial
    · generalize (if Func.isVararg _ then _ else 0) = varargs at hp
      dsimp only at hp
      split at hp <;> cases hp <;> trivial
    · split at hp
      · cases hp
        trivial
      · obtain ⟨_, -, hfollow⟩ := Option.bind_eq_some_iff.mp hp
        cases hfollow
        exact entering_follow (by exact h) _

theorem entering_step {caller : Caller} {p : Progress} (h : e.Entering c)
    (hp : e.step caller b c = some p) : Progress.Entering p := by
  cases c with
  | act a => cases hp; exact entering_act a
  | ret vs s => cases hp; exact entering_ret vs
  | raise v s => exact entering_raise hp
  | apply fn args s => exact entering_apply h hp

theorem Reaches.entering {n n' : Nat} (h : Reaches b n c e n' c' e') (he : e.Entering c) :
    e'.Entering c' := by
  induction h with
  | refl => exact he
  | head first _ ih => exact ih (entering_step he first)

theorem ret_giveWay (h : Awaiting e.frames) (outermost depth : Depth) (vs : List Value) (s : Store) :
    ({ e with frames := (Lua.giveWay outermost e.frames).1, depth : Exec }).ret vs s = e.ret vs s := by
  obtain ⟨frames, _⟩ := e
  cases h <;> rfl

/-! ## Ends -/

/-- What a call ends with: values that are returned to the frames that there were, or an error that is
raised among them. -/
inductive Answers (b : Surroundings) (fn : Value) (args : List Value) (s : Store) (e : Exec) :
    Except Value (List Value) → Store → Exec → Prop where
  | returned {vs : List Value} {s' : Store} {c : Control} {e₁ e' : Exec}
      (comes : Comes b (.apply fn args s) e c e₁)
      (ret : ∀ caller, e₁.step caller b c = some (e'.ret vs s')) (frames : e'.frames = e.frames)
      (thread : e'.thread = e.thread) : Answers b fn args s e (.ok vs) s' e'
  | raised {v : Value} {s' : Store} {e' : Exec} (comes : Comes b (.apply fn args s) e (.raise v s') e')
      (guard : innerGuard? e'.frames = innerGuard? e.frames) (thread : e'.thread = e.thread) :
      Answers b fn args s e (.error v) s' e'

end Cordon.Lua.Exec
