import Cordon.Proofs.Lua.Leads

/-!
# Runs with enough fuel

`Follows` says that a run which comes upon one point goes on from another one, if it has fuel enough
for the steps in between and for the runs within them. `Reaches` says how much fuel is left.
-/

namespace Cordon.Lua.Exec

variable {b : Surroundings} {c c' c'' : Control} {e e' e'' : Exec}

/-- What the machine calls programs by in a step, with this much fuel left. -/
def caller (fuel : Nat) : Caller := fun b thread fn args m =>
  run fuel b (.apply fn args m.store) (start b thread m.threads)

theorem run_succ (fuel : Nat) (b : Surroundings) (c : Control) (e : Exec) : run (fuel + 1) b c e =
    match e.step (caller fuel) b c with
    | none => none
    | some (.done f) => some f
    | some (.next c e) => run fuel b c e := rfl

def Follows (b : Surroundings) (c : Control) (e : Exec) (c' : Control) (e' : Exec) : Prop :=
  ∃ i j, ∀ k, i ≤ k → run (k + j) b c e = run k b c' e'

/-- With fuel enough, the run comes to this end. -/
def Ends (b : Surroundings) (c : Control) (e : Exec) (f : Finish) : Prop :=
  ∃ i, ∀ k, i ≤ k → run k b c e = some f

theorem Follows.refl (b : Surroundings) (c : Control) (e : Exec) : Follows b c e c e :=
  ⟨0, 0, fun _ _ => rfl⟩

theorem Follows.trans (h : Follows b c e c' e') (h' : Follows b c' e' c'' e'') :
    Follows b c e c'' e'' := by
  obtain ⟨i, j, h⟩ := h
  obtain ⟨i', j', h'⟩ := h'
  refine ⟨i + i', j' + j, fun k hk => ?_⟩
  rw [← Nat.add_assoc, h (k + j') (by omega), h' k (by omega)]

theorem Leads.follows (h : Leads b c e c' e') : Follows b c e c' e' := by
  obtain ⟨j, hj⟩ := h.run
  exact ⟨0, j, fun k _ => hj k⟩

theorem Follows.single {i : Nat}
    (h : ∀ k, i ≤ k → e.step (caller k) b c = some (.next c' e')) : Follows b c e c' e' :=
  ⟨i, 1, fun k hk => by rw [run_succ, h k hk]⟩

theorem Follows.ends (h : Follows b c e c' e') {f : Finish} (h' : Ends b c' e' f) :
    Ends b c e f := by
  obtain ⟨i, j, h⟩ := h
  obtain ⟨i', h'⟩ := h'
  refine ⟨i + i' + j, fun k hk => ?_⟩
  obtain ⟨k, rfl⟩ := Nat.exists_eq_add_of_le' (Nat.le_trans (Nat.le_add_left j _) hk)
  rw [h k (by omega), h' k (by omega)]

theorem Ends.done {f : Finish} (h : ∀ caller, e.step caller b c = some (.done f)) :
    Ends b c e f := by
  refine ⟨1, fun k hk => ?_⟩
  obtain ⟨k, rfl⟩ := Nat.exists_eq_add_of_le' hk
  rw [run_succ, h]

/-- The machine gets from one point with some fuel to another one with what is left of it. -/
inductive Reaches (b : Surroundings) : Nat → Control → Exec → Nat → Control → Exec → Prop where
  | refl (n : Nat) (c : Control) (e : Exec) : Reaches b n c e n c e
  | head {n n' : Nat} {c c' c'' : Control} {e e' e'' : Exec}
      (first : e.step (caller n) b c = some (.next c' e')) (rest : Reaches b n c' e' n' c'' e'') :
      Reaches b (n + 1) c e n' c'' e''

theorem Reaches.run {n n' : Nat} (h : Reaches b n c e n' c' e') :
    Exec.run n b c e = Exec.run n' b c' e' := by
  induction h with
  | refl => rfl
  | head first _ ih =>
    rw [run_succ, first]
    exact ih

end Cordon.Lua.Exec
