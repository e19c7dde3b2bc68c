import Cordon.Lua.Script
import Cordon.Proofs.Lua.Lookup

/-!
# Running native code

What code of the host comes to on a machine, step by step, and the accesses that need no call.
-/

namespace Cordon.Lua

variable {α β : Type} (ctx : Ctx) (m : Machine)

/-! ## Any native code -/

namespace Act

theorem bind_apply (p : Act α) (f : α → Act β) : (p >>= f) ctx m =
    match p ctx m with
    | some (a, m') => f a ctx m'
    | none => none := by
  show (p ctx m).bind _ = _
  cases p ctx m <;> rfl

theorem handle_of_failed (handler : Handler) (v : Value) (h : m.store.allocationFailed = true) :
    Act.handle handler v ctx m = some (v, m) := by
  rw [Act.handle, bind_apply]
  simp only [Act.read, h, if_true]
  rfl

theorem handle_fn (f v : Value) (h : m.store.allocationFailed = false) :
    Act.handle (.fn f) v ctx m = Act.handle.rounds f (handlerRounds ctx.natives) v ctx m := by
  rw [Act.handle, bind_apply]
  simp only [Act.read, h, Bool.false_eq_true, if_false]
  rfl

theorem rounds_of_ok {f v : Value} {vs : List Value} {m' : Machine} (n : Nat)
    (h : Act.call (.fn f) f [v] ctx m = some (.ok vs, m')) :
    Act.handle.rounds f (n + 1) v ctx m = some (.first vs, m') := by
  rw [Act.handle.rounds, bind_apply, h]
  rfl

theorem rounds_of_failed {f v w : Value} {m' : Machine} (n : Nat)
    (h : Act.call (.fn f) f [v] ctx m = some (.error w, m'))
    (hf : m'.store.allocationFailed = true) :
    Act.handle.rounds f (n + 1) v ctx m = some (w, m') := by
  rw [Act.handle.rounds, bind_apply, h]
  simp only [bind_apply, Act.read, hf, if_true]
  rfl

end Act

/-! ## Host code -/

namespace Host

theorem run_pure (a : α) : (pure a : Host α).run ctx m = some (.ok a, m) := rfl

theorem run_bind (p : Host α) (f : α → Host β) : (p >>= f).run ctx m =
    match p.run ctx m with
    | some (.ok a, m') => (f a).run ctx m'
    | some (.error e, m') => some (.error e, m')
    | none => none := by
  show (p.run ctx m).bind _ = _
  cases p.run ctx m with
  | none => rfl
  | some r => obtain ⟨r, m'⟩ := r; cases r <;> rfl

theorem run_read (f : Store → α) : (read f).run ctx m = some (.ok (f m.store), m) := rfl

theorem run_updateGet (f : Store → α × Store) :
    (updateGet f).run ctx m = some (.ok (f m.store).1, { m with store := (f m.store).2 }) := rfl

end Host

/-! ## Script code -/

namespace Script

theorem run_pure (a : α) : (pure a : Script α).run ctx m = some (.ok a, m) := rfl

theorem run_bind (p : Script α) (f : α → Script β) : (p >>= f).run ctx m =
    match p.run ctx m with
    | some (.ok a, m') => (f a).run ctx m'
    | some (.error v, m') => some (.error v, m')
    | none => none := by
  show (p.run ctx m).bind _ = _
  cases p.run ctx m with
  | none => rfl
  | some r => obtain ⟨r, m'⟩ := r; cases r <;> rfl

theorem run_read (f : Store → α) : (read f).run ctx m = some (.ok (f m.store), m) := rfl

theorem run_updateGet (f : Store → α × Store) :
    (updateGet f).run ctx m = some (.ok (f m.store).1, { m with store := (f m.store).2 }) := rfl

end Script

/-! ## Accesses that need no call -/

theorem Store.access_of_raw {s : Store} {id : Nat} {k : Bytes}
    (h : (s.rawGet id (.str k)).isNil = false) :
    s.access (.table id) (.str k) = .value (s.rawGet id (.str k)) := by
  show s.accessFrom (.str k) (1999 + 1) true (.table id) = _
  rw [Store.accessFrom]
  show (if !(s.rawGet id (.str k)).isNil then _ else _) = _
  rw [h]
  rfl

theorem Store.access_of_plain {s : Store} {id : Nat} (k : Bytes)
    (h : (s.table id).metatable = none) :
    s.access (.table id) (.str k) = .value (s.rawGet id (.str k)) := by
  cases hn : (s.rawGet id (.str k)).isNil with
  | false => exact access_of_raw hn
  | true =>
    have hv : s.rawGet id (.str k) = .nil := by
      cases hr : s.rawGet id (.str k) <;> first | rfl | (rw [hr] at hn; cases hn)
    show s.accessFrom (.str k) (1999 + 1) true (.table id) = _
    rw [Store.accessFrom]
    show (if !(s.rawGet id (.str k)).isNil then _ else _) = _
    rw [hn, hv]
    simp only [Store.metafield, Store.metatable?, h, Bool.not_true, Bool.false_eq_true, if_false]

theorem Store.place_of_plain {s : Store} {id : Nat} (k : Bytes) (v : Value)
    (h : (s.table id).metatable = none) :
    s.place (.table id) (.str k) v = .done (s.rawSetStr id k v) := by
  show s.placeFrom (.str k) v (1999 + 1) true (.table id) = _
  rw [Store.placeFrom]
  simp only [h]
  rfl

theorem Script.index_of_value {object key v : Value} (h : m.store.access object key = .value v) :
    (Script.index object key).run ctx m = some (.ok v, m) := by
  rw [Script.index, run_bind, run_read]
  simp only [h]
  rfl

theorem Host.ofScript_of_ok {p : Script α} {a : α} {m' : Machine}
    (h : p.run { ctx with handler := fun _ => .traceback } m = some (.ok a, m')) :
    (Host.ofScript p).run ctx m = some (.ok a, m') := by
  show (p.run { ctx with handler := fun _ => .traceback } m).bind _ = _
  rw [h]
  rfl

theorem Script.ofHost_of_ok {p : Host α} {a : α} {m' : Machine}
    (h : p.run ctx m = some (.ok a, m')) : (Script.ofHost p).run ctx m = some (.ok a, m') := by
  show (p.run ctx m).bind _ = _
  rw [h]
  rfl

/-- The machine with an error object for a failure, the latest one. -/
def Script.blamed (m : Machine) (f : Failure) : Machine :=
  { m with store := (m.store.newFault (.callback tracebackText f.toScript)).2 }

theorem Script.ofHost_of_error {p : Host α} {f : Failure} {m' : Machine}
    (h : p.run ctx m = some (.error f, m')) :
    (Script.ofHost p).run ctx m = some (.error (.fault m'.store.faults.size), blamed m' f) := by
  show (p.run ctx m).bind _ = _
  rw [h]
  rfl

theorem Host.field_of_value {object v : Value} {name : String}
    (h : m.store.access object (.str name) = .value v) :
    (Host.field object name).run ctx m = some (.ok v, m) :=
  Host.ofScript_of_ok ctx m (Script.index_of_value _ m h)

theorem Script.assign_of_done {object key v : Value} {s' : Store}
    (h : m.store.place object key v = .done s') :
    (Script.assign object key v).run ctx m = some (.ok (), { m with store := s' }) := by
  rw [Script.assign, run_bind, run_updateGet]
  simp only [h]
  rfl

theorem Host.setField_of_done {object v : Value} {name : String} {s' : Store}
    (h : m.store.place object (.str name) v = .done s') :
    (Host.setField object name v).run ctx m = some (.ok (), { m with store := s' }) :=
  Host.ofScript_of_ok ctx m (Script.assign_of_done _ m h)

/-! ## Where code has come to an end -/

section inversion

variable {ctx : Ctx} {m m' : Machine}

theorem Host.ok_bind {p : Host α} {f : α → Host β} {b : β}
    (h : (p >>= f).run ctx m = some (.ok b, m')) :
    ∃ a m₁, p.run ctx m = some (.ok a, m₁) ∧ (f a).run ctx m₁ = some (.ok b, m') := by
  rw [run_bind] at h
  split at h
  · next a m₁ hp => exact ⟨a, m₁, hp, h⟩
  · cases h
  · cases h

theorem Script.ok_bind {p : Script α} {f : α → Script β} {b : β}
    (h : (p >>= f).run ctx m = some (.ok b, m')) :
    ∃ a m₁, p.run ctx m = some (.ok a, m₁) ∧ (f a).run ctx m₁ = some (.ok b, m') := by
  rw [run_bind] at h
  split at h
  · next a m₁ hp => exact ⟨a, m₁, hp, h⟩
  · cases h
  · cases h

/-- Where code has come to an end its first part has, too; an error there is an error of the whole. -/
theorem Host.of_bind {p : Host α} {f : α → Host β} {r : Except Failure β}
    (h : (p >>= f).run ctx m = some (r, m')) :
    (∃ a m₁, p.run ctx m = some (.ok a, m₁) ∧ (f a).run ctx m₁ = some (r, m')) ∨
      ∃ e, p.run ctx m = some (.error e, m') ∧ r = .error e := by
  rw [run_bind] at h
  split at h
  · next a m₁ ha => exact .inl ⟨a, m₁, ha, h⟩
  · next e m₁ he =>
    cases h
    exact .inr ⟨e, he, rfl⟩
  · cases h

theorem Host.run_attempt (ctx : Ctx) (m : Machine) (p : Host α) :
    (ExceptT.lift p.run : Host (Except Failure α)).run ctx m =
      (p.run ctx m).map fun x => (.ok x.1, x.2) := by
  show (p.run ctx m).bind _ = _
  cases p.run ctx m <;> rfl

theorem Host.ok_attempt {p : Host α} {r : Except Failure α}
    (h : (ExceptT.lift p.run : Host (Except Failure α)).run ctx m = some (.ok r, m')) :
    p.run ctx m = some (r, m') := by
  rw [run_attempt, Option.map_eq_some_iff] at h
  obtain ⟨x, hx, h⟩ := h
  cases h
  exact hx

/-- A loop comes to an end where the rest of it does, after its first round. -/
theorem Host.ok_for_cons {p : β → Host Unit} {x : β} {l : List β} {u : PUnit}
    (h : (forIn (x :: l) PUnit.unit fun x _ => do
        p x
        pure (ForInStep.yield PUnit.unit) : Host PUnit).run ctx m = some (.ok u, m')) :
    ∃ m₁, (p x).run ctx m = some (.ok (), m₁) ∧
      (forIn l PUnit.unit fun x _ => do
        p x
        pure (ForInStep.yield PUnit.unit) : Host PUnit).run ctx m₁ = some (.ok u, m') := by
  rw [List.forIn_cons] at h
  obtain ⟨r, m₁, hx, h⟩ := ok_bind h
  obtain ⟨_, m₂, hx, hr⟩ := ok_bind hx
  cases hr
  exact ⟨m₁, hx, h⟩

theorem Host.run_ofScript (ctx : Ctx) (m : Machine) (p : Script α) : (Host.ofScript p).run ctx m =
    match p.run { ctx with handler := fun _ => .traceback } m with
    | some (.ok a, m') => some (.ok a, m')
    | some (.error v, m') => (errorOf v ctx m').map fun r => (.error (.script r.1), r.2)
    | none => none := by
  show (p.run { ctx with handler := fun _ => .traceback } m).bind _ = _
  cases p.run { ctx with handler := fun _ => .traceback } m with
  | none => rfl
  | some r =>
    obtain ⟨r, m'⟩ := r
    cases r with
    | ok a => rfl
    | error v =>
      show (errorOf v ctx m').bind _ = (errorOf v ctx m').map _
      cases errorOf v ctx m' <;> rfl

theorem Host.ok_ofScript {p : Script α} {a : α} (h : (Host.ofScript p).run ctx m = some (.ok a, m')) :
    p.run { ctx with handler := fun _ => .traceback } m = some (.ok a, m') := by
  rw [run_ofScript] at h
  split at h
  · next hp =>
    cases h
    exact hp
  · next v m₁ _ => cases he : errorOf v ctx m₁ <;> simp [he] at h
  · cases h

theorem Script.ok_call {f : Value} {args vs : List Value}
    (h : (Script.call f args).run ctx m = some (.ok vs, m')) :
    ctx.call (ctx.handler ()) f args m = some (.ok vs, m') := h

theorem Host.run_call (ctx : Ctx) (m : Machine) (f : Value) (args : List Value) :
    (Host.call f args).run ctx m =
      match ctx.call .traceback f args m with
      | some (.ok vs, m') => some (.ok vs, m')
      | some (.error v, m') => (errorOf v ctx m').map fun r => (.error (.script r.1),
          if r.1.isMemory then { r.2 with store := { r.2.store with
            used := min r.2.store.used m.store.used } } else r.2)
      | none => none := by
  show (ctx.call .traceback f args m).bind _ = _
  cases ctx.call .traceback f args m with
  | none => rfl
  | some r =>
    obtain ⟨r, m'⟩ := r
    cases r with
    | ok vs => rfl
    | error v =>
      show (errorOf v ctx m').bind _ = (errorOf v ctx m').map _
      cases errorOf v ctx m' with
      | none => rfl
      | some r =>
        simp only [Option.bind_some, Option.map_some]
        cases r.1.isMemory <;> rfl

theorem Host.ok_call {f : Value} {args vs : List Value}
    (h : (Host.call f args).run ctx m = some (.ok vs, m')) :
    ctx.call .traceback f args m = some (.ok vs, m') := by
  rw [run_call] at h
  split at h
  · next hc =>
    cases h
    exact hc
  · next v m₁ _ => cases he : errorOf v ctx m₁ <;> simp [he] at h
  · cases h

theorem Script.ok_index {object key v : Value}
    (h : (Script.index object key).run ctx m = some (.ok v, m')) :
    (m.store.access object key = .value v ∧ m' = m) ∨
      ∃ fn o vs, m.store.access object key = .call fn o ∧
        ctx.call (ctx.handler ()) fn [o, key] m = some (.ok vs, m') ∧ v = .first vs := by
  rw [Script.index, run_bind, run_read] at h
  simp only at h
  split at h
  · next w hw =>
    cases h
    exact .inl ⟨hw, rfl⟩
  · next fn o ho =>
    obtain ⟨vs, m₁, hc, hv⟩ := Script.ok_bind h
    cases hv
    exact .inr ⟨fn, o, vs, ho, Script.ok_call hc, rfl⟩
  · cases h
  · cases h

theorem Script.ok_assign {object key value : Value}
    (h : (Script.assign object key value).run ctx m = some (.ok (), m')) :
    (∃ s', m.store.place object key value = .done s' ∧ m' = { m with store := s' }) ∨
      ∃ fn o vs, m.store.place object key value = .call fn o ∧
        ctx.call (ctx.handler ()) fn [o, key, value] m = some (.ok vs, m') := by
  rw [Script.assign, run_bind, run_updateGet] at h
  cases hp : m.store.place object key value with
  | done s' =>
    rw [hp] at h
    cases h
    exact .inl ⟨s', rfl, rfl⟩
  | call fn o =>
    rw [hp] at h
    obtain ⟨vs, m₁, hc, hv⟩ := Script.ok_bind h
    cases hv
    exact .inr ⟨fn, o, vs, rfl, Script.ok_call hc⟩
  | missing o first =>
    rw [hp] at h
    cases h
  | badKey message =>
    rw [hp] at h
    cases h
  | endless =>
    rw [hp] at h
    cases h

end inversion

/-! ## What code may end with -/

/-- Whatever this code ends with is of such a kind. -/
def Host.Ends (Q : Except Failure α → Prop) (p : Host α) : Prop :=
  ∀ ctx m r m', p.run ctx m = some (r, m') → Q r

namespace Host.Ends

variable {Q : Except Failure α → Prop}

theorem pure {a : α} (h : Q (.ok a)) : Ends Q (Pure.pure a : Host α) := by
  rintro ctx m r m' ⟨⟩
  exact h

theorem read {f : Store → α} (h : ∀ a, Q (.ok a)) : Ends Q (Host.read f) := by
  rintro ctx m r m' ⟨⟩
  exact h _

theorem update {Q : Except Failure Unit → Prop} (f : Store → Store) (h : Q (.ok ())) :
    Ends Q (Host.update f) := by
  rintro ctx m r m' ⟨⟩
  exact h

theorem fail {err : Failure} (h : Q (.error err)) : Ends Q (Host.fail err : Host α) := by
  rintro ctx m r m' ⟨⟩
  exact h

theorem bind {Q : Except Failure β → Prop} {p : Host α} {f : α → Host β}
    (hp : Ends (fun r => match r with | .ok a => Ends Q (f a) | .error e => Q (.error e)) p) :
    Ends Q (p >>= f) := by
  intro ctx m r m' h
  rcases Host.of_bind h with ⟨a, m₁, ha, h⟩ | ⟨e, he, rfl⟩
  · exact hp _ _ _ _ ha _ _ _ _ h
  · exact hp _ _ _ _ he

theorem ofScript {p : Script α} (hok : ∀ a, Q (.ok a)) (herror : ∀ e, Q (.error (.script e))) :
    Ends Q (Host.ofScript p) := by
  intro ctx m r m' hr
  rw [Host.run_ofScript] at hr
  split at hr
  · cases hr
    exact hok _
  · obtain ⟨r, -, hr⟩ := Option.map_eq_some_iff.mp hr
    cases hr
    exact herror _
  · cases hr

theorem call {Q : Except Failure (List Value) → Prop} {f : Value} {args : List Value}
    (hok : ∀ vs, Q (.ok vs)) (herror : ∀ e, Q (.error (.script e))) : Ends Q (Host.call f args) := by
  intro ctx m r m' hr
  rw [Host.run_call] at hr
  split at hr
  · cases hr
    exact hok _
  · obtain ⟨r, -, hr⟩ := Option.map_eq_some_iff.mp hr
    cases hr
    exact herror _
  · cases hr

end Host.Ends

end Cordon.Lua
