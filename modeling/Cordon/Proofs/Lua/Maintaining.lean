import Cordon.Proofs.Lua.Running

/-!
# What native code lets be

A relation between stores that every call of native code keeps is kept by the code as a whole, whether
it comes to a result or to an error, as far as its own writes keep it. Tables from a number on are free
to be written to.
-/

namespace Cordon.Lua

variable {α β ε : Type} {R : Store → Store → Prop} {n : Nat} {free : Nat → Prop} {ctx : Ctx}

/-- The objects of programs and what the host keeps for its sandboxes. -/
def Store.shared (s : Store) : Array Table × Array Callable × Array Value × Nat × Option Nat ×
    Array (AllowList Value) × Array Output × Option Nat :=
  (s.tables, s.functions, s.cells, s.globals, s.registered, s.permits, s.outputs, s.memoryLimit)

/-- New objects keep the relation, and so do writes to the tables from `n` on, to the allow-lists that
are free and to variables that are new. -/
structure Lasting (R : Store → Store → Prop) (n : Nat) (free : Nat → Prop) : Prop where
  refl : ∀ s, R s s
  trans : ∀ {s s' s''}, R s s' → R s' s'' → R s s''
  tables : ∀ {s s'}, R s s' → s.tables.size ≤ s'.tables.size
  write : ∀ s {id}, n ≤ id → ∀ k v, R s (s.rawSet id k v)
  rest : ∀ {s s'}, s'.shared = s.shared → R s s'
  newTable : ∀ s, R s s.newTable.2
  newFunction : ∀ s f, R s (s.newFunction f).2
  newCell : ∀ s v, R s (s.newCell v).2
  setCell : ∀ {s s'} id v, R s s' → s.cells.size ≤ id → R s (s'.setCell id v)
  newPermit : ∀ s, R s s.newPermit.2
  newOutput : ∀ s, R s s.newOutput.2
  setPermit : ∀ s {id}, free id → ∀ l, R s (s.setPermit id l)

/-- A relation that tells only of tables, of functions and of the two places where the host keeps a
table. -/
theorem Lasting.of_coarse (refl : ∀ s, R s s) (trans : ∀ {s s' s''}, R s s' → R s' s'' → R s s'')
    (tables : ∀ {s s'}, R s s' → s.tables.size ≤ s'.tables.size)
    (write : ∀ s {id}, n ≤ id → ∀ k v, R s (s.rawSet id k v))
    (rest : ∀ {s s'}, s'.tables = s.tables → s'.functions = s.functions → s'.globals = s.globals →
      s'.registered = s.registered → R s s')
    (newTable : ∀ s, R s s.newTable.2) (newFunction : ∀ s f, R s (s.newFunction f).2) :
    Lasting R n free where
  refl := refl
  trans := trans
  tables := tables
  write := write
  rest h := by
    simp only [Store.shared, Prod.mk.injEq] at h
    exact rest h.1 h.2.1 h.2.2.2.1 h.2.2.2.2.1
  newTable := newTable
  newFunction := newFunction
  newCell _ _ := rest rfl rfl rfl rfl
  setCell _ _ h _ := trans h (rest rfl rfl rfl rfl)
  newPermit _ := rest rfl rfl rfl rfl
  newOutput _ := rest rfl rfl rfl rfl
  setPermit _ _ _ _ := rest rfl rfl rfl rfl

/-- Calls to programs keep the relation. -/
def Ctx.Maintains (R : Store → Store → Prop) (ctx : Ctx) : Prop :=
  ∀ {handler f args m r m'}, ctx.call handler f args m = some (r, m') → R m.store m'.store

theorem Ctx.Maintains.handled (hctx : ctx.Maintains R) (handler : Unit → Handler) :
    Ctx.Maintains R { ctx with handler } := hctx

namespace Act

def Maintains (R : Store → Store → Prop) (n : Nat) (ctx : Ctx) (p : Act α) : Prop :=
  ∀ m a m', n ≤ m.store.tables.size → p ctx m = some (a, m') → R m.store m'.store

namespace Maintains

theorem pure (hR : Lasting R n free) (a : α) : Maintains R n ctx (Pure.pure a) := by
  intro m a' m' _ h
  cases h
  exact hR.refl m.store

theorem bind (hR : Lasting R n free) {p : Act α} {f : α → Act β} (hp : Maintains R n ctx p)
    (hf : ∀ a, Maintains R n ctx (f a)) : Maintains R n ctx (p >>= f) := by
  intro m b m' hn h
  rw [bind_apply] at h
  split at h
  · next a m₁ ha =>
    have hR₁ := hp _ _ _ hn ha
    exact hR.trans hR₁ (hf a _ _ _ (Nat.le_trans hn (hR.tables hR₁)) h)
  · cases h

theorem read (hR : Lasting R n free) (f : Store → α) : Maintains R n ctx (Act.read f) := by
  intro m a m' _ h
  cases h
  exact hR.refl m.store

theorem updateGet {f : Store → α × Store} (h : ∀ s, n ≤ s.tables.size → R s (f s).2) :
    Maintains R n ctx (Act.updateGet f) := by
  intro m a m' hn ha
  cases ha
  exact h m.store hn

theorem update {f : Store → Store} (h : ∀ s, R s (f s)) : Maintains R n ctx (Act.update f) := by
  intro m a m' _ ha
  cases ha
  exact h m.store

theorem context {f : Ctx → Act β} (hf : Maintains R n ctx (f ctx)) :
    Maintains R n ctx (Act.context >>= f) := hf

theorem call (hctx : ctx.Maintains R) (handler : Handler) (f : Value) (args : List Value) :
    Maintains R n ctx (Act.call handler f args) := fun _ _ _ _ h => hctx h

end Maintains

end Act

/-- Code that may fail keeps the relation either way. -/
def Maintains (R : Store → Store → Prop) (n : Nat) (ctx : Ctx) (p : ExceptT ε Act α) : Prop :=
  Act.Maintains R n ctx p.run

namespace Maintains

theorem pure (hR : Lasting R n free) (a : α) : Maintains R n ctx (Pure.pure a : ExceptT ε Act α) :=
  Act.Maintains.pure hR (Except.ok a : Except ε α)

theorem throw (hR : Lasting R n free) (e : ε) :
    Maintains R n ctx (ExceptT.mk (Pure.pure (.error e)) : ExceptT ε Act α) :=
  Act.Maintains.pure hR (Except.error e : Except ε α)

theorem bind (hR : Lasting R n free) {p : ExceptT ε Act α} {f : α → ExceptT ε Act β}
    (hp : Maintains R n ctx p) (hf : ∀ a, Maintains R n ctx (f a)) : Maintains R n ctx (p >>= f) := by
  refine Act.Maintains.bind hR hp fun r => ?_
  cases r with
  | ok a => exact hf a
  | error e => exact Act.Maintains.pure hR (Except.error e : Except ε β)

theorem lift (hR : Lasting R n free) {p : Act α} (hp : Act.Maintains R n ctx p) :
    Maintains R n ctx (ExceptT.lift p : ExceptT ε Act α) :=
  Act.Maintains.bind hR hp fun a => Act.Maintains.pure hR (Except.ok a : Except ε α)

theorem read (hR : Lasting R n free) (f : Store → α) :
    Maintains R n ctx (ExceptT.lift (Act.read f) : ExceptT ε Act α) := lift hR (.read hR f)

theorem updateGet (hR : Lasting R n free) {f : Store → α × Store}
    (h : ∀ s, n ≤ s.tables.size → R s (f s).2) :
    Maintains R n ctx (ExceptT.lift (Act.updateGet f) : ExceptT ε Act α) := lift hR (.updateGet h)

theorem update (hR : Lasting R n free) {f : Store → Store} (h : ∀ s, R s (f s)) :
    Maintains R n ctx (ExceptT.lift (Act.update f) : ExceptT ε Act Unit) := lift hR (.update h)

theorem forIn (hR : Lasting R n free) {f : β → PUnit → ExceptT ε Act (ForInStep PUnit)} : ∀ {l : List β},
    (∀ x ∈ l, Maintains R n ctx (f x ⟨⟩)) → Maintains R n ctx (forIn l PUnit.unit f)
  | [], _ => .pure hR _
  | x :: l, h => by
    rw [List.forIn_cons]
    refine .bind hR (h x (.head _)) fun r => ?_
    cases r with
    | done u => exact .pure hR _
    | yield u => exact forIn hR fun y hy => h y (.tail _ hy)

end Maintains

/-! ## Scripts -/

namespace Script

theorem call_maintains (hctx : ctx.Maintains R) (f : Value) (args : List Value) :
    Maintains R n ctx (Script.call f args) := fun _ _ _ _ h => hctx h

theorem complain_maintains (hR : Lasting R n free) (message : Bytes) :
    Maintains R n ctx (complain message : Script α) := by
  refine .bind hR ?_ fun place => .throw hR _
  refine Maintains.bind hR (.lift hR fun m c m' _ h => ?_) fun c => ?_
  · cases h
    exact hR.refl m.store
  · split
    · exact .pure hR _
    · exact .pure hR _

theorem refuse_maintains (hR : Lasting R n free) (activity : String) (v : Value) :
    Maintains R n ctx (refuse activity v : Script α) :=
  .bind hR (.read hR _) fun _ => .throw hR _

theorem index_maintains (hR : Lasting R n free) (hctx : ctx.Maintains R) (object key : Value) :
    Maintains R n ctx (index object key) := by
  refine .bind hR (.read hR _) fun a => ?_
  cases a with
  | value v => exact .pure hR v
  | call fn object => exact .bind hR (call_maintains hctx _ _) fun _ => .pure hR _
  | missing object first => exact refuse_maintains hR _ _
  | endless => exact .throw hR _

theorem assign_maintains (hR : Lasting R n free) (hctx : ctx.Maintains R) {object key value : Value}
    (h : ∀ s s', s.place object key value = .done s' → R s s') :
    Maintains R n ctx (assign object key value) := by
  refine .bind hR (.updateGet hR fun s _ => ?_) fun p => ?_
  · cases hp : s.place object key value with
    | done s' => exact h s s' hp
    | _ => exact hR.refl s
  · cases p with
    | done s => exact .pure hR _
    | call fn object => exact .bind hR (call_maintains hctx _ _) fun _ => .pure hR _
    | missing object first => exact refuse_maintains hR _ _
    | badKey message => exact .throw hR _
    | endless => exact .throw hR _

theorem text_maintains (hR : Lasting R n free) (hctx : ctx.Maintains R) (v : Value) :
    Maintains R n ctx (text v) := by
  refine .bind hR (.read hR _) fun h => ?_
  split
  · split
    · exact .pure hR _
    · exact .pure hR _
    · exact .pure hR _
    · split
      · exact .pure hR _
      · exact .bind hR (.read hR _) fun _ => .pure hR _
  · refine .bind hR (call_maintains hctx _ _) fun vs => ?_
    split
    · exact .pure hR _
    · exact .pure hR _
    · exact .pure hR _
    · exact complain_maintains hR _

end Script

/-! ## Host code -/

theorem Act.withTraceback_maintains (hR : Lasting R n free) (hctx : ctx.Maintains R) :
    ∀ (rounds : Nat) (v : Value), Act.Maintains R n ctx (Act.withTraceback rounds v)
  | 0, _ => .pure hR _
  | rounds + 1, v => by
    unfold Act.withTraceback
    split
    · exact .pure hR _
    · split
      · exact .pure hR _
      · refine .bind hR (Script.text_maintains hR hctx v) fun r => ?_
        cases r with
        | ok b => exact .pure hR _
        | error e =>
          refine .bind hR (.read hR _) fun failed => ?_
          split
          · exact .pure hR _
          · exact withTraceback_maintains hR hctx rounds e

namespace Host

theorem errorOf_maintains (hR : Lasting R n free) (hctx : ctx.Maintains R) (v : Value) :
    Act.Maintains R n ctx (errorOf v) := by
  have hhandle : Act.Maintains R n ctx (Act.handle .traceback v) := by
    rw [Act.handle]
    refine .bind hR (.read hR _) fun failed => ?_
    split
    · exact .pure hR v
    · exact .context (Act.withTraceback_maintains hR hctx _ v)
  refine .bind hR hhandle fun v => .bind hR (.update fun s => hR.rest rfl) fun _ => ?_
  split
  · exact .read hR _
  · exact .pure hR _
  · exact .pure hR _

theorem ofScript_maintains (hR : Lasting R n free) (hctx : ctx.Maintains R) {p : Script α}
    (hp : Maintains R n { ctx with handler := fun _ => .traceback } p) : Maintains R n ctx (ofScript p) := by
  refine Act.Maintains.bind hR (p := withReader _ p.run) hp fun r => ?_
  cases r with
  | ok a => exact .pure hR _
  | error v => exact .bind hR (errorOf_maintains hR hctx v) fun _ => .pure hR _

theorem call_maintains (hR : Lasting R n free) (hctx : ctx.Maintains R) (f : Value) (args : List Value) :
    Maintains R n ctx (Host.call f args) := by
  refine Act.Maintains.bind hR (.read hR _) fun before => .bind hR (.call hctx _ f args) fun r => ?_
  cases r with
  | ok vs => exact .pure hR _
  | error v =>
    refine .bind hR (errorOf_maintains hR hctx v) fun e => ?_
    split
    · exact .bind hR (.update fun s => hR.rest rfl) fun _ => .pure hR _
    · exact .pure hR _

theorem field_maintains (hR : Lasting R n free) (hctx : ctx.Maintains R) (object : Value) (name : String) :
    Maintains R n ctx (field object name) :=
  ofScript_maintains hR hctx (Script.index_maintains hR (hctx.handled _) _ _)

theorem functionField_maintains (hR : Lasting R n free) (hctx : ctx.Maintains R) (object : Value)
    (name : String) : Maintains R n ctx (functionField object name) := by
  refine .bind hR (field_maintains hR hctx object name) fun v => ?_
  cases v with
  | fn id => exact .pure hR _
  | _ => exact .throw hR _

theorem setField_maintains (hR : Lasting R n free) (hctx : ctx.Maintains R) {object v : Value} {name : String}
    (h : ∀ s s', s.place object (.str name) v = .done s' → R s s') :
    Maintains R n ctx (setField object name v) :=
  ofScript_maintains hR hctx (Script.assign_maintains hR (hctx.handled _) h)

theorem newTable_maintains (hR : Lasting R n free) {f : Nat → Host α}
    (hf : ∀ id, n ≤ id → Maintains R n ctx (f id)) :
    Maintains R n ctx (updateGet (fun s => s.newTable) >>= f) := by
  intro m a m' hn h
  rw [run_bind, run_updateGet] at h
  have hR₁ := hR.newTable m.store
  exact hR.trans hR₁ (hf m.store.tables.size hn _ _ _ (Nat.le_trans hn (hR.tables hR₁)) h)

theorem put_maintains (hR : Lasting R n free) {id : Nat} (hid : n ≤ id) (k : Bytes) (v : Value) :
    Maintains R n ctx (update fun s => s.rawSetStr id k v) := .update hR fun s => hR.write s hid _ v

theorem newFunction_maintains (hR : Lasting R n free) (f : Native) : Maintains R n ctx (newFunction f) :=
  .updateGet hR fun s _ => hR.newFunction s (.native f)

end Host

/-! ## Calls of one kind -/

open Classical in
/-- The same surroundings as far as calls are of this kind: one that is not does not come back. -/
noncomputable def Ctx.only (ctx : Ctx)
    (P : Value → List Value → Machine → Except Value (List Value) → Machine → Prop) : Ctx :=
  { ctx with call := fun handler f args m =>
      (ctx.call handler f args m).filter fun r => decide (P f args m r.1 r.2) }

section

variable {P : Value → List Value → Machine → Except Value (List Value) → Machine → Prop}

open Classical in
theorem Ctx.of_only {handler : Handler} {f : Value} {args : List Value} {m m' : Machine}
    {r : Except Value (List Value)} (h : (ctx.only P).call handler f args m = some (r, m')) :
    ctx.call handler f args m = some (r, m') ∧ P f args m r m' := by
  obtain ⟨h, hP⟩ := Option.filter_eq_some_iff.mp h
  exact ⟨h, of_decide_eq_true hP⟩

open Classical in
theorem Ctx.only_eq (h : ∀ handler f args m r m', ctx.call handler f args m = some (r, m') →
    P f args m r m') : ctx.only P = ctx := by
  have hcall : (fun handler f args m => (ctx.call handler f args m).filter fun r =>
      decide (P f args m r.1 r.2)) = ctx.call := by
    funext handler f args m
    cases hc : ctx.call handler f args m with
    | none => rfl
    | some r => exact Option.filter_some_pos (decide_eq_true (h _ _ _ _ _ _ hc))
  rw [Ctx.only, hcall]

theorem Ctx.only_maintains (h : ∀ {f args m r m'}, P f args m r m' → R m.store m'.store) :
    (ctx.only P).Maintains R := fun hc => h (Ctx.of_only hc).2

end

end Cordon.Lua
