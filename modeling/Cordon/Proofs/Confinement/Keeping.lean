import Cordon.Proofs.Confinement.Alike
import Cordon.Proofs.Lua.Running

/-!
# Native code keeps the ward

A piece of native code keeps the ward if it does the same in machines that are alike, leaves them alike,
and comes to what is asked of its result. There is a rule for every way in which such code is put
together, and a lemma for every function that it is made of.
-/

namespace Cordon.Lua

variable {w : Ward} {α β : Type}

def Handler.Clear (w : Ward) : Handler → Prop
  | .fn f => f.Clear w
  | _ => True

def Result.Clear (w : Ward) : Except Value (List Value) → Prop
  | .ok vs => Clears w vs
  | .error v => v.Clear w

def Verdict.Clear (w : Ward) : Verdict → Prop
  | .ret vs => Clears w vs
  | .tail fn args => fn.Clear w ∧ Clears w args
  | .protect h fn args => (∀ v, h = some v → v.Clear w) ∧ fn.Clear w ∧ Clears w args
  | .resume _ args _ => Clears w args
  | .yield vs => Clears w vs

/-- The same result, in machines that are alike, or none. -/
inductive Outcomes (w : Ward) (Q : α → Prop) : Option (α × Machine) → Option (α × Machine) → Prop where
  | none : Outcomes w Q none none
  | some {a : α} {m m' : Machine} (ha : Q a) (hm : m.Alike w m') :
    Outcomes w Q (some (a, m)) (some (a, m'))

/-- Native code sees the same, and calls come to the same. -/
structure Ctx.Alike (w : Ward) (ctx ctx' : Ctx) : Prop where
  callee : ctx'.callee = ctx.callee
  sites : ctx'.sites = ctx.sites
  handler : ctx'.handler = ctx.handler
  clear : (ctx.handler ()).Clear w
  thread : ctx'.thread = ctx.thread
  yieldable : ctx'.yieldable = ctx.yieldable
  natives : ctx'.natives = ctx.natives
  call : ∀ {h : Handler} {fn : Value} {args : List Value} {m m' : Machine}, h.Clear w →
    fn.Callable w args → Clears w args → m.Alike w m' →
    Outcomes w (Result.Clear w) (ctx.call h fn args m) (ctx'.call h fn args m')

theorem Ctx.Alike.traceback {ctx ctx' : Ctx} (h : ctx.Alike w ctx') :
    Ctx.Alike w { ctx with handler := fun _ => .traceback }
      { ctx' with handler := fun _ => .traceback } :=
  ⟨h.callee, h.sites, rfl, trivial, h.thread, h.yieldable, h.natives, h.call⟩

namespace Act

/-- Two pieces of code do the same in machines that are alike. -/
structure Related (w : Ward) (p p' : Act α) (Q : α → Prop) : Prop where
  outcomes : ∀ {ctx ctx' : Ctx} {m m' : Machine}, ctx.Alike w ctx' → m.Alike w m' →
    Outcomes w Q (p ctx m) (p' ctx' m')

def Keeps (w : Ward) (p : Act α) (Q : α → Prop) : Prop := Related w p p Q

variable {p p' : Act α} {Q Q' : α → Prop} {R : β → Prop}

theorem Related.mono (hp : Related w p p' Q) (h : ∀ a, Q a → Q' a) : Related w p p' Q' := by
  refine ⟨fun {ctx ctx' m m'} hctx hm => ?_⟩
  have hr := hp.outcomes hctx hm
  generalize p ctx m = r, p' ctx' m' = r' at hr
  cases hr with
  | none => exact .none
  | some ha hm => exact .some (h _ ha) hm

theorem Related.bind {f f' : α → Act β} (hp : Related w p p' Q)
    (hf : ∀ a, Q a → Related w (f a) (f' a) R) : Related w (p >>= f) (p' >>= f') R := by
  refine ⟨fun {ctx ctx' m m'} hctx hm => ?_⟩
  have hr := hp.outcomes hctx hm
  rw [Act.bind_apply, Act.bind_apply]
  generalize p ctx m = r, p' ctx' m' = r' at hr
  cases hr with
  | none => exact .none
  | some ha hm => exact (hf _ ha).outcomes hctx hm

namespace Keeps

theorem pure {a : α} (ha : Q a) : Keeps w (Pure.pure a) Q := ⟨fun _ hm => .some ha hm⟩

theorem mono (hp : Keeps w p Q) (h : ∀ a, Q a → Q' a) : Keeps w p Q' := Related.mono hp h

theorem bind {f : α → Act β} (hp : Keeps w p Q) (hf : ∀ a, Q a → Keeps w (f a) R) :
    Keeps w (p >>= f) R := Related.bind hp hf

theorem read {f : Store → α} (h : ∀ s, s.Confined w → Q (f s)) : Keeps w (Act.read f) Q := by
  refine ⟨fun {_ _ m m'} _ hm => ?_⟩
  show Outcomes w Q (some (f m.store, m)) (some (f m'.store, m'))
  rw [hm.store]
  exact .some (h _ hm.confined) hm

theorem updateGet {f : Store → α × Store} (h : ∀ s, s.Confined w → Q (f s).1 ∧ (f s).2.Confined w) :
    Keeps w (Act.updateGet f) Q := by
  refine ⟨fun {_ _ m m'} _ hm => ?_⟩
  show Outcomes w Q (some ((f m.store).1, { m with store := (f m.store).2 }))
    (some ((f m'.store).1, { m' with store := (f m'.store).2 }))
  rw [hm.store]
  obtain ⟨ha, hs⟩ := h _ hm.confined
  exact .some ha ⟨rfl, hs, hm.threads⟩

theorem look {f : Store → α} : Keeps w (Act.read f) fun _ => True := read fun _ _ => trivial

theorem update {f : Store → Store} {Q : Unit → Prop} (hq : Q ())
    (h : ∀ s, s.Confined w → (f s).Confined w) : Keeps w (Act.update f) Q :=
  updateGet (f := fun s => ((), f s)) fun s hs => ⟨hq, h s hs⟩

theorem context {f : Ctx → Act α}
    (h : ∀ ctx ctx' : Ctx, ctx.Alike w ctx' → Related w (f ctx) (f ctx') Q) :
    Keeps w (Act.context >>= f) Q := ⟨fun hctx hm => (h _ _ hctx).outcomes hctx hm⟩

theorem thread {f : Thread → Act α} {id : Nat}
    (h : ∀ t t' : Thread, t.Alike w t' → Related w (f t) (f t') Q) :
    Keeps w (Act.thread id >>= f) Q :=
  ⟨fun hctx hm => (h _ _ (hm.threads.thread id)).outcomes hctx hm⟩

theorem setThread {t : Thread} {Q : Unit → Prop} (hq : Q ()) (ht : t.Alike w t) (id : Nat) :
    Keeps w (Act.setThread id t) Q :=
  ⟨fun _ hm => .some hq ⟨hm.store, hm.confined, hm.threads.set id ht⟩⟩

theorem newThread {t : Thread} {Q : Nat → Prop} (hq : ∀ n, Q n) (ht : t.Alike w t) :
    Keeps w (Act.newThread t) Q := by
  refine ⟨fun {_ _ m m'} _ hm => ?_⟩
  show Outcomes w Q _ (some (m'.threads.size, _))
  rw [hm.threads.size]
  exact .some (hq _) ⟨hm.store, hm.confined, hm.threads.push ht⟩

theorem call {h : Handler} {fn : Value} {args : List Value} (hh : h.Clear w)
    (hf : fn.Callable w args) (ha : Clears w args) : Keeps w (Act.call h fn args) (Result.Clear w) :=
  ⟨fun hctx hm => hctx.call hh hf ha hm⟩

theorem newTable {t : Table} (he : ∀ v, t.Has v → v.Clear w) (hk : ∀ k ∈ t.keys, k.Clear w)
    (hm : t.metatable = none) : Keeps w (Act.newTable t) (Value.Clear w) :=
  updateGet fun _ hs => ⟨hs.fresh_table, hs.newTable he hk hm⟩

end Keeps

end Act

namespace Script

/-- What native code comes to: a result with this property, or something clear that it raises. -/
def Post (w : Ward) (Q : α → Prop) : Except Value α → Prop
  | .ok a => Q a
  | .error v => v.Clear w

def Keeps (w : Ward) (p : Script α) (Q : α → Prop) : Prop := Act.Keeps w p.run (Post w Q)

namespace Keeps

variable {p : Script α} {Q Q' : α → Prop} {R : β → Prop}

theorem pure {a : α} (ha : Q a) : Keeps w (Pure.pure a) Q := Act.Keeps.pure (Q := Post w Q) ha

theorem mono (hp : Keeps w p Q) (h : ∀ a, Q a → Q' a) : Keeps w p Q' :=
  Act.Keeps.mono hp fun r hr => match r with
    | .ok a => h a hr
    | .error _ => hr

theorem bind {f : α → Script β} (hp : Keeps w p Q) (hf : ∀ a, Q a → Keeps w (f a) R) :
    Keeps w (p >>= f) R :=
  Act.Keeps.bind hp fun r hr => match r with
    | .ok a => hf a hr
    | .error _ => Act.Keeps.pure hr

theorem map {f : α → β} (hp : Keeps w p Q) (hf : ∀ a, Q a → R (f a)) : Keeps w (f <$> p) R :=
  hp.bind fun a ha => pure (hf a ha)

theorem lift {p : Act α} (hp : Act.Keeps w p Q) : Keeps w (ExceptT.lift p) Q := by
  have h : Act.Keeps w (p >>= fun a => Pure.pure (Except.ok a)) (Post w Q) :=
    hp.bind fun a ha => .pure (Q := Post w Q) ha
  exact h

theorem read {f : Store → α} (h : ∀ s, s.Confined w → Q (f s)) : Keeps w (Script.read f) Q :=
  lift (.read h)

theorem look {f : Store → α} : Keeps w (Script.read f) fun _ => True := read fun _ _ => trivial

theorem updateGet {f : Store → α × Store} (h : ∀ s, s.Confined w → Q (f s).1 ∧ (f s).2.Confined w) :
    Keeps w (Script.updateGet f) Q := lift (.updateGet h)

theorem update {f : Store → Store} {Q : Unit → Prop} (hq : Q ())
    (h : ∀ s, s.Confined w → (f s).Confined w) : Keeps w (Script.update f) Q := lift (.update hq h)

theorem raise {v : Value} (hv : v.Clear w) : Keeps w (Script.raise v : Script α) Q :=
  Act.Keeps.pure (Q := Post w Q) hv

theorem ended {f : α → Script β} (hp : Keeps w p fun _ => False) : Keeps w (p >>= f) R :=
  hp.bind fun _ h => h.elim

theorem ite {c : Prop} [Decidable c] {q : Script α} (hp : Keeps w p Q) (hq : Keeps w q Q) :
    Keeps w (if c then p else q) Q := by
  split
  · exact hp
  · exact hq

/-- Code may look at the parts of its context that are the same in all contexts that are alike. -/
theorem context {f : Ctx → Script α}
    (h : ∀ ctx ctx' : Ctx, ctx.Alike w ctx' → f ctx' = f ctx ∧ Keeps w (f ctx) Q) :
    Keeps w (Script.context >>= f) Q := by
  refine ⟨fun {ctx ctx' m m'} hctx hm => ?_⟩
  obtain ⟨he, hk⟩ := h ctx ctx' hctx
  show Outcomes w (Post w Q) ((f ctx).run ctx m) ((f ctx').run ctx' m')
  rw [he]
  exact hk.outcomes hctx hm

/-! ### Calls -/

theorem call {fn : Value} {args : List Value} (hf : fn.Callable w args) (ha : Clears w args) :
    Keeps w (Script.call fn args) (Clears w) := by
  refine ⟨fun {ctx ctx' m m'} hctx hm => ?_⟩
  have h : Outcomes w _ _ _ := hctx.call hctx.clear hf ha hm
  show Outcomes w _ (ctx.call (ctx.handler ()) fn args m) (ctx'.call (ctx'.handler ()) fn args m')
  rw [hctx.handler]
  generalize ctx.call (ctx.handler ()) fn args m = r, ctx'.call (ctx.handler ()) fn args m' = r' at h
  cases h with
  | none => exact .none
  | @some r _ _ hr hm =>
    cases r with
    | ok vs => exact .some hr hm
    | error v => exact .some hr hm

theorem attempt {fn : Value} {args : List Value} (hf : fn.Callable w args) (ha : Clears w args) :
    Keeps w (Script.attempt fn args) (Result.Clear w) := by
  refine lift ⟨fun {ctx ctx' m m'} hctx hm => ?_⟩
  show Outcomes w _ (ctx.call (ctx.handler ()) fn args m) (ctx'.call (ctx'.handler ()) fn args m')
  rw [hctx.handler]
  exact hctx.call hctx.clear hf ha hm

/-! ### Loops -/

theorem mapM {f : α → Script β} (hf : ∀ a, Keeps w (f a) R) : ∀ (l : List α),
    Keeps w (l.mapM f) fun bs => ∀ b ∈ bs, R b
  | [] => by
    rw [List.mapM_nil]
    exact pure fun _ h => absurd h List.not_mem_nil
  | a :: l => by
    rw [List.mapM_cons]
    refine (hf a).bind fun b hb => (mapM hf l).bind fun bs hbs => pure ?_
    exact List.forall_mem_cons.mpr ⟨hb, hbs⟩

theorem forM {f : α → Script PUnit} : ∀ {l : List α}, (∀ a ∈ l, Keeps w (f a) fun _ => True) →
    Keeps w (l.forM f) fun _ => True
  | [], _ => pure trivial
  | a :: _, hf =>
    bind (hf a (.head _)) fun _ (_ : True) => forM fun a ha => hf a (.tail _ ha)

theorem foldlM {f : β → α → Script β} : ∀ {l : List α} {b : β}, (∀ b a, a ∈ l → R b →
    Keeps w (f b a) R) → R b → Keeps w (l.foldlM f b) R
  | [], _, _, hb => pure hb
  | a :: l, _, hf, hb => by
    rw [List.foldlM_cons]
    exact (hf _ a (.head _) hb).bind fun b hb => foldlM (fun b a ha => hf b a (.tail _ ha)) hb

theorem forIn {f : α → PUnit → Script (ForInStep PUnit)} : ∀ {l : List α},
    (∀ a ∈ l, Keeps w (f a ⟨⟩) fun r => r = .yield ⟨⟩) →
    Keeps w (ForIn.forIn l PUnit.unit f) fun _ => True
  | [], _ => pure trivial
  | a :: l, hf => by
    rw [List.forIn_cons]
    refine (hf a (.head _)).bind fun r hr => ?_
    subst hr
    exact forIn fun a ha => hf a (.tail _ ha)

/-! ### Complaints -/

theorem position (level : Nat) : Keeps w (Script.position level) fun _ => True := by
  refine context fun ctx ctx' hctx => ⟨by rw [hctx.sites], ?_⟩
  split
  · exact pure trivial
  · exact pure trivial

theorem complain (message : Bytes) : Keeps w (Script.complain message : Script α) Q :=
  (position 1).bind fun _ _ => raise trivial

theorem outOfMemory : Keeps w (Script.outOfMemory : Script α) Q :=
  (update trivial fun _ hs => hs.flagged true).bind fun _ (_ : True) => raise trivial

theorem reserve (more : Nat) : Keeps w (Script.reserve more) fun _ => True := by
  refine look.bind fun b _ => ?_
  split
  · exact outOfMemory
  · exact pure trivial

theorem badArgument (n : Nat) (message : Bytes) :
    Keeps w (Script.badArgument n message : Script α) Q := by
  refine context fun ctx ctx' hctx => ⟨by rw [hctx.sites, hctx.callee], ?_⟩
  simp only
  split
  · split
    · exact complain _
    · exact complain _
  · exact complain _
  · exact look.bind fun _ _ => complain _

theorem argType (args : List Value) (n : Nat) : Keeps w (Script.argType args n) fun _ => True := by
  unfold Script.argType
  split
  · exact pure trivial
  · exact read fun _ _ => trivial

theorem badType (args : List Value) (n : Nat) (expected : String) :
    Keeps w (Script.badType args n expected : Script α) Q :=
  (argType args n).bind fun _ _ => badArgument ..

/-! ### Arguments -/

section

variable {args : List Value} (ha : Clears w args) (n : Nat)

include ha

theorem checkAny : Keeps w (Script.checkAny args n) (Value.Clear w) := by
  unfold Script.checkAny
  split
  · next h => exact pure (ha.get h)
  · exact badArgument ..

theorem checkTable : Keeps w (Script.checkTable args n) fun id => ¬ w.table id := by
  unfold Script.checkTable
  have harg := ha.arg n
  split
  · next h =>
    rw [h] at harg
    exact pure harg
  · exact badType ..

theorem checkFunction : Keeps w (Script.checkFunction args n) (Value.Clear w) := by
  unfold Script.checkFunction
  have harg := ha.arg n
  split
  · next h =>
    rw [h] at harg
    exact pure harg
  · exact badType ..

end

section

variable (args : List Value) (n : Nat)

theorem checkThread : Keeps w (Script.checkThread args n) fun _ => True := by
  unfold Script.checkThread
  split
  · exact pure trivial
  · exact badType ..

theorem checkText : Keeps w (Script.checkText args n) fun _ => True := by
  unfold Script.checkText
  split
  · exact pure trivial
  · exact badType ..

theorem optText (default : Bytes) : Keeps w (Script.optText args n default) fun _ => True := by
  unfold Script.optText
  split
  · exact pure trivial
  · exact checkText ..

theorem checkInt : Keeps w (Script.checkInt args n) fun _ => True := by
  unfold Script.checkInt
  split
  · exact pure trivial
  · split
    · exact badArgument ..
    · exact badType ..

theorem optInt (default : Int64) : Keeps w (Script.optInt args n default) fun _ => True := by
  unfold Script.optInt
  split
  · exact pure trivial
  · exact checkInt ..

theorem checkNumber : Keeps w (Script.checkNumber args n) fun _ => True := by
  unfold Script.checkNumber
  split
  · exact pure trivial
  · exact badType ..

theorem checkDouble : Keeps w (Script.checkDouble args n) fun _ => True := by
  refine (checkNumber args n).bind fun x _ => ?_
  split
  · exact pure trivial
  · exact pure trivial

theorem checkOption (default : Option String) (words : List String) :
    Keeps w (Script.checkOption args n default words) fun _ => True := by
  unfold Script.checkOption
  extract_lets rest
  have hrest (b : Bytes) : Keeps w (rest b) fun _ => True := by
    simp only [rest]
    split
    · exact pure trivial
    · exact badArgument ..
  cases default with
  | none => exact (checkText ..).bind fun b _ => hrest b
  | some d => exact (optText ..).bind fun b _ => hrest b

end

/-! ### Operations on values -/

theorem refuse (activity : String) (v : Value) :
    Keeps w (Script.refuse activity v : Script α) Q :=
  look.bind fun _ _ => raise trivial

theorem index {object key : Value} (ho : object.Clear w) (hk : key.Clear w) :
    Keeps w (Script.index object key) (Value.Clear w) := by
  refine (read (Q := Store.Reads (Value.Clear w)) fun s hs =>
    Store.accessFrom_reads hs.toClosed key maxChain true ho).bind fun r hr => ?_
  cases hr with
  | value hv => exact pure hv
  | call hf ho => exact (call (.clear hf) (.cons ho (.one hk))).bind fun vs hvs => pure hvs.first
  | missing o first => exact refuse ..
  | endless => exact raise trivial

theorem index_entry {id : Nat} {name : Bytes} {Q : Value → Prop}
    (h : ∀ s : Store, s.Confined w → Q ((s.table id).getStr name) ∧ (s.table id).getStr name ≠ .nil) :
    Keeps w (Script.index (.table id) (.str name)) Q := by
  have haccess (s : Store) (hs : s.Confined w) :
      s.access (.table id) (.str name) = .value ((s.table id).getStr name) := by
    refine Store.access_of_raw ?_
    rw [Store.rawGet, Table.get_str]
    cases hv : (s.table id).getStr name with
    | nil => exact absurd hv (h s hs).2
    | _ => rfl
  refine (read (Q := fun r => ∃ v, r = .value v ∧ Q v) fun s hs =>
    ⟨_, haccess s hs, (h s hs).1⟩).bind fun r hr => ?_
  obtain ⟨v, rfl, hv⟩ := hr
  exact pure hv

/-- What is left to do after a write to a table. -/
def Assigns (w : Ward) : Placing → Prop
  | .call fn o => fn.Clear w ∧ o.Clear w
  | _ => True

theorem assign {object key value : Value} (ho : object.Clear w) (hk : key.Clear w)
    (hv : value.Clear w) : Keeps w (Script.assign object key value) fun _ => True := by
  unfold Script.assign
  extract_lets placed
  have hplaced : Keeps w placed (Assigns w) := by
    refine updateGet fun s hs => ?_
    have hp : Store.Places (Value.Clear w) s key value (s.place object key value) :=
      Store.placeFrom_places hs.toClosed key value maxChain true ho
    generalize s.place object key value = r at hp
    cases hp with
    | done hid hkey => exact ⟨trivial, hs.rawSet hid (hk.key hkey) hv⟩
    | call hf ho => exact ⟨⟨hf, ho⟩, hs⟩
    | missing => exact ⟨trivial, hs⟩
    | badKey => exact ⟨trivial, hs⟩
    | endless => exact ⟨trivial, hs⟩
  refine hplaced.bind fun r hr => ?_
  cases r with
  | done => exact pure trivial
  | call fn o =>
    refine (call (.clear hr.1) (.cons hr.2 (.cons hk (.one hv)))).bind fun _ _ => pure trivial
  | missing o first => exact refuse ..
  | badKey => exact raise trivial
  | endless => exact raise trivial

theorem text {v : Value} (hv : v.Clear w) : Keeps w (Script.text v) fun _ => True := by
  refine (read (Q := Value.Clear w) fun s hs => hs.metafield hv _).bind fun h hh => ?_
  split
  · split
    · exact pure trivial
    · exact pure trivial
    · exact pure trivial
    · split
      · exact pure trivial
      · exact look.bind fun _ _ => pure trivial
  · refine (call (.clear hh) (.one hv)).bind fun vs _ => ?_
    split
    · exact pure trivial
    · exact pure trivial
    · exact pure trivial
    · exact complain _

theorem length {v : Value} (hv : v.Clear w) : Keeps w (Script.length v) fun _ => True := by
  refine (read (Q := Value.Clear w) fun s hs => hs.metafield hv _).bind fun h hh => ?_
  extract_lets rest
  have hrest (r : Value) : Keeps w (rest r) fun _ => True := by
    simp only [rest]
    split
    · exact pure trivial
    · exact complain _
  split
  · split
    · exact look.bind fun _ _ => .bind (Q := fun _ => True) (pure trivial) fun _ _ => hrest _
    · exact .bind (Q := fun _ => True) (pure trivial) fun _ _ => hrest _
    · exact (refuse _ _).ended
  · refine (call (.clear hh) (.one hv)).bind fun _ _ => ?_
    exact .bind (Q := fun _ => True) (pure trivial) fun _ _ => hrest _

theorem less {a b : Value} (ha : a.Clear w) (hb : b.Clear w) :
    Keeps w (Script.less a b) fun _ => True := by
  unfold Script.less
  split
  · exact pure trivial
  · refine (read (Q := Value.Clear w) fun s hs => hs.clear_binaryMeta ha hb _).bind fun h hh => ?_
    split
    · refine look.bind fun ta _ => ?_
      refine look.bind fun tb _ => ?_
      split
      · exact raise trivial
      · exact raise trivial
    · exact (call (.clear hh) (.cons ha (.one hb))).bind fun _ _ => pure trivial

end Keeps

end Script

/-! ## Errors at the border -/

namespace Act.Keeps

theorem caught : Keeps w Act.caught fun _ => True := update trivial fun _ hs => hs.flagged false

theorem withTraceback : ∀ (n : Nat) {v : Value}, v.Clear w →
    Keeps w (Act.withTraceback n v) (Value.Clear w)
  | 0, _, _ => pure trivial
  | n + 1, v, hv => by
    unfold Act.withTraceback
    split
    · exact pure trivial
    · split
      · exact pure hv
      · refine Act.Keeps.bind (Script.Keeps.text hv) fun r hr => ?_
        split
        · exact pure trivial
        · next e =>
          refine look.bind fun b _ => ?_
          split
          · exact pure hr
          · exact withTraceback n hr

theorem rounds {h : Value} (hh : h.Clear w) : ∀ (n : Nat) {v : Value}, v.Clear w →
    Keeps w (Act.handle.rounds h n v) (Value.Clear w)
  | 0, _, _ => pure trivial
  | n + 1, v, hv => by
    unfold Act.handle.rounds
    refine (call (h := .fn h) hh (.clear hh) (.one hv)).bind fun r hr => ?_
    split
    · exact pure (Clears.first hr)
    · refine look.bind fun b _ => ?_
      split
      · exact pure hr
      · exact rounds hh n hr

theorem handle {h : Handler} (hh : h.Clear w) {v : Value} (hv : v.Clear w) :
    Keeps w (Act.handle h v) (Value.Clear w) := by
  refine look.bind fun b _ => ?_
  split
  · exact pure hv
  · refine context fun ctx ctx' hctx => ?_
    rw [hctx.natives]
    cases h with
    | none => exact pure hv
    | traceback => exact withTraceback _ hv
    | fn h => exact rounds hh _ hv

end Act.Keeps

namespace Host

def Post (Q : α → Prop) : Except Failure α → Prop
  | .ok a => Q a
  | .error _ => True

def Keeps (w : Ward) (p : Host α) (Q : α → Prop) : Prop := Act.Keeps w p.run (Post Q)

namespace Keeps

variable {p : Host α} {Q Q' : α → Prop} {R : β → Prop}

theorem pure {a : α} (ha : Q a) : Keeps w (Pure.pure a) Q := Act.Keeps.pure (Q := Post Q) ha

theorem mono (hp : Keeps w p Q) (h : ∀ a, Q a → Q' a) : Keeps w p Q' :=
  Act.Keeps.mono hp fun r hr => match r with
    | .ok a => h a hr
    | .error _ => trivial

theorem bind {f : α → Host β} (hp : Keeps w p Q) (hf : ∀ a, Q a → Keeps w (f a) R) :
    Keeps w (p >>= f) R :=
  Act.Keeps.bind hp fun r hr => match r with
    | .ok a => hf a hr
    | .error _ => Act.Keeps.pure trivial

theorem lift {p : Act α} (hp : Act.Keeps w p Q) : Keeps w (ExceptT.lift p) Q := by
  have h : Act.Keeps w (p >>= fun a => Pure.pure (Except.ok a)) (Post Q) :=
    hp.bind fun a ha => .pure (Q := Post Q) ha
  exact h

theorem read {f : Store → α} (h : ∀ s, s.Confined w → Q (f s)) : Keeps w (Host.read f) Q :=
  lift (.read h)

theorem updateGet {f : Store → α × Store} (h : ∀ s, s.Confined w → Q (f s).1 ∧ (f s).2.Confined w) :
    Keeps w (Host.updateGet f) Q := lift (.updateGet h)

theorem update {f : Store → Store} {Q : Unit → Prop} (hq : Q ())
    (h : ∀ s, s.Confined w → (f s).Confined w) : Keeps w (Host.update f) Q := lift (.update hq h)

theorem fail (f : Failure) : Keeps w (Host.fail f : Host α) Q := Act.Keeps.pure (Q := Post Q) trivial

theorem attempt (hp : Keeps w p Q) : Keeps w (ExceptT.lift p.run) (Post Q) := lift hp

theorem result (hp : Keeps w p Q) {ctx : Ctx} {m m' : Machine} {r : Except Failure α}
    (hctx : ctx.Alike w ctx) (hm : m.Alike w m) (h : p.run ctx m = some (r, m')) :
    Post Q r ∧ m'.Alike w m' := by
  have ho : Outcomes w (Post Q) (p.run ctx m) (p.run ctx m) := hp.outcomes hctx hm
  rw [h] at ho
  cases ho with
  | some hr hm => exact ⟨hr, hm⟩

theorem ok (hp : Keeps w p Q) {ctx : Ctx} {m m' : Machine} {a : α} (hctx : ctx.Alike w ctx)
    (hm : m.Alike w m) (h : p.run ctx m = some (.ok a, m')) : Q a ∧ m'.Alike w m' :=
  hp.result hctx hm h

theorem forIn {β : Type} {f : β → PUnit → Host (ForInStep PUnit)} : ∀ {l : List β},
    (∀ a ∈ l, Keeps w (f a ⟨⟩) fun r => r = .yield ⟨⟩) →
    Keeps w (ForIn.forIn l PUnit.unit f) fun _ => True
  | [], _ => pure trivial
  | a :: l, hf => by
    rw [List.forIn_cons]
    refine (hf a (.head _)).bind fun r hr => ?_
    subst hr
    exact forIn fun a ha => hf a (.tail _ ha)

theorem errorOf {v : Value} (hv : v.Clear w) : Act.Keeps w (Host.errorOf v) fun _ => True := by
  refine (Act.Keeps.handle (h := .traceback) trivial hv).bind fun v _ => ?_
  refine Act.Keeps.caught.bind fun _ _ => ?_
  split
  · exact .read fun _ _ => trivial
  · exact .pure trivial
  · exact .pure trivial

theorem ofScript {p : Script α} (hp : Script.Keeps w p Q) : Keeps w (Host.ofScript p) Q := by
  have h : Act.Keeps w (withReader (fun ctx => { ctx with handler := fun _ => .traceback }) p.run)
      (Script.Post w Q) := ⟨fun hctx hm => hp.outcomes hctx.traceback hm⟩
  refine Act.Keeps.bind h fun r hr => ?_
  cases r with
  | ok a => exact .pure (Q := Post Q) hr
  | error v => exact (errorOf hr).bind fun e _ => .pure (Q := Post Q) trivial

theorem call {fn : Value} {args : List Value} (hf : fn.Callable w args) (ha : Clears w args) :
    Keeps w (Host.call fn args) (Clears w) := by
  refine Act.Keeps.bind Act.Keeps.look fun before _ => ?_
  refine (Act.Keeps.call (h := .traceback) trivial hf ha).bind fun r hr => ?_
  cases r with
  | ok vs => exact .pure (Q := Post _) hr
  | error v =>
    refine (errorOf hr).bind fun e _ => ?_
    extract_lets rest
    have hrest : Act.Keeps w (rest ()) (Post (Clears w)) := .pure trivial
    split
    · exact (Act.Keeps.update (Q := fun _ => True) trivial fun _ hs =>
        hs.of_alike (by constructor <;> rfl)).bind fun _ _ => hrest
    · exact hrest

theorem conversion (v : Value) (target : String) (message : Option String) :
    Keeps w (Host.conversion v target message : Host α) Q := fail _

theorem field {object : Value} (ho : object.Clear w) (name : String) :
    Keeps w (Host.field object name) (Value.Clear w) := ofScript (.index ho trivial)

theorem field_entry {id : Nat} {name : String} {Q : Value → Prop}
    (h : ∀ s : Store, s.Confined w → Q ((s.table id).getStr name) ∧ (s.table id).getStr name ≠ .nil) :
    Keeps w (Host.field (.table id) name) Q := ofScript (.index_entry h)

theorem setField {object v : Value} (ho : object.Clear w) (name : String) (hv : v.Clear w) :
    Keeps w (Host.setField object name v) fun _ => True := ofScript (.assign ho trivial hv)

theorem functionField {object : Value} (ho : object.Clear w) (name : String) :
    Keeps w (Host.functionField object name) (Value.Clear w) := by
  refine (field ho name).bind fun v hv => ?_
  split
  · exact pure hv
  · exact conversion ..

theorem functionField_entry {id : Nat} {name : String} {Q : Value → Prop}
    (h : ∀ s : Store, s.Confined w → ∃ f, (s.table id).getStr name = .fn f ∧ Q (.fn f)) :
    Keeps w (Host.functionField (.table id) name) Q := by
  refine (field_entry (Q := fun v => ∃ f, v = .fn f ∧ Q (.fn f)) fun s hs => ?_).bind fun v hv => ?_
  · obtain ⟨f, hf, hq⟩ := h s hs
    rw [hf]
    exact ⟨⟨f, rfl, hq⟩, nofun⟩
  · obtain ⟨f, rfl, hq⟩ := hv
    exact pure hq

theorem newFunction {f : Native} (hf : f.Clear w) : Keeps w (Host.newFunction f) (Value.Clear w) :=
  updateGet fun _ hs => ⟨hs.clear_newNative f, hs.newNative hf⟩

end Keeps

end Host

theorem Script.Keeps.ofHost {p : Host α} {Q : α → Prop} (hp : Host.Keeps w p Q) :
    Script.Keeps w (Script.ofHost p) Q := by
  refine Act.Keeps.bind hp fun r hr => ?_
  cases r with
  | ok a => exact .pure (Q := Script.Post w Q) hr
  | error f =>
    have hfault : Act.Keeps w (Act.updateGet fun s => s.newFault (.callback tracebackText f.toScript))
        (Value.Clear w) := .updateGet fun s hs => ⟨(trivial : (s.newFault _).1.Clear w), hs.newFault _⟩
    exact hfault.bind fun e he => .pure (Q := Script.Post w Q) he

end Cordon.Lua
