import Cordon.Lua.Invoke
import Cordon.Proofs.Lua.Closed
import Cordon.Proofs.Lua.Running

/-!
# Laws

A law is a relation between machines that native code keeps if the programs keep it which it calls: it
does nothing by itself but change the store, where what was printed and the functions stay as they
were, and put threads in place that have no program under way.
-/

namespace Cordon.Lua

variable {α β ε : Type} {R : Machine → Machine → Prop} {ctx : Ctx}

/-- What was printed is as it was, and so are the functions. -/
structure Store.Still (s s' : Store) : Prop where
  outputs : s'.outputs = s.outputs
  functions : ∀ id f, s.function? id = some f → s'.function? id = some f

namespace Store.Still

variable {s s' s'' : Store}

@[grind ←]
theorem of_eq (ho : s'.outputs = s.outputs) (hf : s'.functions = s.functions) : s.Still s' where
  outputs := ho
  functions id f h := by rwa [function?, hf]

theorem refl (s : Store) : s.Still s := .of_eq rfl rfl

theorem trans (h : s.Still s') (h' : s'.Still s'') : s.Still s'' where
  outputs := h'.outputs.trans h.outputs
  functions id f hf := h'.functions id f (h.functions id f hf)

@[grind .]
theorem rawSet (s : Store) (id : Nat) (k : Key) (v : Value) : s.Still (s.rawSet id k v) := .of_eq rfl rfl

@[grind .]
theorem rawSetStr (s : Store) (id : Nat) (k : Bytes) (v : Value) : s.Still (s.rawSetStr id k v) :=
  .of_eq rfl rfl

@[grind .]
theorem newTable (s : Store) (t : Table) : s.Still (s.newTable t).2 := .of_eq rfl rfl

@[grind .]
theorem setMetatable (s : Store) (id : Nat) (m : Option Nat) : s.Still (s.setMetatable id m) :=
  .of_eq rfl rfl

@[grind .]
theorem newCell (s : Store) (v : Value) : s.Still (s.newCell v).2 := .of_eq rfl rfl

@[grind .]
theorem setCell (s : Store) (id : Nat) (v : Value) : s.Still (s.setCell id v) := .of_eq rfl rfl

@[grind .]
theorem newFault (s : Store) (e : ScriptError) : s.Still (s.newFault e).2 := .of_eq rfl rfl

@[grind .]
theorem report (s : Store) (e : Event) : s.Still (s.report e) := .of_eq rfl rfl

@[grind .]
theorem setPermit (s : Store) (id : Nat) (l : AllowList Value) : s.Still (s.setPermit id l) :=
  .of_eq rfl rfl

@[grind .]
theorem newFunction (s : Store) (f : Callable) : s.Still (s.newFunction f).2 :=
  ⟨rfl, fun id f' h => by
    show (s.functions.push f)[id]? = some f'
    rw [Array.getElem?_push, if_neg (fun e => ?_), ← h]
    · rfl
    · rw [function?, e, Array.getElem?_eq_none (Nat.le_refl _)] at h
      cases h⟩

@[grind .]
theorem newNative (s : Store) (f : Native) : s.Still (s.newNative f).2 := newFunction s (.native f)

theorem newCells (cells : List Nat) : ∀ (vs : List Value) (s : Store),
    s.Still (s.newCells cells vs).2
  | [], s => refl s
  | v :: vs, s => (newCell s v).trans (newCells _ vs _)

theorem setItems (s : Store) (id : Nat) (vs : List Value) : s.Still (s.setItems id vs) := by
  unfold Store.setItems
  split
  · exact refl s
  · exact .of_eq rfl rfl

theorem foldl {f : Store → α → Store} (h : ∀ (s : Store) a, s.Still (f s a)) (l : List α) (s : Store) :
    s.Still (l.foldl f s) := by
  induction l generalizing s with
  | nil => exact refl s
  | cons a l ih => exact (h s a).trans (ih _)

theorem place {object key value : Value} (h : s.place object key value = .done s') :
    s.Still s' := by
  have hp : s.Places (fun _ => True) key value (s.place object key value) :=
    Store.placeFrom_places ⟨trivial, fun _ _ => trivial, fun _ _ => trivial, fun _ => trivial,
      fun _ => trivial⟩ key value maxChain true trivial
  rw [h] at hp
  cases hp
  exact .of_eq rfl rfl

end Store.Still

/-- No program is under way in the thread. -/
def Thread.Idle : Thread → Prop
  | .suspended .. => False
  | _ => True

structure Law (R : Machine → Machine → Prop) : Prop where
  store : ∀ {s s'} threads, s.Still s' → R ⟨s, threads⟩ ⟨s', threads⟩
  setThread : ∀ s threads id {t : Thread}, t.Idle → R ⟨s, threads⟩ ⟨s, threads.setIfInBounds id t⟩
  newThread : ∀ s threads {t : Thread}, t.Idle → R ⟨s, threads⟩ ⟨s, threads.push t⟩
  trans : ∀ {m m' m''}, R m m' → R m' m'' → R m m''

theorem Law.refl (h : Law R) (m : Machine) : R m m := h.store _ (.refl m.store)

/-- The relation is a law, and programs that are called here keep it. -/
structure Ctx.Lawful (R : Machine → Machine → Prop) (ctx : Ctx) : Prop where
  law : Law R
  call : ∀ {handler f args m r m'}, ctx.call handler f args m = some (r, m') → R m m'

theorem Ctx.Lawful.handled (h : ctx.Lawful R) (handler : Unit → Handler) :
    Ctx.Lawful R { ctx with handler } := ⟨h.law, h.call⟩

/-! ## Ways to put code together -/

namespace Act

def Obeys (R : Machine → Machine → Prop) (ctx : Ctx) (p : Act α) : Prop :=
  ∀ m a m', p ctx m = some (a, m') → R m m'

namespace Obeys

variable (h : ctx.Lawful R)

include h

@[grind ←]
theorem pure (a : α) : Obeys R ctx (Pure.pure a : Act α) := fun _ _ _ e => by
  cases e
  exact h.law.refl _

@[grind ←]
theorem bind {p : Act α} {f : α → Act β} (hp : Obeys R ctx p) (hf : ∀ a, Obeys R ctx (f a)) :
    Obeys R ctx (p >>= f) := fun _ _ _ e => by
  rw [bind_apply] at e
  split at e
  · next ha => exact h.law.trans (hp _ _ _ ha) (hf _ _ _ _ e)
  · cases e

@[grind ←]
theorem read (f : Store → α) : Obeys R ctx (Act.read f) := fun _ _ _ e => by
  cases e
  exact h.law.refl _

@[grind ←]
theorem context : Obeys R ctx Act.context := fun _ _ _ e => by
  cases e
  exact h.law.refl _

theorem updateGet {f : Store → α × Store} (hf : ∀ s : Store, s.Still (f s).2) :
    Obeys R ctx (Act.updateGet f) := fun _ _ _ e => by
  cases e
  exact h.law.store _ (hf _)

theorem update {f : Store → Store} (hf : ∀ s : Store, s.Still (f s)) : Obeys R ctx (Act.update f) :=
  fun _ _ _ e => by
    cases e
    exact h.law.store _ (hf _)

theorem thread (id : Nat) : Obeys R ctx (Act.thread id) := fun _ _ _ e => by
  cases e
  exact h.law.refl _

theorem setThread (id : Nat) {t : Thread} (ht : t.Idle) : Obeys R ctx (Act.setThread id t) :=
  fun _ _ _ e => by
    cases e
    exact h.law.setThread _ _ _ ht

theorem newThread {t : Thread} (ht : t.Idle) : Obeys R ctx (Act.newThread t) := fun _ _ _ e => by
  cases e
  exact h.law.newThread _ _ ht

@[grind ←]
theorem call (handler : Handler) (f : Value) (args : List Value) :
    Obeys R ctx (Act.call handler f args) := fun _ _ _ e => h.call e

end Obeys

end Act

/-- Code that may fail keeps a law either way. -/
def Obeys (R : Machine → Machine → Prop) (ctx : Ctx) (p : ExceptT ε Act α) : Prop :=
  Act.Obeys R ctx p.run

namespace Obeys

variable (h : ctx.Lawful R)

include h

@[grind ←]
theorem pure (a : α) : Obeys R ctx (Pure.pure a : ExceptT ε Act α) :=
  Act.Obeys.pure h (Except.ok a : Except ε α)

theorem throw (e : ε) : Obeys R ctx (ExceptT.mk (Pure.pure (.error e)) : ExceptT ε Act α) :=
  Act.Obeys.pure h (Except.error e : Except ε α)

@[grind ←]
theorem bind {p : ExceptT ε Act α} {f : α → ExceptT ε Act β} (hp : Obeys R ctx p)
    (hf : ∀ a, Obeys R ctx (f a)) : Obeys R ctx (p >>= f) := by
  refine Act.Obeys.bind h hp fun r => ?_
  cases r with
  | ok a => exact hf a
  | error e => exact Act.Obeys.pure h (Except.error e : Except ε β)

@[grind ←]
theorem lift {p : Act α} (hp : Act.Obeys R ctx p) :
    Obeys R ctx (ExceptT.lift p : ExceptT ε Act α) :=
  Act.Obeys.bind h hp fun a => Act.Obeys.pure h (Except.ok a : Except ε α)

theorem update {f : Store → Store} (hf : ∀ s : Store, s.Still (f s)) :
    Obeys R ctx (ExceptT.lift (Act.update f) : ExceptT ε Act Unit) := lift h (.update h hf)

theorem updateGet {f : Store → α × Store} (hf : ∀ s : Store, s.Still (f s).2) :
    Obeys R ctx (ExceptT.lift (Act.updateGet f) : ExceptT ε Act α) := lift h (.updateGet h hf)

@[grind ←]
theorem forIn {f : β → α → ExceptT ε Act (ForInStep α)} (hf : ∀ x a, Obeys R ctx (f x a)) :
    ∀ (l : List β) (a : α), Obeys R ctx (forIn l a f)
  | [], a => pure h a
  | x :: l, a => by
    rw [List.forIn_cons]
    refine bind h (hf x a) fun r => ?_
    cases r with
    | done a => exact pure h a
    | yield a => exact forIn hf l a

@[grind ←]
theorem mapM {f : α → ExceptT ε Act β} (hf : ∀ a, Obeys R ctx (f a)) :
    ∀ l : List α, Obeys R ctx (l.mapM f)
  | [] => by
    rw [List.mapM_nil]
    exact pure h _
  | a :: l => by
    rw [List.mapM_cons]
    exact bind h (hf a) fun b => bind h (mapM hf l) fun bs => pure h _

@[grind ←]
theorem foldlM {f : β → α → ExceptT ε Act β} (hf : ∀ b a, Obeys R ctx (f b a)) :
    ∀ (l : List α) (b : β), Obeys R ctx (l.foldlM f b)
  | [], b => pure h b
  | a :: l, b => by
    rw [List.foldlM_cons]
    exact bind h (hf b a) fun b => foldlM hf l b

@[grind ←]
theorem forM {f : α → ExceptT ε Act PUnit} (hf : ∀ a, Obeys R ctx (f a)) :
    ∀ l : List α, Obeys R ctx (l.forM f)
  | [] => pure h _
  | a :: l => bind h (hf a) fun _ => forM hf l

end Obeys

/-! ## What scripts are made of -/

namespace Script

variable (h : ctx.Lawful R)

include h

@[grind ←]
theorem read_obeys (f : Store → α) : Obeys R ctx (read f) := .lift h (.read h f)

@[grind ←]
theorem update_obeys {f : Store → Store} (hf : ∀ s : Store, s.Still (f s)) : Obeys R ctx (update f) :=
  .update h hf

@[grind ←]
theorem updateGet_obeys {f : Store → α × Store} (hf : ∀ s : Store, s.Still (f s).2) :
    Obeys R ctx (updateGet f) := .updateGet h hf

@[grind ←]
theorem context_obeys : Obeys R ctx context := .lift h (.context h)

@[grind ←]
theorem raise_obeys (v : Value) : Obeys R ctx (raise v : Script α) := .throw h v

@[grind ←]
theorem call_obeys (f : Value) (args : List Value) : Obeys R ctx (call f args) :=
  Act.Obeys.bind h (.context h) fun _ => .call h _ f args

@[grind ←]
theorem attempt_obeys (f : Value) (args : List Value) : Obeys R ctx (attempt f args) :=
  .lift h (Act.Obeys.bind h (.context h) fun _ => .call h _ f args)

@[grind ←]
theorem position_obeys (level : Nat) : Obeys R ctx (position level) := by
  refine .bind h (context_obeys h) fun c => ?_
  split
  · exact .pure h _
  · exact .pure h _

@[grind ←]
theorem complain_obeys (message : Bytes) : Obeys R ctx (complain message : Script α) :=
  .bind h (position_obeys h 1) fun _ => raise_obeys h _

@[grind ←]
theorem outOfMemory_obeys : Obeys R ctx (outOfMemory : Script α) :=
  .bind h (update_obeys h fun _ => .of_eq rfl rfl) fun _ => raise_obeys h _

@[grind ←]
theorem reserve_obeys (more : Nat) : Obeys R ctx (reserve more) := by
  refine .bind h (read_obeys h _) fun b => ?_
  split
  · exact outOfMemory_obeys h
  · exact .pure h _

@[grind ←]
theorem badArgument_obeys (n : Nat) (message : Bytes) :
    Obeys R ctx (badArgument n message : Script α) := by
  refine .bind h (context_obeys h) fun c => ?_
  split
  · split
    · exact complain_obeys h _
    · exact complain_obeys h _
  · exact complain_obeys h _
  · exact .bind h (read_obeys h _) fun _ => complain_obeys h _

@[grind ←]
theorem argType_obeys (args : List Value) (n : Nat) : Obeys R ctx (argType args n) := by
  unfold argType
  split
  · exact .pure h _
  · exact read_obeys h _

@[grind ←]
theorem badType_obeys (args : List Value) (n : Nat) (expected : String) :
    Obeys R ctx (badType args n expected : Script α) :=
  .bind h (argType_obeys h _ _) fun _ => badArgument_obeys h _ _

section

variable (args : List Value) (n : Nat)

@[grind ←]
theorem checkAny_obeys : Obeys R ctx (checkAny args n) := by
  unfold checkAny
  split
  · exact .pure h _
  · exact badArgument_obeys h _ _

@[grind ←]
theorem checkTable_obeys : Obeys R ctx (checkTable args n) := by
  unfold checkTable
  split
  · exact .pure h _
  · exact badType_obeys h _ _ _

@[grind ←]
theorem checkFunction_obeys : Obeys R ctx (checkFunction args n) := by
  unfold checkFunction
  split
  · exact .pure h _
  · exact badType_obeys h _ _ _

@[grind ←]
theorem checkThread_obeys : Obeys R ctx (checkThread args n) := by
  unfold checkThread
  split
  · exact .pure h _
  · exact badType_obeys h _ _ _

@[grind ←]
theorem checkText_obeys : Obeys R ctx (checkText args n) := by
  unfold checkText
  split
  · exact .pure h _
  · exact badType_obeys h _ _ _

@[grind ←]
theorem optText_obeys (default : Bytes) : Obeys R ctx (optText args n default) := by
  unfold optText
  split
  · exact .pure h _
  · exact checkText_obeys h _ _

@[grind ←]
theorem checkInt_obeys : Obeys R ctx (checkInt args n) := by
  unfold checkInt
  split
  · exact .pure h _
  · split
    · exact badArgument_obeys h _ _
    · exact badType_obeys h _ _ _

@[grind ←]
theorem optInt_obeys (default : Int64) : Obeys R ctx (optInt args n default) := by
  unfold optInt
  split
  · exact .pure h _
  · exact checkInt_obeys h _ _

@[grind ←]
theorem checkNumber_obeys : Obeys R ctx (checkNumber args n) := by
  unfold checkNumber
  split
  · exact .pure h _
  · exact badType_obeys h _ _ _

@[grind ←]
theorem checkDouble_obeys : Obeys R ctx (checkDouble args n) := by
  refine .bind h (checkNumber_obeys h _ _) fun x => ?_
  split
  · exact .pure h _
  · exact .pure h _

@[grind ←]
theorem checkOption_obeys (default : Option String) (words : List String) :
    Obeys R ctx (checkOption args n default words) := by
  unfold checkOption
  extract_lets rest
  have hrest (b : Bytes) : Obeys R ctx (rest b) := by
    simp only [rest]
    split
    · exact .pure h _
    · exact badArgument_obeys h _ _
  cases default with
  | none => exact .bind h (checkText_obeys h _ _) hrest
  | some d => exact .bind h (optText_obeys h _ _ _) hrest

end

/-! ## Operations on values -/

@[grind ←]
theorem refuse_obeys (activity : String) (v : Value) : Obeys R ctx (refuse activity v : Script α) :=
  .bind h (read_obeys h _) fun _ => raise_obeys h _

@[grind ←]
theorem index_obeys (object key : Value) : Obeys R ctx (index object key) := by
  refine .bind h (read_obeys h _) fun r => ?_
  cases r with
  | value v => exact .pure h _
  | call f o => exact .bind h (call_obeys h _ _) fun _ => .pure h _
  | missing o first => exact refuse_obeys h _ _
  | endless => exact raise_obeys h _

@[grind ←]
theorem assign_obeys (object key value : Value) : Obeys R ctx (assign object key value) := by
  unfold assign
  extract_lets placed
  have hplaced : Obeys R ctx placed := by
    refine updateGet_obeys h fun s => ?_
    cases hp : s.place object key value with
    | done s' => exact .place hp
    | _ => exact .refl s
  refine .bind h hplaced fun r => ?_
  cases r with
  | done => exact .pure h _
  | call f o => exact .bind h (call_obeys h _ _) fun _ => .pure h _
  | missing o first => exact refuse_obeys h _ _
  | badKey => exact raise_obeys h _
  | endless => exact raise_obeys h _

@[grind ←]
theorem text_obeys (v : Value) : Obeys R ctx (text v) := by
  refine .bind h (read_obeys h _) fun m => ?_
  split
  · split
    · exact .pure h _
    · exact .pure h _
    · exact .pure h _
    · split
      · exact .pure h _
      · exact .bind h (read_obeys h _) fun _ => .pure h _
  · refine .bind h (call_obeys h _ _) fun vs => ?_
    split
    · exact .pure h _
    · exact .pure h _
    · exact .pure h _
    · exact complain_obeys h _

@[grind ←]
theorem length_obeys (v : Value) : Obeys R ctx (length v) := by
  refine .bind h (read_obeys h _) fun m => ?_
  extract_lets rest
  have hrest (r : Value) : Obeys R ctx (rest r) := by
    simp only [rest]
    split
    · exact .pure h _
    · exact complain_obeys h _
  split
  · split
    · exact .bind h (read_obeys h _) fun _ => .bind h (.pure h _) hrest
    · exact .bind h (.pure h _) hrest
    · exact .bind h (refuse_obeys h _ _) hrest
  · exact .bind h (call_obeys h _ _) fun _ => .bind h (.pure h _) hrest

@[grind ←]
theorem less_obeys (a b : Value) : Obeys R ctx (less a b) := by
  unfold less
  split
  · exact .pure h _
  · refine .bind h (read_obeys h _) fun m => ?_
    split
    · refine .bind h (read_obeys h _) fun ta => .bind h (read_obeys h _) fun tb => ?_
      split
      · exact raise_obeys h _
      · exact raise_obeys h _
    · exact .bind h (call_obeys h _ _) fun _ => .pure h _

end Script

/-! ## Host code -/

section

variable (h : ctx.Lawful R)

include h

theorem Act.withTraceback_obeys : ∀ (rounds : Nat) (v : Value),
    Act.Obeys R ctx (Act.withTraceback rounds v)
  | 0, _ => .pure h _
  | rounds + 1, v => by
    unfold Act.withTraceback
    split
    · exact .pure h _
    · split
      · exact .pure h _
      · refine .bind h (Script.text_obeys h _) fun r => ?_
        cases r with
        | ok b => exact .pure h _
        | error e =>
          refine .bind h (.read h _) fun failed => ?_
          split
          · exact .pure h _
          · exact withTraceback_obeys rounds e

theorem Act.rounds_obeys (f : Value) : ∀ (n : Nat) (v : Value),
    Act.Obeys R ctx (Act.handle.rounds f n v)
  | 0, _ => .pure h _
  | n + 1, v => by
    refine .bind h (.call h _ _ _) fun r => ?_
    cases r with
    | ok vs => exact .pure h _
    | error e =>
      refine .bind h (.read h _) fun failed => ?_
      split
      · exact .pure h _
      · exact rounds_obeys f n e

@[grind ←]
theorem Act.handle_obeys (handler : Handler) (v : Value) : Act.Obeys R ctx (Act.handle handler v) := by
  refine .bind h (.read h _) fun failed => ?_
  split
  · exact .pure h _
  · refine .bind h (.context h) fun c => ?_
    cases handler with
    | none => exact .pure h _
    | traceback => exact Act.withTraceback_obeys h _ v
    | fn f => exact Act.rounds_obeys h f _ v

@[grind ←]
theorem Act.caught_obeys : Act.Obeys R ctx Act.caught := .update h fun _ => .of_eq rfl rfl

namespace Host

@[grind ←]
theorem read_obeys (f : Store → α) : Obeys R ctx (read f) := .lift h (.read h f)

@[grind ←]
theorem update_obeys {f : Store → Store} (hf : ∀ s : Store, s.Still (f s)) : Obeys R ctx (update f) :=
  .update h hf

@[grind ←]
theorem updateGet_obeys {f : Store → α × Store} (hf : ∀ s : Store, s.Still (f s).2) :
    Obeys R ctx (updateGet f) := .updateGet h hf

@[grind ←]
theorem fail_obeys (e : Failure) : Obeys R ctx (fail e : Host α) := .throw h e

@[grind ←]
theorem errorOf_obeys (v : Value) : Act.Obeys R ctx (errorOf v) := by
  refine .bind h (Act.handle_obeys h _ _) fun v => .bind h (Act.caught_obeys h) fun _ => ?_
  split
  · exact .read h _
  · exact .pure h _
  · exact .pure h _

@[grind ←]
theorem ofScript_obeys {p : Script α}
    (hp : ∀ ctx : Ctx, ctx.Lawful R → Obeys R ctx p) : Obeys R ctx (ofScript p) := by
  refine Act.Obeys.bind h (p := withReader _ p.run) (hp _ (h.handled _)) fun r => ?_
  cases r with
  | ok a => exact .pure h _
  | error v => exact .bind h (errorOf_obeys h v) fun _ => .pure h _

@[grind ←]
theorem call_obeys (f : Value) (args : List Value) : Obeys R ctx (Host.call f args) := by
  refine Act.Obeys.bind h (.read h _) fun before => .bind h (.call h _ f args) fun r => ?_
  cases r with
  | ok vs => exact .pure h _
  | error v =>
    refine .bind h (errorOf_obeys h v) fun e => ?_
    split
    · exact .bind h (.update h fun _ => .of_eq rfl rfl) fun _ => .pure h _
    · exact .pure h _

@[grind ←]
theorem conversion_obeys (v : Value) (target : String) (message : Option String) :
    Obeys R ctx (conversion v target message : Host α) := fail_obeys h _

@[grind ←]
theorem field_obeys (object : Value) (name : String) : Obeys R ctx (field object name) :=
  ofScript_obeys h fun _ h => Script.index_obeys h _ _

@[grind ←]
theorem functionField_obeys (object : Value) (name : String) :
    Obeys R ctx (functionField object name) := by
  refine .bind h (field_obeys h _ _) fun v => ?_
  split
  · exact .pure h _
  · exact conversion_obeys h _ _ _

end Host

@[grind ←]
theorem Script.ofHost_obeys {p : Host α} (hp : Obeys R ctx p) : Obeys R ctx (Script.ofHost p) := by
  refine Act.Obeys.bind h hp fun r => ?_
  cases r with
  | ok a => exact .pure h _
  | error e => exact .bind h (.updateGet h fun _ => .of_eq rfl rfl) fun _ => .pure h _

end

end Cordon.Lua
