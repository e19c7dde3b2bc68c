import Cordon.Proofs.Modules.Sessions
import Cordon.Proofs.Sandbox.Neighbours
import Cordon.Proofs.Sandbox.Printing

/-!
# Operations on a sandbox

The host allows, binds and removes modules and installs the admin module by the handle of a sandbox, and
programs print and require by functions that hold it. None of it disturbs another sandbox, unless the
code does that is run on the way.
-/

namespace Cordon

open Lua

variable {g : Registry} {p : Parts} {s : Store}

/-- What is done to a sandbox by its handle, or by the functions that its programs have for printing and
for requiring. -/
inductive Operation where
  | allow (module : String) (exposed : Option String)
  | require (module : String) (exposed : Option String)
  | remove (name : String)
  | installAdmin (name : String)
  | print (tostring : Value) (echo : Bool) (args : List Value)
  | resolve (args : List Value)
  | finish (args : List Value)

def Operation.run (b : Sandbox) : Operation → Host (List Value)
  | allow module exposed => do
    b.allow module exposed
    return []
  | require module exposed => do
    b.require module exposed
    return []
  | remove name => do
    b.remove name
    return []
  | installAdmin name => return [.table (← b.installAdmin name)]
  | print tostring echo args => GateFn.runPrint tostring b.output echo args
  | resolve args => GateFn.runResolve b.modules args
  | finish args => GateFn.runFinish b.modules args

theorem GateFn.texts_maintains {R : Store → Store → Prop} {n : Nat} {free : Nat → Prop} {ctx : Ctx}
    (hR : Lasting R n free) (hctx : ctx.Maintains R) (tostring : Value) : ∀ vs : List Value,
    Maintains R n ctx (GateFn.texts tostring vs)
  | [] => .pure hR _
  | v :: vs => by
    refine .bind hR (Host.call_maintains hR hctx _ _) fun r => ?_
    dsimp only
    split
    · exact .bind hR (texts_maintains hR hctx tostring vs) fun _ => .pure hR _
    · exact .throw hR _

section

variable {ctx : Ctx} {m m' : Machine} {b : Sandbox} (hb : Stranger g p b)
include hb

theorem Undisturbed.bind (s : Store) (k : Bytes) (v : Value) :
    Undisturbed g p s (s.rawSetStr b.globals k v) :=
  .rawSet hb.globals.1 hb.globals.2.1 hb.globals.2.2 _ v

theorem Undisturbed.record (s : Store) (k : Bytes) (v : Value) (e : Event) :
    Undisturbed g p s ((s.record b.modules.loaded (.str k) v).report e) :=
  .trans (.rawSet hb.loaded.1 hb.loaded.2.1 hb.loaded.2.2 _ v) (.of_shared rfl)

variable {n : Nat} (hR : Lasting (Undisturbed g p) n fun id => id ≠ p.modules.permit)
include hR

omit hb in
theorem GateFn.checkString_maintains (function : String) (args : List Value) (i : Nat) :
    Maintains (Undisturbed g p) n ctx (GateFn.checkString function args i) := by
  unfold GateFn.checkString
  split
  · exact .throw hR _
  · split
    · exact .pure hR _
    · exact .throw hR _

theorem Sandbox.remove_undisturbed (name : String) :
    Maintains (Undisturbed g p) n ctx (b.remove name) :=
  .update hR fun _ => ((Undisturbed.setPermit hb.permit _).trans (.bind hb _ _ _)).trans
    (.record hb _ _ _ _)

theorem GateFn.runFinish_undisturbed (args : List Value) :
    Maintains (Undisturbed g p) n ctx (GateFn.runFinish b.modules args) := by
  refine .bind hR (GateFn.checkString_maintains hR _ _ _) fun name => ?_
  exact .bind hR (.bind hR (.update hR fun s => .record hb s name _ _) fun _ => .pure hR _) fun _ =>
    .pure hR _

variable (hctx : ctx.Maintains (Undisturbed g p))
include hctx

theorem Sandbox.require_undisturbed (module : String) (exposed : Option String) :
    Maintains (Undisturbed g p) n ctx (b.require module exposed) :=
  .bind hR (privilegedRequire_maintains hR hctx module) fun _ =>
  .bind hR (.update hR fun s => .bind hb s _ _) fun _ => .update hR fun _ => hR.rest rfl

theorem GateFn.runPrint_undisturbed (tostring : Value) (echo : Bool) (args : List Value) :
    Maintains (Undisturbed g p) n ctx (GateFn.runPrint tostring b.output echo args) := by
  refine .bind hR (GateFn.texts_maintains hR hctx tostring args) fun ts => ?_
  have hline : Maintains (Undisturbed g p) n ctx (do
      Host.update fun s => s.printLine b.output (String.intercalate "\t" ts)
      return [] : Host (List Value)) :=
    .bind hR (.update hR fun s => .printLine hb.output _) fun _ => .pure hR _
  dsimp only
  split
  · exact .bind hR (.update hR fun s => hR.rest rfl) fun _ => hline
  · exact hline

theorem GateFn.runResolve_undisturbed (args : List Value) :
    Maintains (Undisturbed g p) n ctx (GateFn.runResolve b.modules args) := by
  refine .bind hR (GateFn.checkString_maintains hR _ _ _) fun name => ?_
  have hresolve : Maintains (Undisturbed g p) n ctx (b.modules.resolve name) := by
    refine .bind hR (.read hR _) fun cached => ?_
    split
    · exact .bind hR (.update hR fun s => hR.rest rfl) fun _ => .pure hR _
    · refine .bind hR (ModuleSystem.find_maintains hR hctx b.modules name) fun loader => ?_
      split
      · exact .bind hR (.bind hR (.update hR fun s => .record hb s name _ _) fun _ => .pure hR _)
          fun _ => .pure hR _
      · exact .pure hR _
  refine .bind hR hresolve fun r => ?_
  split
  · exact .pure hR _
  · exact .pure hR _

end

/-! ## The admin module -/

/-- The functions of the admin module of a sandbox. -/
def Sandbox.adminFunctions (b : Sandbox) : List (String × GateFn) :=
  [("require", .adminRequire b), ("allow", .adminAllow b), ("remove", .adminRemove b),
    ("permitted", .adminPermitted b)]

namespace Lua.Store

/-- Puts functions into a table, each under its name. -/
def equip (t : Nat) : List (String × GateFn) → Store → Store
  | [], s => s
  | (name, f) :: fs, s =>
    equip t fs ((s.newFunction (.native (.gate f))).2.rawSetStr t name (.fn s.functions.size))

theorem function?_equip {t id : Nat} {f : Callable} : ∀ {fs : List (String × GateFn)} {s : Store},
    s.function? id = some f → (equip t fs s).function? id = some f
  | [], _, h => h
  | _ :: _, _, h => by
    rw [equip]
    exact function?_equip (Store.function?_newFunction_of_some _ h _)

theorem tables_equip_size (t : Nat) : ∀ (fs : List (String × GateFn)) (s : Store),
    (equip t fs s).tables.size = s.tables.size
  | [], _ => rfl
  | _ :: fs, s => by
    rw [equip, tables_equip_size t fs, rawSetStr, tables_rawSet_size]
    rfl

theorem function?_rawSetStr (s : Store) (id : Nat) (k : Bytes) (v : Value) (i : Nat) :
    (s.rawSetStr id k v).function? i = s.function? i := rfl

theorem rawGet_equip_of_not {t : Nat} {k : Bytes} : ∀ {fs : List (String × GateFn)} (s : Store),
    (∀ x ∈ fs, Bytes.ofString x.1 ≠ k) → (equip t fs s).rawGet t (.str k) = s.rawGet t (.str k)
  | [], _, _ => rfl
  | x :: fs, s, h => by
    obtain ⟨hx, hfs⟩ := List.forall_mem_cons.mp h
    rw [equip, rawGet_equip_of_not _ hfs, rawGet_rawSetStr, if_neg fun e => hx e.2]
    rfl

theorem rawGet_equip {t : Nat} {x : String × GateFn} : ∀ {fs : List (String × GateFn)} {s : Store},
    t < s.tables.size → (fs.map Prod.fst).Nodup → x ∈ fs →
      ∃ id, (equip t fs s).rawGet t (.str (x.1 : String)) = .fn id ∧
        (equip t fs s).function? id = some (.native (.gate x.2))
  | [], _, _, _, hx => absurd hx List.not_mem_nil
  | y :: fs, s, ht, hfs, hx => by
    rw [List.map_cons, List.nodup_cons] at hfs
    rcases List.mem_cons.mp hx with rfl | hx
    · have hnot : ∀ z ∈ fs, Bytes.ofString z.1 ≠ Bytes.ofString x.1 := fun z hz e =>
        hfs.1 (Bytes.ofString_inj.mp e ▸ List.mem_map_of_mem hz)
      refine ⟨s.functions.size, ?_, ?_⟩
      · rw [equip, rawGet_equip_of_not _ hnot, rawGet_rawSetStr_self _ (by exact ht), if_pos rfl]
      · rw [equip]
        exact function?_equip (s.function?_newFunction _)
    · rw [equip]
      exact rawGet_equip (Nat.lt_of_lt_of_eq (by exact ht) (tables_rawSet_size ..).symm) hfs.2 hx

end Lua.Store

/-- The store once the admin module of a sandbox was made. -/
def Sandbox.administered (b : Sandbox) (s : Store) : Store :=
  (s.newTable.2.equip s.tables.size b.adminFunctions).rawSetStr s.tables.size ("sandbox" : String)
    (.table b.globals)

theorem Undisturbed.administered (hs : Standing g p s) (b : Sandbox) :
    Undisturbed g p s (b.administered s) := by
  have hown : ¬ p.Own s.tables.size := fun h => Nat.lt_irrefl _ (hs.tables _ h)
  have hglobals := Nat.ne_of_gt hs.ready.exist.1
  have hpackage := Nat.ne_of_gt hs.ready.exist.2.1
  have hequip : ∀ (fs : List (String × GateFn)) (s' : Store),
      Undisturbed g p s' (s'.equip s.tables.size fs) := by
    intro fs
    induction fs with
    | nil => exact fun s' => .refl g p s'
    | cons x fs ih =>
      exact fun s' => ((newFunction _).trans (.rawSet hown hglobals hpackage _ _)).trans (ih _)
  exact (newTable.trans (hequip _ _)).trans (.rawSet hown hglobals hpackage _ _)

/-- The admin module is made, and then it becomes a loaded module of the host. -/
theorem Sandbox.installAdmin_eq (b : Sandbox) (ctx : Ctx) (m : Machine) (name : String) :
    (b.installAdmin name).run ctx m = (do
        registerModule name (.table m.store.tables.size)
        return m.store.tables.size : Host Nat).run ctx ⟨b.administered m.store, m.threads⟩ := by
  have hput (t : Nat) (field : String) (f : GateFn) (m : Machine) :
      (do
        let f ← Host.newFunction (.gate f)
        Host.update fun s => s.rawSetStr t field f : Host Unit).run ctx m =
      some (.ok (), ⟨(m.store.newFunction (.native (.gate f))).2.rawSetStr t field
        (.fn m.store.functions.size), m.threads⟩) := rfl
  have hset (f : Store → Store) (m : Machine) :
      (Host.update f).run ctx m = some (.ok (), { m with store := f m.store }) := rfl
  have hnew : m.store.newTable.1 = m.store.tables.size := rfl
  rw [installAdmin, Host.run_bind, Host.run_updateGet, administered, adminFunctions]
  simp only [hnew, Host.run_bind, hput, hset, Store.equip]

/-- The table holds the function under its name. -/
def Lua.Store.Offers (s : Store) (t : Nat) (name : String) (f : GateFn) : Prop :=
  ∃ id, s.rawGet t (.str (Bytes.ofString name)) = .fn id ∧ s.function? id = some (.native (.gate f))

theorem Sandbox.administered_offers (b : Sandbox) (s : Store) {name : String} {f : GateFn}
    (hf : (name, f) ∈ b.adminFunctions) : (b.administered s).Offers s.tables.size name f := by
  have hnew := Nat.lt_of_lt_of_eq (Nat.lt_succ_self _) (s.tables_newTable_size {}).symm
  have hnames : (b.adminFunctions.map Prod.fst).Nodup := by
    show ["require", "allow", "remove", "permitted"].Nodup
    decide
  obtain ⟨id, hfield, hcode⟩ := Store.rawGet_equip hnew hnames hf
  have hsandbox : Bytes.ofString "sandbox" ≠ Bytes.ofString name := by
    intro e
    have hnot : "sandbox" ∉ b.adminFunctions.map Prod.fst := by
      show "sandbox" ∉ ["require", "allow", "remove", "permitted"]
      decide
    have hmem : name ∈ b.adminFunctions.map Prod.fst := List.mem_map_of_mem hf
    rw [← Bytes.ofString_inj.mp e] at hmem
    exact hnot hmem
  refine ⟨id, ?_, ?_⟩
  · rw [administered, Store.rawGet_rawSetStr, if_neg fun e => hsandbox e.2, hfield]
  · rw [administered, Store.function?_rawSetStr, hcode]

theorem Sandbox.installAdmin_run {m : Machine} (hs : Standing g p m.store) (b : Sandbox) (ctx : Ctx)
    (name : String) : (b.installAdmin name).run ctx m = some (.ok m.store.tables.size,
      ⟨(b.administered m.store).rawSetStr g.loaded name (.table m.store.tables.size), m.threads⟩) := by
  have hready := (Undisturbed.administered hs b).ready hs.ready
  rw [installAdmin_eq, Host.run_bind,
    Registry.register_run (m := ⟨b.administered m.store, m.threads⟩) hready]
  rfl

/-- Whatever is done to one sandbox disturbs no other one. -/
theorem Operation.run_undisturbed {ctx : Ctx} {m m' : Machine} {b : Sandbox} {op : Operation}
    {r : Except Failure (List Value)} (hs : Standing g p m.store) (hb : Stranger g p b)
    (hctx : ctx.Maintains (Undisturbed g p)) (h : (op.run b).run ctx m = some (r, m')) :
    Undisturbed g p m.store m'.store := by
  have hR := Undisturbed.lasting hs.tables ⟨hs.ready.exist.1, hs.ready.exist.2.1⟩
  have hdone {f : Host Unit} (hf : Maintains (Undisturbed g p) m.store.tables.size ctx f) :
      Maintains (Undisturbed g p) m.store.tables.size ctx (do f; return [] : Host (List Value)) :=
    .bind hR hf fun _ => .pure hR _
  have hle := Nat.le_refl m.store.tables.size
  cases op with
  | allow module exposed =>
    exact hdone (Sandbox.allow_maintains hR hctx hb.permit module exposed) _ _ _ hle h
  | require module exposed =>
    exact hdone (Sandbox.require_undisturbed hb hR hctx module exposed) _ _ _ hle h
  | remove name => exact hdone (Sandbox.remove_undisturbed hb hR name) _ _ _ hle h
  | installAdmin name =>
    rw [run, Host.run_bind, Sandbox.installAdmin_run hs] at h
    cases h
    have hmade := Undisturbed.administered hs b
    exact hmade.trans (.register (hmade.standing hs) _ _)
  | print tostring echo args =>
    exact GateFn.runPrint_undisturbed hb hR hctx tostring echo args _ _ _ hle h
  | resolve args => exact GateFn.runResolve_undisturbed hb hR hctx args _ _ _ hle h
  | finish args => exact GateFn.runFinish_undisturbed hb hR args _ _ _ hle h

/-! ## What is seen of an operation -/

/-- No table, allow-list or output goes. -/
structure Lua.Store.Grows (s s' : Store) : Prop where
  tables : s.tables.size ≤ s'.tables.size
  permits : s.permits.size ≤ s'.permits.size
  outputs : s.outputs.size ≤ s'.outputs.size

theorem Lua.Store.lasting_grows (n : Nat) : Lasting Store.Grows n fun _ => True where
  refl _ := ⟨Nat.le_refl _, Nat.le_refl _, Nat.le_refl _⟩
  trans h h' := ⟨Nat.le_trans h.tables h'.tables, Nat.le_trans h.permits h'.permits,
    Nat.le_trans h.outputs h'.outputs⟩
  tables h := h.tables
  write s {id} _ k v := ⟨Nat.le_of_eq (s.tables_rawSet_size id k v).symm, Nat.le_refl _, Nat.le_refl _⟩
  rest h := by
    simp only [Store.shared, Prod.mk.injEq] at h
    obtain ⟨ht, -, -, -, -, hp, ho, -⟩ := h
    exact ⟨Nat.le_of_eq (congrArg Array.size ht.symm), Nat.le_of_eq (congrArg Array.size hp.symm),
      Nat.le_of_eq (congrArg Array.size ho.symm)⟩
  newTable s := ⟨Nat.le_trans (Nat.le_succ _) (Nat.le_of_eq (s.tables_newTable_size {}).symm),
    Nat.le_refl _, Nat.le_refl _⟩
  newFunction _ _ := ⟨Nat.le_refl _, Nat.le_refl _, Nat.le_refl _⟩
  newCell _ _ := ⟨Nat.le_refl _, Nat.le_refl _, Nat.le_refl _⟩
  setCell _ _ h _ := ⟨h.tables, h.permits, h.outputs⟩
  newPermit _ := ⟨Nat.le_refl _, Nat.le_trans (Nat.le_succ _) (Nat.le_of_eq (Array.size_push ..).symm),
    Nat.le_refl _⟩
  newOutput _ := ⟨Nat.le_refl _, Nat.le_refl _,
    Nat.le_trans (Nat.le_succ _) (Nat.le_of_eq (Array.size_push ..).symm)⟩
  setPermit _ _ _ _ := ⟨Nat.le_refl _, Nat.le_of_eq (Array.size_setIfInBounds ..).symm, Nat.le_refl _⟩

/-- What an operation that succeeded with these values has left, as any copy of the handle shows it. -/
def Operation.Seen (g : Registry) (b : Sandbox) (ctx : Ctx) (m m' : Machine) (vs : List Value) :
    Operation → Prop
  | allow module exposed => ∃ v m₁, (privilegedRequire module).run ctx m = some (.ok v, m₁) ∧
      (m'.store.permit b.modules.permit).get? (exposed.getD module) = some v
  | require module exposed => ∃ v m₁, (privilegedRequire module).run ctx m = some (.ok v, m₁) ∧
      m'.store.rawGet b.globals (.str (Bytes.ofString (exposed.getD module))) = v
  | remove name => (m'.store.permit b.modules.permit).get? name = none ∧
      m'.store.rawGet b.globals (.str (Bytes.ofString name)) = .nil ∧
      m'.store.rawGet b.modules.loaded (.str (Bytes.ofString name)) = .nil
  | installAdmin name => ∃ t, m'.store.rawGet g.loaded (.str (Bytes.ofString name)) = .table t ∧
      ∀ x ∈ b.adminFunctions, ∃ id, m'.store.rawGet t (.str (Bytes.ofString x.1)) = .fn id ∧
        m'.store.function? id = some (.native (.gate x.2))
  | print tostring _ args => ∃ texts m₁,
      (GateFn.texts tostring args).run ctx m = some (.ok texts, m₁) ∧
      m'.store.output b.output = (m₁.store.output b.output).push (String.intercalate "\t" texts)
  | resolve _ => ∀ n v, vs = [.str n, .bool true, v, .nil] →
      m'.store.rawGet b.modules.loaded (.str n) = v
  | finish args => ∃ n, args.head?.bind Value.text? = some n ∧
      vs = [m'.store.rawGet b.modules.loaded (.str n)]

section

variable {h : History} {ctx : Ctx} {m m' : Machine} {vs : List Value}

theorem GateFn.checkString_ok {function : String} {args : List Value} {name : Bytes}
    (hr : (GateFn.checkString function args 1).run ctx m = some (.ok name, m')) :
    m' = m ∧ args.head?.bind Value.text? = some name := by
  cases args with
  | nil => cases hr
  | cons v args =>
    rw [GateFn.checkString, Nat.sub_self, List.getElem?_cons_zero] at hr
    simp only at hr
    cases hv : v.text? with
    | none =>
      rw [hv] at hr
      cases hr
    | some b =>
      rw [hv] at hr
      cases hr
      exact ⟨rfl, hv⟩

theorem ModuleSystem.resolve_recorded (hi : Placed p m.store) (ha : Agrees p h m.store) {n : Bytes}
    {v : Value} (hr : (p.modules.resolve n).run ctx m = some (.ok (.ready v), m')) :
    m'.store.rawGet p.modules.loaded (.str n) = v := by
  obtain ⟨s, threads⟩ := m
  rw [resolve_run hi ha] at hr
  cases hs : h.source n with
  | recorded w =>
    rw [hs] at hr
    cases hr
    have hc := (ha.recorded n).trans (History.recorded_of_source hs)
    rw [cached?_eq] at hc
    split at hc
    · exact Option.some.inj hc
    · cases hc
  | allowed w =>
    rw [hs] at hr
    cases hr
    exact ModuleSystem.rawGet_stored hi.ready.loaded_lt _
  | loader f => simp [hs] at hr
  | missing => simp [hs] at hr

section

variable {b : Sandbox} {module name : String} {exposed : Option String} {tostring : Value} {echo : Bool}
  {args : List Value} {u : Unit}

theorem Sandbox.allow_seen (hp : b.modules.permit < m.store.permits.size)
    (hctx : ctx.Maintains Store.Grows) (hr : (b.allow module exposed).run ctx m = some (.ok u, m')) :
    ∃ v m₁, (privilegedRequire module).run ctx m = some (.ok v, m₁) ∧
      (m'.store.permit b.modules.permit).get? (exposed.getD module) = some v := by
  obtain ⟨v, m₁, hv, hset⟩ := Host.ok_bind hr
  have hgrows := privilegedRequire_maintains (Store.lasting_grows 0) hctx module m _ m₁ (Nat.zero_le _) hv
  cases hset
  refine ⟨v, m₁, hv, ?_⟩
  show ((m₁.store.setPermit b.modules.permit _).permit b.modules.permit).get? _ = _
  rw [m₁.store.permit_setPermit _ (Nat.lt_of_lt_of_le hp hgrows.permits), AllowList.get?_insert,
    if_pos rfl]

theorem Sandbox.require_seen (hb : b.globals < m.store.tables.size)
    (hctx : ctx.Maintains Store.Grows) (hr : (b.require module exposed).run ctx m = some (.ok u, m')) :
    ∃ v m₁, (privilegedRequire module).run ctx m = some (.ok v, m₁) ∧
      m'.store.rawGet b.globals (.str (Bytes.ofString (exposed.getD module))) = v := by
  obtain ⟨v, m₁, hv, hset⟩ := Host.ok_bind hr
  have hgrows := privilegedRequire_maintains (Store.lasting_grows 0) hctx module m _ m₁ (Nat.zero_le _) hv
  cases hset
  refine ⟨v, m₁, hv, ?_⟩
  show (m₁.store.rawSetStr b.globals _ v).rawGet b.globals _ = v
  rw [m₁.store.rawGet_rawSetStr_self (Nat.lt_of_lt_of_le hb hgrows.tables), if_pos rfl]

theorem Sandbox.remove_seen (hp : b.modules.permit < m.store.permits.size)
    (hg : b.globals < m.store.tables.size) (hl : b.modules.loaded < m.store.tables.size)
    (hne : b.globals ≠ b.modules.loaded) (hr : (b.remove name).run ctx m = some (.ok u, m')) :
    (m'.store.permit b.modules.permit).get? name = none ∧
      m'.store.rawGet b.globals (.str (Bytes.ofString name)) = .nil ∧
      m'.store.rawGet b.modules.loaded (.str (Bytes.ofString name)) = .nil := by
  obtain ⟨s, threads⟩ := m
  rw [remove_run] at hr
  cases hr
  refine ⟨?_, ?_, ?_⟩
  · show ((s.setPermit b.modules.permit _).permit b.modules.permit).get? name = none
    rw [s.permit_setPermit _ hp, AllowList.get?_erase, if_pos rfl]
  · refine (Store.rawGet_rawSetStr_of_ne _ hne.symm _ _ _).trans ?_
    exact (Store.rawGet_rawSetStr_self _ hg _ _ _).trans (if_pos rfl)
  · refine (Store.rawGet_rawSetStr_self _ ?_ _ _ _).trans (if_pos rfl)
    rw [Store.rawSetStr, Store.tables_rawSet_size]
    exact hl

theorem Sandbox.installAdmin_seen {t : Nat} (hs : Standing g p m.store)
    (hr : (b.installAdmin name).run ctx m = some (.ok t, m')) :
    m'.store.rawGet g.loaded (.str (Bytes.ofString name)) = .table t ∧
      ∀ x ∈ b.adminFunctions, ∃ id, m'.store.rawGet t (.str (Bytes.ofString x.1)) = .fn id ∧
        m'.store.function? id = some (.native (.gate x.2)) := by
  rw [Sandbox.installAdmin_run hs] at hr
  cases hr
  have hlt := ((Undisturbed.administered hs b).ready hs.ready).exist.2.2
  refine ⟨(Store.rawGet_rawSetStr_self _ hlt _ _ _).trans (if_pos rfl), fun x hx => ?_⟩
  obtain ⟨id, hfield, hf⟩ := Sandbox.administered_offers b m.store hx
  refine ⟨id, ?_, ?_⟩
  · rw [Store.rawGet_rawSetStr_of_ne _ (Nat.ne_of_lt hs.ready.exist.2.2), hfield]
  · rw [Store.function?_rawSetStr, hf]

theorem GateFn.runPrint_seen {output : Nat} (ho : output < m.store.outputs.size)
    (hctx : ctx.Maintains Store.Grows)
    (hr : (GateFn.runPrint tostring output echo args).run ctx m = some (.ok vs, m')) :
    ∃ texts m₁, (GateFn.texts tostring args).run ctx m = some (.ok texts, m₁) ∧
      m'.store.output output = (m₁.store.output output).push (String.intercalate "\t" texts) := by
  obtain ⟨texts, m₁, ht, -⟩ := Host.ok_bind hr
  have hgrows := GateFn.texts_maintains (Store.lasting_grows 0) hctx tostring args m _ m₁ (Nat.zero_le _) ht
  have hpushed := (GateFn.outputs_runPrint ht hr).1
  have hline := (Store.output_of_pushed hpushed (Nat.lt_of_lt_of_le ho hgrows.outputs)).2
  exact ⟨texts, m₁, ht, hline.trans (if_pos rfl)⟩

end

/-- What is done by one handle is seen by each copy of it. -/
theorem Operation.run_seen {op : Operation} (hs : Standing g p m.store) (hi : Placed p m.store)
    (ha : Agrees p h m.store) (hctx : ctx.Maintains Store.Grows)
    (hr : (op.run p.box).run ctx m = some (.ok vs, m')) : op.Seen g p.box ctx m m' vs := by
  have hglobals := hs.tables p.box.globals (.inl rfl)
  have hloaded := hs.tables p.box.modules.loaded (.inr (.inr (.inl rfl)))
  cases op with
  | allow module exposed =>
    obtain ⟨_, m₁, hallow, hr⟩ := Host.ok_bind hr
    cases hr
    exact Sandbox.allow_seen hs.permit hctx hallow
  | require module exposed =>
    obtain ⟨_, m₁, hrequire, hr⟩ := Host.ok_bind hr
    cases hr
    exact Sandbox.require_seen hglobals hctx hrequire
  | remove name =>
    obtain ⟨_, m₁, hremove, hr⟩ := Host.ok_bind hr
    cases hr
    exact Sandbox.remove_seen hs.permit hglobals hloaded hi.apart.globals_loaded hremove
  | installAdmin name =>
    obtain ⟨t, m₁, hinstall, hr⟩ := Host.ok_bind hr
    cases hr
    exact ⟨t, Sandbox.installAdmin_seen hs hinstall⟩
  | print tostring echo args => exact GateFn.runPrint_seen hs.output hctx hr
  | resolve args =>
    obtain ⟨name, m₁, hname, hresolving⟩ := Host.ok_bind hr
    obtain ⟨rfl, -⟩ := GateFn.checkString_ok hname
    obtain ⟨r, m₂, hresolve, hlast⟩ := Host.ok_bind hresolving
    rintro n v rfl
    cases r with
    | ready w =>
      cases hlast
      exact ModuleSystem.resolve_recorded hi ha hresolve
    | pending f x => cases hlast
  | finish args =>
    obtain ⟨name, m₁, hname, hfinishing⟩ := Host.ok_bind hr
    obtain ⟨rfl, hargs⟩ := GateFn.checkString_ok hname
    cases hfinishing
    exact ⟨name, hargs, congrArg (fun v => [v])
      (ModuleSystem.rawGet_stored (m := p.box.modules) hloaded _).symm⟩

end

end Cordon
