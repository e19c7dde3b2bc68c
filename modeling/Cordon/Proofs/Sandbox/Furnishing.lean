import Cordon.Proofs.Sandbox.Building

/-!
# What the modules of a sandbox leave

The writes by which a new sandbox takes in the modules of its configuration and its clock library,
beside the history that they make.
-/

namespace Cordon

open Lua

/-! ## A sandbox on its way -/

/-- The writes to the `package` table of a new sandbox, the latest first. -/
def Parts.packaging (p : Parts) : List (Bytes × Value) :=
  [("require", .fn p.require), ("preload", .table p.preload), ("loaded", .table p.modules.loaded)]

/-- What the tables of a sandbox in the making hold, beside its history: the writes to the table of
global variables and to that of loaded modules. Nothing that was there in `s₀` has gone. -/
structure Furnished (p : Parts) (s₀ : Store) (h : History) (ws ls : List (Bytes × Value)) (s : Store) :
    Prop where
  underway : Underway p h s
  package : s.Holds p.modules.package p.packaging
  globals : s.Holds p.box.globals ws
  loaded : s.Holds p.modules.loaded ls
  grows : s₀.Extends s

section

variable {p : Parts} {h : History} {ws ls : List (Bytes × Value)} {s₀ s s' : Store}

namespace Furnished

theorem spared (hf : Furnished p s₀ h ws ls s) (hs : Spared p.Own p.modules.permit s s')
    (hd : s'.Discreet p.Own) (he : s.Extends s') : Furnished p s₀ h ws ls s' where
  underway := hf.underway.spared (fun _ h => h) hs hd
  package := hf.package.of_table (Nat.lt_of_lt_of_le hf.package.exist hs.tables)
    (hs.table _ (.inr (.inl rfl)) hf.package.exist)
  globals := hf.globals.of_table (Nat.lt_of_lt_of_le hf.globals.exist hs.tables)
    (hs.table _ (.inl rfl) hf.globals.exist)
  loaded := hf.loaded.of_table (Nat.lt_of_lt_of_le hf.loaded.exist hs.tables)
    (hs.table _ (.inr (.inr (.inl rfl))) hf.loaded.exist)
  grows := (Store.lasting_extends 0).trans hf.grows he

theorem report (hf : Furnished p s₀ h ws ls s) (e : Event) : Furnished p s₀ h ws ls (s.report e) where
  underway := hf.underway.report e
  package := hf.package.of_tables rfl
  globals := hf.globals.of_tables rfl
  loaded := hf.loaded.of_tables rfl
  grows := (Store.lasting_extends 0).trans hf.grows ⟨Nat.le_refl _, fun _ _ h => h⟩

theorem bind (hf : Furnished p s₀ h ws ls s) (n : Bytes) (v : Value) :
    Furnished p s₀ h ((n, v) :: ws) ls (s.rawSetStr p.box.globals n v) where
  underway := hf.underway.bind n v
  package := hf.package.put_other hf.underway.placed.apart.globals_package n v
  globals := hf.globals.put n v
  loaded := hf.loaded.put_other hf.underway.placed.apart.globals_loaded n v
  grows := (Store.lasting_extends 0).trans hf.grows
    ((Store.lasting_extends 0).write s (Nat.zero_le _) _ v)

theorem permit (hf : Furnished p s₀ h ws ls s) (name : String) (v : Value) :
    Furnished p s₀ (.allowed name v :: h) ws ls
      (s.setPermit p.modules.permit ((p.permit s).insert name v).2) where
  underway := hf.underway.permit name v
  package := hf.package.of_tables rfl
  globals := hf.globals.of_tables rfl
  loaded := hf.loaded.of_tables rfl
  grows := (Store.lasting_extends 0).trans hf.grows ⟨Nat.le_refl _, fun _ _ h => h⟩

end Furnished

theorem History.answer_ne_nil (h : History) (n : Bytes) (v : Value) : h.answer n v ≠ .nil := by
  rw [answer]
  cases hr : h.recorded n with
  | none => exact settled_ne_nil v
  | some w =>
    rintro rfl
    cases truthy_of_recorded hr

/-- One history goes on as the other by allowing these names and requiring these modules. -/
structure History.Grown (names modules : List String) (h h' : History) : Prop where
  allowed : ∀ n, (h'.allowed n).isSome ↔
    (∃ name ∈ names, Bytes.ofString name = n) ∨ (h.allowed n).isSome
  recorded : ∀ n, (∀ name ∈ modules, Bytes.ofString name ≠ n) → h'.recorded n = h.recorded n

namespace History.Grown

variable {names names' modules modules' : List String} {h' h'' : History}

theorem refl (h : History) : Grown [] [] h h := ⟨fun n => by simp, fun _ _ => rfl⟩

theorem trans (hg : Grown names modules h h') (hg' : Grown names' modules' h' h'') :
    Grown (names ++ names') (modules ++ modules') h h'' where
  allowed n := by
    simp only [hg'.allowed, hg.allowed, List.mem_append, or_and_right, exists_or, or_assoc,
      or_left_comm]
  recorded n hn :=
    (hg'.recorded n fun name hname => hn name (List.mem_append_right _ hname)).trans
      (hg.recorded n fun name hname => hn name (List.mem_append_left _ hname))

theorem allow (name : String) (v : Value) (h : History) : Grown [name] [] h (.allowed name v :: h) where
  allowed n := by
    rw [History.allowed]
    split
    · next e => simp [e]
    · next e => simp [e]
  recorded _ _ := rfl

theorem require (name : String) (v : Value) (h : History) :
    Grown [] [name] h (.required (Bytes.ofString name) v :: h) where
  allowed n := by
    simp only [List.not_mem_nil, false_and, exists_false, false_or]
    rfl
  recorded n hn := by
    rw [History.recorded, if_neg (hn name (.head _))]

theorem allowed_iff (hg : Grown names modules [] h) (name : String) :
    (h.allowed (Bytes.ofString name)).isSome ↔ name ∈ names := by
  have hnames := hg.allowed (Bytes.ofString name)
  simp only [Bytes.ofString_inj, exists_eq_right, History.allowed, Option.isSome_none,
    Bool.false_eq_true, or_false] at hnames
  exact hnames

theorem recorded_eq (hg : Grown names modules [] h) {name : String} (hn : name ∉ modules) :
    h.recorded (Bytes.ofString name) = none :=
  hg.recorded _ fun _ hname e => hn (Bytes.ofString_inj.mp e ▸ hname)

end History.Grown

/-! ## The clock library -/

section

variable {all : Nat → Prop} {permit : Nat} {ctx : Ctx} {m m' : Machine}

/-- The names are looked up one after the other, and each is put into a table elsewhere. -/
theorem fill_spared (sp : Spares all permit ctx) {host t : Nat} (ht : ¬ all t) :
    ∀ {names : List String} {m : Machine} {u : PUnit}, m.store.Discreet all →
    (Value.table host).Outside (m.store.Hidden all) →
    (forIn names PUnit.unit fun name _ => do
      let found ← ExceptT.lift (Host.functionField (.table host) name).run
      match found with
      | .ok f => do
        Host.update fun s => s.rawSetStr t (Bytes.ofString name) f
        pure (ForInStep.yield PUnit.unit)
      | .error _ => do
        Host.fail (.config ("host os library has no function '" ++ name ++ "'"))
        pure (ForInStep.yield PUnit.unit) : Host PUnit).run ctx m = some (.ok u, m') →
    Spared all permit m.store m'.store ∧ m'.store.Discreet all
  | [], _, _, hd, _, hr => by
    cases hr
    exact ⟨.refl .., hd⟩
  | name :: names, m, _, hd, ho, hr => by
    rw [List.forIn_cons] at hr
    obtain ⟨r, m₁, hx, hr⟩ := Host.ok_bind hr
    obtain ⟨found, m₂, hfound, hx⟩ := Host.ok_bind hx
    cases found with
    | error e => cases hx
    | ok f =>
      cases hx
      obtain ⟨hs, hd, id, rfl⟩ :=
        functionField_spared sp (fun _ h => h) (Host.ok_attempt hfound) hd ho
      have hwrite : Spared all permit m₂.store (m₂.store.rawSetStr t (Bytes.ofString name) (.fn id)) :=
        .rawSet ht _ _
      have hd : (m₂.store.rawSetStr t (Bytes.ofString name) (.fn id)).Discreet all :=
        hd.rawSet _ fun _ => Value.outside_fn _ id
      have hs := hs.trans hwrite
      obtain ⟨hs', hd⟩ := fill_spared sp ht hd (hs.toCalm.outside ho) hr
      exact ⟨hs.trans hs', hd⟩

theorem restrictedOs_spared (sp : Spares all permit ctx) {names : List String} {t : Nat}
    (hr : (restrictedOs names).run ctx m = some (.ok t, m')) (hd : m.store.Discreet all) :
    Spared all permit m.store m'.store ∧ m'.store.Discreet all ∧
      (Value.table t).Outside (m'.store.Hidden all) := by
  obtain ⟨g, m₁, hg, hr⟩ := Host.ok_bind hr
  cases hg
  obtain ⟨v, m₁, hos, hr⟩ := Host.ok_bind hr
  obtain ⟨hs, hd, ho⟩ := field_spared sp (fun _ h => h) hos hd hd.globals
  cases v with
  | table host =>
    obtain ⟨id, m₂, hid, hr⟩ := Host.ok_bind hr
    cases hid
    obtain ⟨u, m₃, hloop, hr⟩ := Host.ok_bind hr
    cases hr
    have hto : ¬ all m₁.store.tables.size := fun h => Nat.lt_irrefl _ (hd.exist _ h)
    have hnew : Spared all permit m₁.store m₁.store.newTable.2 := .newTable _
    obtain ⟨hs', hd⟩ := fill_spared sp hto hd.newTable_other (hnew.toCalm.outside ho) hloop
    have hlt : m₁.store.tables.size < m₁.store.newTable.2.tables.size :=
      Nat.lt_of_lt_of_eq (Nat.lt_succ_self _) (m₁.store.tables_newTable_size {}).symm
    refine ⟨(hs.trans hnew).trans hs', hd, ?_⟩
    rintro _ ⟨⟩ (h | h)
    · exact hto h
    · exact Nat.not_le_of_lt (Nat.lt_of_lt_of_le hlt hs'.tables) h
  | _ => cases hr

end

section

variable {R : Store → Store → Prop} {free : Nat → Prop} {ctx : Ctx}

theorem registerModule_maintains (hR : Lasting R 0 free) (hctx : ctx.Maintains R) (name : String)
    (v : Value) : Maintains R 0 ctx (registerModule name v) := by
  have htable : Maintains R 0 ctx (hostPackageTable "loaded") := by
    refine .bind hR (.read hR _) fun globals => ?_
    refine .bind hR (Host.field_maintains hR hctx globals "package") fun package => ?_
    split
    · refine .bind hR (Host.field_maintains hR hctx _ "loaded") fun t => ?_
      split
      · exact .pure hR _
      · exact .throw hR _
    · exact .throw hR _
  refine .bind hR htable fun t => Host.setField_maintains hR hctx fun s s' h => ?_
  obtain ⟨id, k, rfl⟩ := Store.place_done h
  exact hR.write s (Nat.zero_le id) k v

end

/-- The writes of these values of modules to the global variables, the latest first. -/
def exposures (given : List (Binding × Value)) : List (Bytes × Value) :=
  (given.map fun x => (Bytes.ofString x.1.exposedName, x.2)).reverse

/-- The writes of these values of modules to the loaded modules, the latest first. -/
def records (given : List (Binding × Value)) : List (Bytes × Value) :=
  (given.map fun x => (Bytes.ofString x.1.module, x.2)).reverse

/-! ## Admission -/

variable {ctx : Ctx} {m m' : Machine}

/-- Requiring an allowed module records the answer, or finds it recorded. -/
theorem ModuleSystem.require_stored {name : String} {v w : Value} (hu : Underway p h m.store)
    (ha : h.allowed (Bytes.ofString name) = some v)
    (hr : (p.modules.require name).run ctx m = some (.ok w, m')) :
    (∃ e, m'.store = m.store.report e ∧
      m.store.rawGet p.modules.loaded (.str (Bytes.ofString name)) = w) ∨
      m'.store = p.modules.stored m.store (Bytes.ofString name) w := by
  obtain ⟨s, threads⟩ := m
  obtain ⟨r, m₁, hres, hr⟩ := Host.ok_bind hr
  have hrun := (resolve_run hu.placed hu.agrees (Bytes.ofString name) ctx threads).symm.trans hres
  unfold History.source at hrun
  rw [hu.unloaded, ha] at hrun
  cases hrec : h.recorded (Bytes.ofString name) with
  | some u =>
    rw [hrec] at hrun
    cases hrun
    cases hr
    have hc := (hu.agrees.recorded _).trans hrec
    rw [cached?_eq] at hc
    split at hc
    · exact .inl ⟨_, rfl, Option.some.inj hc⟩
    · cases hc
  | none =>
    rw [hrec] at hrun
    cases hrun
    cases hr
    exact .inr rfl

namespace Furnished

theorem bindRun (hf : Furnished p s₀ h ws ls m.store) {name : String} {v : Value}
    (hr : (p.box.bind name v).run ctx m = some (.ok (), m')) :
    Furnished p s₀ h ((Bytes.ofString name, v) :: ws) ls m'.store := by
  cases hr
  exact hf.bind _ v

theorem limit {limit : Option Nat} (hf : Furnished p s₀ h ws ls m.store)
    (hr : (applyMemoryLimit limit).run ctx m = some (.ok (), m')) :
    Furnished p s₀ h ws ls m'.store := by
  cases limit with
  | none =>
    cases hr
    exact hf
  | some bytes =>
    obtain ⟨used, m₁, hu, hr⟩ := Host.ok_bind hr
    cases hu
    cases hl : MemoryUsage.limitRefusal? m.store.used bytes with
    | some refusal =>
      rw [hl] at hr
      cases hr
    | none =>
      rw [hl] at hr
      cases hr
      exact {
        underway := hf.underway.change
          ⟨Nat.le_refl _, Nat.le_refl _, fun _ => rfl, fun _ => rfl, rfl, rfl, rfl⟩
          (hf.underway.discreet.of_tables rfl rfl rfl rfl)
        package := hf.package.of_tables rfl
        globals := hf.globals.of_tables rfl
        loaded := hf.loaded.of_tables rfl
        grows := (Store.lasting_extends 0).trans hf.grows ⟨Nat.le_refl _, fun _ _ h => h⟩ }

theorem require (hf : Furnished p s₀ h ws ls m.store) {name : String} {v w : Value}
    (ha : h.allowed (Bytes.ofString name) = some v) (hv : v.Outside (m.store.Hidden p.Own))
    (hr : (p.modules.require name).run ctx m = some (.ok w, m')) :
    w = h.answer (Bytes.ofString name) v ∧
      Furnished p s₀ (.required (Bytes.ofString name) w :: h) ws ((Bytes.ofString name, w) :: ls)
        m'.store := by
  obtain ⟨hw, hu, -⟩ := hf.underway.require (fun _ => False) ha hv hr
  refine ⟨hw, ?_⟩
  rcases ModuleSystem.require_stored hf.underway ha hr with ⟨e, he, hrec⟩ | he
  · have hrep := hf.report e
    rw [← he] at hrep
    exact { hrep with
      underway := hu
      loaded := hrep.loaded.again (by rw [he]; exact hrec) }
  · have hput := hf.loaded.put (Bytes.ofString name) w
    have hother := hf.globals.put_other hf.underway.placed.apart.globals_loaded.symm
      (Bytes.ofString name) w
    have hpackage := hf.package.put_other hf.underway.placed.apart.package_loaded.symm
      (Bytes.ofString name) w
    constructor
    · exact hu
    · rw [he]
      exact hpackage.of_tables rfl
    · rw [he]
      exact hother.of_tables rfl
    · rw [he]
      exact hput.of_tables rfl
    · have hgrows : m.store.Extends m'.store := by
        rw [he]
        exact ⟨Nat.le_of_eq (m.store.tables_rawSet_size ..).symm, fun _ _ h => h⟩
      exact (Store.lasting_extends 0).trans hf.grows hgrows

section

variable (sp : Spares p.Own p.modules.permit ctx) (hctx : ctx.Maintains Store.Extends)
include sp hctx

theorem allow {module : String} {exposed : Option String} (hf : Furnished p s₀ h ws ls m.store)
    (hr : (p.box.allow module exposed).run ctx m = some (.ok (), m')) :
    ∃ v, v.Outside (m'.store.Hidden p.Own) ∧
      Furnished p s₀ (.allowed (exposed.getD module) v :: h) ws ls m'.store := by
  obtain ⟨v, m₁, hv, hr⟩ := Host.ok_bind hr
  cases hr
  obtain ⟨hs, hd, ho⟩ := privilegedRequire_spared sp (fun _ h => h) hv hf.underway.discreet
  have he := privilegedRequire_maintains (Store.lasting_extends 0) hctx module m _ m₁
    (Nat.zero_le _) hv
  exact ⟨v, ho, ((hf.spared hs hd he).permit _ v).report _⟩

theorem adopt {x : Binding} (hf : Furnished p s₀ h ws ls m.store)
    (hr : (p.box.adopt x).run ctx m = some (.ok (), m')) :
    ∃ v w, w ≠ .nil ∧
      Furnished p s₀ (.required (Bytes.ofString x.module) w :: .allowed x.module v :: h)
        ((Bytes.ofString x.exposedName, w) :: ws) ((Bytes.ofString x.module, w) :: ls) m'.store := by
  obtain ⟨_, m₁, ha, hr⟩ := Host.ok_bind hr
  obtain ⟨v, ho, hf⟩ := hf.allow sp hctx ha
  obtain ⟨w, m₂, hw, hr⟩ := Host.ok_bind hr
  obtain ⟨rfl, hf⟩ := hf.require (if_pos rfl) ho hw
  exact ⟨v, _, History.answer_ne_nil _ _ v, hf.bindRun hr⟩

theorem adoptAll : ∀ {l : List Binding} {m : Machine} {h : History} {ws ls : List (Bytes × Value)}
    {u : PUnit}, Furnished p s₀ h ws ls m.store →
    (forIn l PUnit.unit fun x _ => do
      p.box.adopt x
      pure (ForInStep.yield PUnit.unit) : Host PUnit).run ctx m = some (.ok u, m') →
    ∃ (h' : History) (given : List (Binding × Value)), given.map Prod.fst = l ∧
      (∀ x ∈ given, x.2 ≠ .nil) ∧ h.Grown (l.map Binding.module) (l.map Binding.module) h' ∧
      Furnished p s₀ h' (exposures given ++ ws) (records given ++ ls) m'.store
  | [], _, h, _, _, _, hf, hr => by
    cases hr
    exact ⟨h, [], rfl, nofun, .refl h, hf⟩
  | x :: l, _, h, ws, ls, _, hf, hr => by
    obtain ⟨m₁, hx, hr⟩ := Host.ok_for_cons hr
    obtain ⟨v, w, hw, hf⟩ := hf.adopt sp hctx hx
    obtain ⟨h', given, rfl, hnil, ha, hf⟩ := adoptAll hf hr
    refine ⟨h', (x, w) :: given, rfl, List.forall_mem_cons.mpr ⟨hw, hnil⟩, ?_, ?_⟩
    · exact ((History.Grown.allow x.module v h).trans (.require x.module w _)).trans ha
    · simpa only [exposures, records, List.map_cons, List.reverse_cons, List.append_assoc,
        List.singleton_append] using hf

theorem allowAll : ∀ {l : List Binding} {m : Machine} {h : History} {u : PUnit},
    Furnished p s₀ h ws ls m.store →
    (forIn l PUnit.unit fun x _ => do
      p.box.allow x.module x.exposed
      pure (ForInStep.yield PUnit.unit) : Host PUnit).run ctx m = some (.ok u, m') →
    ∃ h' : History, h.Grown (l.map Binding.exposedName) [] h' ∧ Furnished p s₀ h' ws ls m'.store
  | [], _, h, _, hf, hr => by
    cases hr
    exact ⟨h, .refl h, hf⟩
  | x :: l, _, h, _, hf, hr => by
    obtain ⟨m₁, hx, hr⟩ := Host.ok_for_cons hr
    obtain ⟨v, -, hf⟩ := hf.allow sp hctx hx
    obtain ⟨h', ha, hf⟩ := allowAll hf hr
    exact ⟨h', (History.Grown.allow x.exposedName v h).trans ha, hf⟩

theorem restrictedOs {names : List String} {t : Nat} (hf : Furnished p s₀ h ws ls m.store)
    (hr : (restrictedOs names).run ctx m = some (.ok t, m')) :
    (Value.table t).Outside (m'.store.Hidden p.Own) ∧ Furnished p s₀ h ws ls m'.store := by
  have he := restrictedOs_maintains (Store.lasting_extends 0) hctx names m _ m' (Nat.zero_le _) hr
  obtain ⟨hs, hd, ht⟩ := restrictedOs_spared sp hr hf.underway.discreet
  exact ⟨ht, hf.spared hs hd he⟩

theorem registerModule {name : String} {v : Value} (hf : Furnished p s₀ h ws ls m.store)
    (hv : v.Outside (m.store.Hidden p.Own))
    (hr : (registerModule name v).run ctx m = some (.ok (), m')) :
    Furnished p s₀ h ws ls m'.store := by
  have he := registerModule_maintains (Store.lasting_extends 0) hctx name v m _ m' (Nat.zero_le _) hr
  obtain ⟨hs, hd⟩ := registerModule_spared sp (fun _ h => h) hr hf.underway.discreet
    hf.underway.discreet hv
  exact hf.spared hs hd he

theorem grant {c : Config} {permit : Nat} (hf : Furnished p s₀ h ws ls m.store)
    (hr : (Sandbox.grant c p.box permit).run ctx m = some (.ok (), m')) :
    ∃ v w h', w = h.answer "os" v ∧ h'.allowed "os" = some v ∧ h.Grown ["os"] ["os"] h' ∧
      Furnished p s₀ h' (("os", w) :: ws) (("os", w) :: ls) m'.store := by
  obtain ⟨_, m₁, hallow, hr⟩ := Host.ok_bind hr
  obtain ⟨v, ho, hf⟩ := hf.allow sp hctx hallow
  obtain ⟨w, m₂, hreq, hr⟩ := Host.ok_bind hr
  have hallowed : History.allowed "os" (.allowed "os" v :: h) = some v := if_pos rfl
  obtain ⟨hw, hf⟩ := hf.require hallowed ho hreq
  obtain ⟨_, m₃, hbind, hr⟩ := Host.ok_bind hr
  have hf := hf.bindRun hbind
  obtain ⟨_, m₄, hlimit, hr⟩ := Host.ok_bind hr
  have hf := hf.limit hlimit
  cases hr
  exact ⟨v, w, .required "os" w :: .allowed "os" v :: h, hw, hallowed,
    (History.Grown.allow "os" v h).trans (.require "os" w _), hf.report _⟩

end

end Furnished

end

end Cordon
