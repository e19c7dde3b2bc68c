import Cordon.Proofs.Fresh
import Cordon.Proofs.Sandbox.Adoption

/-!
# The restricted `os`

A sandbox gets a new table with some functions of the host's `os`, by way of a module of the host that
it then requires under the name `os`. By then its own modules are there, so it matters whether one of
them was called `os`, too.
-/

namespace Cordon

open Lua

/-! ## Opening in two parts -/

namespace Sandbox

/-- Opening a sandbox up to where its clock library is made. -/
def prepare (c : Config) : Host (Sandbox × Nat × Nat) := do
  match c.validate with
  | .error e => Host.fail e
  | .ok () => pure ()
  let permit ← Host.updateGet Store.newPermit
  let output ← Host.updateGet Store.newOutput
  let globals ← Environment.build c output
  let (modules, require) ← ModuleSystem.open permit
  let b : Sandbox := { globals, modules, output, maxMemory := c.maxMemory }
  b.bind "require" require
  b.bind "package" (.table modules.package)
  for binding in c.libraries ++ c.hostServices do
    b.adopt binding
  for binding in c.allowed do
    b.allow binding.module binding.exposed
  let os ← restrictedOs c.osFunctions
  return (b, permit, os)

/-- The rest: the library becomes a module of the host, which the sandbox then requires. -/
def conclude (c : Config) (b : Sandbox) (permit os : Nat) : Host Unit := do
  registerModule clockModule (.table os)
  b.allow clockModule (some "os")
  b.bind "os" (← b.modules.require "os")
  applyMemoryLimit c.maxMemory
  Host.update fun s => s.report (.opened (s.permit permit).size c.maxMemory)

theorem open_eq (c : Config) : Sandbox.open c = do
    let (b, permit, os) ← prepare c
    conclude c b permit os
    return b := by
  unfold Sandbox.open prepare
  cases c.validate with
  | error e => rfl
  | ok u => simp only [bind_assoc, pure_bind, conclude]

end Sandbox

/-! ## The table -/

/-- A table holds functions of the host's under these names, and nothing else. -/
structure Filled (ctx : Ctx) (host : Nat) (names : List String) (t : Table) : Prop where
  keys : ∀ k, t.get k ≠ .nil → ∃ name ∈ names, k = .str (Bytes.ofString name)
  values : ∀ name ∈ names, ∃ id m m',
    (Host.functionField (.table host) name).run ctx m = some (.ok (.fn id), m') ∧
      t.get (.str (Bytes.ofString name)) = .fn id
  plain : t.metatable = none

theorem Filled.empty (ctx : Ctx) (host : Nat) : Filled ctx host [] {} where
  keys _ h := absurd (Table.has_of_get rfl h) Table.not_has_empty
  values := nofun
  plain := rfl

theorem Filled.set {ctx : Ctx} {host id : Nat} {names : List String} {t : Table} {name : String}
    {m m' : Machine} (hf : Filled ctx host names t)
    (h : (Host.functionField (.table host) name).run ctx m = some (.ok (.fn id), m')) :
    Filled ctx host (names ++ [name]) (t.set (.str (Bytes.ofString name)) (.fn id)) where
  keys k hk := by
    rw [Table.get_set_str] at hk
    split at hk
    · next e => exact ⟨name, List.mem_append_right _ (.head _), e.symm⟩
    · obtain ⟨name', hmem, e⟩ := hf.keys k hk
      exact ⟨name', List.mem_append_left _ hmem, e⟩
  values name' hmem := by
    rw [Table.get_set_str]
    split
    · next e =>
      obtain rfl := Bytes.ofString_inj.mp (Key.str.inj e)
      exact ⟨id, m, m', h, rfl⟩
    · next e =>
      rcases List.mem_append.mp hmem with hmem | hmem
      · exact hf.values name' hmem
      · exact absurd (by rw [List.mem_singleton.mp hmem]) e
  plain := (Table.metatable_set ..).trans hf.plain

section

variable {all : Nat → Prop} {p : Parts} {h : History} {ctx : Ctx} {m m' : Machine} {t : Nat}

/-- The names are looked up one after the other, and each is put into the table. -/
theorem Underway.fill (sp : Spares all p.modules.permit ctx) (hown : ∀ id, p.Own id → all id)
    (ht : all t) (hto : ¬ p.Own t) {host : Nat} : ∀ {names done : List String} {m : Machine}
    {u : PUnit}, Underway p h m.store → m.store.Discreet all → Filled ctx host done (m.store.table t) →
    (Value.table host).Outside (m.store.Hidden all) →
    (forIn names PUnit.unit fun name _ => do
      let found ← ExceptT.lift (Host.functionField (.table host) name).run
      match found with
      | .ok f => do
        Host.update fun s => s.rawSetStr t (Bytes.ofString name) f
        pure (ForInStep.yield PUnit.unit)
      | .error _ => do
        Host.fail (.config ("host os library has no function '" ++ name ++ "'"))
        pure (ForInStep.yield PUnit.unit) : Host PUnit).run ctx m = some (.ok u, m') →
    Underway p h m'.store ∧ m'.store.Discreet all ∧
      Filled ctx host (done ++ names) (m'.store.table t)
  | [], done, m, u, hu, hd, hf, ho, hr => by
    cases hr
    rw [List.append_nil]
    exact ⟨hu, hd, hf⟩
  | name :: names, done, m, u, hu, hd, hf, ho, hr => by
    rw [List.forIn_cons] at hr
    obtain ⟨r, m₁, hx, hr⟩ := Host.ok_bind hr
    obtain ⟨found, m₂, hfound, hx⟩ := Host.ok_bind hx
    cases found with
    | error e => cases hx
    | ok f =>
      cases hx
      have hrun := Host.ok_attempt hfound
      have ho' : (Value.table host).Outside (m.store.Hidden p.Own) :=
        ho.mono fun id => Or.imp_left (hown id)
      have hlt := hd.exist t ht
      obtain ⟨hs, hd, id, rfl⟩ := functionField_spared sp (fun _ h => h) hrun hd ho
      obtain ⟨-, hd', -⟩ := functionField_spared sp hown hrun hu.discreet ho'
      have htable : (m₂.store.rawSetStr t (Bytes.ofString name) (.fn id)).table t =
          (m.store.table t).set (.str (Bytes.ofString name)) (.fn id) := by
        rw [Store.rawSetStr, Store.table_rawSet, if_pos ⟨rfl, hd.exist t ht⟩, hs.table t ht hlt]
      have hu := (hu.spared hown hs hd').write hto (Bytes.ofString name) (Value.outside_fn _ id)
      have hwritten : Calm 0 m₂.store (m₂.store.rawSetStr t (Bytes.ofString name) (.fn id)) :=
        .rawSet ..
      obtain ⟨hu, hd, hf⟩ := fill sp hown ht hto hu (hd.rawSet _ fun h => absurd ht h)
        (htable ▸ hf.set hrun) (hwritten.outside (hs.outside ho)) hr
      rw [List.append_assoc] at hf
      exact ⟨hu, hd, hf⟩

/-- The code that makes the table reads the host's `os` first. -/
def hostOs : Host Value := do
  Host.field (← Host.globals) "os"

theorem Underway.restrictedOs (sp : Spares all p.modules.permit ctx)
    (hall : ∀ id, all id ↔ p.Own id ∨ id = t) {names : List String} (hu : Underway p h m.store)
    (hr : (restrictedOs names).run ctx m = some (.ok t, m')) :
    Underway p h m'.store ∧ m'.store.Discreet all ∧ ¬ p.Own t ∧ m.store.tables.size ≤ t ∧
      (∀ n v, h.recorded n = some v → v ≠ .table t) ∧
      ∃ host m₁, hostOs.run ctx m = some (.ok (.table host), m₁) ∧ host ≠ t ∧
        Filled ctx host names (m'.store.table t) := by
  have hown (id : Nat) (h : p.Own id) : all id := (hall id).mpr (.inl h)
  obtain ⟨g, m₁, hg, hr⟩ := Host.ok_bind hr
  cases hg
  obtain ⟨v, m₁, hos, hr⟩ := Host.ok_bind hr
  obtain ⟨hs, hd, ho⟩ := field_spared sp hown hos hu.discreet hu.discreet.globals
  have hu₁ := hu.spared hown hs hd
  cases v with
  | table host =>
    obtain ⟨id, m₂, hid, hr⟩ := Host.ok_bind hr
    cases hid
    obtain ⟨u, m₃, hloop, hr⟩ := Host.ok_bind hr
    cases hr
    have hto : ¬ p.Own m₁.store.tables.size := fun h => Nat.lt_irrefl _ (hd.exist _ h)
    have hlt : host < m₁.store.tables.size := Nat.lt_of_not_le fun h => ho host rfl (.inr h)
    have ho' : (Value.table host).Outside (m₁.store.newTable.2.Hidden all) := by
      rintro _ ⟨⟩ (h | h)
      · rcases (hall host).mp h with h | h
        · exact ho host rfl (.inl h)
        · exact Nat.ne_of_lt hlt h
      · rw [Store.tables_newTable_size] at h
        omega
    have hf : Filled ctx host [] (m₁.store.newTable.2.table m₁.store.tables.size) := by
      rw [Store.table_newTable, if_pos rfl]
      exact .empty ctx host
    obtain ⟨hu', hd', hf⟩ := Underway.fill sp hown ((hall _).mpr (.inr rfl)) hto
      (hu₁.spared hown (.newTable _) hd.newTable_other) (hd.newTable hall) hf ho' hloop
    refine ⟨hu', hd', hto, hs.tables, fun n v hr e => ?_, host, m₁, hos, Nat.ne_of_lt hlt, hf⟩
    exact hu₁.outside n v hr _ e (.inr (Nat.le_refl _))
  | _ => cases hr

end

/-! ## Up to the table -/

/-- An acceptable configuration names no other functions. -/
theorem Config.readOnly_of_validate {c : Config} {u : Unit} (h : c.validate = .ok u) :
    ∀ name ∈ c.osFunctions, name ∈ readOnlyOsFunctions := by
  unfold validate fault? at h
  split at h
  · cases h
  · next hf =>
    split at hf
    · cases hf
    · split at hf
      · cases hf
      · split at hf
        · cases hf
        · next hos =>
          intro name hname
          simpa using List.find?_eq_none.mp hos name hname

/-- The tables of a new sandbox, of which that of preloaded functions comes right after that of loaded
modules, and its clock library. -/
def Sandbox.Tables (b : Sandbox) (os id : Nat) : Prop :=
  id = b.globals ∨ id = b.modules.package ∨ id = b.modules.loaded ∨ id = b.modules.loaded + 1 ∨
    id = os

section

variable {c : Config} {b : Sandbox} {ctx : Ctx} {m m' : Machine} {permit t : Nat} {s : Store}

/-- A new allow-list is empty. -/
theorem begun {output : Nat} {m₁ : Machine} (closed : m.store.Discreet fun _ => False)
    (hp : (Host.updateGet Store.newPermit).run ctx m = some (.ok permit, m₁))
    (ho : (Host.updateGet Store.newOutput).run ctx m₁ = some (.ok output, m')) :
    m'.store.Discreet (fun _ => False) ∧ m'.store.tables = m.store.tables ∧
      permit < m'.store.permits.size ∧ m'.store.permit permit = {} := by
  cases hp
  cases ho
  exact ⟨closed.of_tables rfl rfl rfl rfl, rfl,
    Nat.lt_of_lt_of_eq (Nat.lt_succ_self _) m.store.permits_newPermit_size.symm,
    m.store.permit_newPermit_self⟩

theorem discreet_new {s : Store} (hb : b.modules = .new permit s) (hd : s.Discreet (· = b.globals)) :
    (s.newTable.2.newTable.2.newTable.2.rawSetStr s.tables.size "loaded"
      (.table (s.tables.size + 1))).Discreet (Parts.new b s).Own := by
  have h₁ := hd.newTable fun _ => Iff.rfl
  have h₂ := h₁.newTable fun _ => Iff.rfl
  have h₃ : s.newTable.2.newTable.2.newTable.2.Discreet (Parts.new b s).Own := by
    refine h₂.newTable fun id => ?_
    simp only [Parts.Own, Parts.new, Parts.modules, hb, ModuleSystem.new,
      Store.tables_newTable_size, or_assoc]
  refine h₃.rawSet _ fun h => absurd (.inr (.inl ?_)) h
  exact (congrArg ModuleSystem.package hb).symm

/-- The module system is new, and nothing refers to its tables but the first of them. -/
theorem Underway.new {modules : ModuleSystem} {require : Value}
    (hr : (ModuleSystem.open permit).run ctx m = some (.ok (modules, require), m'))
    (hb : b.modules = modules) (hd : m.store.Discreet (· = b.globals))
    (hp : permit < m.store.permits.size) (ha : ∀ name, (m.store.permit permit).get? name = none) :
    Underway (.new b m.store) [] m'.store ∧ modules = .new permit m.store := by
  rw [ModuleSystem.open_run] at hr
  cases hr
  refine ⟨?_, rfl⟩
  constructor
  · have hk : (Parts.new b m.store).Own m.store.tables.size :=
      .inr (.inl (congrArg ModuleSystem.package hb).symm)
    have hd : (ModuleSystem.tabled m.store).Discreet (Parts.new b m.store).Own :=
      (discreet_new hb hd).rawSet _ fun h => absurd hk h
    have hf : (Require.function (ModuleSystem.tabled m.store) (.new permit m.store)).2.Discreet
        (Parts.new b m.store).Own := by
      rw [Require.function_eq]
      exact hd.of_tables rfl rfl rfl rfl
    exact hf.rawSet _ fun h => absurd hk h
  · exact (Intact.new hb (hd.exist _ rfl) hp).toPlaced
  · exact .new hb ha
  · exact fun _ => rfl
  · exact nofun

theorem Sandbox.prepare_spared (closed : m.store.Discreet fun _ => False)
    (hr : (prepare c).run ctx m = some (.ok (b, permit, t), m'))
    (sp : Spares (b.Tables t) permit ctx) :
    ∃ p h given, p.box = b ∧ p.modules.permit = permit ∧
      (∀ id, b.Tables t id ↔ p.Own id ∨ id = t) ∧ Underway p h m'.store ∧
      m'.store.Discreet (b.Tables t) ∧ ¬ p.Own t ∧ m.store.tables.size ≤ t ∧
      (∀ n v, h.recorded n = some v → v ≠ .table t) ∧
      given.map Prod.fst = c.libraries ++ c.hostServices ∧
      (∀ x ∈ given, Gives ctx x.1.module x.2) ∧
      (∀ n, h.recorded n = (History.adopting given []).recorded n) ∧
      (∀ name ∈ c.osFunctions, name ∈ Config.readOnlyOsFunctions) ∧
      ∃ host m₁ m₂, hostOs.run ctx m₁ = some (.ok (.table host), m₂) ∧ host ≠ t ∧
        Filled ctx host c.osFunctions (m'.store.table t) := by
  unfold prepare at hr
  cases hval : c.validate with
  | error e =>
    rw [hval] at hr
    obtain ⟨_, _, hf, -⟩ := Host.ok_bind hr
    cases hf
  | ok u =>
    rw [hval] at hr
    obtain ⟨permit', m₁, hpermit, hr⟩ := Host.ok_bind hr
    obtain ⟨output, m₂, houtput, hr⟩ := Host.ok_bind hr
    obtain ⟨g, m₃, hbuild, hr⟩ := Host.ok_bind hr
    obtain ⟨⟨modules, require⟩, m₄, hopen, hr⟩ := Host.ok_bind hr
    obtain ⟨_, m₅, hbind, hr⟩ := Host.ok_bind hr
    obtain ⟨_, m₆, hbind', hr⟩ := Host.ok_bind hr
    obtain ⟨_, m₇, hadopt, hr⟩ := Host.ok_bind hr
    obtain ⟨_, m₈, hallow, hr⟩ := Host.ok_bind hr
    obtain ⟨os, m₉, hos, hr⟩ := Host.ok_bind hr
    obtain ⟨hc, ht, hlt, he⟩ := begun closed hpermit houtput
    have hb : b = ⟨g, modules, output, c.maxMemory⟩ ∧ permit' = permit ∧ os = t ∧ m₉ = m' := by
      cases hr
      exact ⟨rfl, rfl, rfl, rfl⟩
    obtain ⟨rfl, rfl, rfl, rfl⟩ := hb
    have hg := build_value hbuild
    have hd : m₂.store.newTable.2.Discreet (· = g) :=
      hc.newTable fun id => by rw [hg, false_or]
    obtain ⟨hcalm, hd⟩ := build_spared sp (fun id h => .inl h) hbuild hd hg.symm
    obtain ⟨hu, hm⟩ := Underway.new hopen rfl hd (Nat.lt_of_lt_of_le hlt hcalm.permits)
      fun name => by rw [hcalm.permit, he]; rfl
    subst hm
    have hall (id : Nat) : Sandbox.Tables ⟨g, .new permit' m₃.store, output, c.maxMemory⟩ os id ↔
        (Parts.new ⟨g, .new permit' m₃.store, output, c.maxMemory⟩ m₃.store).Own id ∨ id = os := by
      simp only [Tables, Parts.Own, or_assoc]
      exact Iff.rfl
    have hown := fun id h => (hall id).mpr (.inl h)
    have hu := (hu.bindRun hbind).bindRun hbind'
    obtain ⟨given, hgiven, hgives, hu⟩ := hu.adoptAll sp hown hadopt
    obtain ⟨h, hu, hrec⟩ := hu.allowAll sp hown hallow
    have hlt : m.store.tables.size < m₈.store.tables.size := by
      rw [← ht, ← hg]
      exact hu.discreet.exist g (.inl rfl)
    obtain ⟨hu, hd, hto, hsize, hne, host, m₁₀, hhost, hh, hf⟩ := hu.restrictedOs sp hall hos
    exact ⟨_, h, given, rfl, rfl, hall, hu, hd, hto, Nat.le_trans (Nat.le_of_lt hlt) hsize, hne,
      hgiven, hgives, hrec, Config.readOnly_of_validate hval, host, _, _, hhost, hh, hf⟩

/-! ## The end -/

theorem applyMemoryLimit_tables {limit : Option Nat}
    (hr : (applyMemoryLimit limit).run ctx m = some (.ok (), m')) :
    m'.store.tables = m.store.tables ∧ m'.store.permits = m.store.permits := by
  cases limit with
  | none =>
    cases hr
    exact ⟨rfl, rfl⟩
  | some bytes =>
    obtain ⟨used, m₁, hu, hr⟩ := Host.ok_bind hr
    cases hu
    cases hl : MemoryUsage.limitRefusal? m.store.used bytes with
    | some refusal =>
      rw [hl] at hr
      cases hr
    | none =>
      rw [hl] at hr
      cases hr
      exact ⟨rfl, rfl⟩

/-- What the sandbox has for `os` in the end: the value `v` that the host gives for the module, unless
the name was recorded before. -/
theorem Sandbox.conclude_spared {all : Nat → Prop} {p : Parts} {h : History}
    (sp : Spares all p.modules.permit ctx) (hall : ∀ id, all id ↔ p.Own id ∨ id = t)
    (hu : Underway p h m.store) (hd : m.store.Discreet all) (hto : ¬ p.Own t)
    (hr : (conclude c p.box permit t).run ctx m = some (.ok (), m')) :
    ∃ v, Gives ctx clockModule v ∧ (p.permit m'.store).get? "os" = some v ∧
      m'.store.table t = m.store.table t ∧
      m'.store.rawGet p.box.globals (.str ("os" : Bytes)) = h.answer "os" v ∧
      m'.store.cached? p.modules.loaded (.str ("os" : Bytes)) =
        History.recorded "os" [.required "os" (h.answer "os" v)] := by
  have hown (id : Nat) (h : p.Own id) : all id := (hall id).mpr (.inl h)
  have ht : all t := (hall t).mpr (.inr rfl)
  have hlt := hd.exist t ht
  have hv : (Value.table t).Outside (m.store.Hidden p.Own) := by
    rintro _ ⟨⟩ (h | h)
    · exact hto h
    · exact Nat.not_le_of_lt hlt h
  obtain ⟨_, m₁, hreg, hr⟩ := Host.ok_bind hr
  obtain ⟨hs, hd₁⟩ := registerModule_spared sp hown hreg hd hu.discreet hv
  have hu₁ := hu.spared hown hs hd₁
  obtain ⟨_, m₂, hallow, hr⟩ := Host.ok_bind hr
  obtain ⟨v, m₀, hv, ho, hu₂, ha⟩ := hu₁.allow sp hown hallow
  obtain ⟨w, m₃, hreq, hr⟩ := Host.ok_bind hr
  have hallowed : History.allowed "os" (.allowed "os" v :: h) = some v := if_pos rfl
  obtain ⟨hw, hu₃, ha'⟩ := hu₂.require all hallowed ho hreq
  obtain ⟨_, m₄, hbind, hr⟩ := Host.ok_bind hr
  have hu₄ := hu₃.bindRun hbind
  obtain ⟨_, m₅, hlimit, hr⟩ := Host.ok_bind hr
  obtain ⟨htables, hpermits⟩ := applyMemoryLimit_tables hlimit
  cases hr
  have hside : Aside all p m₃.store m₄.store := by
    cases hbind
    exact .rawSetStr (.inl rfl) _ _
  have hside := (hs.aside.trans ha).trans (ha'.trans hside)
  have hget (id : Nat) (k : Key) : m₅.store.rawGet id k = m₄.store.rawGet id k := by
    rw [Store.rawGet, Store.table, htables]
    rfl
  refine ⟨v, ⟨_, _, hv⟩, ?_, ?_, ?_, ?_⟩
  · show (m₅.store.permit p.modules.permit).get? "os" = some v
    rw [Store.permit, hpermits]
    exact (hu₄.agrees.allowed "os").trans hallowed
  · show m₅.store.table t = _
    rw [Store.table, htables]
    exact hside.table t ht hto hlt
  · show m₅.store.rawGet _ _ = _
    rw [hget]
    cases hbind
    rw [hw]
    exact (m₃.store.rawGet_rawSetStr_self (hu₃.discreet.exist _ (.inl rfl)) ..).trans (if_pos rfl)
  · show (if (m₅.store.rawGet _ _).truthy then some (m₅.store.rawGet _ _) else none) = _
    rw [hget, ← cached?_eq, hu₄.agrees.recorded "os", hw]
    rfl

end

/-! ## The three places -/

section

variable {c : Config} {b : Sandbox} {ctx : Ctx} {m m' : Machine} {t : Nat}

/-- A table is new and holds the host's functions of the configured names, each of which changes
nothing. -/
structure RestrictedOs (c : Config) (ctx : Ctx) (m : Machine) (s : Store) (t : Nat) : Prop where
  fresh : m.store.tables.size ≤ t
  filled : ∃ host m₁ m₂, hostOs.run ctx m₁ = some (.ok (.table host), m₂) ∧ host ≠ t ∧
    Filled ctx host c.osFunctions (s.table t)
  readOnly : ∀ name ∈ c.osFunctions, name ∈ Config.readOnlyOsFunctions

/-- The modules that a sandbox takes in, with the values that the host gave for them. -/
structure Adopted (c : Config) (ctx : Ctx) (given : List (Binding × Value)) : Prop where
  bindings : given.map Prod.fst = c.libraries ++ c.hostServices
  gives : ∀ x ∈ given, Gives ctx x.1.module x.2

/-- The sandbox has this value for `os`: as a global variable, as a loaded module and as one that may
be required. -/
structure Sandbox.HasOs (b : Sandbox) (s : Store) (v : Value) : Prop where
  global : s.rawGet b.globals (.str ("os" : Bytes)) = v
  loaded : s.rawGet b.modules.loaded (.str ("os" : Bytes)) = v
  allowed : (s.permit b.modules.permit).get? "os" = some v

/-- Where nothing was recorded the three places agree on an allowed value, else on none that is
new. -/
theorem Sandbox.hasOs_iff {s : Store} {h : History} {v : Value}
    (hpermit : (s.permit b.modules.permit).get? "os" = some v)
    (hglobal : s.rawGet b.globals (.str ("os" : Bytes)) = h.answer "os" v)
    (hcached : s.cached? b.modules.loaded (.str ("os" : Bytes)) =
      History.recorded "os" [.required "os" (h.answer "os" v)])
    (hne : ∀ v, h.recorded "os" = some v → v ≠ .table t) :
    b.HasOs s (.table t) ↔ v = .table t ∧ h.recorded "os" = none := by
  constructor
  · rintro ⟨hg, -, ha⟩
    refine ⟨Option.some.inj (hpermit.symm.trans ha), ?_⟩
    cases hr : h.recorded "os" with
    | none => rfl
    | some w =>
      rw [hglobal, History.answer, hr] at hg
      exact absurd hg (hne w hr)
  · rintro ⟨rfl, hr⟩
    have ha : h.answer "os" (.table t) = .table t := by
      rw [History.answer, hr]
      rfl
    rw [ha] at hglobal hcached
    refine ⟨hglobal, ?_, hpermit⟩
    rw [cached?_eq] at hcached
    split at hcached
    · exact Option.some.inj hcached
    · cases hcached

theorem os_restricted_iff (closed : m.store.Discreet fun _ => False)
    (hr : (Sandbox.open c).run ctx m = some (.ok b, m'))
    (sp : ∀ {permit t m₁}, (Sandbox.prepare c).run ctx m = some (.ok (b, permit, t), m₁) →
      Spares (b.Tables t) permit ctx) :
    ∃ permit t m₁ given v, (Sandbox.prepare c).run ctx m = some (.ok (b, permit, t), m₁) ∧
      RestrictedOs c ctx m m'.store t ∧ Adopted c ctx given ∧ Gives ctx clockModule v ∧
      (m'.store.permit b.modules.permit).get? "os" = some v ∧
      (b.HasOs m'.store (.table t) ↔
        v = .table t ∧ m₁.store.cached? b.modules.loaded (.str ("os" : Bytes)) = none) ∧
      (m₁.store.cached? b.modules.loaded (.str ("os" : Bytes)) = none ↔
        ∀ x ∈ given, x.1.module = "os" → x.2 = .bool false) := by
  rw [Sandbox.open_eq] at hr
  obtain ⟨⟨b', permit, t⟩, m₁, hprep, hr⟩ := Host.ok_bind hr
  obtain ⟨_, m₂, hconc, hr⟩ := Host.ok_bind hr
  cases hr
  obtain ⟨p, h, given, rfl, rfl, hall, hu, hd, hto, hsize, hne, hgiven, hgives, hrec, hro, host, m₃,
    m₄, hhost, hh, hf⟩ := Sandbox.prepare_spared closed hprep (sp hprep)
  obtain ⟨v, hv, hpermit, htable, hglobal, hcached⟩ :=
    Sandbox.conclude_spared (sp hprep) hall hu hd hto hconc
  have hrecorded : m₁.store.cached? p.box.modules.loaded (.str ("os" : Bytes)) = h.recorded "os" :=
    hu.agrees.recorded "os"
  refine ⟨_, t, m₁, given, v, hprep, ⟨hsize, ⟨host, m₃, m₄, hhost, hh, htable ▸ hf⟩, hro⟩,
    ⟨hgiven, hgives⟩, hv, hpermit, ?_, ?_⟩
  · rw [hrecorded]
    exact Sandbox.hasOs_iff hpermit hglobal hcached (hne "os")
  · rw [hrecorded, hrec, History.recorded_adopting]
    simp only [History.recorded, true_and, Bytes.ofString_inj]

/-- A host all of whose functions look up a loaded module. -/
def lookingUp (loaded : Nat) : Ctx where
  callee := .nil
  sites _ := []
  handler _ := .traceback
  thread := 0
  yieldable := false
  natives := 0
  call _ _ args m := some (.ok [m.store.rawIndex loaded (.first args)], m)

theorem spares_lookingUp {all : Nat → Prop} {loaded : Nat} (h : ¬ all loaded) (permit : Nat) :
    Spares all permit (lookingUp loaded) where
  call {own handler f args vs m m'} hown hd _ _ hc := by
    cases hc
    refine ⟨.refl .., hd, List.forall_mem_singleton.mpr ?_⟩
    by_cases hl : m.store.Hidden own loaded
    · rcases hl with hl | hl
      · exact absurd (hown _ hl) h
      · intro id e
        unfold Store.rawIndex at e
        split at e
        · rw [Store.rawGet, m.store.table_of_le hl] at e
          exact absurd (Table.has_of_get e (by rintro ⟨⟩)) Table.not_has_empty
        · cases e
    · exact hd.unaware.rawIndex (Value.outside_table hl) _

/-- A small host: its global variables, its `os`, its `package`, its loaded modules and one of these. -/
def smallHost : Store :=
  let functions : List (Nat × Bytes) :=
    [(0, "pcall"), (0, "xpcall"), (0, "error"), (0, "select"), (0, "type"), (0, "tostring"),
      (0, "load"), (0, "require"), (1, "clock")]
  let tables : List (Nat × Bytes × Nat) :=
    [(0, "os", 1), (0, "package", 2), (2, "loaded", 3), (3, "string", 4)]
  tables.foldl (fun s e => s.rawSetStr e.1 e.2.1 (.table e.2.2))
    (functions.foldl (fun s e => s.rawSetStr e.1 e.2 (.fn 0)) { tables := #[{}, {}, {}, {}, {}] })

theorem discreet_smallHost : smallHost.Discreet fun _ => False := by
  have hempty (id : Nat) : (#[{}, {}, {}, {}, {}] : Array Table).getD id {} = {} := by
    match id with
    | 0 | 1 | 2 | 3 | 4 | _ + 5 => rfl
  have hbase : ({ tables := #[{}, {}, {}, {}, {}] } : Store).Discreet fun _ => False := by
    refine ⟨nofun, ⟨⟨Value.outside_nil _, fun {id v} _ h => ?_, fun {id mt} _ h => ?_, nofun, nofun⟩, ?_⟩⟩
    · rw [Store.table, hempty] at h
      exact absurd h Table.not_has_empty
    · rw [Store.table, hempty] at h
      cases h
    · rintro (h | h)
      · exact h
      · exact absurd h (by decide)
  have hfn (l : List (Nat × Bytes)) : ∀ {s : Store}, s.Discreet (fun _ => False) →
      (l.foldl (fun s e => s.rawSetStr e.1 e.2 (.fn 0)) s).Discreet fun _ => False := by
    induction l with
    | nil => exact fun hs => hs
    | cons e l ih => exact fun hs => ih (hs.rawSet _ fun _ => Value.outside_fn _ 0)
  have htable (l : List (Nat × Bytes × Nat)) : ∀ {s : Store}, s.Discreet (fun _ => False) →
      (∀ e ∈ l, e.2.2 < s.tables.size) →
      (l.foldl (fun s e => s.rawSetStr e.1 e.2.1 (.table e.2.2)) s).Discreet fun _ => False := by
    induction l with
    | nil => exact fun hs _ => hs
    | cons e l ih =>
      intro s hs hl
      obtain ⟨he, hl⟩ := List.forall_mem_cons.mp hl
      refine ih (hs.rawSet _ fun _ => ?_) fun e' h => ?_
      · rintro _ ⟨⟩ (h | h)
        · exact h
        · exact Nat.not_le_of_lt he h
      · exact Nat.lt_of_lt_of_eq (hl e' h) (s.tables_rawSet_size ..).symm
  refine htable _ (hfn _ hbase) ?_
  decide

def smallConfig : Config :=
  { Config.plain with builtins := [], libraries := [⟨"string", none⟩], osFunctions := ["clock"] }

def endsWith {α : Type} (q : α → Machine → Bool) : Option (Except Failure α × Machine) → Bool
  | some (.ok a, m) => q a m
  | _ => false

theorem exists_of_endsWith {α : Type} {q : α → Machine → Bool}
    {r : Option (Except Failure α × Machine)} (h : endsWith q r = true) :
    ∃ a m, r = some (.ok a, m) ∧ q a m = true := by
  unfold endsWith at h
  split at h
  · next a m => exact ⟨a, m, rfl, h⟩
  · cases h

theorem os_restricted_small : ∃ b m', smallHost.Discreet (fun _ => False) ∧
    (Sandbox.open smallConfig).run (lookingUp 3) ⟨smallHost, #[]⟩ = some (.ok b, m') ∧
    ∃ t, RestrictedOs smallConfig (lookingUp 3) ⟨smallHost, #[]⟩ m'.store t ∧
      b.HasOs m'.store (.table t) := by
  obtain ⟨b, m', hopen, hallowed⟩ := exists_of_endsWith
    (q := fun b m => (m.store.permit b.modules.permit).get? "os" == some (.table 9))
    (r := (Sandbox.open smallConfig).run (lookingUp 3) ⟨smallHost, #[]⟩) (by decide +kernel)
  obtain ⟨x, m₁, hprep, hx⟩ := exists_of_endsWith
    (q := fun x _ => x.1.globals == 5 && x.1.modules.package == 6 && x.1.modules.loaded == 7 &&
      x.2.2 == 9)
    (r := (Sandbox.prepare smallConfig).run (lookingUp 3) ⟨smallHost, #[]⟩) (by decide +kernel)
  simp only [Bool.and_eq_true, beq_iff_eq] at hx
  obtain ⟨⟨⟨h₁, h₂⟩, h₃⟩, h₄⟩ := hx
  have sp : ∀ {permit t m₁}, (Sandbox.prepare smallConfig).run (lookingUp 3) ⟨smallHost, #[]⟩ =
      some (.ok (b, permit, t), m₁) → Spares (b.Tables t) permit (lookingUp 3) := by
    intro permit t m₁ h
    cases hprep.symm.trans h
    dsimp only at h₁ h₂ h₃ h₄
    refine spares_lookingUp ?_ permit
    rintro (h | h | h | h | h) <;> omega
  obtain ⟨permit, t, m₂, given, v, hp, hos, ha, -, hv, hiff, hnone⟩ :=
    os_restricted_iff discreet_smallHost hopen sp
  cases hprep.symm.trans hp
  refine ⟨b, m', discreet_smallHost, hopen, t, hos, hiff.mpr ⟨?_, hnone.mpr fun x hx hn => ?_⟩⟩
  · obtain rfl : t = 9 := h₄
    exact Option.some.inj (hv.symm.trans (beq_iff_eq.mp hallowed))
  · have hmem : x.1 ∈ given.map Prod.fst := List.mem_map_of_mem hx
    rw [ha.bindings] at hmem
    rw [List.mem_singleton.mp hmem] at hn
    exact absurd hn (by decide)

/-! ## A library called `os` -/

/-- A sandbox opened on a fresh interpreter has for its global variable `os` the host's own library,
with the function that runs commands. -/
def sharesOs (c : Config) : Bool :=
  endsWith (fun b m =>
    match m.store.rawGet m.store.globals (.str ("os" : Bytes)) with
    | .table host =>
      m.store.rawGet b.globals (.str ("os" : Bytes)) == .table host &&
        !(m.store.rawGet host (.str ("execute" : Bytes))).isNil
    | _ => false) (Machine.fresh.perform 1000 (Sandbox.open c))

theorem os_library_is_shared :
    sharesOs { Config.plain with libraries := [⟨"os", none⟩] } = true := by
  decide +kernel

end

end Cordon
