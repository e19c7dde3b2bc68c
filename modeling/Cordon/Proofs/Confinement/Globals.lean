import Cordon.Proofs.Confinement.Fresh
import Cordon.Proofs.Confinement.Opening
import Cordon.Proofs.Confinement.Steps
import Cordon.Proofs.Fresh
import Cordon.Proofs.Sandbox.RestrictedOs

/-!
# What the host keeps stays with the host

A sandbox that is opened on a fresh interpreter is made of nothing that the host keeps, and no program
that runs in it gets at that: the host's tables stay as they are, and no run returns one of them, nor a
function that leads to one.
-/

namespace Cordon

open Lua

variable {w : Ward}

/-! ## Host code outside programs -/

theorem Lua.Machine.outside_alike (w : Ward) (fuel : Nat) :
    Ctx.Alike w (Machine.outside fuel) (Machine.outside fuel) where
  callee := rfl
  sites := rfl
  handler := rfl
  clear := trivial
  thread := rfl
  yieldable := rfl
  natives := rfl
  call {handler _ _ _ _} hh hf ha hm :=
    (Exec.runs_alike w fuel { handler, depth := { natives := 1 } } 0 hh hf ha hm).outcomes

/-! ## Opening -/

namespace Sandbox

theorem prepare_keeps {c : Config} (hw : w.Serves c.builtins)
    (hl : ∀ binding ∈ c.libraries, w.library (Bytes.beforeNul binding.module)) (hs : c.hostServices = [])
    (ha : c.allowed = []) :
    Host.Keeps w (prepare c) fun r => r.1.Clear w ∧ ¬ w.table r.2.2 := by
  unfold prepare
  rw [hs, ha, List.append_nil]
  split
  · exact .bind (.fail _ (Q := fun _ => False)) fun _ h => h.elim
  · refine .bind (Q := fun _ => True) (.updateGet fun s hs => ⟨trivial, hs.newPermit⟩) fun permit _ => ?_
    refine .bind (Q := fun _ => True) (.updateGet fun s hs => ⟨trivial, hs.newOutput⟩) fun output _ => ?_
    refine .bind (Environment.build_keeps hw rfl output) fun globals hg => ?_
    refine .bind (ModuleSystem.open_keeps permit) fun r hr => ?_
    obtain ⟨modules, require⟩ := r
    dsimp -zeta only
    extract_lets b
    have hb : b.Clear w := ⟨hg, hr.1⟩
    refine .bind (Sandbox.bind_keeps hb _ hr.2) fun _ _ => ?_
    refine .bind (Sandbox.bind_keeps hb _ (v := .table modules.package) hr.1.package) fun _ _ => ?_
    refine .bind (.forIn fun binding h => ?_) fun _ _ => ?_
    · exact .bind (Sandbox.adopt_keeps hw hb (hl binding h)) fun _ _ => .pure rfl
    refine .bind (.forIn fun binding h => absurd h List.not_mem_nil) fun _ _ => ?_
    exact .bind (restrictedOs_keeps hw c.osFunctions) fun os ho => .pure ⟨hb, ho⟩

end Sandbox

/-! ## What the host serves -/

section

variable (s : Store)

def Lua.Store.serves (builtins : List String) : Bool :=
  builtins.all (fun name => (s.global name).spared s.reservedTables s.reservedFunctions) &&
    (s.global "_VERSION").spared s.reservedTables s.reservedFunctions &&
    ["pcall", "xpcall", "error", "select", "type", "tostring"].all (fun name =>
      match s.global name with
      | .fn id => !s.reservedFunctions.contains id
      | _ => false) &&
    s.hasBase "load" .load && s.hasBase "require" .require &&
    (match s.global "os" with
      | .table id => !s.reservedTables.contains id
      | _ => false) &&
    s.global "package" == .table s.package &&
    (s.table s.package).getStr "loaded" == .table s.loaded &&
    s.globals != s.loaded && s.package != s.loaded

end

section

variable {s : Store} {library : Bytes → Prop}

theorem Lua.Ward.serves_of {builtins : List String} (h : s.serves builtins = true) :
    (Ward.host s library).Serves builtins := by
  simp only [Store.serves, Bool.and_eq_true, List.all_eq_true, beq_iff_eq, bne_iff_ne] at h
  obtain ⟨⟨⟨⟨⟨⟨⟨⟨⟨hbuiltins, hversion⟩, hfunctions⟩, hload⟩, hrequire⟩, hos⟩, hpackage⟩, hloaded⟩,
    hglobals⟩, hne⟩ := h
  have hentry {name : String} {P : Value → Prop} (hp : P (s.global name)) :
      (Ward.host s library).Offers name P := fun s' hs => by
    have ht : s'.table s.globals = s.table s.globals := (Ward.content_kept hglobals).mp
      (hs.content (by simp [Ward.host, Store.reservedTables]))
    show P ((s'.table s.globals).getStr name)
    rw [ht]
    exact hp
  constructor
  case builtins => exact fun name hn => hentry (Value.clear_of_spared (hbuiltins name hn))
  case version => exact hentry (Value.clear_of_spared hversion)
  case functions =>
    intro name hn
    have h := hfunctions name hn
    split at h
    · next id hid => exact hentry ⟨id, hid, Value.clear_of_spared (v := .fn id) h⟩
    · cases h
  case load => exact hentry (Store.hasBase_iff hload)
  case require => exact hentry (Store.hasBase_iff hrequire)
  case os =>
    split at hos
    · next id hid => exact hentry ⟨id, hid, Value.clear_of_spared (v := .table id) hos⟩
    · cases hos
  case package => exact hentry hpackage
  case loaded =>
    intro s' hs
    have ht : s'.table s.package = s.table s.package := (Ward.content_kept hne).mp
      (hs.content (by simp [Ward.host, Store.reservedTables]))
    show (s'.table s.package).getStr "loaded" = _
    rw [ht]
    exact hloaded

end

/-! ## The clock library -/

theorem hostPackageTable_keeps {builtins : List String} (hw : w.Serves builtins) :
    Host.Keeps w (hostPackageTable "loaded") fun v => v = .table w.loaded := by
  refine .globals ?_
  refine .bind (Q := fun v => v = .table w.package) (.field_entry fun s hs => ?_) fun v hv => ?_
  · have h := hw.package s hs
    rw [h]
    exact ⟨rfl, nofun⟩
  · subst hv
    refine .bind (Q := fun v => v = .table w.loaded) (.field_entry fun s hs => ?_) fun v hv => ?_
    · rw [hw.loaded s hs]
      exact ⟨rfl, nofun⟩
    · subst hv
      exact .pure rfl

section

variable {h : Store} {library : Bytes → Prop} {builtins : List String} {fuel : Nat} {m m' : Machine}

theorem registerModule_alike (hw : (Ward.host h library).Serves builtins)
    (hm : m.Alike (.host h library) m) {name : String} {id : Nat} (hid : id ∉ h.reservedTables)
    (hr : (registerModule name (.table id)).run (Machine.outside fuel) m = some (.ok (), m')) :
    m'.Alike (.host h library) m' ∧ (m'.store.table m'.store.loaded).getStr name = .table id := by
  obtain ⟨v, m₁, hv, hset⟩ := Host.ok_bind hr
  obtain ⟨rfl, hm₁⟩ := (hostPackageTable_keeps hw).ok (Machine.outside_alike _ fuel) hm hv
  have hplain := hm₁.confined.lists.metatable
  have hdone := Host.setField_of_done (Machine.outside fuel) m₁
    (Store.place_of_plain (Bytes.ofString name) (.table id) hplain)
  cases hdone.symm.trans hset
  refine ⟨⟨rfl, hm₁.confined.register _ hid, hm₁.threads⟩, ?_⟩
  have hloaded : m₁.store.loaded = h.loaded := hm₁.confined.loaded
  show ((m₁.store.rawSetStr h.loaded _ _).table m₁.store.loaded).getStr _ = _
  rw [hloaded, Store.rawSetStr, Store.table_rawSet,
    if_pos ⟨rfl, hm₁.confined.tables h.loaded_reserved⟩, Table.getStr_set, if_pos rfl]

theorem outside_require {handler : Handler} {id : Nat} {name : Bytes} {v : Value}
    (hid : m.store.function? id = some (.native (.base .require)))
    (hv : (m.store.table m.store.loaded).getStr name.beforeNul = v) (ht : v.truthy = true)
    {r : Except Value (List Value)}
    (hr : (Machine.outside fuel).call handler (.fn id) [.str name] m = some (r, m')) :
    r = .ok [v] ∧ m' = m := by
  have haccess : m.store.access (.table m.store.loaded) (.str name.beforeNul) = .value v := by
    rw [← hv]
    refine Store.access_of_raw ?_
    rw [Store.rawGet, Table.get_str, hv]
    cases v <;> first | rfl | cases ht
  have hrun (ctx : Ctx) : ((Native.base .require).run [.str name]).run ctx ⟨m.store, m.threads⟩ =
      some (.ok (.ret [v]), ⟨m.store, m.threads⟩) := by
    have hfound : (BaseFn.runRequire [.str name]).run ctx m = some (.ok [v], m) := by
      have hname : (Script.checkText [.str name] 1).run ctx m = some (.ok name, m) := rfl
      rw [BaseFn.runRequire, Script.run_bind, hname]
      simp only [Script.run_bind, Script.run_read, Script.index_of_value ctx m haccess, ht, if_true]
      rfl
    show ((BaseFn.runRequire [.str name] >>= fun vs => pure (Verdict.ret vs) : Script Verdict)).run ctx m = _
    rw [Script.run_bind, hfound]
    rfl
  let b : Surroundings := { handler, depth := { natives := 1 } }
  have hlead : Exec.Leads b (.apply (.fn id) [.str name] m.store) (Exec.start b 0 m.threads)
      (.ret [v] m.store) (Exec.start b 0 m.threads) :=
    .of_native hid (show 1 ≠ maxNatives by decide) (show 0 + nativeSlots ≤ maxSlots by decide) hrun rfl
  obtain ⟨f, hf, hfinish⟩ := Option.map_eq_some_iff.mp hr
  obtain ⟨k, hk⟩ := hlead.run_of_some hf
  cases k with
  | zero => cases hk
  | succ k =>
    cases hk
    cases hfinish
    exact ⟨rfl, rfl⟩

theorem privilegedRequire_loaded (hw : w.Serves builtins) (hm : m.store.Confined w) {name : String}
    {v : Value} (hv : (m.store.table m.store.loaded).getStr (Bytes.beforeNul name) = v)
    (ht : v.truthy = true) {u : Value}
    (hr : (privilegedRequire name).run (Machine.outside fuel) m = some (.ok u, m')) :
    u = v ∧ m' = m := by
  obtain ⟨id, hid, hn⟩ := hw.require m.store hm
  have haccess : m.store.access (.table m.store.globals) (.str (Bytes.ofString "require")) =
      .value (.fn id) := by
    rw [hm.globals]
    refine (Store.access_of_raw ?_).trans (congrArg _ hid)
    rw [Store.rawGet, Table.get_str, hid]
    rfl
  have hfield := Host.field_of_value (Machine.outside fuel) m haccess
  have hfunction : (Host.functionField (.table m.store.globals) "require").run (Machine.outside fuel) m =
      some (.ok (.fn id), m) := by
    rw [Host.functionField, Host.run_bind, hfield]
    rfl
  obtain ⟨g, m₁, hg, hr⟩ := Host.ok_bind hr
  cases hg
  obtain ⟨f, m₂, hf, hr⟩ := Host.ok_bind hr
  cases hfunction.symm.trans hf
  obtain ⟨vs, m₃, hcall, hr⟩ := Host.ok_bind hr
  cases hr
  obtain ⟨hvs, rfl⟩ := outside_require (hm.native hn) hv ht (Host.ok_call hcall)
  cases hvs
  exact ⟨rfl, rfl⟩

/-- Its clock library is clear, and then so is all that a sandbox is made of. -/
theorem conclude_alike (hw : (Ward.host h library).Serves builtins) (hm : m.Alike (.host h library) m)
    {c : Config} {b : Sandbox} (hb : b.Clear (.host h library)) {permit os : Nat}
    (hos : os ∉ h.reservedTables)
    (hr : (Sandbox.conclude c b permit os).run (Machine.outside fuel) m = some (.ok (), m')) :
    m'.Alike (.host h library) m' := by
  have hctx := Machine.outside_alike (.host h library) fuel
  obtain ⟨_, m₁, hregister, hafter⟩ := Host.ok_bind hr
  obtain ⟨hm₁, hget⟩ := registerModule_alike hw hm hos hregister
  obtain ⟨_, m₂, hallow, hrest⟩ := Host.ok_bind hafter
  obtain ⟨v, m₃, hrequire, hpermit⟩ := Host.ok_bind hallow
  have hclock : Bytes.beforeNul clockModule = Bytes.ofString clockModule := by decide
  obtain ⟨rfl, rfl⟩ := privilegedRequire_loaded hw hm₁.confined (hclock ▸ hget) rfl hrequire
  have hm₂ : m₂.Alike (.host h library) m₂ := by
    cases hpermit
    exact ⟨rfl, (hm₁.confined.permitted (v := .table os) hos ..).report _, hm₁.threads⟩
  refine (Host.Keeps.ok (Q := fun _ => True) ?_ hctx hm₂ hrest).2
  refine .bind (ModuleSystem.require_keeps hb.modules _) fun v hv => ?_
  refine .bind (Sandbox.bind_keeps hb _ hv) fun _ _ => .bind (applyMemoryLimit_keeps _) fun _ _ => ?_
  exact .update trivial fun s hs => hs.report _

theorem Sandbox.open_alike (hm : m.Alike (.host h library) m) {c : Config}
    (hw : (Ward.host h library).Serves c.builtins)
    (hl : ∀ binding ∈ c.libraries, library (Bytes.beforeNul binding.module)) (hs : c.hostServices = [])
    (ha : c.allowed = []) {b : Sandbox} (hr : m.perform fuel (Sandbox.open c) = some (.ok b, m')) :
    b.Clear (.host h library) ∧ m'.Alike (.host h library) m' := by
  have hctx := Machine.outside_alike (.host h library) fuel
  rw [Machine.perform, open_eq] at hr
  obtain ⟨⟨b, permit, os⟩, m₁, hprepare, hr⟩ := Host.ok_bind hr
  obtain ⟨⟨hb, hos⟩, hm₁⟩ := (prepare_keeps hw hl hs ha).ok hctx hm hprepare
  obtain ⟨_, m₂, hconclude, hr⟩ := Host.ok_bind hr
  cases hr
  exact ⟨hb, conclude_alike hw hm₁ hb hos hconclude⟩

end

/-! ## Running -/

theorem compileSource_keeps (source chunk : String) {environment : Value} (he : environment.Clear w) :
    Host.Keeps w (compileSource source chunk environment) (Value.Clear w) := by
  unfold compileSource
  extract_lets rest
  have hrest : Host.Keeps w (rest ()) (Value.Clear w) := by
    refine .bind (Q := fun _ => True) (.read fun _ _ => trivial) fun r _ => ?_
    cases r with
    | error message => exact .fail _
    | ok r => exact .updateGet fun s hs => hs.compiled he
  split
  · exact .bind (.fail _ (Q := fun _ => False)) fun _ h => h.elim
  · exact hrest

theorem Sandbox.execute_keeps {b : Sandbox} (hb : b.Clear w) (source : String) :
    Host.Keeps w (b.execute source) fun r => Clears w r.values := by
  refine .bind (Q := fun _ => True) (.read fun _ _ => trivial) fun mark _ => ?_
  refine .bind (compileSource_keeps source defaultChunk (show (Value.table b.globals).Clear w from hb.globals))
    fun f hf => ?_
  refine .bind (.attempt (.call (.clear hf) .nil)) fun r hr => ?_
  refine .bind (Q := fun _ => True) (.read fun _ _ => trivial) fun output _ => ?_
  cases r with
  | ok vs => exact .pure hr
  | error e => exact .fail _

/-- Source texts run in a sandbox, one after the other, whatever comes of them. -/
inductive Sandbox.Runs (b : Sandbox) : Machine → Machine → Prop where
  | none (m : Machine) : Runs b m m
  | next {m m' m'' : Machine} {source : String} {fuel : Nat} {r : Except Failure Run}
    (before : Runs b m m') (run : m'.perform fuel (b.execute source) = some (r, m'')) : Runs b m m''

theorem Sandbox.Runs.alike {b : Sandbox} (hb : b.Clear w) {m m' : Machine} (hr : b.Runs m m')
    (hm : m.Alike w m) : m'.Alike w m' := by
  induction hr with
  | none => exact hm
  | next _ run ih =>
    exact ((execute_keeps hb _).result (Machine.outside_alike _ _) ih run).2

/-- Functions and libraries that the host keeps, and its `package` table. -/
def keptNames : List String := ["io", "dofile", "loadfile", "load", "require", "package"]

section

variable {h : Store} {library : Bytes → Prop} {fuel : Nat} {m m' : Machine} {b : Sandbox}

/-- A run leaves the host's global variables as they are, and returns none of what the host keeps. -/
theorem Sandbox.execute_host (hne : h.globals ≠ h.loaded)
    (hkept : keptNames.all fun name => !(h.global name).spared h.reservedTables h.reservedFunctions)
    (hb : b.Clear (.host h library)) (hm : m.Alike (.host h library) m) {source : String}
    {r : Except Failure Run} (hr : m.perform fuel (b.execute source) = some (r, m')) :
    m'.store.globals = m.store.globals ∧
      m'.store.table m.store.globals = m.store.table m.store.globals ∧
      ∀ run, r = .ok run → ∀ v ∈ run.values, v ≠ .table m.store.globals ∧
        ∀ name ∈ keptNames, v ≠ m.store.global name := by
  obtain ⟨hpost, hm'⟩ := (execute_keeps hb source).result (Machine.outside_alike _ fuel) hm hr
  have hg : m.store.globals = h.globals := hm.confined.globals
  have hg' : m'.store.globals = h.globals := hm'.confined.globals
  have hreserved : h.globals ∈ h.reservedTables := by simp [Store.reservedTables]
  have htable {s : Store} (hs : s.Confined (.host h library)) : s.table h.globals = h.table h.globals :=
    (Ward.content_kept hne).mp (hs.content hreserved)
  refine ⟨hg'.trans hg.symm, ?_, ?_⟩
  · rw [hg, htable hm'.confined, htable hm.confined]
  · rintro run rfl v hv
    have hclear := hpost v hv
    refine ⟨?_, fun name hn e => ?_⟩
    · rintro rfl
      exact hclear (hg.symm ▸ hreserved)
    · -- nothing has written to the table, so the name still stands for what is kept
      have hglobal : m.store.global name = h.global name := by
        unfold Store.global
        rw [hg, htable hm.confined]
      have hspared := Value.spared_iff.mpr (e.trans hglobal ▸ hclear)
      have hno := List.all_eq_true.mp hkept name hn
      rw [hspared] at hno
      cases hno

end

/-! ## A fresh interpreter -/

/-- The libraries of the standard configuration, by the names under which the host has loaded them. -/
def standardLibraries : List Bytes :=
  Config.standard.libraries.map fun binding => Bytes.beforeNul binding.module

theorem fresh_spared : Machine.fresh.store.spared Machine.fresh.store.reservedTables
    Machine.fresh.store.reservedFunctions = true := by decide +kernel

theorem fresh_serves : Machine.fresh.store.serves Config.standard.builtins = true := by decide +kernel

theorem fresh_lists : (Machine.fresh.store.table Machine.fresh.store.loaded).lists
    Machine.fresh.store.reservedTables standardLibraries = true := by decide +kernel

theorem fresh_keeps : keptNames.all (fun name => !(Machine.fresh.store.global name).spared
    Machine.fresh.store.reservedTables Machine.fresh.store.reservedFunctions) = true := by
  decide +kernel

/-- Whatever source texts run in a sandbox with the standard base functions and libraries, on an
interpreter that was fresh before: the host's global variables stay as they are, and no run returns the
table of them, the host's `io` or `package` table, or one of the host's own functions for compiling and
loading. -/
theorem execute_leaves_host {c : Config} (hb : c.builtins = Config.standard.builtins)
    (hl : c.libraries = Config.standard.libraries) (hs : c.hostServices = []) (ha : c.allowed = [])
    {n : Nat} {b : Sandbox} {m₀ m m' : Machine}
    (ho : Machine.fresh.perform n (Sandbox.open c) = some (.ok b, m₀)) (hr : b.Runs m₀ m) {fuel : Nat}
    {source : String} {r : Except Failure Run}
    (h : m.perform fuel (b.execute source) = some (r, m')) :
    m'.store.globals = m.store.globals ∧
      m'.store.table m.store.globals = m.store.table m.store.globals ∧
      ∀ run, r = .ok run → ∀ v ∈ run.values, v ≠ .table m.store.globals ∧
        ∀ name ∈ keptNames, v ≠ m.store.global name := by
  have hfresh : Machine.fresh.Alike (.host Machine.fresh.store (· ∈ standardLibraries)) Machine.fresh :=
    ⟨rfl, Store.confined_of_spared fresh_spared (Table.lists_of fresh_lists), .running _⟩
  have hlib : ∀ binding ∈ c.libraries, Bytes.beforeNul binding.module ∈ standardLibraries :=
    fun binding hm => List.mem_map_of_mem (hl ▸ hm)
  have hserves : (Ward.host Machine.fresh.store (· ∈ standardLibraries)).Serves c.builtins := by
    rw [hb]
    exact Ward.serves_of fresh_serves
  -- opening keeps the ward, then each run does, whatever comes of it
  obtain ⟨hclear, hm₀⟩ := Sandbox.open_alike hfresh hserves hlib hs ha ho
  exact Sandbox.execute_host (by decide +kernel) fresh_keeps hclear (hr.alike hclear hm₀) h

/-- A program that takes what it can get. -/
def grasping : String :=
  "_G.x = 1 string.load = load local f = load('return _G') return f(), _G, load, require, package, io"

theorem execute_leaves_host_plain : ∃ b m₀ m' r,
    Machine.fresh.perform 1000 (Sandbox.open .plain) = some (.ok b, m₀) ∧
    m₀.perform 1000 (b.execute grasping) = some (.ok r, m') ∧ r.values.length = 6 ∧
    m'.store.globals = m₀.store.globals ∧
      m'.store.table m₀.store.globals = m₀.store.table m₀.store.globals ∧
      ∀ run, Except.ok (ε := Failure) r = .ok run → ∀ v ∈ run.values, v ≠ .table m₀.store.globals ∧
        ∀ name ∈ keptNames, v ≠ m₀.store.global name := by
  obtain ⟨b, m₀, hopen, hrun⟩ := exists_of_endsWith
    (q := fun b m => endsWith (fun r _ => r.values.length == 6) (m.perform 1000 (b.execute grasping)))
    (r := Machine.fresh.perform 1000 (Sandbox.open .plain)) (by decide +kernel)
  obtain ⟨r, m', hexecute, hlength⟩ := exists_of_endsWith hrun
  have hleaves := execute_leaves_host (c := .plain) rfl rfl rfl rfl hopen (Sandbox.Runs.none m₀) hexecute
  exact ⟨b, m₀, m', r, hopen, hexecute, eq_of_beq hlength, hleaves⟩

end Cordon
