import Cordon.Proofs.Lua.Maintaining
import Cordon.Proofs.Sandbox.RestrictedOs

/-!
# The stages of opening

Opening a sandbox first makes and registers its environment, then takes in the modules of its
configuration, and last registers its clock library with the host and lets the sandbox have it. In each
stage the opening writes to tables that it has made itself, apart from the two registrations.
-/

namespace Cordon

open Lua

/-! ## Three stages -/

namespace Sandbox

/-- Opening a sandbox up to where its environment is registered: its allow-list, its output and its
table. -/
def found (c : Config) : Host (Nat × Nat × Nat) := do
  match c.validate with
  | .error e => Host.fail e
  | .ok () => pure ()
  let permit ← Host.updateGet Store.newPermit
  let output ← Host.updateGet Store.newOutput
  let globals ← Environment.build c output
  return (permit, output, globals)

/-- The modules of the sandbox and its clock library. -/
def furnish (c : Config) (permit output globals : Nat) : Host (Sandbox × Nat) := do
  let (modules, require) ← ModuleSystem.open permit
  let b : Sandbox := { globals, modules, output, maxMemory := c.maxMemory }
  b.bind "require" require
  b.bind "package" (.table modules.package)
  for binding in c.libraries ++ c.hostServices do
    b.adopt binding
  for binding in c.allowed do
    b.allow binding.module binding.exposed
  let os ← restrictedOs c.osFunctions
  return (b, os)

def grant (c : Config) (b : Sandbox) (permit : Nat) : Host Unit := do
  b.allow clockModule (some "os")
  b.bind "os" (← b.modules.require "os")
  applyMemoryLimit c.maxMemory
  Host.update fun s => s.report (.opened (s.permit permit).size c.maxMemory)

theorem open_stages (c : Config) : Sandbox.open c = do
    let (permit, output, globals) ← found c
    let (b, os) ← furnish c permit output globals
    registerModule clockModule (.table os)
    grant c b permit
    return b := by
  unfold Sandbox.open found
  cases c.validate with
  | error e => rfl
  | ok u => simp only [bind_assoc, pure_bind, furnish, grant]

end Sandbox

theorem Sandbox.furnish_value {c : Config} {permit output globals os : Nat} {b : Sandbox} {ctx : Ctx}
    {m m' : Machine} (h : (furnish c permit output globals).run ctx m = some (.ok (b, os), m')) :
    b = ⟨globals, .new permit m.store, output, c.maxMemory⟩ := by
  obtain ⟨⟨modules, require⟩, m₁, hopen, h⟩ := Host.ok_bind h
  rw [ModuleSystem.open_run] at hopen
  cases hopen
  iterate 5 obtain ⟨_, _, -, h⟩ := Host.ok_bind h
  cases h
  rfl

/-! ## What the stages let be -/

section

variable {R : Store → Store → Prop} {n : Nat} {free : Nat → Prop} {ctx : Ctx}

theorem Lua.Lasting.newCells (hR : Lasting R n free) : ∀ (vs : List Value) (s : Store) (cells : List Nat),
    R s (s.newCells cells vs).2
  | [], s, _ => hR.refl s
  | v :: vs, s, _ => hR.trans (hR.newCell s v) (newCells hR vs _ _)

theorem Lua.Store.cells_newCells_size : ∀ (vs : List Value) (s : Store) (cells : List Nat),
    (s.newCells cells vs).2.cells.size = s.cells.size + vs.length
  | [], _, _ => rfl
  | v :: vs, s, _ => by
    rw [newCells, cells_newCells_size vs, newCell, Array.size_push, List.length_cons]
    omega

theorem Lua.Lasting.protectedCalls (hR : Lasting R n free) (s : Store) (h : Protect.Held) :
    R s (Protect.functions s h).2.2 := by
  have hcells := hR.newCells h.values.reverse s []
  have hsize : s.cells.size ≤ (s.newCells [] h.values.reverse).2.cells.size := by
    rw [Store.cells_newCells_size]
    exact Nat.le_add_right ..
  unfold Protect.functions
  generalize s.newCells [] h.values.reverse = held at hcells hsize
  have hfinish := hR.trans (hR.trans hcells (hR.newCell held.2 .nil))
    (hR.newFunction _ (.closure Protect.chunk Protect.finish (held.2.cells.size :: held.1)))
  exact hR.trans (hR.trans (hR.setCell _ _ hfinish hsize) (hR.newFunction _ _)) (hR.newFunction _ _)

/-- Code that keeps the relation up to its last step, the registration of a table. -/
def Registers (R : Store → Store → Prop) (n : Nat) (ctx : Ctx) (g : Nat) (p : Host Nat) : Prop :=
  ∀ m r m', n ≤ m.store.tables.size → p.run ctx m = some (r, m') →
    match r with
    | .ok g' => g' = g ∧ ∃ s, R m.store s ∧ m'.store = { s with registered := some g }
    | .error _ => R m.store m'.store

/-- A new table is registered, or nothing is. -/
def Founds (R : Store → Store → Prop) (s s' : Store) : Except Failure Nat → Prop
  | .ok g => g = s.tables.size ∧ ∃ s₁, R s s₁ ∧ g < s₁.tables.size ∧ s' = { s₁ with registered := some g }
  | .error _ => R s s'

theorem Lua.Lasting.opened (hR : Lasting R n free) (permit : Nat) {s : Store} (hn : n ≤ s.tables.size) :
    R s (ModuleSystem.opened permit s) := by
  have hnew := hR.trans (hR.trans (hR.newTable s) (hR.newTable _)) (hR.newTable _)
  have htabled : R s (ModuleSystem.tabled s) :=
    hR.trans (hR.trans hnew (hR.write _ hn _ _)) (hR.write _ hn _ _)
  have hhalved (ms : ModuleSystem) : R s (Require.halved (ModuleSystem.tabled s) ms) :=
    hR.trans (hR.trans htabled (hR.newFunction _ _)) (hR.newFunction _ _)
  rw [ModuleSystem.opened, Require.function_eq]
  refine hR.trans (hR.trans ?_ (hR.newFunction _ _)) (hR.write _ hn _ _)
  exact hR.trans (hR.trans (hhalved _) (hR.newCell _ _)) (hR.newCell _ _)

variable (hR : Lasting R n free) (hctx : ctx.Maintains R)
include hR

theorem ModuleSystem.open_maintains {α : Type} (permit : Nat) {f : ModuleSystem × Value → Host α}
    (hf : ∀ ms require, n ≤ ms.loaded → ms.permit = permit → Maintains R n ctx (f (ms, require))) :
    Maintains R n ctx (ModuleSystem.open permit >>= f) := by
  intro m a m' hn h
  rw [Host.run_bind, open_run] at h
  have hR₁ := hR.opened permit hn
  exact hR.trans hR₁ (hf _ _ (Nat.le_succ_of_le hn) rfl _ _ _ (Nat.le_trans hn (hR.tables hR₁)) h)

theorem Registers.bind {α : Type} {g : Nat} {p : Host α} {f : α → Host Nat}
    (hp : Maintains R n ctx p) (hf : ∀ a, Registers R n ctx g (f a)) :
    Registers R n ctx g (p >>= f) := by
  intro m r m' hn h
  rcases Host.of_bind h with ⟨a, m₁, ha, h⟩ | ⟨e, he, rfl⟩
  · have hR₁ := hp _ _ _ hn ha
    have hrest := hf a _ _ _ (Nat.le_trans hn (hR.tables hR₁)) h
    cases r with
    | ok g' =>
      obtain ⟨hg, s, hs, e⟩ := hrest
      exact ⟨hg, s, hR.trans hR₁ hs, e⟩
    | error e => exact hR.trans hR₁ hrest
  · exact hp _ _ _ hn he

theorem Registers.newTable {f : Nat → Host Nat} {m m' : Machine} {r : Except Failure Nat}
    (hn : n ≤ m.store.tables.size)
    (h : (Host.updateGet (fun s => s.newTable) >>= f).run ctx m = some (r, m'))
    (hf : Registers R n ctx m.store.tables.size (f m.store.tables.size)) :
    Founds R m.store m'.store r := by
  have hR₁ := hR.newTable m.store
  have hrest := hf _ _ _ (Nat.le_trans hn (hR.tables hR₁)) h
  cases r with
  | ok g =>
    obtain ⟨rfl, s, hs, e⟩ := hrest
    have hlt : m.store.tables.size < m.store.newTable.2.tables.size :=
      Nat.lt_of_lt_of_eq (Nat.lt_succ_self _) (m.store.tables_newTable_size {}).symm
    exact ⟨rfl, s, hR.trans hR₁ hs, Nat.lt_of_lt_of_le hlt (hR.tables hs), e⟩
  | error e => exact hR.trans hR₁ hrest

theorem Registers.last (g : Nat) : Registers R n ctx g (do
    Host.update fun s => { s with registered := some g }
    return g) := by
  intro m r m' _ h
  cases h
  exact ⟨rfl, m.store, hR.refl _, rfl⟩

theorem applyMemoryLimit_maintains {limit : Option Nat}
    (hl : ∀ bytes ∈ limit, ∀ s : Store, R s { s with memoryLimit := some bytes }) :
    Maintains R n ctx (applyMemoryLimit limit) := by
  unfold applyMemoryLimit
  cases limit with
  | none => exact .pure hR _
  | some bytes =>
    refine .bind hR (.read hR _) fun used => ?_
    split
    · exact .throw hR _
    · exact .update hR (hl bytes rfl)

theorem copyBuiltins_lasting {globals : Nat} (hg : n ≤ globals) : ∀ (names : List String) (s : Store),
    R s (names.foldl (Environment.copyBuiltin globals) s)
  | [], s => hR.refl s
  | name :: names, s => by
    have h : R s (Environment.copyBuiltin globals s name) := by
      unfold Environment.copyBuiltin
      split
      · exact hR.rest rfl
      · exact hR.write s hg _ _
    exact hR.trans h (copyBuiltins_lasting hg names _)

theorem Sandbox.bind_maintains {b : Sandbox} (hb : n ≤ b.globals) (name : String) (v : Value) :
    Maintains R n ctx (b.bind name v) := Host.put_maintains hR hb _ v

include hctx

/-! ### The environment -/

theorem protectedCalls_maintains : Maintains R n ctx Environment.protectedCalls :=
  .bind hR (.read hR _) fun host =>
  .bind hR (Host.functionField_maintains hR hctx host "pcall") fun _ =>
  .bind hR (Host.functionField_maintains hR hctx host "xpcall") fun _ =>
  .bind hR (Host.functionField_maintains hR hctx host "error") fun _ =>
  .bind hR (Host.functionField_maintains hR hctx host "select") fun _ =>
  .bind hR (Host.functionField_maintains hR hctx host "type") fun _ =>
  .bind hR (Host.newFunction_maintains hR _) fun _ =>
  .updateGet hR fun s _ => hR.protectedCalls s _

theorem restrictedLoad_maintains (globals : Nat) :
    Maintains R n ctx (Environment.restrictedLoad globals) :=
  .bind hR (.read hR _) fun host =>
  .bind hR (Host.functionField_maintains hR hctx host "load") fun _ =>
  Host.newFunction_maintains hR _

/-- The environment is registered last, so one that cannot be made is not registered. -/
theorem build_registers (c : Config) (output : Nat) (m : Machine) (r : Except Failure Nat)
    (m' : Machine) (hn : n ≤ m.store.tables.size)
    (h : (Environment.build c output).run ctx m = some (r, m')) :
    Founds R m.store m'.store r := by
  have put (name : String) (v : Value) : Maintains R n ctx (Host.update fun s =>
      s.rawSetStr m.store.tables.size name v : Host Unit) := Host.put_maintains hR hn _ v
  refine Registers.newTable hR hn h ?_
  refine .bind hR (.update hR fun s => copyBuiltins_lasting hR hn c.builtins s) fun _ => ?_
  refine .bind hR (.read hR _) fun version => ?_
  refine .bind hR (put "_VERSION" version) fun _ => ?_
  refine .bind hR (put Environment.hostVersionName _) fun _ => ?_
  refine .bind hR (put "_G" _) fun _ => ?_
  refine .bind hR (.read hR _) fun host => ?_
  refine .bind hR (Host.functionField_maintains hR hctx host "tostring") fun tostring => ?_
  refine .bind hR (Host.newFunction_maintains hR _) fun print => ?_
  refine .bind hR (put "print" print) fun _ => ?_
  refine .bind hR (protectedCalls_maintains hR hctx) fun calls => ?_
  refine .bind hR (put "pcall" calls.1) fun _ => ?_
  refine .bind hR (put "xpcall" calls.2) fun _ => ?_
  refine .bind hR (restrictedLoad_maintains hR hctx _) fun load => ?_
  refine .bind hR (put "load" load) fun _ => ?_
  exact .last hR _

/-! ### Modules -/

theorem privilegedRequire_maintains (module : String) :
    Maintains R n ctx (privilegedRequire module) :=
  .bind hR (.read hR _) fun host =>
  .bind hR (Host.functionField_maintains hR hctx host "require") fun require =>
  .bind hR (Host.call_maintains hR hctx require _) fun _ => .pure hR _

theorem Sandbox.allow_maintains {b : Sandbox} (hb : free b.modules.permit) (module : String)
    (exposed : Option String) : Maintains R n ctx (b.allow module exposed) :=
  .bind hR (privilegedRequire_maintains hR hctx module) fun _ =>
  .update hR fun s => hR.trans (hR.setPermit s hb _) (hR.rest rfl)

theorem ModuleSystem.find_maintains (ms : ModuleSystem) (name : Bytes) :
    Maintains R n ctx (ms.find name) := by
  have hpreload : Maintains R n ctx (ms.searchPreload name) := by
    refine .bind hR (Host.field_maintains hR hctx _ "preload") fun preload => ?_
    split
    · refine .bind hR (Host.ofScript_maintains hR hctx
        (Script.index_maintains hR (hctx.handled _) _ _)) fun f => ?_
      split
      · exact .pure hR _
      · exact .pure hR _
      · exact .throw hR _
    · exact .throw hR _
  refine .bind hR hpreload fun first => ?_
  split
  · exact .pure hR _
  · refine .bind hR (.read hR _) fun second => ?_
    split
    · exact .pure hR _
    · exact .throw hR _

theorem ModuleSystem.require_maintains {ms : ModuleSystem} (hl : n ≤ ms.loaded) (name : String) :
    Maintains R n ctx (ms.require name) := by
  have hfinish (name : Bytes) (v : Value) : Maintains R n ctx (ms.finish name v) :=
    .bind hR (.update hR fun s => hR.trans (hR.write s hl _ _) (hR.rest rfl)) fun _ =>
      .pure hR _
  have hresolve : Maintains R n ctx (ms.resolve name) := by
    refine .bind hR (.read hR _) fun cached => ?_
    split
    · exact .bind hR (.update hR fun s => hR.rest rfl) fun _ => .pure hR _
    · refine .bind hR (find_maintains hR hctx ms name) fun loader => ?_
      split
      · exact .bind hR (hfinish _ _) fun _ => .pure hR _
      · exact .pure hR _
  refine .bind hR hresolve fun r => ?_
  split
  · exact .pure hR _
  · exact .bind hR (Host.call_maintains hR hctx _ _) fun vs => hfinish _ _

theorem Sandbox.adopt_maintains {b : Sandbox} (hp : free b.modules.permit) (hb : n ≤ b.globals)
    (hl : n ≤ b.modules.loaded) (x : Binding) : Maintains R n ctx (b.adopt x) :=
  .bind hR (Sandbox.allow_maintains hR hctx hp x.module none) fun _ =>
  .bind hR (ModuleSystem.require_maintains hR hctx hl x.module) fun v => b.bind_maintains hR hb _ v

/-! ### The clock library -/

theorem restrictedOs_maintains (functions : List String) :
    Maintains R n ctx (restrictedOs functions) := by
  refine .bind hR (.read hR _) fun globals => ?_
  refine .bind hR (Host.field_maintains hR hctx globals "os") fun host => ?_
  split
  · refine Host.newTable_maintains hR fun id hid => ?_
    refine .bind hR (.forIn hR fun name _ => ?_) fun _ => .pure hR _
    refine .bind hR (.lift hR (Host.functionField_maintains hR hctx _ name)) fun found => ?_
    split
    · exact .bind hR (Host.put_maintains hR hid _ _) fun _ => .pure hR _
    · exact .bind hR (.throw hR _) fun _ => .pure hR _
  · exact .throw hR _

/-! ### The stages -/

theorem Sandbox.furnish_maintains (c : Config) (permit : Nat) (hp : free permit) (output : Nat)
    {globals : Nat} (hg : n ≤ globals) : Maintains R n ctx (furnish c permit output globals) := by
  refine ModuleSystem.open_maintains hR permit fun ms require hl hms => ?_
  have hp : free ms.permit := hms ▸ hp
  refine .bind hR (Sandbox.bind_maintains hR hg "require" require) fun _ => ?_
  refine .bind hR (Sandbox.bind_maintains hR hg "package" _) fun _ => ?_
  refine .bind hR (.forIn hR fun x _ => ?_) fun _ => ?_
  · exact .bind hR (Sandbox.adopt_maintains hR hctx hp hg hl x) fun _ => .pure hR _
  · refine .bind hR (.forIn hR fun x _ => ?_) fun _ => ?_
    · exact .bind hR (Sandbox.allow_maintains hR hctx hp x.module x.exposed) fun _ => .pure hR _
    · exact .bind hR (restrictedOs_maintains hR hctx c.osFunctions) fun _ => .pure hR _

theorem Sandbox.grant_maintains {c : Config} {b : Sandbox} (hp : free b.modules.permit)
    (hb : n ≤ b.globals) (hl : n ≤ b.modules.loaded) (permit : Nat)
    (hm : ∀ bytes ∈ c.maxMemory, ∀ s : Store, R s { s with memoryLimit := some bytes }) :
    Maintains R n ctx (grant c b permit) :=
  .bind hR (Sandbox.allow_maintains hR hctx hp clockModule (some "os")) fun _ =>
  .bind hR (ModuleSystem.require_maintains hR hctx hl "os") fun os =>
  .bind hR (b.bind_maintains hR hb "os" os) fun _ =>
  .bind hR (applyMemoryLimit_maintains hR hm) fun _ =>
  .update hR fun _ => hR.rest rfl

end

end Cordon
