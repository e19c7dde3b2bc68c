import Cordon.Proofs.Sandbox.Furnishing

/-!
# What opening writes

Opening writes the host's base functions, the sandbox's own objects, the modules of the configuration and
the clock library into the tables of a new sandbox, in this order. What is there in the end is told by
these writes, as long as the host's code lets the sandbox be.
-/

namespace Cordon

open Lua

/-! ## Calls that let a sandbox be -/

/-- The tables of a sandbox, of which that of preloaded functions comes right after that of loaded
modules. -/
def Sandbox.Own (b : Sandbox) (id : Nat) : Prop :=
  id = b.globals ∨ id = b.modules.package ∨ id = b.modules.loaded ∨ id = b.modules.loaded + 1

/-- A call lets a sandbox be: what was there is still there, and if it could not know the sandbox's
tables it has not changed them or the allow-list, and has not come to know them. -/
structure Sandbox.Avoided (b : Sandbox) (f : Value) (args : List Value) (m : Machine)
    (r : Except Value (List Value)) (m' : Machine) : Prop where
  grows : m.store.Extends m'.store
  spared : ∀ {own : Nat → Prop} {vs : List Value}, (∀ id, own id → b.Own id) →
    m.store.Discreet own → f.Outside (m.store.Hidden own) →
    (∀ v ∈ args, v.Outside (m.store.Hidden own)) → r = .ok vs →
    Spared b.Own b.modules.permit m.store m'.store ∧ m'.store.Discreet own ∧
      ∀ v ∈ vs, v.Outside (m'.store.Hidden own)

section

variable {b : Sandbox} {ctx : Ctx}

theorem Sandbox.spares_only (b : Sandbox) (ctx : Ctx) :
    Spares b.Own b.modules.permit (ctx.only b.Avoided) where
  call hown hd hf hargs hc := (Ctx.of_only hc).2.spared hown hd hf hargs rfl

theorem Spares.parts {permit : Nat} {s : Store} (sp : Spares b.Own b.modules.permit ctx)
    (hb : b.modules = .new permit s) :
    Spares (Parts.new b s).Own (Parts.new b s).modules.permit ctx := by
  have hown : (Parts.new b s).Own = b.Own := by
    funext id
    simp only [Parts.Own, Sandbox.Own, Parts.new, Parts.modules, hb, ModuleSystem.new]
  rw [hown]
  exact sp

theorem Sandbox.own_fresh {s : Store} {n permit : Nat} (hb : b.modules = .new permit s)
    (hg : b.globals = n) (hn : n ≤ s.tables.size) : ∀ id, b.Own id → n ≤ id := by
  rintro id (rfl | rfl | rfl | rfl)
  · exact Nat.le_of_eq hg.symm
  all_goals
    rw [hb]
    simp only [ModuleSystem.new]
    omega

theorem Sandbox.only_grows (b : Sandbox) (ctx : Ctx) :
    (ctx.only b.Avoided).Maintains Store.Extends := Ctx.only_maintains Avoided.grows

end

/-! ## The writes -/

/-- The base functions and the version that a sandbox has if the host has them. -/
def Config.copied (c : Config) : List String := c.builtins ++ ["_VERSION"]

/-- The modules that a sandbox takes in when it is opened. -/
def Config.adopted (c : Config) : List Binding := c.libraries ++ c.hostServices

/-- What a sandbox has of its own, beside its clock library. -/
def Sandbox.objects (b : Sandbox) (c : Config) (o : Outfit) (require : Value) : List (String × Value) :=
  [("package", .table b.modules.package), ("require", require), ("load", o.load),
    ("xpcall", o.xpcall), ("pcall", o.pcall), ("print", o.print), ("_G", .table b.globals),
    (Environment.hostVersionName, .ofString c.hostVersion)]

/-- The global variables of a new sandbox, the latest written first. -/
def Sandbox.contents (b : Sandbox) (c : Config) (host : Table) (o : Outfit) (require os : Value)
    (given : List (Binding × Value)) : List (Bytes × Value) :=
  (Bytes.ofString "os", os) :: (exposures given ++
    ((b.objects c o require).map (fun x => (Bytes.ofString x.1, x.2)) ++ copies host c.copied))

theorem Outfit.Made.before {o : Outfit} {c : Config} {g output : Nat} {s s' s'' : Store}
    (h : o.Made c g output s' s'') (hs : s.Extends s') : o.Made c g output s s'' where
  print := h.print.imp fun _ hf => hf.before hs
  pcall := h.pcall.imp fun _ hf => hf.before hs
  xpcall := h.xpcall.imp fun _ hf => hf.before hs
  load := h.load.imp fun _ hf => hf.before hs

theorem Outfit.Made.extends {o : Outfit} {c : Config} {g output : Nat} {s s' s'' : Store}
    (h : o.Made c g output s s') (hs : s'.Extends s'') : o.Made c g output s s'' where
  print := h.print.imp fun _ hf => hf.extends hs
  pcall := h.pcall.imp fun _ hf => hf.extends hs
  xpcall := h.xpcall.imp fun _ hf => hf.extends hs
  load := h.load.imp fun _ hf => hf.extends hs

/-- What a sandbox opened on `s` consists of: its own objects, which are new, the values of its modules
and its clock library. -/
structure Sandbox.Opened (c : Config) (s : Store) (b : Sandbox) (s' : Store) (o : Outfit)
    (require os : Value) (given : List (Binding × Value)) : Prop where
  fresh : ∀ id, b.Own id → s.tables.size ≤ id
  outfit : o.Made c b.globals b.output s s'
  requires : ∃ cells, s.Makes s' require (.closure Require.chunk Require.program cells)
  bindings : given.map Prod.fst = c.adopted
  answered : ∀ x ∈ given, x.2 ≠ .nil
  clock : os ≠ .nil
  restricted : (∀ x ∈ c.adopted, x.module ≠ "os") →
    ∃ v, (s'.permit b.modules.permit).get? "os" = some v ∧ os = settled v
  package : s'.Holds b.modules.package [("require", require),
    ("preload", .table (b.modules.loaded + 1)), ("loaded", .table b.modules.loaded)]
  globals : s'.Holds b.globals (b.contents c (s.table s.globals) o require os given)
  loaded : s'.Holds b.modules.loaded (("os", os) :: records given)
  allowed : ∀ name, ((s'.permit b.modules.permit).get? name).isSome ↔
    name ∈ "os" :: (c.adopted.map Binding.module ++
      c.allowed.map Binding.exposedName)

section

variable {c : Config} {b : Sandbox} {ctx : Ctx} {m m' : Machine} {permit output g t : Nat}

theorem Sandbox.found_holds {all : Nat → Prop} (closed : m.store.Discreet fun _ => False)
    (hr : (found c).run ctx m = some (.ok (permit, output, g), m')) (sp : Spares all permit ctx)
    (hg : all g) (hctx : ctx.Maintains Store.Extends) :
    ∃ o : Outfit, o.Made c g output m.store m'.store ∧ g = m.store.tables.size ∧
      m'.store.Discreet (· = g) ∧ m'.store.Holds g (o.contents c g (m.store.table m.store.globals)) ∧
      m.store.Extends m'.store ∧ permit < m'.store.permits.size ∧ m'.store.permit permit = {} := by
  unfold found at hr
  cases hval : c.validate with
  | error e =>
    rw [hval] at hr
    obtain ⟨_, _, hf, -⟩ := Host.ok_bind hr
    cases hf
  | ok u =>
    rw [hval] at hr
    obtain ⟨permit', m₁, hpermit, hr⟩ := Host.ok_bind hr
    obtain ⟨output', m₂, houtput, hr⟩ := Host.ok_bind hr
    obtain ⟨g', m₃, hbuild, hr⟩ := Host.ok_bind hr
    cases hr
    obtain ⟨hc, -, hlt, he⟩ := begun closed hpermit houtput
    have hvalue := build_value hbuild
    have hd : m₂.store.newTable.2.Discreet (· = g) := hc.newTable fun id => by rw [hvalue, false_or]
    obtain ⟨o, fs, ho, h⟩ := build_holds hbuild sp hg hctx hd
    -- the allow-list and the output are no tables and no functions
    have hsame : m.store.Extends m₂.store ∧
        m₂.store.table m₂.store.globals = m.store.table m.store.globals ∧
        m₂.store.tables.size = m.store.tables.size := by
      cases hpermit
      cases houtput
      exact ⟨⟨Nat.le_refl _, fun _ _ h => h⟩, rfl, rfl⟩
    have hholds := h.holds
    rw [hsame.2.1] at hholds
    exact ⟨o, ho.before hsame.1, hvalue.trans hsame.2.2, h.discreet, hholds,
      (Store.lasting_extends 0).trans hsame.1 h.grows, Nat.lt_of_lt_of_le hlt h.calm.permits,
      h.calm.permit.trans he⟩

theorem Lua.Require.tables_function (s : Store) (ms : ModuleSystem) :
    (Require.function s ms).2.tables = s.tables := rfl

theorem ModuleSystem.table_opened {s : Store} {id : Nat} (h : id ≠ s.tables.size) :
    (opened permit s).table id = s.table id := by
  rw [opened, Store.rawSetStr, Store.table_rawSet, if_neg fun e => h e.1.symm, Store.table,
    Require.tables_function, ← Store.table, tabled, Store.rawSetStr, Store.table_rawSet,
    if_neg fun e => h e.1.symm, Store.rawSetStr, Store.table_rawSet, if_neg fun e => h e.1.symm]
  by_cases hlt : id < s.tables.size
  · simp only [Store.table_newTable, Store.tables_newTable_size]
    rw [if_neg (by omega), if_neg (by omega), if_neg h]
  · rw [table_new (Nat.le_of_not_lt hlt), s.table_of_le (Nat.le_of_not_lt hlt)]

theorem ModuleSystem.opened_makes (permit : Nat) (s : Store) : ∃ cells,
    s.Makes (opened permit s) (.fn (s.functions.size + 2))
      (.closure Require.chunk Require.program cells) := by
  have h : Require.Serves (.new permit s) (s.functions.size + 2) (Require.newHalves s)
      (Require.function (tabled s) (.new permit s)).2 :=
    Require.function_serves (tabled s) _
  exact ⟨_, _, rfl, Array.getElem?_eq_none (Nat.le_add_right _ _), (h.rawSetStr ..).program⟩

theorem ModuleSystem.opened_package (permit : Nat) (s : Store) :
    (opened permit s).Holds s.tables.size [("require", .fn (s.functions.size + 2)),
      ("preload", .table (s.tables.size + 2)), ("loaded", .table (s.tables.size + 1))] := by
  have hnew := (Store.Holds.newTable s).another.another
  have htabled : (tabled s).Holds s.tables.size
      [("preload", .table (s.tables.size + 2)), ("loaded", .table (s.tables.size + 1))] :=
    (hnew.put "loaded" _).put "preload" _
  exact (htabled.of_tables (Require.tables_function _ _)).put "require" _

theorem Furnished.new {s : Store} {ws : List (Bytes × Value)} (hb : b.modules = .new permit s)
    (hd : s.Discreet (· = b.globals)) (hlt : permit < s.permits.size) (he : s.permit permit = {})
    (hws : s.Holds b.globals ws) : Furnished (.new b s) (ModuleSystem.opened permit s) [] ws []
      (ModuleSystem.opened permit s) := by
  have hsize : (ModuleSystem.opened permit s).tables.size = s.tables.size + 3 :=
    ModuleSystem.tables_opened_size
  obtain ⟨hu, -⟩ := Underway.new (m := ⟨s, #[]⟩) (ModuleSystem.open_run permit (lookingUp 0) ⟨s, #[]⟩)
    hb hd hlt fun name => by rw [he]; rfl
  constructor
  · exact hu
  · simp only [Parts.packaging, Parts.new, Parts.modules, hb]
    exact ModuleSystem.opened_package permit s
  · exact hws.of_table (by rw [hsize]; exact Nat.lt_add_right 3 hws.exist)
      (ModuleSystem.table_opened (Nat.ne_of_lt hws.exist))
  · have hloaded : (Parts.new b s).modules.loaded = s.tables.size + 1 :=
      congrArg ModuleSystem.loaded hb
    rw [hloaded]
    refine ⟨by rw [hsize]; exact Nat.add_lt_add_left (by decide) _, fun k => ?_⟩
    rw [Store.rawGet, ModuleSystem.table_opened (Nat.succ_ne_self _),
      s.table_of_le (Nat.le_succ _)]
    exact Table.get_empty k
  · exact (Store.lasting_extends 0).refl _

theorem Sandbox.furnish_holds {ws : List (Bytes × Value)}
    (hr : (furnish c permit output g).run ctx m = some (.ok (b, t), m'))
    (hd : m.store.Discreet (· = g)) (hlt : permit < m.store.permits.size)
    (he : m.store.permit permit = {}) (hws : m.store.Holds g ws)
    (sp : Spares b.Own b.modules.permit ctx) (hctx : ctx.Maintains Store.Extends) :
    ∃ (h : History) (given : List (Binding × Value)),
      given.map Prod.fst = c.adopted ∧ (∀ x ∈ given, x.2 ≠ .nil) ∧
      History.Grown (c.adopted.map Binding.module ++
        c.allowed.map Binding.exposedName) (c.adopted.map Binding.module) [] h ∧
      (Value.table t).Outside (m'.store.Hidden (Parts.new b m.store).Own) ∧
      Furnished (.new b m.store) (ModuleSystem.opened permit m.store) h (exposures given ++
        (Bytes.ofString "package", .table b.modules.package) ::
          (Bytes.ofString "require", .fn (m.store.functions.size + 2)) :: ws) (records given)
        m'.store := by
  obtain rfl := furnish_value hr
  have sp := sp.parts rfl
  unfold Config.adopted
  obtain ⟨⟨modules, require⟩, m₁, hopen, hr⟩ := Host.ok_bind hr
  have hopened : modules = .new permit m.store ∧ require = .fn (m.store.functions.size + 2) ∧
      m₁.store = ModuleSystem.opened permit m.store := by
    rw [ModuleSystem.open_run] at hopen
    cases hopen
    exact ⟨rfl, rfl, rfl⟩
  obtain ⟨rfl, rfl, hm₁⟩ := hopened
  obtain ⟨_, m₂, hrequire, hr⟩ := Host.ok_bind hr
  obtain ⟨_, m₃, hpackage, hr⟩ := Host.ok_bind hr
  obtain ⟨_, m₄, hadopt, hr⟩ := Host.ok_bind hr
  obtain ⟨_, m₅, hallow, hr⟩ := Host.ok_bind hr
  obtain ⟨t', m₆, hos, hr⟩ := Host.ok_bind hr
  cases hr
  have hf : Furnished (.new ⟨g, .new permit m.store, output, c.maxMemory⟩ m.store)
      (ModuleSystem.opened permit m.store) [] ws [] m₁.store := by
    rw [hm₁]
    exact .new rfl hd hlt he hws
  have hf := (hf.bindRun hrequire).bindRun hpackage
  obtain ⟨h₁, given, hgiven, hnil, hg, hf⟩ := hf.adoptAll sp hctx hadopt
  obtain ⟨h₂, hg', hf⟩ := hf.allowAll sp hctx hallow
  obtain ⟨ht, hf⟩ := hf.restrictedOs sp hctx hos
  refine ⟨h₂, given, hgiven, hnil, ?_, ht, ?_⟩
  · simpa only [List.append_nil] using hg.trans hg'
  · simpa only [List.append_nil] using hf

theorem Sandbox.open_holds (closed : m.store.Discreet fun _ => False)
    (hr : (Sandbox.open c).run (ctx.only b.Avoided) m = some (.ok b, m')) :
    ∃ o require os given, Opened c m.store b m'.store o require os given := by
  have sp := b.spares_only ctx
  have hctx : (ctx.only b.Avoided).Maintains Store.Extends := b.only_grows ctx
  have hE := Store.lasting_extends 0
  rw [open_stages] at hr
  obtain ⟨⟨permit, output, g⟩, m₁, hfound, hr⟩ := Host.ok_bind hr
  obtain ⟨⟨b', t⟩, m₂, hfurnish, hr⟩ := Host.ok_bind hr
  obtain ⟨_, m₃, hregister, hr⟩ := Host.ok_bind hr
  obtain ⟨_, m₄, hgrant, hr⟩ := Host.ok_bind hr
  obtain ⟨rfl, rfl⟩ : b' = b ∧ m₄ = m' := by
    cases hr
    exact ⟨rfl, rfl⟩
  have hb := furnish_value hfurnish
  have hpermit : b'.modules.permit = permit := congrArg (·.modules.permit) hb
  have hglobals : b'.globals = g := congrArg (·.globals) hb
  obtain ⟨o, ho, hg, hd, hholds, hgrows, hlt, he⟩ :=
    found_holds closed hfound (hpermit ▸ sp) (.inl hglobals.symm) hctx
  obtain ⟨h, given, hgiven, hnil, hgrown, ht, hf⟩ := furnish_holds hfurnish hd hlt he hholds sp hctx
  have sp := sp.parts (congrArg Sandbox.modules hb)
  have hf := hf.registerModule sp hctx ht hregister
  obtain ⟨v, w, h', hw, hv, hgrown', hf⟩ := hf.grant sp hctx hgrant
  have hopened : m₁.store.Extends (ModuleSystem.opened permit m₁.store) :=
    hE.opened permit (Nat.zero_le _)
  obtain ⟨cells, hrequire⟩ := ModuleSystem.opened_makes permit m₁.store
  refine ⟨o, .fn (m₁.store.functions.size + 2), w, given, ?_⟩
  constructor
  case fresh =>
    exact Sandbox.own_fresh (congrArg Sandbox.modules hb) (hglobals.trans hg) hgrows.tables
  case outfit =>
    subst hb
    exact ho.extends (hE.trans hopened hf.grows)
  case requires => exact ⟨cells, (hrequire.extends hf.grows).before hgrows⟩
  case bindings => exact hgiven
  case answered => exact hnil
  case clock => exact hw ▸ h.answer_ne_nil _ v
  case restricted =>
    intro hne
    have hos : "os" ∉ c.adopted.map Binding.module := fun hmem => by
      obtain ⟨x, hx, e⟩ := List.mem_map.mp hmem
      exact hne x hx e
    rw [History.answer, hgrown.recorded_eq hos] at hw
    exact ⟨v, (hf.underway.agrees.allowed "os").trans hv, hw⟩
  case package =>
    have := hf.package
    subst hb
    exact this
  case globals =>
    have := hf.globals
    subst hb
    exact this
  case loaded => exact hf.loaded
  case allowed =>
    intro name
    have hallowed : (m₄.store.permit b'.modules.permit).get? name = h'.allowed (Bytes.ofString name) :=
      hf.underway.agrees.allowed name
    rw [hallowed, (hgrown.trans hgrown').allowed_iff, List.mem_append, List.mem_singleton,
      List.mem_cons]
    exact or_comm

end

end Cordon
