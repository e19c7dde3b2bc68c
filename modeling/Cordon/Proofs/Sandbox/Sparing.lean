import Cordon.Proofs.Lua.Running
import Cordon.Proofs.Lua.Unaware
import Cordon.Sandbox.Environment

/-!
# Host code that spares a sandbox

While a sandbox is opened, code of the host may run: functions behind the host's `require`, and
metamethods of the host's tables. The sandbox is `Discreet` as long as nothing refers to its tables.
Host code `Spares` it if then it leaves these tables and the allow-list as they are, and gets hold of
none of the tables.
-/

namespace Cordon

open Lua

theorem Lua.Value.Outside.mono {own own' : Nat → Prop} {v : Value} (hv : v.Outside own)
    (h : ∀ id, own' id → own id) : v.Outside own' := fun id e hid => hv id e (h id hid)

theorem Lua.Value.outside_first {own : Nat → Prop} {vs : List Value}
    (h : ∀ v ∈ vs, v.Outside own) : (Value.first vs).Outside own := by
  cases vs with
  | nil => exact Value.outside_nil own
  | cons v vs => exact h v (.head _)

namespace Lua.Store

variable {own own' : Nat → Prop} {s s' : Store}

/-- The tables that nothing may refer to: these, and all that are still to come. -/
def Hidden (own : Nat → Prop) (s : Store) (id : Nat) : Prop := own id ∨ s.tables.size ≤ id

/-- These tables exist, and nothing else refers to one of them. -/
structure Discreet (own : Nat → Prop) (s : Store) : Prop where
  exist : ∀ id, own id → id < s.tables.size
  unaware : s.Unaware (s.Hidden own)

theorem Hidden.of_size {id : Nat} (h : s'.Hidden own id) (hs : s.tables.size ≤ s'.tables.size) :
    s.Hidden own id := h.imp_right (Nat.le_trans hs)

namespace Discreet

variable (hd : s.Discreet own)
include hd

theorem globals : (Value.table s.globals).Outside (s.Hidden own) := fun id e => by
  cases e
  exact hd.unaware.globals

theorem of_tables (ht : s'.tables = s.tables) (hs : s'.stringMeta = s.stringMeta)
    (hf : s'.faultMeta = s.faultMeta) (hg : s'.globals = s.globals) : s'.Discreet own where
  exist id h := ht ▸ hd.exist id h
  unaware := by
    have h : s'.Hidden own = s.Hidden own := by unfold Hidden; rw [ht]
    rw [h]
    exact hd.unaware.of_tables ht hs hf hg

theorem rawSet {id : Nat} (k : Key) {v : Value} (hv : ¬ own id → v.Outside (s.Hidden own)) :
    (s.rawSet id k v).Discreet own := by
  have h : (s.rawSet id k v).Hidden own = s.Hidden own := by unfold Hidden; rw [tables_rawSet_size]
  constructor
  · intro id' hid
    rw [tables_rawSet_size]
    exact hd.exist id' hid
  · rw [h]
    exact hd.unaware.rawSet k fun hid => hv fun ho => hid (.inl ho)

theorem newTable (h : ∀ id, own' id ↔ own id ∨ id = s.tables.size) :
    s.newTable.2.Discreet own' := by
  have hh : s.newTable.2.Hidden own' = s.Hidden own := by
    funext id
    simp only [Hidden, h, tables_newTable_size, eq_iff_iff, or_assoc]
    exact or_congr_right (by omega)
  constructor
  · intro id hid
    rw [tables_newTable_size]
    rcases (h id).mp hid with hid | rfl
    · exact Nat.lt_succ_of_lt (hd.exist id hid)
    · exact Nat.lt_succ_self _
  · rw [hh]
    exact hd.unaware.newTable

theorem newTable_other : s.newTable.2.Discreet own := by
  have hh (id : Nat) : s.newTable.2.Hidden own id → s.Hidden own id := by
    rw [Hidden, Hidden, tables_newTable_size]
    exact Or.imp_right Nat.le_of_succ_le
  have ho {id : Nat} (h : ¬ s.newTable.2.Hidden own id) (hne : id ≠ s.tables.size) :
      ¬ s.Hidden own id := by
    rw [Hidden, tables_newTable_size] at h
    rintro (hid | hid)
    · exact h (.inl hid)
    · exact h (.inr (by omega))
  constructor
  · intro id hid
    rw [tables_newTable_size]
    exact Nat.lt_succ_of_lt (hd.exist id hid)
  · constructor
    · constructor
      · exact Value.outside_nil _
      · intro id v hid h
        rw [table_newTable] at h
        split at h
        · exact absurd h Table.not_has_empty
        · next hne =>
          exact (hd.unaware.entry (Value.outside_table (ho (hid id rfl) hne)) h).mono hh
      · intro id mt hid h
        rw [table_newTable] at h
        split at h
        · cases h
        · next hne =>
          exact (hd.unaware.metatable (Value.outside_table (ho (hid id rfl) hne)) h).mono hh
      · exact fun h => (hd.unaware.stringMeta h).mono hh
      · exact fun h => (hd.unaware.faultMeta h).mono hh
    · exact fun hm => hd.unaware.globals (hh _ hm)

end Discreet

end Lua.Store

/-! ## What does not change -/

/-- No table goes, no allow-list goes, and this allow-list stays as it is. The host keeps its table of
global variables. -/
structure Calm (permit : Nat) (s s' : Store) : Prop where
  globals : s'.globals = s.globals
  tables : s.tables.size ≤ s'.tables.size
  permits : s.permits.size ≤ s'.permits.size
  permit : s'.permit permit = s.permit permit

/-- In addition the tables of the sandbox that exist already stay as they are. -/
structure Spared (all : Nat → Prop) (permit : Nat) (s s' : Store) : Prop
    extends Calm permit s s' where
  table : ∀ id, all id → id < s.tables.size → s'.table id = s.table id

section

variable {all own : Nat → Prop} {permit : Nat} {s s' s'' : Store}

theorem Calm.refl (permit : Nat) (s : Store) : Calm permit s s :=
  ⟨rfl, Nat.le_refl _, Nat.le_refl _, rfl⟩

theorem Calm.trans (h : Calm permit s s') (h' : Calm permit s' s'') : Calm permit s s'' :=
  ⟨h'.globals.trans h.globals, Nat.le_trans h.tables h'.tables, Nat.le_trans h.permits h'.permits,
    h'.permit.trans h.permit⟩

theorem Calm.outside (h : Calm permit s s') {v : Value} (hv : v.Outside (s.Hidden own)) :
    v.Outside (s'.Hidden own) := hv.mono fun _ hid => hid.of_size h.tables

theorem Calm.rawSet (s : Store) (id : Nat) (k : Key) (v : Value) : Calm permit s (s.rawSet id k v) :=
  ⟨rfl, Nat.le_of_eq (s.tables_rawSet_size id k v).symm, Nat.le_refl _, rfl⟩

theorem Calm.newTable (s : Store) : Calm permit s s.newTable.2 :=
  ⟨rfl, Nat.le_of_lt (Nat.lt_of_lt_of_eq (Nat.lt_succ_self _) (s.tables_newTable_size {}).symm),
    Nat.le_refl _, rfl⟩

theorem Spared.refl (all : Nat → Prop) (permit : Nat) (s : Store) : Spared all permit s s :=
  ⟨.refl permit s, fun _ _ _ => rfl⟩

theorem Spared.trans (h : Spared all permit s s') (h' : Spared all permit s' s'') :
    Spared all permit s s'' :=
  ⟨h.toCalm.trans h'.toCalm, fun id hid hlt =>
    (h'.table id hid (Nat.lt_of_lt_of_le hlt h.tables)).trans (h.table id hid hlt)⟩

theorem Spared.newTable (s : Store) : Spared all permit s s.newTable.2 :=
  ⟨.newTable s, fun id _ hlt => by rw [s.table_newTable, if_neg (Nat.ne_of_lt hlt)]⟩

theorem Spared.rawSet {id : Nat} (hid : ¬ all id) (k : Key) (v : Value) :
    Spared all permit s (s.rawSet id k v) where
  toCalm := .rawSet s id k v
  table id' h _ := by
    rw [s.table_rawSet]
    exact if_neg fun (e : id = id' ∧ _) => hid (e.1 ▸ h)

end

/-! ## Accesses to the host's tables -/

/-- Calls leave the tables `all` and the allow-list as they are, as long as nothing refers to the
`own` ones among these tables; and they get hold of none of those. -/
structure Spares (all : Nat → Prop) (permit : Nat) (ctx : Ctx) : Prop where
  call : ∀ {own : Nat → Prop} {handler : Handler} {f : Value} {args vs : List Value}
    {m m' : Machine}, (∀ id, own id → all id) → m.store.Discreet own →
    f.Outside (m.store.Hidden own) → (∀ v ∈ args, v.Outside (m.store.Hidden own)) →
    ctx.call handler f args m = some (.ok vs, m') →
    Spared all permit m.store m'.store ∧ m'.store.Discreet own ∧
      ∀ v ∈ vs, v.Outside (m'.store.Hidden own)

section

variable {all own : Nat → Prop} {permit : Nat} {ctx : Ctx} {m m' : Machine}

theorem field_spared (sp : Spares all permit ctx) (hown : ∀ id, own id → all id) {object v : Value}
    {name : String} (h : (Host.field object name).run ctx m = some (.ok v, m'))
    (hd : m.store.Discreet own) (ho : object.Outside (m.store.Hidden own)) :
    Spared all permit m.store m'.store ∧ m'.store.Discreet own ∧
      v.Outside (m'.store.Hidden own) := by
  have hr : Store.Reads (Value.Outside (m.store.Hidden own)) (m.store.access object (.str name)) :=
    Store.accessFrom_reads hd.unaware.toClosed (.str name) maxChain true ho
  rcases Script.ok_index (Host.ok_ofScript h) with ⟨ha, rfl⟩ | ⟨fn, o, vs, ha, hc, rfl⟩
  · rw [ha] at hr
    cases hr with
    | value hv => exact ⟨.refl .., hd, hv⟩
  · rw [ha] at hr
    cases hr with
    | call hf ho =>
      have hargs : ∀ v ∈ [o, Value.str name], v.Outside (m.store.Hidden own) :=
        List.forall_mem_cons.mpr ⟨ho, List.forall_mem_singleton.mpr (Value.outside_str _ _)⟩
      obtain ⟨hs, hd, hvs⟩ := sp.call hown hd hf hargs hc
      exact ⟨hs, hd, Value.outside_first hvs⟩

theorem functionField_spared (sp : Spares all permit ctx) (hown : ∀ id, own id → all id)
    {object v : Value} {name : String}
    (h : (Host.functionField object name).run ctx m = some (.ok v, m'))
    (hd : m.store.Discreet own) (ho : object.Outside (m.store.Hidden own)) :
    Spared all permit m.store m'.store ∧ m'.store.Discreet own ∧ ∃ id, v = .fn id := by
  obtain ⟨w, m₁, hf, hw⟩ := Host.ok_bind h
  obtain ⟨hs, hd, -⟩ := field_spared sp hown hf hd ho
  cases w with
  | fn id =>
    cases hw
    exact ⟨hs, hd, id, rfl⟩
  | _ => cases hw

theorem privilegedRequire_spared (sp : Spares all permit ctx) (hown : ∀ id, own id → all id)
    {module : String} {v : Value} (h : (privilegedRequire module).run ctx m = some (.ok v, m'))
    (hd : m.store.Discreet own) :
    Spared all permit m.store m'.store ∧ m'.store.Discreet own ∧
      v.Outside (m'.store.Hidden own) := by
  obtain ⟨g, m₁, hg, h⟩ := Host.ok_bind h
  cases hg
  obtain ⟨f, m₂, hf, h⟩ := Host.ok_bind h
  obtain ⟨hs, hd, id, rfl⟩ := functionField_spared sp hown hf hd hd.globals
  obtain ⟨vs, m₃, hc, h⟩ := Host.ok_bind h
  cases h
  obtain ⟨hs', hd, hvs⟩ := sp.call hown hd (Value.outside_fn _ id)
    (List.forall_mem_singleton.mpr (Value.outside_str _ _)) (Host.ok_call hc)
  exact ⟨hs.trans hs', hd, Value.outside_first hvs⟩

theorem hostPackageTable_spared (sp : Spares all permit ctx) (hown : ∀ id, own id → all id)
    {field : String} {v : Value} (h : (hostPackageTable field).run ctx m = some (.ok v, m'))
    (hd : m.store.Discreet own) :
    Spared all permit m.store m'.store ∧ m'.store.Discreet own ∧
      v.Outside (m'.store.Hidden own) := by
  obtain ⟨g, m₁, hg, h⟩ := Host.ok_bind h
  cases hg
  obtain ⟨package, m₂, hp, h⟩ := Host.ok_bind h
  obtain ⟨hs, hd, ho⟩ := field_spared sp hown hp hd hd.globals
  cases package with
  | table id =>
    obtain ⟨w, m₃, hf, h⟩ := Host.ok_bind h
    obtain ⟨hs', hd, hw⟩ := field_spared sp hown hf hd ho
    cases w with
    | table t =>
      cases h
      exact ⟨hs.trans hs', hd, hw⟩
    | _ => cases h
  | _ => cases h

/-- The host gets a module which is no table of the sandbox, or one that it may have. -/
theorem registerModule_spared (sp : Spares all permit ctx) (hown : ∀ id, own id → all id)
    {name : String} {v : Value} (h : (registerModule name v).run ctx m = some (.ok (), m'))
    (hall : m.store.Discreet all) (hd : m.store.Discreet own)
    (hv : v.Outside (m.store.Hidden own)) :
    Spared all permit m.store m'.store ∧ m'.store.Discreet own := by
  obtain ⟨t, m₁, ht, h⟩ := Host.ok_bind h
  obtain ⟨hs, hall, hta⟩ := hostPackageTable_spared sp (fun _ h => h) ht hall
  obtain ⟨-, hd, hto⟩ := hostPackageTable_spared sp hown ht hd
  have hv := hs.outside hv
  have hp : Store.Places (Value.Outside (m₁.store.Hidden all)) m₁.store (.str name) v
      (m₁.store.place t (.str name) v) :=
    Store.placeFrom_places hall.unaware.toClosed (.str name) v maxChain true hta
  have hp' : Store.Places (Value.Outside (m₁.store.Hidden own)) m₁.store (.str name) v
      (m₁.store.place t (.str name) v) :=
    Store.placeFrom_places hd.unaware.toClosed (.str name) v maxChain true hto
  rcases Script.ok_assign (Host.ok_ofScript h) with ⟨s', he, rfl⟩ | ⟨fn, o, vs, he, hc⟩
  · rw [he] at hp
    cases hp with
    | @done id k hid _ =>
      exact ⟨hs.trans (.rawSet (fun ha => hid id rfl (.inl ha)) k v), hd.rawSet k fun _ => hv⟩
  · rw [he] at hp'
    cases hp' with
    | call hf ho =>
      have hargs : ∀ w ∈ [o, Value.str name, v], w.Outside (m₁.store.Hidden own) :=
        List.forall_mem_cons.mpr ⟨ho, List.forall_mem_cons.mpr
          ⟨Value.outside_str _ _, List.forall_mem_singleton.mpr hv⟩⟩
      obtain ⟨hs', hd, -⟩ := sp.call hown hd hf hargs hc
      exact ⟨hs.trans hs', hd⟩

end

/-! ## Code that changes no more than the sandbox's tables -/

/-- Where the code comes to an end it has been calm, and nothing refers to the tables still. -/
def Passes {α : Type} (own : Nat → Prop) (host permit : Nat) (ctx : Ctx) (p : Host α)
    (q : α → Prop) : Prop :=
  ∀ (m m' : Machine) (a : α), p.run ctx m = some (.ok a, m') → m.store.Discreet own →
    m.store.globals = host → Calm permit m.store m'.store ∧ m'.store.Discreet own ∧ q a

namespace Passes

variable {α β : Type} {own all : Nat → Prop} {host permit : Nat} {ctx : Ctx}

theorem of_run {p : Host α} (q : α → Prop) {m m' : Machine} {a : α}
    (h : p.run ctx m = some (.ok a, m')) (hd : m.store.Discreet own)
    (hp : Passes own m.store.globals permit ctx p q) :
    Calm permit m.store m'.store ∧ m'.store.Discreet own ∧ q a := hp m m' a h hd rfl

theorem pure {a : α} {q : α → Prop} (h : q a) : Passes own host permit ctx (Pure.pure a) q := by
  intro m m' a' ha hd _
  cases ha
  exact ⟨.refl .., hd, h⟩

theorem bind {p : Host α} {f : α → Host β} {q : α → Prop} {r : β → Prop}
    (hp : Passes own host permit ctx p q)
    (hf : ∀ a, q a → Passes own host permit ctx (f a) r) :
    Passes own host permit ctx (p >>= f) r := by
  intro m m' b h hd hg
  obtain ⟨a, m₁, ha, hb⟩ := Host.ok_bind h
  obtain ⟨hc, hd, hq⟩ := hp _ _ _ ha hd hg
  obtain ⟨hc', hd, hr⟩ := hf a hq _ _ _ hb hd (hc.globals.trans hg)
  exact ⟨hc.trans hc', hd, hr⟩

theorem read (f : Store → α) : Passes own host permit ctx (Host.read f) fun _ => True := by
  intro m m' a ha hd _
  cases ha
  exact ⟨.refl .., hd, trivial⟩

theorem globals : Passes own host permit ctx Host.globals (· = .table host) := by
  intro m m' a ha hd hg
  cases ha
  exact ⟨.refl .., hd, congrArg Value.table hg⟩

theorem updateGet {f : Store → α × Store} {q : α → Prop}
    (h : ∀ s, s.Discreet own → Calm permit s (f s).2 ∧ (f s).2.Discreet own ∧ q (f s).1) :
    Passes own host permit ctx (Host.updateGet f) q := by
  intro m m' a ha hd _
  cases ha
  exact h _ hd

theorem update {f : Store → Store}
    (h : ∀ s, s.Discreet own → Calm permit s (f s) ∧ (f s).Discreet own) :
    Passes own host permit ctx (Host.update f) fun _ => True := by
  intro m m' a ha hd _
  cases ha
  exact ⟨(h _ hd).1, (h _ hd).2, trivial⟩

theorem functionField (sp : Spares all permit ctx) (hown : ∀ id, own id → all id) (name : String) :
    Passes own host permit ctx (Host.functionField (.table host) name) fun v => ∃ id, v = .fn id := by
  rintro m m' a ha hd rfl
  obtain ⟨hs, hd, hv⟩ := functionField_spared sp hown ha hd hd.globals
  exact ⟨hs.toCalm, hd, hv⟩

theorem newFunction (f : Native) : Passes own host permit ctx (Host.newFunction f) fun _ => True :=
  .updateGet fun _ hd =>
    ⟨⟨rfl, Nat.le_refl _, Nat.le_refl _, rfl⟩, hd.of_tables rfl rfl rfl rfl, trivial⟩

theorem put {id : Nat} (hid : own id) (k : Bytes) (v : Value) :
    Passes own host permit ctx (Host.update fun s => s.rawSetStr id k v) fun _ => True :=
  .update fun s hd => ⟨.rawSet s id _ v, hd.rawSet _ fun h => absurd hid h⟩

end Passes

/-! ## The environment -/

section

variable {own all : Nat → Prop} {host permit : Nat} {ctx : Ctx}

theorem copyBuiltins_calm {id : Nat} (hid : own id) : ∀ (names : List String) {s : Store},
    s.Discreet own → Calm permit s (names.foldl (Environment.copyBuiltin id) s) ∧
      (names.foldl (Environment.copyBuiltin id) s).Discreet own
  | [], s, hd => ⟨.refl .., hd⟩
  | name :: names, s, hd => by
    have h : Calm permit s (Environment.copyBuiltin id s name) ∧
        (Environment.copyBuiltin id s name).Discreet own := by
      unfold Environment.copyBuiltin
      split
      · exact ⟨⟨rfl, Nat.le_refl _, Nat.le_refl _, rfl⟩, hd.of_tables rfl rfl rfl rfl⟩
      · exact ⟨.rawSet .., hd.rawSet _ fun h => absurd hid h⟩
    obtain ⟨hc, hd⟩ := copyBuiltins_calm hid names h.2
    exact ⟨h.1.trans hc, hd⟩

theorem protectedCalls_passes (sp : Spares all permit ctx) (hown : ∀ id, own id → all id) :
    Passes own host permit ctx Environment.protectedCalls fun _ => True := by
  unfold Environment.protectedCalls
  refine .bind .globals ?_
  rintro _ rfl
  refine .bind (.functionField sp hown _) fun pcall _ => ?_
  refine .bind (.functionField sp hown _) fun xpcall _ => ?_
  refine .bind (.functionField sp hown _) fun error _ => ?_
  refine .bind (.functionField sp hown _) fun select _ => ?_
  refine .bind (.functionField sp hown _) fun type _ => ?_
  refine .bind (.newFunction _) fun isFatal _ => ?_
  exact .updateGet fun s hd =>
    ⟨⟨rfl, Nat.le_refl _, Nat.le_refl _, rfl⟩, hd.of_tables rfl rfl rfl rfl, trivial⟩

theorem restrictedLoad_passes (sp : Spares all permit ctx) (hown : ∀ id, own id → all id)
    (globals : Nat) :
    Passes own host permit ctx (Environment.restrictedLoad globals) fun _ => True := by
  unfold Environment.restrictedLoad
  refine .bind .globals ?_
  rintro _ rfl
  refine .bind (.functionField sp hown _) fun load _ => ?_
  exact .newFunction _

/-- Whatever else happens, the environment is the next table. -/
theorem build_value {c : Config} {output g : Nat} {m m' : Machine}
    (h : (Environment.build c output).run ctx m = some (.ok g, m')) : g = m.store.tables.size := by
  obtain ⟨g', m₁, hn, h⟩ := Host.ok_bind h
  cases hn
  iterate 14 obtain ⟨_, _, -, h⟩ := Host.ok_bind h
  cases h
  rfl

theorem build_spared (sp : Spares all permit ctx) (hown : ∀ id, own id → all id) {c : Config}
    {output g : Nat} {m m' : Machine}
    (h : (Environment.build c output).run ctx m = some (.ok g, m'))
    (hd : m.store.newTable.2.Discreet own) (hg : own m.store.tables.size) :
    Calm permit m.store m'.store ∧ m'.store.Discreet own := by
  obtain ⟨g', m₁, hn, h⟩ := Host.ok_bind h
  cases hn
  have hrest : Calm permit m.store.newTable.2 m'.store ∧ m'.store.Discreet own ∧ True := by
    refine Passes.of_run (fun _ => True) h hd ?_
    refine .bind (.update fun s hd => copyBuiltins_calm hg c.builtins hd) fun _ _ => ?_
    refine .bind (.read _) fun _ _ => ?_
    refine .bind (.put hg _ _) fun _ _ => ?_
    refine .bind (.put hg _ _) fun _ _ => ?_
    refine .bind (.put hg _ _) fun _ _ => ?_
    refine .bind .globals ?_
    rintro _ rfl
    refine .bind (.functionField sp hown _) fun tostring _ => ?_
    refine .bind (.newFunction _) fun print _ => ?_
    refine .bind (.put hg _ _) fun _ _ => ?_
    refine .bind (protectedCalls_passes sp hown) fun calls _ => ?_
    refine .bind (.put hg _ _) fun _ _ => ?_
    refine .bind (.put hg _ _) fun _ _ => ?_
    refine .bind (restrictedLoad_passes sp hown _) fun load _ => ?_
    refine .bind (.put hg _ _) fun _ _ => ?_
    refine .bind (.update fun s hd =>
      ⟨⟨rfl, Nat.le_refl _, Nat.le_refl _, rfl⟩, hd.of_tables rfl rfl rfl rfl⟩) fun _ _ => ?_
    exact .pure trivial
  exact ⟨(Calm.newTable m.store).trans hrest.1, hrest.2.1⟩

end

end Cordon
