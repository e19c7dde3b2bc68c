import Cordon.Proofs.Lua.Writes
import Cordon.Proofs.Sandbox.Stages

/-!
# What a new environment holds

The writes by which an environment is made, one step after the other, while the host's code spares its
table: first what the host has under the configured names, then the sandbox's own objects, which are
made for it.
-/

namespace Cordon

open Lua

/-! ## Copies -/

/-- The writes of the host's values under these names, for those that the host has. -/
def copies (host : Table) (names : List String) : List (Bytes × Value) :=
  ((names.map fun name => (Bytes.ofString name, host.getStr name)).filter fun w =>
    !w.2.isNil).reverse

theorem mem_copies {host : Table} {names : List String} {w : Bytes × Value} :
    w ∈ copies host names ↔
      ∃ name ∈ names, w = (Bytes.ofString name, host.getStr name) ∧ w.2 ≠ .nil := by
  have hnil : (!w.2.isNil) = true ↔ w.2 ≠ .nil := by cases w.2 <;> simp [Value.isNil]
  rw [copies, List.mem_reverse, List.mem_filter, List.mem_map, hnil]
  constructor
  · rintro ⟨⟨name, hname, e⟩, hw⟩
    exact ⟨name, hname, e.symm, hw⟩
  · rintro ⟨name, hname, e, hw⟩
    exact ⟨⟨name, hname, e.symm⟩, hw⟩

theorem copies_cons (host : Table) (name : String) (names : List String) :
    copies host (name :: names) = copies host names ++
      if (host.getStr name).isNil then [] else [(Bytes.ofString name, host.getStr name)] := by
  rw [copies, List.map_cons]
  cases h : (host.getStr name).isNil with
  | true =>
    rw [List.filter_cons_of_neg (by simp [h]), if_pos rfl, List.append_nil]
    rfl
  | false =>
    rw [List.filter_cons_of_pos (by simp [h]), List.reverse_cons]
    rfl

variable {s s' : Store} {g : Nat} {ws : List (Bytes × Value)}

theorem copyBuiltins_holds (hg : s.globals ≠ g) : ∀ (names : List String) {s' : Store}
    {ws : List (Bytes × Value)}, s'.Holds g ws → s'.globals = s.globals →
    s'.table s.globals = s.table s.globals →
    (names.foldl (Environment.copyBuiltin g) s').Holds g (copies (s.table s.globals) names ++ ws) ∧
      (names.foldl (Environment.copyBuiltin g) s').table s.globals = s.table s.globals
  | [], _, _, h, _, ht => ⟨h, ht⟩
  | name :: names, s', ws, h, hh, ht => by
    rw [copies_cons, List.append_assoc, List.foldl_cons]
    have hv : (s'.table s'.globals).getStr name = (s.table s.globals).getStr name := by rw [hh, ht]
    unfold Environment.copyBuiltin
    rw [hv]
    split
    · next hnil =>
      rw [hnil]
      exact copyBuiltins_holds hg names (h.of_tables rfl) hh ht
    · next hne =>
      have hnil : ((s.table s.globals).getStr name).isNil = false := by
        cases hv : (s.table s.globals).getStr name <;> first | rfl | exact absurd hv hne
      rw [hnil]
      refine copyBuiltins_holds hg names (h.put _ _) hh ?_
      rw [Store.rawSetStr, s'.table_rawSet, if_neg fun e => hg e.1.symm, ht]

theorem copies_concat (host : Table) (names : List String) (name : String) :
    copies host (names ++ [name]) =
      (if (host.getStr name).isNil then [] else [(Bytes.ofString name, host.getStr name)]) ++
        copies host names := by
  rw [copies, List.map_append, List.filter_append, List.reverse_append]
  cases h : (host.getStr name).isNil with
  | true =>
    rw [List.map_singleton, List.filter_cons_of_neg (by simp [h]), if_pos rfl]
    rfl
  | false =>
    rw [List.map_singleton, List.filter_cons_of_pos (by simp [h])]
    rfl

theorem Lua.Store.Holds.copy {host : Table} {names : List String} (h : s.Holds g (copies host names))
    (name : String) :
    (s.rawSetStr g name (host.getStr name)).Holds g (copies host (names ++ [name])) := by
  have hput := h.put (Bytes.ofString name) (host.getStr name)
  rw [copies_concat]
  cases hv : host.getStr name with
  | nil =>
    rw [hv] at hput
    refine hput.drop_nil (written_eq_nil fun w hw e => ?_)
    obtain ⟨name', -, rfl, hne⟩ := mem_copies.mp hw
    obtain rfl := Bytes.ofString_inj.mp (Key.str.inj e)
    exact hne hv
  | _ =>
    rw [hv] at hput
    exact hput

/-! ## The sandbox's own objects -/

/-- The functions that the environment of a sandbox gets. -/
structure Outfit where
  print : Value
  pcall : Value
  xpcall : Value
  load : Value

/-- They are new, and they print into the sandbox's output, make protected calls and compile for the
sandbox. -/
structure Outfit.Made (o : Outfit) (c : Config) (globals output : Nat) (s s' : Store) : Prop where
  print : ∃ tostring, s.Makes s' o.print (.native (.gate (.print tostring output c.echoPrint)))
  pcall : ∃ cells, s.Makes s' o.pcall (.closure Protect.chunk Protect.pcall cells)
  xpcall : ∃ cells, s.Makes s' o.xpcall (.closure Protect.chunk Protect.xpcall cells)
  load : ∃ host, s.Makes s' o.load (.native (.gate (.load host globals)))

/-- The variables of a new environment, the latest written first. -/
def Outfit.contents (o : Outfit) (c : Config) (globals : Nat) (host : Table) : List (Bytes × Value) :=
  ([("load", o.load), ("xpcall", o.xpcall), ("pcall", o.pcall), ("print", o.print),
    ("_G", .table globals), (Environment.hostVersionName, .ofString c.hostVersion)] :
    List (Bytes × Value)) ++
    copies host (c.builtins ++ ["_VERSION"])

theorem Lua.Protect.functions_makes (s : Store) (h : Held) : ∃ cells,
    s.Makes (functions s h).2.2 (functions s h).1 (.closure chunk pcall cells) ∧
      s.Makes (functions s h).2.2 (functions s h).2.1 (.closure chunk xpcall cells) := by
  have hE := Store.lasting_extends 0
  have hcells := hE.newCells h.values.reverse s []
  have hset (s : Store) (c : Nat) (v : Value) : s.Extends (s.setCell c v) :=
    ⟨Nat.le_refl _, fun _ _ h => h⟩
  unfold functions
  generalize s.newCells [] h.values.reverse = held at hcells
  have hfinish := hE.trans (hE.trans hcells (hE.newCell held.2 .nil))
    (hE.newFunction _ (.closure chunk finish (held.2.cells.size :: held.1)))
  have hset := hE.trans hfinish (hset _ held.2.cells.size (.fn held.2.functions.size))
  have hpcall := (Store.makes_newFunction _
    (.closure chunk pcall (held.2.cells.size :: held.1))).before hset
  have hgrown := hE.trans hset (hE.newFunction _ (.closure chunk pcall (held.2.cells.size :: held.1)))
  exact ⟨held.2.cells.size :: held.1, hpcall.extends (hE.newFunction _ _),
    (Store.makes_newFunction _ _).before hgrown⟩

theorem Lua.Protect.functions_keep (s : Store) (h : Held) :
    (functions s h).2.2.tables = s.tables ∧
      ((functions s h).2.2.stringMeta = s.stringMeta ∧ (functions s h).2.2.faultMeta = s.faultMeta ∧
        (functions s h).2.2.globals = s.globals) ∧
      (functions s h).2.2.permits = s.permits := ⟨rfl, ⟨rfl, rfl, rfl⟩, rfl⟩

/-- An environment in the making: what was written to its table so far and which functions were made,
while nothing refers to the table and nothing else has gone. -/
structure Building (permit g : Nat) (s : Store) (ws : List (Bytes × Value))
    (fs : List (Value × Callable)) (s' : Store) : Prop where
  discreet : s'.Discreet (· = g)
  calm : Calm permit s s'
  holds : s'.Holds g ws
  grows : s.Extends s'
  makes : ∀ f ∈ fs, s.Makes s' f.1 f.2

namespace Building

variable {permit : Nat} {fs : List (Value × Callable)} {all : Nat → Prop} {ctx : Ctx} {m m' : Machine}

theorem new (hd : s.newTable.2.Discreet (· = g)) (hg : g = s.tables.size) :
    Building permit g s [] [] s.newTable.2 where
  discreet := hd
  calm := .newTable s
  holds := hg ▸ .newTable s
  grows := (Store.lasting_extends 0).newTable s
  makes _ hf := absurd hf List.not_mem_nil

theorem step (h : Building permit g s ws fs s') {s'' : Store} {ws' : List (Bytes × Value)}
    (hd : s''.Discreet (· = g)) (hc : Calm permit s' s'') (hh : s''.Holds g ws')
    (he : s'.Extends s'') : Building permit g s ws' fs s'' where
  discreet := hd
  calm := h.calm.trans hc
  holds := hh
  grows := (Store.lasting_extends 0).trans h.grows he
  makes f hf := (h.makes f hf).extends he

theorem change (h : Building permit g s ws fs s') {s'' : Store} (hd : s''.Discreet (· = g))
    (hc : Calm permit s' s'') (ht : s''.table g = s'.table g) (he : s'.Extends s'') :
    Building permit g s ws fs s'' :=
  h.step hd hc (h.holds.of_table (Nat.lt_of_lt_of_le h.holds.exist hc.tables) ht) he

theorem grow (h : Building permit g s ws fs s') {s'' : Store} (ht : s''.tables = s'.tables)
    (hm : s''.stringMeta = s'.stringMeta ∧ s''.faultMeta = s'.faultMeta ∧ s''.globals = s'.globals)
    (hp : s''.permits = s'.permits) (he : s'.Extends s'') : Building permit g s ws fs s'' := by
  refine h.change (h.discreet.of_tables ht hm.1 hm.2.1 hm.2.2) ?_ (by rw [Store.table, ht]; rfl) he
  exact ⟨hm.2.2, he.tables, Nat.le_of_eq (congrArg Array.size hp.symm), by rw [Store.permit, hp]; rfl⟩

theorem made (h : Building permit g s ws fs s') {v : Value} {f : Callable} (hf : s.Makes s' v f) :
    Building permit g s ws ((v, f) :: fs) s' :=
  { h with makes := List.forall_mem_cons.mpr ⟨hf, h.makes⟩ }

theorem put (h : Building permit g s ws fs s') (n : Bytes) (v : Value) :
    Building permit g s ((n, v) :: ws) fs (s'.rawSetStr g n v) where
  discreet := h.discreet.rawSet _ fun hg => absurd rfl hg
  calm := h.calm.trans (.rawSet ..)
  holds := h.holds.put n v
  grows := (Store.lasting_extends 0).trans h.grows
    ((Store.lasting_extends 0).write s' (Nat.zero_le g) _ v)
  makes := h.makes

theorem putRun (h : Building permit g s ws fs m.store) {n : Bytes} {v : Value} {u : Unit}
    (hr : (Host.update fun s => s.rawSetStr g n v).run ctx m = some (.ok u, m')) :
    Building permit g s ((n, v) :: ws) fs m'.store := by
  cases hr
  exact h.put n v

theorem registerRun (h : Building permit g s ws fs m.store) {u : Unit}
    (hr : (Host.update fun s => { s with registered := some g }).run ctx m = some (.ok u, m')) :
    Building permit g s ws fs m'.store := by
  cases hr
  exact h.grow rfl ⟨rfl, rfl, rfl⟩ rfl ⟨Nat.le_refl _, fun _ _ h => h⟩

theorem hostGlobals (h : Building permit g s ws fs m.store) {v : Value}
    (hr : Host.globals.run ctx m = some (.ok v, m')) : v = .table s.globals ∧ m' = m := by
  cases hr
  exact ⟨congrArg Value.table h.calm.globals, rfl⟩

theorem functionField (h : Building permit g s ws fs m.store) (sp : Spares all permit ctx)
    (hg : all g) (hctx : ctx.Maintains Store.Extends) {name : String} {v : Value}
    (hr : (Host.functionField (.table s.globals) name).run ctx m = some (.ok v, m')) :
    Building permit g s ws fs m'.store := by
  have hown : ∀ id, id = g → all id := fun _ e => e ▸ hg
  have hhost : (Value.table s.globals).Outside (m.store.Hidden (· = g)) := by
    rw [← h.calm.globals]
    exact h.discreet.globals
  obtain ⟨hs, hd, -⟩ := functionField_spared sp hown hr h.discreet hhost
  have he := Host.functionField_maintains (Store.lasting_extends 0) hctx _ name m _ m'
    (Nat.zero_le _) hr
  exact h.change hd hs.toCalm (hs.table g hg h.holds.exist) he

theorem newFunction (h : Building permit g s ws fs m.store) {f : Native} {v : Value}
    (hr : (Host.newFunction f).run ctx m = some (.ok v, m')) :
    Building permit g s ws ((v, .native f) :: fs) m'.store := by
  cases hr
  have he : m.store.Extends (m.store.newNative f).2 := (Store.lasting_extends 0).newFunction m.store _
  have hgrown : Building permit g s ws fs (m.store.newNative f).2 :=
    h.grow rfl ⟨rfl, rfl, rfl⟩ rfl he
  exact hgrown.made ((m.store.makes_newFunction _).before h.grows)

/-! ### Protected calls -/

theorem functions (h : Building permit g s ws fs m.store) (held : Protect.Held) {calls : Value × Value}
    (hr : (Host.updateGet fun s =>
      let (pcall, xpcall, s) := Protect.functions s held
      ((pcall, xpcall), s)).run ctx m = some (.ok calls, m')) :
    ∃ cells, Building permit g s ws ((calls.2, .closure Protect.chunk Protect.xpcall cells) ::
      (calls.1, .closure Protect.chunk Protect.pcall cells) :: fs) m'.store := by
  have hgrown := (Store.lasting_extends 0).protectedCalls m.store held
  obtain ⟨cells, hp, hx⟩ := Protect.functions_makes m.store held
  rw [Host.run_updateGet] at hr
  have hkeep := Protect.functions_keep m.store held
  generalize Protect.functions m.store held = made at hr hgrown hp hx hkeep
  obtain ⟨pcall, xpcall, s'⟩ := made
  cases hr
  exact ⟨cells, ((h.grow hkeep.1 hkeep.2.1 hkeep.2.2 hgrown).made (hp.before h.grows)).made
    (hx.before h.grows)⟩

theorem protectedCalls (h : Building permit g s ws fs m.store) (sp : Spares all permit ctx)
    (hg : all g) (hctx : ctx.Maintains Store.Extends) {calls : Value × Value}
    (hr : Environment.protectedCalls.run ctx m = some (.ok calls, m')) :
    ∃ cells isFatal, Building permit g s ws ((calls.2, .closure Protect.chunk Protect.xpcall cells) ::
      (calls.1, .closure Protect.chunk Protect.pcall cells) :: isFatal :: fs) m'.store := by
  obtain ⟨host, m₀, hhost, hr⟩ := Host.ok_bind hr
  obtain ⟨hv, hm⟩ := h.hostGlobals hhost
  rw [hv, hm] at hr
  obtain ⟨pcall, m₁, hf, hr⟩ := Host.ok_bind hr
  have h := h.functionField sp hg hctx hf
  obtain ⟨xpcall, m₂, hf, hr⟩ := Host.ok_bind hr
  have h := h.functionField sp hg hctx hf
  obtain ⟨error, m₃, hf, hr⟩ := Host.ok_bind hr
  have h := h.functionField sp hg hctx hf
  obtain ⟨select, m₄, hf, hr⟩ := Host.ok_bind hr
  have h := h.functionField sp hg hctx hf
  obtain ⟨type, m₅, hf, hr⟩ := Host.ok_bind hr
  have h := h.functionField sp hg hctx hf
  obtain ⟨isFatal, m₆, hf, hr⟩ := Host.ok_bind hr
  obtain ⟨cells, h⟩ := (h.newFunction hf).functions _ hr
  exact ⟨cells, _, h⟩

theorem restrictedLoad (h : Building permit g s ws fs m.store) (sp : Spares all permit ctx)
    (hg : all g) (hctx : ctx.Maintains Store.Extends) {globals : Nat} {load : Value}
    (hr : (Environment.restrictedLoad globals).run ctx m = some (.ok load, m')) :
    ∃ host, Building permit g s ws ((load, .native (.gate (.load host globals))) :: fs) m'.store := by
  obtain ⟨host, m₀, hhost, hr⟩ := Host.ok_bind hr
  obtain ⟨hv, hm⟩ := h.hostGlobals hhost
  rw [hv, hm] at hr
  obtain ⟨host, m₁, hf, hr⟩ := Host.ok_bind hr
  exact ⟨host, (h.functionField sp hg hctx hf).newFunction hr⟩

theorem copied {names : List String} {version : Value} {m₁ m₂ m₃ : Machine} {u u' : Unit}
    (h : Building permit g m.store [] [] m₁.store) (hhost : m.store.globals ≠ g)
    (htable : m₁.store.table m.store.globals = m.store.table m.store.globals)
    (hcopy : (Host.update fun s => names.foldl (Environment.copyBuiltin g) s).run ctx m₁ =
      some (.ok u, m₂))
    (hversion : (Host.read fun s => (s.table s.globals).getStr ("_VERSION" : String)).run ctx m₂ =
      some (.ok version, m₃))
    (hput : (Host.update fun s => s.rawSetStr g ("_VERSION" : String) version).run ctx m₃ =
      some (.ok u', m')) :
    Building permit g m.store (copies (m.store.table m.store.globals) (names ++ ["_VERSION"])) []
      m'.store := by
  obtain ⟨hc, hd⟩ : Calm permit m₁.store (names.foldl (Environment.copyBuiltin g) m₁.store) ∧
      (names.foldl (Environment.copyBuiltin g) m₁.store).Discreet (· = g) :=
    copyBuiltins_calm (by exact rfl) names h.discreet
  obtain ⟨hholds, htable⟩ := copyBuiltins_holds hhost names h.holds h.calm.globals htable
  have he := copyBuiltins_lasting (Store.lasting_extends 0) (Nat.zero_le g) names m₁.store
  rw [List.append_nil] at hholds
  have hcopied := h.step hd hc hholds he
  cases hcopy
  cases hversion
  cases hput
  have hversion : ∀ s' : Store, s'.globals = m.store.globals →
      s'.table m.store.globals = m.store.table m.store.globals →
      (s'.table s'.globals).getStr ("_VERSION" : String) =
        (m.store.table m.store.globals).getStr ("_VERSION" : String) := by
    intro s' hg ht
    rw [hg, ht]
  have hput := hcopied.put ("_VERSION" : String)
    ((m.store.table m.store.globals).getStr ("_VERSION" : String))
  simp only
  rw [hversion _ (hc.globals.trans h.calm.globals) htable]
  exact { hput with holds := hholds.copy "_VERSION" }

end Building

theorem build_holds {permit output : Nat} {all : Nat → Prop} {ctx : Ctx} {c : Config} {m m' : Machine}
    (hr : (Environment.build c output).run ctx m = some (.ok g, m')) (sp : Spares all permit ctx)
    (hg : all g) (hctx : ctx.Maintains Store.Extends) (hd : m.store.newTable.2.Discreet (· = g)) :
    ∃ (o : Outfit) (fs : List (Value × Callable)), o.Made c g output m.store m'.store ∧
      Building permit g m.store (o.contents c g (m.store.table m.store.globals)) fs m'.store := by
  have hvalue := build_value hr
  obtain ⟨t, m₁, ht, hr⟩ := Host.ok_bind hr
  have hmade : t = g ∧ m₁.store = m.store.newTable.2 := by
    cases ht
    exact ⟨hvalue.symm, rfl⟩
  obtain ⟨rfl, hm₁⟩ := hmade
  have hhost : m.store.globals ≠ t := fun e => hd.globals t (congrArg Value.table e) (.inl rfl)
  have h : Building permit t m.store [] [] m₁.store := by
    rw [hm₁]
    exact .new hd hvalue
  have htable : m₁.store.table m.store.globals = m.store.table m.store.globals := by
    rw [hm₁, m.store.table_newTable, if_neg (hvalue ▸ hhost)]
  -- what the host has
  obtain ⟨_, m₂, hcopy, hr⟩ := Host.ok_bind hr
  obtain ⟨version, m₃, hversion, hr⟩ := Host.ok_bind hr
  obtain ⟨_, m₄, hput, hr⟩ := Host.ok_bind hr
  have h := h.copied hhost htable hcopy hversion hput
  -- what is made
  obtain ⟨_, m₅, hput, hr⟩ := Host.ok_bind hr
  have h := h.putRun hput
  obtain ⟨_, m₆, hput, hr⟩ := Host.ok_bind hr
  have h := h.putRun hput
  obtain ⟨host, m₇, hglobals, hr⟩ := Host.ok_bind hr
  obtain ⟨hv, hm⟩ := h.hostGlobals hglobals
  rw [hv, hm] at hr
  obtain ⟨tostring, m₈, hf, hr⟩ := Host.ok_bind hr
  have h := h.functionField sp hg hctx hf
  obtain ⟨print, m₉, hf, hr⟩ := Host.ok_bind hr
  have h := h.newFunction hf
  obtain ⟨_, m₁₀, hput, hr⟩ := Host.ok_bind hr
  have h := h.putRun hput
  obtain ⟨calls, m₁₁, hf, hr⟩ := Host.ok_bind hr
  obtain ⟨cells, isFatal, h⟩ := h.protectedCalls sp hg hctx hf
  obtain ⟨_, m₁₂, hput, hr⟩ := Host.ok_bind hr
  have h := h.putRun hput
  obtain ⟨_, m₁₃, hput, hr⟩ := Host.ok_bind hr
  have h := h.putRun hput
  obtain ⟨load, m₁₄, hf, hr⟩ := Host.ok_bind hr
  obtain ⟨host, h⟩ := h.restrictedLoad sp hg hctx hf
  obtain ⟨_, m₁₅, hput, hr⟩ := Host.ok_bind hr
  have h := h.putRun hput
  obtain ⟨_, m₁₆, hregister, hr⟩ := Host.ok_bind hr
  have h := h.registerRun hregister
  cases hr
  obtain ⟨hload, hmakes⟩ := List.forall_mem_cons.mp h.makes
  obtain ⟨hxpcall, hmakes⟩ := List.forall_mem_cons.mp hmakes
  obtain ⟨hpcall, hmakes⟩ := List.forall_mem_cons.mp hmakes
  obtain ⟨-, hmakes⟩ := List.forall_mem_cons.mp hmakes
  have hprint := hmakes _ (.head _)
  exact ⟨⟨print, calls.1, calls.2, load⟩, _,
    ⟨⟨tostring, hprint⟩, ⟨cells, hpcall⟩, ⟨cells, hxpcall⟩, ⟨host, hload⟩⟩, h⟩

end Cordon
