import Cordon.Proofs.Sandbox.Stages

/-!
# Registrations of an interpreter

A sandbox leaves two things with the interpreter: its table under a key of the registry, and its clock
library among the loaded modules of the host. Both are left while the sandbox is still in the making,
so an opening that fails later has left them, too.
-/

namespace Cordon

open Lua

/-! ## The two places -/

/-- The tables by which the host finds its loaded modules. -/
structure Registry where
  globals : Nat
  package : Nat
  loaded : Nat

namespace Registry

/-- The host has its tables there, and takes in a module without a call. -/
structure Ready (g : Registry) (s : Store) : Prop where
  globals : s.globals = g.globals
  package : s.rawGet g.globals (.str ("package" : Bytes)) = .table g.package
  loaded : s.rawGet g.package (.str ("loaded" : Bytes)) = .table g.loaded
  plain : (s.table g.loaded).metatable = none
  exist : g.globals < s.tables.size ∧ g.package < s.tables.size ∧ g.loaded < s.tables.size

def clock (g : Registry) (s : Store) : Value := s.rawGet g.loaded (.str (clockModule : String))

/-- Nobody writes to the two places, and the host keeps its tables. -/
structure Unmoved (g : Registry) (s s' : Store) : Prop where
  tables : s.tables.size ≤ s'.tables.size
  registered : s'.registered = s.registered
  clock : g.clock s' = g.clock s
  ready : g.Ready s → g.Ready s'

variable {g : Registry} {s s' : Store} {n : Nat}

theorem Ready.of_tables (hg : g.Ready s) (ht : s'.tables = s.tables) (h : s'.globals = s.globals) :
    g.Ready s' := by
  have hraw (id : Nat) (k : Key) : s'.rawGet id k = s.rawGet id k := by
    rw [Store.rawGet, Store.table, ht]
    rfl
  constructor
  · exact h.trans hg.globals
  · rw [hraw, hg.package]
  · rw [hraw, hg.loaded]
  · rw [Store.table, ht]
    exact hg.plain
  · rw [ht]
    exact hg.exist

theorem lasting (hn : g.globals < n ∧ g.package < n ∧ g.loaded < n) :
    Lasting g.Unmoved n fun _ => True := by
  refine .of_coarse ?refl ?trans ?tables ?write ?rest ?newTable ?newFunction
  case refl => exact fun _ => ⟨Nat.le_refl _, rfl, rfl, id⟩
  case trans =>
    exact fun h h' => ⟨Nat.le_trans h.tables h'.tables, h'.registered.trans h.registered,
      h'.clock.trans h.clock, h'.ready ∘ h.ready⟩
  case tables => exact fun h => h.tables
  case write =>
    intro s id hid k v
    have hne {i : Nat} (h : i < n) : id ≠ i := fun e => Nat.not_le_of_lt h (e ▸ hid)
    have ht {i : Nat} (h : i < n) : (s.rawSet id k v).table i = s.table i := by
      rw [s.table_rawSet, if_neg fun e => hne h e.1]
    obtain ⟨hg, hp, hl⟩ := hn
    refine ⟨Nat.le_of_eq (s.tables_rawSet_size ..).symm, rfl, ?_, fun hr => ?_⟩
    · rw [clock, clock, Store.rawGet, ht hl, Store.rawGet]
    · constructor
      · exact hr.globals
      · rw [Store.rawGet, ht hg]
        exact hr.package
      · rw [Store.rawGet, ht hp]
        exact hr.loaded
      · rw [ht hl]
        exact hr.plain
      · rw [s.tables_rawSet_size]
        exact hr.exist
  case rest =>
    intro s s' ht _ hg hreg
    refine ⟨Nat.le_of_eq (congrArg Array.size ht.symm), hreg, ?_, fun hr => hr.of_tables ht hg⟩
    rw [clock, clock, Store.rawGet, Store.table, ht]
    rfl
  case newTable =>
    intro s
    have hsize := s.tables_newTable_size {}
    refine ⟨by omega, rfl, s.rawGet_newTable _ _, fun hr => ?_⟩
    constructor
    · exact hr.globals
    · rw [Store.rawGet_newTable]
      exact hr.package
    · rw [Store.rawGet_newTable]
      exact hr.loaded
    · rw [s.table_newTable, if_neg (Nat.ne_of_lt hr.exist.2.2)]
      exact hr.plain
    · obtain ⟨h₁, h₂, h₃⟩ := hr.exist
      omega
  case newFunction => exact fun _ _ => ⟨Nat.le_refl _, rfl, rfl, fun hr => hr.of_tables rfl rfl⟩

theorem Unmoved.limit (g : Registry) (s : Store) (bytes : Nat) :
    g.Unmoved s { s with memoryLimit := some bytes } :=
  ⟨Nat.le_refl _, rfl, rfl, fun hr => hr.of_tables rfl rfl⟩

theorem Ready.rawSetStr (hg : g.Ready s) {k : Bytes} (hk : k ≠ "package") (hk' : k ≠ "loaded")
    (id : Nat) (v : Value) : g.Ready (s.rawSetStr id k v) where
  globals := hg.globals
  package := by
    rw [s.rawGet_rawSetStr, if_neg fun e => hk e.2]
    exact hg.package
  loaded := by
    rw [s.rawGet_rawSetStr, if_neg fun e => hk' e.2]
    exact hg.loaded
  plain := by
    rw [s.metatable_rawSetStr]
    exact hg.plain
  exist := by
    rw [Store.rawSetStr, s.tables_rawSet_size]
    exact hg.exist

theorem register_run {m : Machine} (hg : g.Ready m.store) (ctx : Ctx) (name : String) (v : Value) :
    (registerModule name v).run ctx m =
      some (.ok (), { m with store := m.store.rawSetStr g.loaded name v }) := by
  have hfield {id id' : Nat} {k : String}
      (h : m.store.rawGet id (.str (Bytes.ofString k)) = .table id') :
      (Host.field (.table id) k).run ctx m = some (.ok (.table id'), m) :=
    Host.field_of_value ctx m (by rw [← h, Store.access_of_raw (by rw [h]; rfl)])
  have htable : (hostPackageTable "loaded").run ctx m = some (.ok (.table g.loaded), m) := by
    rw [hostPackageTable, Host.globals, Host.run_bind, Host.run_read]
    simp only
    rw [hg.globals, Host.run_bind, hfield hg.package]
    simp only
    rw [Host.run_bind, hfield hg.loaded]
    rfl
  rw [registerModule, Host.run_bind, htable]
  exact Host.setField_of_done ctx m (Store.place_of_plain _ v hg.plain)

end Registry

/-! ## How far an opening came -/

/-- What an opening has registered by its end, whether it came to a sandbox or not: the table of an
environment, and then the clock library. -/
inductive Stage where
  | refused
  | founded (globals : Nat)
  | published (globals clock : Nat)
  deriving DecidableEq

def Stage.globals? : Stage → Option Nat
  | .refused => none
  | .founded globals | .published globals _ => some globals

def Stage.clock? : Stage → Option Nat
  | .published _ clock => some clock
  | _ => none

def Stage.ofFounding : Except Failure Nat → Stage
  | .ok globals => .founded globals
  | .error _ => .refused

/-- The stage at which an opening ends that starts from this machine. -/
def Sandbox.reaches (c : Config) (ctx : Ctx) (m : Machine) : Stage :=
  match (found c).run ctx m with
  | some (.ok (permit, output, globals), m₁) =>
    match (furnish c permit output globals).run ctx m₁ with
    | some (.ok (_, clock), _) => .published globals clock
    | _ => .founded globals
  | _ => .refused

/-- What an opening leaves behind: both registrations are those of the stage it came to, else what
they were before. -/
structure Registry.Left (g : Registry) (stage : Stage) (s s' : Store) : Prop where
  tables : s.tables.size ≤ s'.tables.size
  registered : s'.registered = stage.globals?.or s.registered
  clock : g.clock s' = stage.clock?.elim (g.clock s) .table
  ready : g.Ready s'
  fresh : ∀ t, stage.globals? = some t → s.tables.size ≤ t ∧ t < s'.tables.size

section

variable {g : Registry} {c : Config} {ctx : Ctx} {m m' : Machine} {s s' s'' : Store} {stage : Stage}

theorem Registry.Unmoved.left (h : g.Unmoved s s') (hg : g.Ready s) : g.Left .refused s s' :=
  ⟨h.tables, h.registered, h.clock, h.ready hg, nofun⟩

theorem Registry.Left.unmoved (h : g.Left stage s s') (h' : g.Unmoved s' s'') : g.Left stage s s'' where
  tables := Nat.le_trans h.tables h'.tables
  registered := h'.registered.trans h.registered
  clock := h'.clock.trans h.clock
  ready := h'.ready h.ready
  fresh t ht := ⟨(h.fresh t ht).1, Nat.lt_of_lt_of_le (h.fresh t ht).2 h'.tables⟩

theorem Registry.Unmoved.then (h : g.Unmoved s s') (h' : g.Left stage s' s'') : g.Left stage s s'' where
  tables := Nat.le_trans h.tables h'.tables
  registered := h.registered ▸ h'.registered
  clock := h.clock ▸ h'.clock
  ready := h'.ready
  fresh t ht := ⟨Nat.le_trans h.tables (h'.fresh t ht).1, (h'.fresh t ht).2⟩

theorem build_left {output : Nat} {r : Except Failure Nat} (hg : g.Ready m.store)
    (hctx : ctx.Maintains g.Unmoved) (h : (Environment.build c output).run ctx m = some (r, m')) :
    g.Left (.ofFounding r) m.store m'.store := by
  have hR := Registry.lasting hg.exist
  have hbuild := build_registers hR hctx c output m r m' (Nat.le_refl _) h
  cases r with
  | ok t =>
    obtain ⟨ht, s, hs, hlt, e⟩ := hbuild
    constructor
    · rw [e]
      exact hs.tables
    · rw [e]
      rfl
    · rw [e]
      exact hs.clock
    · rw [e]
      exact (hs.ready hg).of_tables rfl rfl
    · rintro t ⟨⟩
      rw [e]
      exact ⟨Nat.le_of_eq ht.symm, hlt⟩
  | error e => exact hbuild.left hg

theorem Sandbox.found_left {r : Except Failure (Nat × Nat × Nat)} (hg : g.Ready m.store)
    (hctx : ctx.Maintains g.Unmoved) (h : (found c).run ctx m = some (r, m')) :
    g.Left (.ofFounding (r.map (·.2.2))) m.store m'.store := by
  have hR := Registry.lasting hg.exist
  unfold found at h
  cases hval : c.validate with
  | error e =>
    rw [hval] at h
    cases h
    exact (hR.refl m.store).left hg
  | ok u =>
    rw [hval] at h
    rw [Host.run_bind, Host.run_updateGet] at h
    simp only at h
    rw [Host.run_bind, Host.run_updateGet] at h
    have hbegun : g.Unmoved m.store m.store.newPermit.2.newOutput.2 :=
      hR.trans (hR.newPermit _) (hR.newOutput _)
    rcases Host.of_bind h with ⟨t, m₁, hbuild, h⟩ | ⟨e, hbuild, rfl⟩
    · cases h
      have hleft := build_left (hbegun.ready hg) hctx hbuild
      exact hbegun.then hleft
    · have hleft := build_left (hbegun.ready hg) hctx hbuild
      exact hbegun.then hleft

theorem Registry.Left.publish {t : Nat} (h : g.Left (.founded t) s s') (os : Nat) :
    g.Left (.published t os) s (s'.rawSetStr g.loaded (clockModule : String) (.table os)) where
  tables := Nat.le_trans h.tables (Nat.le_of_eq (s'.tables_rawSet_size ..).symm)
  registered := h.registered
  clock := by
    rw [Registry.clock, s'.rawGet_rawSetStr_self h.ready.exist.2.2, if_pos rfl]
    rfl
  ready := h.ready.rawSetStr (by decide) (by decide) _ _
  fresh t' ht := by
    rw [Store.rawSetStr, s'.tables_rawSet_size]
    exact h.fresh t' ht

/-- What an opening leaves is decided by the stage at which it ends. -/
theorem Sandbox.open_left {r : Except Failure Sandbox} (hg : g.Ready m.store)
    (hctx : ctx.Maintains g.Unmoved) (h : (Sandbox.open c).run ctx m = some (r, m')) :
    g.Left (reaches c ctx m) m.store m'.store ∧
      ∀ b, r = .ok b → ∃ os, reaches c ctx m = .published b.globals os := by
  have hR := Registry.lasting hg.exist
  rw [open_stages] at h
  rcases Host.of_bind h with ⟨⟨permit, output, t⟩, m₁, hfound, h⟩ | ⟨e, hfound, rfl⟩
  · have hleft := found_left hg hctx hfound
    have ht := (hleft.fresh t rfl).1
    have hfurnish := furnish_maintains hR hctx c permit trivial output ht m₁
    rcases Host.of_bind h with ⟨⟨b, os⟩, m₂, hrun, h⟩ | ⟨e, hrun, rfl⟩
    · have hleft := hleft.unmoved (hfurnish _ _ hleft.tables hrun)
      have hstage : reaches c ctx m = .published t os := by
        rw [reaches, hfound]
        simp only [hrun]
      obtain rfl := furnish_value hrun
      rw [Host.run_bind, Registry.register_run hleft.ready] at h
      have hleft := hleft.publish os
      rw [hstage]
      have hloaded := Nat.le_succ_of_le (found_left hg hctx hfound).tables
      have hgrant := grant_maintains hR hctx (c := c)
        (b := ⟨t, .new permit m₁.store, output, c.maxMemory⟩) trivial ht hloaded permit
          fun bytes _ s => .limit g s bytes
      rcases Host.of_bind h with ⟨u, m₃, hlast, h⟩ | ⟨e, hlast, rfl⟩
      · cases h
        refine ⟨hleft.unmoved (hgrant _ _ _ hleft.tables hlast), ?_⟩
        rintro b ⟨⟩
        exact ⟨os, rfl⟩
      · exact ⟨hleft.unmoved (hgrant _ _ _ hleft.tables hlast), nofun⟩
    · rw [reaches, hfound]
      simp only [hrun]
      exact ⟨hleft.unmoved (hfurnish _ _ hleft.tables hrun), nofun⟩
  · rw [reaches, hfound]
    exact ⟨found_left hg hctx hfound, nofun⟩

end

/-! ## One opening after the other -/

/-- An opening of a sandbox: how far it came and what came of it. -/
structure Attempt where
  stage : Stage
  result : Except Failure Sandbox

def Attempt.failed (a : Attempt) : Bool :=
  match a.result with
  | .ok _ => false
  | .error _ => true

/-- The sandbox that was opened last, with its clock library. -/
def lastOpened : List Attempt → Option (Sandbox × Nat)
  | [] => none
  | ⟨.published _ os, .ok b⟩ :: _ => some (b, os)
  | _ :: as => lastOpened as

namespace Registry

/-- Openings on one interpreter, the latest first. Neither the calls that they make nor anyone else
writes to the two places. -/
inductive Openings (g : Registry) (m : Machine) : List Attempt → Machine → Prop where
  | start : Openings g m [] m
  | opened {as : List Attempt} {m₁ m₂ : Machine} (c : Config) (ctx : Ctx)
      {r : Except Failure Sandbox} (before : Openings g m as m₁)
      (run : (Sandbox.open c).run (ctx.only fun _ _ m _ m' => g.Unmoved m.store m'.store) m₁ =
        some (r, m₂)) :
      Openings g m (⟨Sandbox.reaches c (ctx.only fun _ _ m _ m' => g.Unmoved m.store m'.store) m₁, r⟩
        :: as) m₂
  | meanwhile {as : List Attempt} {m₁ m₂ : Machine} (before : Openings g m as m₁)
      (unmoved : g.Unmoved m₁.store m₂.store) : Openings g m as m₂

/-- Both places hold what belongs to the sandbox that was opened last. -/
structure Current (g : Registry) (as : List Attempt) (s : Store) : Prop where
  registered : s.registered = (lastOpened as).map (·.1.globals)
  clock : g.clock s = ((lastOpened as).map (·.2)).elim .nil .table

/-- What openings leave: the two places hold what was put there last, and that is what belongs to the
sandbox that was opened last if no later opening had come to register an environment. -/
structure Follows (g : Registry) (as : List Attempt) (s : Store) : Prop where
  ready : g.Ready s
  registered : s.registered = as.findSome? (·.stage.globals?)
  clock : g.clock s = (as.findSome? (·.stage.clock?)).elim .nil .table
  exist : ∀ x, lastOpened as = some x → x.1.globals < s.tables.size
  current : g.Current as s ↔ ∀ a ∈ as.takeWhile (·.failed), a.stage = .refused

variable {g : Registry} {as : List Attempt} {s s' : Store} {stage : Stage}

theorem Follows.unmoved (h : g.Follows as s) (hs : g.Unmoved s s') : g.Follows as s' where
  ready := hs.ready h.ready
  registered := hs.registered.trans h.registered
  clock := hs.clock.trans h.clock
  exist x hx := Nat.lt_of_lt_of_le (h.exist x hx) hs.tables
  current := by
    refine Iff.trans ⟨fun hc => ?_, fun hc => ?_⟩ h.current
    · exact ⟨hs.registered ▸ hc.registered, hs.clock ▸ hc.clock⟩
    · exact ⟨hs.registered ▸ hc.registered, hs.clock ▸ hc.clock⟩

theorem Follows.succeed (as : List Attempt) {b : Sandbox} {os : Nat} (hl :
    g.Left (.published b.globals os) s s') : g.Follows (⟨.published b.globals os, .ok b⟩ :: as) s' where
  ready := hl.ready
  registered := hl.registered
  clock := hl.clock
  exist := by
    rintro x ⟨⟩
    exact (hl.fresh _ rfl).2
  current := ⟨fun _ => nofun, fun _ => ⟨hl.registered, hl.clock⟩⟩

/-- One more opening fails. What it has registered is new, so it is of no sandbox. -/
theorem Follows.fail (h : g.Follows as s) (e : Failure) (hl : g.Left stage s s') :
    g.Follows (⟨stage, .error e⟩ :: as) s' := by
  have hlast : lastOpened (⟨stage, .error e⟩ :: as) = lastOpened as := by cases stage <;> rfl
  constructor
  case ready => exact hl.ready
  case registered =>
    rw [hl.registered, h.registered]
    cases stage <;> rfl
  case clock =>
    rw [hl.clock, h.clock]
    cases stage <;> rfl
  case exist =>
    intro x hx
    exact Nat.lt_of_lt_of_le (h.exist x (hlast ▸ hx)) hl.tables
  case current =>
    rw [List.takeWhile_cons_of_pos rfl, List.forall_mem_cons]
    cases hs : stage.globals? with
    | none =>
      obtain rfl : stage = .refused := by cases stage <;> first | rfl | cases hs
      simp only [true_and, ← h.current]
      constructor
      · rintro ⟨hr, hc⟩
        exact ⟨hl.registered.symm.trans hr, hl.clock.symm.trans hc⟩
      · rintro ⟨hr, hc⟩
        exact ⟨hl.registered.trans hr, hl.clock.trans hc⟩
    | some t =>
      constructor
      · rintro ⟨hr, -⟩
        rw [hl.registered, hs, hlast] at hr
        obtain ⟨x, hx, hg⟩ := Option.map_eq_some_iff.mp hr.symm
        have hlt := h.exist x hx
        have hle := (hl.fresh t hs).1
        omega
      · rintro ⟨hr, -⟩
        rw [show stage = .refused from hr] at hs
        cases hs

/-- What holds after any sequence of openings on an interpreter that had none before. -/
theorem registrations_follow_openings {m m' : Machine} (h : g.Openings m as m') (hg : g.Ready m.store)
    (hr : m.store.registered = none) (hc : g.clock m.store = .nil) : g.Follows as m'.store := by
  induction h with
  | start => exact ⟨hg, hr, hc, nofun, fun _ => nofun, fun _ => ⟨hr, hc⟩⟩
  | @opened as m₁ m₂ c ctx r before run ih =>
    obtain ⟨hl, hb⟩ := Sandbox.open_left ih.ready (Ctx.only_maintains id) run
    cases r with
    | ok b =>
      obtain ⟨os, hs⟩ := hb b rfl
      rw [hs] at hl ⊢
      exact .succeed as hl
    | error e => exact ih.fail e hl
  | meanwhile before unmoved ih => exact ih.unmoved unmoved

def small : Registry := ⟨0, 2, 3⟩

theorem ready_small : small.Ready smallHost where
  globals := rfl
  package := by decide +kernel
  loaded := by decide +kernel
  plain := by decide +kernel
  exist := by decide +kernel

def greedyConfig : Config := { smallConfig with osFunctions := ["time"] }

/-- The first opening succeeds, and the second one fails at its clock library. -/
def failsAfterSuccess : Bool :=
  match (Sandbox.open smallConfig).run (lookingUp 3) ⟨smallHost, #[]⟩ with
  | some (.ok _, m) =>
    match (Sandbox.open greedyConfig).run (lookingUp 3) m with
    | some (.error _, _) =>
      Sandbox.reaches smallConfig (lookingUp 3) ⟨smallHost, #[]⟩ == .published 5 9 &&
        Sandbox.reaches greedyConfig (lookingUp 3) m == .founded 10
    | _ => false
  | _ => false

theorem registrations_follow_small : ∃ b e m',
    small.Openings ⟨smallHost, #[]⟩ [⟨.founded 10, .error e⟩, ⟨.published 5 9, .ok b⟩] m' ∧
    small.Ready smallHost ∧ smallHost.registered = none ∧ small.clock smallHost = .nil ∧
    small.Follows [⟨.founded 10, .error e⟩, ⟨.published 5 9, .ok b⟩] m'.store := by
  have hctx : (lookingUp 3).only (fun _ _ m _ m' => small.Unmoved m.store m'.store) = lookingUp 3 :=
    Ctx.only_eq fun _ _ _ m _ _ h => by
      cases h
      exact (Registry.lasting (n := 4) (by decide)).refl m.store
  have h : failsAfterSuccess = true := by decide +kernel
  unfold failsAfterSuccess at h
  split at h
  · next b m₁ hfirst =>
    split at h
    · next e m₂ hsecond =>
      simp only [Bool.and_eq_true, beq_iff_eq] at h
      obtain ⟨hs₁, hs₂⟩ := h
      have ho : small.Openings ⟨smallHost, #[]⟩
          [⟨.founded 10, .error e⟩, ⟨.published 5 9, .ok b⟩] m₂ := by
        have ho₁ := Openings.start.opened smallConfig (lookingUp 3) (by rw [hctx]; exact hfirst)
        have ho₂ := ho₁.opened greedyConfig (lookingUp 3) (by rw [hctx]; exact hsecond)
        rw [hctx, hs₁, hs₂] at ho₂
        exact ho₂
      have hc : small.clock smallHost = .nil := by decide +kernel
      exact ⟨b, e, m₂, ho, ready_small, rfl, hc,
        registrations_follow_openings ho ready_small rfl hc⟩
    · cases h
  · cases h

end Registry

/-! ## A library that the host does not have -/

/-- Opening a sandbox on a fresh interpreter fails, and yet a table is registered by then. -/
def leavesTable (c : Config) : Bool :=
  match Machine.fresh.perform 1000 (Sandbox.open c) with
  | some (.error _, m) => m.store.registered.isSome
  | _ => false

theorem failed_opening_leaves_table :
    leavesTable { Config.plain with libraries := [⟨"nope", none⟩] } = true := by
  decide +kernel

end Cordon
