import Cordon.Proofs.Modules.Opening
import Cordon.Proofs.Sandbox.Sparing
import Cordon.Sandbox.Open

/-!
# A sandbox in the making

Between its first table and its clock library a sandbox takes in the modules of its configuration. What
each of them leaves is told by the history, so afterwards a name is recorded exactly if one of the
modules had this name and was not false.
-/

namespace Cordon

open Lua

/-- The tables that a sandbox is made of. -/
def Parts.Own (p : Parts) (id : Nat) : Prop :=
  id = p.box.globals ∨ id = p.modules.package ∨ id = p.modules.loaded ∨ id = p.preload

/-- Its tables are in order and nothing else refers to them, no function was preloaded, and what is
recorded came from the host. -/
structure Underway (p : Parts) (h : History) (s : Store) : Prop where
  discreet : s.Discreet p.Own
  placed : Placed p s
  agrees : Agrees p h s
  unloaded : ∀ n, h.loader n = none
  outside : ∀ n v, h.recorded n = some v → v.Outside (s.Hidden p.Own)

/-- Of these tables, those that are not the sandbox's own stay as they are. -/
structure Aside (all : Nat → Prop) (p : Parts) (s s' : Store) : Prop where
  tables : s.tables.size ≤ s'.tables.size
  table : ∀ id, all id → ¬ p.Own id → id < s.tables.size → s'.table id = s.table id

section

variable {all : Nat → Prop} {p : Parts} {s s' s'' : Store} {h : History} {n : Bytes}

theorem Aside.trans (ha : Aside all p s s') (hb : Aside all p s' s'') : Aside all p s s'' :=
  ⟨Nat.le_trans ha.tables hb.tables, fun id hid ho hlt =>
    (hb.table id hid ho (Nat.lt_of_lt_of_le hlt ha.tables)).trans (ha.table id hid ho hlt)⟩

theorem Aside.of_tables (ht : s'.tables = s.tables) : Aside all p s s' :=
  ⟨Nat.le_of_eq (congrArg Array.size ht.symm), fun id _ _ _ => by rw [Store.table, ht]; rfl⟩

theorem Aside.rawSetStr {id : Nat} (hid : p.Own id) (k : Bytes) (v : Value) :
    Aside all p s (s.rawSetStr id k v) where
  tables := Nat.le_of_eq (s.tables_rawSet_size id (.str k) v).symm
  table id' _ ho _ := by
    rw [Store.rawSetStr, s.table_rawSet]
    exact if_neg fun (e : id = id' ∧ _) => ho (e.1 ▸ hid)

theorem Spared.aside (hs : Spared all p.modules.permit s s') : Aside all p s s' :=
  ⟨hs.tables, fun id hid _ hlt => hs.table id hid hlt⟩

theorem Spared.steady (hs : Spared all p.modules.permit s s') (hown : ∀ id, p.Own id → all id)
    (hd : s.Discreet p.Own) : Steady p s s' := by
  have ht {id : Nat} (h : p.Own id) : s'.table id = s.table id :=
    hs.table id (hown id h) (hd.exist id h)
  have hp := ht (.inr (.inr (.inr rfl)))
  have hl := ht (.inr (.inr (.inl rfl)))
  have hk := ht (.inr (.inl rfl))
  constructor
  · exact hs.tables
  · exact hs.permits
  · exact fun k => by rw [Store.rawGet, hl, Store.rawGet]
  · exact fun k => by rw [Store.rawGet, hp, Store.rawGet]
  · exact hs.permit
  · rw [Store.rawGet, hk, Store.rawGet]
  · rw [hp]

/-! ## Answers while there are no preloaded functions -/

/-- What requiring an allowed module gives: what is recorded, else the allowed value. -/
def History.answer (h : History) (n : Bytes) (v : Value) : Value := (h.recorded n).getD (settled v)

theorem History.truthy_of_recorded {v : Value} : ∀ {h : History}, h.recorded n = some v →
    v.truthy = true
  | .required n' w :: h, hr => by
    rw [recorded] at hr
    split at hr
    · split at hr
      · next ht =>
        cases hr
        exact ht
      · cases hr
    · exact truthy_of_recorded hr
  | .removed name :: h, hr => by
    rw [recorded] at hr
    split at hr
    · cases hr
    · exact truthy_of_recorded hr
  | .allowed .. :: h, hr => truthy_of_recorded (h := h) hr
  | .preloaded .. :: h, hr => truthy_of_recorded (h := h) hr

theorem settled_truthy {v : Value} : (settled v).truthy = false ↔ v = .bool false := by
  cases v with
  | bool b => cases b <;> simp [settled, Value.truthy, Value.isNil]
  | _ => simp [settled, Value.truthy, Value.isNil]

/-- After requiring an allowed module its name is recorded, unless its value was false. -/
theorem History.recorded_answer (h : History) (n n' : Bytes) (v : Value) :
    recorded n (.required n' (h.answer n' v) :: h) = none ↔
      h.recorded n = none ∧ (n' = n → v = .bool false) := by
  rw [recorded]
  split
  · next e =>
    subst e
    rw [answer]
    cases hr : h.recorded n' with
    | some w => simp [truthy_of_recorded hr]
    | none => simp [settled_truthy]
  · next e => simp [e]

/-- What taking in these modules with these values adds to a history. -/
def History.adopting : List (Binding × Value) → History → History
  | [], h => h
  | (x, v) :: given, h =>
    adopting given (.required (Bytes.ofString x.module) (h.answer (Bytes.ofString x.module) v) ::
      .allowed x.module v :: h)

/-- A name is recorded unless no module had it, or those that had it were false. -/
theorem History.recorded_adopting (n : Bytes) : ∀ (given : List (Binding × Value)) (h : History),
    (h.adopting given).recorded n = none ↔
      h.recorded n = none ∧ ∀ x ∈ given, Bytes.ofString x.1.module = n → x.2 = .bool false
  | [], h => by simp [adopting]
  | (x, v) :: given, h => by
    have hr := recorded_answer (.allowed x.module v :: h) n (Bytes.ofString x.module) v
    rw [adopting, recorded_adopting n given]
    refine (and_congr_left fun _ => hr).trans ?_
    rw [List.forall_mem_cons, and_assoc]
    rfl

/-! ## Steps -/

namespace Underway

theorem change (hu : Underway p h s) (hs : Steady p s s') (hd : s'.Discreet p.Own) :
    Underway p h s' where
  discreet := hd
  placed := hu.placed.steady hs
  agrees := hu.agrees.kept hs
  unloaded := hu.unloaded
  outside n v hr := (hu.outside n v hr).mono fun _ hid => hid.of_size hs.tables

theorem spared (hu : Underway p h s) (hown : ∀ id, p.Own id → all id)
    (hs : Spared all p.modules.permit s s') (hd : s'.Discreet p.Own) : Underway p h s' :=
  hu.change (hs.steady hown hu.discreet) hd

theorem report (hu : Underway p h s) (e : Event) : Underway p h (s.report e) :=
  hu.change (Kept.report p s e).toSteady (hu.discreet.of_tables rfl rfl rfl rfl)

theorem bind (hu : Underway p h s) (k : Bytes) (v : Value) :
    Underway p h (s.rawSetStr p.box.globals k v) :=
  hu.change (Kept.global hu.placed.apart s k v).toSteady
    (hu.discreet.rawSet _ fun hid => absurd (.inl rfl) hid)

theorem write (hu : Underway p h s) {id : Nat} (hid : ¬ p.Own id) (k : Bytes) {v : Value}
    (hv : v.Outside (s.Hidden p.Own)) : Underway p h (s.rawSetStr id k v) := by
  have hl : id ≠ p.modules.loaded := fun e => hid (.inr (.inr (.inl e)))
  have hp : id ≠ p.preload := fun e => hid (.inr (.inr (.inr e)))
  have hk : id ≠ p.modules.package := fun e => hid (.inr (.inl e))
  exact hu.change (Kept.rawSetStr hl hp hk s k v).toSteady (hu.discreet.rawSet _ fun _ => hv)

theorem permit (hu : Underway p h s) (name : String) (v : Value) : Underway p (.allowed name v :: h)
    (s.setPermit p.modules.permit ((p.permit s).insert name v).2) where
  discreet := hu.discreet.of_tables rfl rfl rfl rfl
  placed := hu.placed.setPermit _
  agrees := hu.agrees.allow hu.placed name v
  unloaded := hu.unloaded
  outside := hu.outside

theorem record (hu : Underway p h s) (n : Bytes) {v : Value} (hv : v.Outside (s.Hidden p.Own)) :
    Underway p (.required n v :: h) (p.modules.stored s n v) where
  discreet :=
    (hu.discreet.rawSet _ fun hid => absurd (.inr (.inr (.inl rfl))) hid).of_tables rfl rfl rfl rfl
  placed := hu.placed.stored n v
  agrees := hu.agrees.stored hu.placed n v
  unloaded := hu.unloaded
  outside n' w hr := by
    have hw : w.Outside (s.Hidden p.Own) := by
      rw [History.recorded] at hr
      split at hr
      · split at hr
        · cases hr
          exact hv
        · cases hr
      · exact hu.outside n' w hr
    exact hw.mono fun id hid => hid.of_size
      (Nat.le_of_eq (s.tables_rawSet_size p.modules.loaded (.str n) v).symm)

end Underway

theorem Lua.Value.Outside.settled {own : Nat → Prop} {v : Value} (hv : v.Outside own) :
    (settled v).Outside own := by
  cases v with
  | nil => exact nofun
  | _ => exact hv

section

variable {ctx : Ctx} {m m' : Machine}

theorem Underway.bindRun (hu : Underway p h m.store) {name : String} {v : Value}
    (hr : (p.box.bind name v).run ctx m = some (.ok (), m')) : Underway p h m'.store := by
  cases hr
  exact hu.bind _ v

/-- The host allows a module: it is the host's `require` that gives the value. -/
theorem Underway.allow (sp : Spares all p.modules.permit ctx) (hown : ∀ id, p.Own id → all id)
    {module : String} {exposed : Option String} (hu : Underway p h m.store)
    (hr : (p.box.allow module exposed).run ctx m = some (.ok (), m')) :
    ∃ v m₁, (privilegedRequire module).run ctx m = some (.ok v, m₁) ∧
      v.Outside (m'.store.Hidden p.Own) ∧
      Underway p (.allowed (exposed.getD module) v :: h) m'.store ∧
      Aside all p m.store m'.store := by
  obtain ⟨v, m₁, hv, hr⟩ := Host.ok_bind hr
  cases hr
  obtain ⟨hs, hd, ho⟩ := privilegedRequire_spared sp hown hv hu.discreet
  exact ⟨v, m₁, hv, ho, ((hu.spared hown hs hd).permit _ v).report _,
    hs.aside.trans (.of_tables rfl)⟩

theorem Underway.require {name : String} {v w : Value} (hu : Underway p h m.store)
    (all : Nat → Prop)
    (ha : h.allowed (Bytes.ofString name) = some v) (hv : v.Outside (m.store.Hidden p.Own))
    (hr : (p.modules.require name).run ctx m = some (.ok w, m')) :
    w = h.answer (Bytes.ofString name) v ∧
      Underway p (.required (Bytes.ofString name) w :: h) m'.store ∧
      Aside all p m.store m'.store := by
  obtain ⟨s, threads⟩ := m
  obtain ⟨r, m₁, hres, hr⟩ := Host.ok_bind hr
  have hrun := (resolve_run hu.placed hu.agrees (Bytes.ofString name) ctx threads).symm.trans hres
  unfold History.source at hrun
  rw [hu.unloaded, ha] at hrun
  rw [History.answer]
  cases hrec : h.recorded (Bytes.ofString name) with
  | some u =>
    rw [hrec] at hrun
    cases hrun
    cases hr
    have hu' := hu.report (.cacheHit (Bytes.ofString name).lossy)
    exact ⟨rfl, { hu' with
      agrees := hu'.agrees.again hrec
      outside := fun n x hx => by
        rw [History.recorded] at hx
        split at hx
        · split at hx
          · cases hx
            exact hu'.outside _ _ hrec
          · cases hx
        · exact hu'.outside n x hx }, .of_tables rfl⟩
  | none =>
    rw [hrec] at hrun
    cases hrun
    cases hr
    exact ⟨rfl, hu.record _ hv.settled,
      (Aside.rawSetStr (.inr (.inr (.inl rfl))) _ _).trans (.of_tables rfl)⟩

theorem Underway.adopt (sp : Spares all p.modules.permit ctx) (hown : ∀ id, p.Own id → all id)
    {x : Binding} (hu : Underway p h m.store)
    (hr : (p.box.adopt x).run ctx m = some (.ok (), m')) :
    ∃ v m₁, (privilegedRequire x.module).run ctx m = some (.ok v, m₁) ∧
      Underway p (.required (Bytes.ofString x.module) (h.answer (Bytes.ofString x.module) v) ::
        .allowed x.module v :: h) m'.store := by
  obtain ⟨_, m₁, ha, hr⟩ := Host.ok_bind hr
  obtain ⟨v, m₀, hv, ho, hu, -⟩ := hu.allow sp hown ha
  obtain ⟨w, m₂, hw, hr⟩ := Host.ok_bind hr
  cases hr
  have hallowed : History.allowed (Bytes.ofString x.module) (.allowed x.module v :: h) = some v :=
    if_pos rfl
  obtain ⟨rfl, hu, -⟩ := hu.require all hallowed ho hw
  exact ⟨v, m₀, hv, hu.bind _ _⟩

/-! ## Loops -/

/-- The host's `require` gives this value for a module, in some state. -/
def Gives (ctx : Ctx) (module : String) (v : Value) : Prop :=
  ∃ m m', (privilegedRequire module).run ctx m = some (.ok v, m')

theorem Underway.adoptAll (sp : Spares all p.modules.permit ctx) (hown : ∀ id, p.Own id → all id) :
    ∀ {l : List Binding} {m : Machine} {h : History} {u : PUnit}, Underway p h m.store →
    (forIn l PUnit.unit fun x _ => do
      p.box.adopt x
      pure (ForInStep.yield PUnit.unit) : Host PUnit).run ctx m = some (.ok u, m') →
    ∃ given : List (Binding × Value), given.map Prod.fst = l ∧
      (∀ x ∈ given, Gives ctx x.1.module x.2) ∧ Underway p (h.adopting given) m'.store
  | [], _, _, _, hu, hr => by
    cases hr
    exact ⟨[], rfl, nofun, hu⟩
  | x :: l, _, _, _, hu, hr => by
    obtain ⟨m₁, hx, hr⟩ := Host.ok_for_cons hr
    obtain ⟨v, m₀, hv, hu⟩ := hu.adopt sp hown hx
    obtain ⟨given, rfl, hg, hu⟩ := adoptAll sp hown hu hr
    exact ⟨(x, v) :: given, rfl, List.forall_mem_cons.mpr ⟨⟨_, m₀, hv⟩, hg⟩, hu⟩

theorem Underway.allowAll (sp : Spares all p.modules.permit ctx) (hown : ∀ id, p.Own id → all id) :
    ∀ {l : List Binding} {m : Machine} {h : History} {u : PUnit}, Underway p h m.store →
    (forIn l PUnit.unit fun x _ => do
      p.box.allow x.module x.exposed
      pure (ForInStep.yield PUnit.unit) : Host PUnit).run ctx m = some (.ok u, m') →
    ∃ h', Underway p h' m'.store ∧ ∀ n, h'.recorded n = h.recorded n
  | [], _, h, _, hu, hr => by
    cases hr
    exact ⟨h, hu, fun _ => rfl⟩
  | x :: l, _, _, _, hu, hr => by
    obtain ⟨m₁, hx, hr⟩ := Host.ok_for_cons hr
    obtain ⟨v, m₀, -, -, hu, -⟩ := hu.allow sp hown hx
    obtain ⟨h', hu', hh⟩ := allowAll sp hown hu hr
    exact ⟨h', hu', hh⟩

end

end

end Cordon
