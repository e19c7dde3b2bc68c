import Cordon.Proofs.Modules.Asking
import Cordon.Proofs.Modules.Opening

/-!
# Dependency graphs load once

Functions that require one another are preloaded under names of which none depends on itself. However these
names are required, one after the other or by the functions, each function is called when its name is needed
for the first time and never again, and what it returned is what every `require` of its name comes to.

`Loads` says what a stretch of a run adds to the loaded modules. It is put together from the stretches in
which a function asks for others, by induction on how many names are not under way yet.
-/

namespace Cordon

open Lua

variable {p : Parts} {s s' s'' s₀ : Store}

namespace Graph

open Exec Require

variable {g : Graph} {b : Surroundings} {e : Exec} {n d : Bytes} {D D' : Bytes → Prop} {log log' : List Call}

/-! ## Graphs in a sandbox -/

/-- The functions of the graph are preloaded in a sandbox, and ask as the graph says. -/
structure Installed (g : Graph) (p : Parts) (s : Store) : Prop where
  intact : Intact p s
  memory : s.memoryLimit = none
  preload : ∀ n ∈ g.names, s.rawGet p.preload (.str n) = .fn (g.loader n)
  apart : ∀ n ∈ g.names,
    g.loader n ≠ p.require ∧ g.loader n ≠ p.halves.resolve ∧ g.loader n ≠ p.halves.finish
  asking : ∀ n ∈ g.names, ∀ s', OnlyLoads p s s' → g.Asking p n s'

theorem Installed.only (h : g.Installed p s) (ho : OnlyLoads p s s') : g.Installed p s' where
  intact := ho.intact h.intact
  memory := ho.memoryLimit.trans h.memory
  preload n hn := by
    rw [← h.preload n hn]
    exact ho.rawGet h.intact.apart.loaded_preload.symm (by rw [h.preload n hn]; nofun)
  apart := h.apart
  asking n hn s'' ho' := h.asking n hn s'' (ho.trans ho')

theorem Installed.foreign (h : g.Installed p s) {x : Call}
    (hx : x.fn = .fn p.halves.resolve ∨ x.fn = .fn p.halves.finish) : g.Foreign p x where
  require := by
    intro he
    have hprogram := h.intact.serves.program
    rcases hx with hx | hx
    · rw [← Value.fn.inj (hx.symm.trans he), h.intact.serves.resolve] at hprogram
      cases hprogram
    · rw [← Value.fn.inj (hx.symm.trans he), h.intact.serves.finish] at hprogram
      cases hprogram
  loader n hn he := by
    rcases hx with hx | hx
    · exact (h.apart n hn).2.1 (Value.fn.inj (he.symm.trans hx))
    · exact (h.apart n hn).2.2 (Value.fn.inj (he.symm.trans hx))

theorem Installed.foreign_resolving (h : g.Installed p s) (b : Surroundings) (e : Exec) (args : List Value)
    (s₁ : Store) (next : List Value → Store → Action) :
    ∀ x ∈ [resolving b e p.halves args s₁ next], g.Foreign p x :=
  List.forall_mem_singleton.mpr (h.foreign (.inl rfl))

theorem Installed.require_ne (h : g.Installed p s) (n : Bytes) (hn : n ∈ g.names) :
    Value.fn p.require ≠ .fn (g.loader n) :=
  fun he => (h.apart n hn).1 (Value.fn.inj he).symm

theorem Installed.room (h : g.Installed p s) {d : Depth} (hn : d.natives ≠ maxNatives)
    (hs : d.slots + nativeSlots ≤ maxSlots) : Room d s :=
  ⟨hn, hs, by rw [Store.exhausted, h.memory]⟩

/-- A table is recorded under the name. -/
def Recorded (p : Parts) (s : Store) (n : Bytes) : Prop :=
  ∃ id, s.rawGet p.modules.loaded (.str n) = .table id

theorem cached?_of_table {id : Nat} (h : s.rawGet p.modules.loaded (.str n) = .table id) :
    s.cached? p.modules.loaded (.str n) = some (.table id) := by
  rw [cached?_eq, h]
  rfl

/-- Under each name of the graph there is a table or nothing that counts, and what a recorded name needs is
recorded. -/
structure Stands (g : Graph) (p : Parts) (s : Store) : Prop extends g.Installed p s where
  cached : ∀ n ∈ g.names, Recorded p s n ∨ s.cached? p.modules.loaded (.str n) = none
  closed : ∀ n ∈ g.names, Recorded p s n → ∀ d ∈ g.deps n, Recorded p s d

theorem Stands.recorded (h : g.Stands p s) (hn : n ∈ g.names) (hr : Recorded p s n) (hd : g.Needs n d) :
    Recorded p s d := by
  induction hd with
  | refl => exact hr
  | tail hm hd ih => exact h.closed _ (Needs.mem hm hn) ih _ hd

/-! ## Calls -/

/-- How often the function for a name is called. -/
def times (g : Graph) (n : Bytes) (log : List Call) : Nat :=
  log.countP fun x => x.fn = .fn (g.loader n) ∧ x.args = [.str n, .nil]

theorem times_append (n : Bytes) (log log' : List Call) :
    g.times n (log ++ log') = g.times n log + g.times n log' := List.countP_append

theorem times_foreign (h : ∀ x ∈ log, g.Foreign p x) (hn : n ∈ g.names) : g.times n log = 0 := by
  rw [times, List.countP_eq_zero]
  intro x hx hcall
  exact (h x hx).loader n hn (of_decide_eq_true hcall).1

/-- A call of `require` comes to the table that is recorded for its name, and a function of the graph is
called with the name that it is for. -/
structure Orderly (g : Graph) (p : Parts) (s : Store) (x : Call) : Prop where
  answered : x.fn = .fn p.require → ∃ n rest id s₁ e₁, x.args = .str n :: rest ∧
    s.rawGet p.modules.loaded (.str n) = .table id ∧
    Answers x.surroundings x.fn x.args x.store x.exec (.ok [.table id]) s₁ e₁
  named : ∀ n ∈ g.names, x.fn = .fn (g.loader n) →
    ∃ m ∈ g.names, g.loader m = g.loader n ∧ x.args = [.str m, .nil]

theorem Foreign.orderly {x : Call} (h : g.Foreign p x) : g.Orderly p s x :=
  ⟨fun hcall => absurd hcall h.require, fun n hn hcall => absurd hcall (h.loader n hn)⟩

theorem Orderly.persist {x : Call} (h : g.Orderly p s x) (hk : ∀ n, Recorded p s n →
    s'.rawGet p.modules.loaded (.str n) = s.rawGet p.modules.loaded (.str n)) : g.Orderly p s' x where
  answered hcall := by
    obtain ⟨n, rest, id, s₁, e₁, hargs, hid, ha⟩ := h.answered hcall
    exact ⟨n, rest, id, s₁, e₁, hargs, (hk n ⟨id, hid⟩).trans hid, ha⟩
  named := h.named

/-! ## What a stretch of a run loads -/

/-- Tables have been recorded under the names in `D` that had none, and under no others. -/
structure Gains (g : Graph) (p : Parts) (D : Bytes → Prop) (s s' : Store) : Prop where
  stands : g.Stands p s'
  others : ∀ k, (∀ n, k = .str n → D n → Recorded p s n) →
    s'.rawGet p.modules.loaded k = s.rawGet p.modules.loaded k
  loaded : ∀ n, D n → ¬ Recorded p s n →
    ∃ id, s.tables.size ≤ id ∧ s'.rawGet p.modules.loaded (.str n) = .table id

namespace Gains

theorem refl (h : g.Stands p s) : g.Gains p (fun _ => False) s s := ⟨h, fun _ _ => rfl, fun _ => nofun⟩

theorem persist (h : g.Gains p D s s') (hn : Recorded p s n) :
    s'.rawGet p.modules.loaded (.str n) = s.rawGet p.modules.loaded (.str n) :=
  h.others _ fun _ hm _ => Key.str.inj hm ▸ hn

theorem recorded_iff (h : g.Gains p D s s') : Recorded p s' n ↔ Recorded p s n ∨ D n := by
  by_cases hn : Recorded p s n
  · rw [Recorded, h.persist hn]
    exact ⟨.inl, fun _ => hn⟩
  · by_cases hD : D n
    · obtain ⟨id, -, hid⟩ := h.loaded n hD hn
      exact ⟨fun _ => .inr hD, fun _ => ⟨id, hid⟩⟩
    · have hsame := h.others (.str n) fun _ hm hm' => absurd (Key.str.inj hm ▸ hm') hD
      rw [Recorded, hsame]
      exact ⟨.inl, fun h => h.resolve_right hD⟩

theorem not_recorded (h : g.Gains p D s s') (hn : ¬ Recorded p s n) (hD : ¬ D n) : ¬ Recorded p s' n :=
  fun h' => (h.recorded_iff.mp h').elim hn hD

theorem meanwhile (h : g.Gains p D s s') (hi : g.Installed p s'')
    (hget : s''.rawGet p.modules.loaded = s'.rawGet p.modules.loaded) : g.Gains p D s s'' where
  stands := {
    toInstalled := hi
    cached := by
      intro n hn
      rw [Recorded, cached?_eq, hget]
      exact h.stands.cached n hn
    closed := by
      intro n hn
      simp only [Recorded, hget]
      exact h.stands.closed n hn }
  others := by
    rw [hget]
    exact h.others
  loaded := by
    rw [hget]
    exact h.loaded

theorem trans (h : g.Gains p D s s') (h' : g.Gains p D' s' s'') (hs : s.tables.size ≤ s'.tables.size) :
    g.Gains p (fun n => D n ∨ D' n) s s'' where
  stands := h'.stands
  others k hk := by
    rw [h'.others k fun n hn hD' => h.recorded_iff.mpr (.inl (hk n hn (.inr hD'))),
      h.others k fun n hn hD => hk n hn (.inl hD)]
  loaded n hn hr := by
    by_cases hD : D n
    · obtain ⟨id, hle, hid⟩ := h.loaded n hD hr
      exact ⟨id, hle, (h'.persist ⟨id, hid⟩).trans hid⟩
    · obtain ⟨id, hle, hid⟩ := h'.loaded n (hn.resolve_left hD) (h.not_recorded hr hD)
      exact ⟨id, Nat.le_trans hs hle, hid⟩

theorem record (h : g.Gains p D s s') (hr : ¬ Recorded p s' n) (hdeps : ∀ d ∈ g.deps n, Recorded p s' d)
    {id : Nat} (hid : s.tables.size ≤ id) :
    g.Gains p (fun m => D m ∨ m = n) s (p.modules.stored s' n (.table id)) := by
  have hl := h.stands.intact.ready.loaded_lt
  have hnew : (p.modules.stored s' n (.table id)).rawGet p.modules.loaded (.str n) = .table id :=
    ModuleSystem.rawGet_stored hl _
  have hsame {k : Key} (hk : k ≠ .str n) :
      (p.modules.stored s' n (.table id)).rawGet p.modules.loaded k = s'.rawGet p.modules.loaded k :=
    ModuleSystem.rawGet_stored_of_ne hl hk _
  have hother {m : Bytes} (hm : m ≠ n) : Key.str m ≠ .str n := fun e => hm (Key.str.inj e)
  have hkept {m : Bytes} (hm : Recorded p s' m) : Recorded p (p.modules.stored s' n (.table id)) m := by
    rw [Recorded, hsame (hother fun e => hr (e ▸ hm))]
    exact hm
  exact {
    stands := {
      toInstalled := h.stands.toInstalled.only (.stored p s' n _)
      cached := by
        intro m hm
        by_cases hmn : m = n
        · exact .inl ⟨id, hmn ▸ hnew⟩
        · rw [Recorded, cached?_eq, hsame (hother hmn)]
          exact h.stands.cached m hm
      closed := by
        intro m hm hrec d hd
        by_cases hmn : m = n
        · exact hkept (hdeps d (hmn ▸ hd))
        · rw [Recorded, hsame (hother hmn)] at hrec
          exact hkept (h.stands.closed m hm hrec d hd) }
    others := by
      intro k hk
      have hne : k ≠ .str n := fun e => hr (h.recorded_iff.mpr (.inl (hk n e (.inr rfl))))
      rw [hsame hne]
      exact h.others k fun m hm hDm => hk m hm (.inl hDm)
    loaded := by
      rintro m hDm hrec
      by_cases hmn : m = n
      · exact ⟨id, hid, hmn ▸ hnew⟩
      · obtain ⟨id', hle, hid'⟩ := h.loaded m (hDm.resolve_right hmn) hrec
        exact ⟨id', hle, (hsame (hother hmn)).trans hid'⟩ }

end Gains

/-- The calls in the log have loaded the names in `D`, as far as these were not loaded already. -/
structure Loads (g : Graph) (p : Parts) (D : Bytes → Prop) (s s' : Store) (log : List Call) : Prop
    extends g.Gains p D s s' where
  once : ∀ n ∈ g.names, D n → ¬ Recorded p s n → g.times n log = 1
  never : ∀ n ∈ g.names, (D n → Recorded p s n) → g.times n log = 0
  orderly : ∀ x ∈ log, g.Orderly p s' x

namespace Loads

theorem refl (h : g.Stands p s) : g.Loads p (fun _ => False) s s [] where
  toGains := .refl h
  once _ _ := nofun
  never _ _ _ := rfl
  orderly := List.forall_mem_nil _

theorem meanwhile (h : g.Loads p D s s' log) (hi : g.Installed p s'')
    (hl : s''.table p.modules.loaded = s'.table p.modules.loaded) (hf : ∀ x ∈ log', g.Foreign p x) :
    g.Loads p D s s'' (log ++ log') := by
  have hget : s''.rawGet p.modules.loaded = s'.rawGet p.modules.loaded := by
    funext k
    rw [Store.rawGet, hl, Store.rawGet]
  exact {
    toGains := h.toGains.meanwhile hi hget
    once := by
      intro n hn hD hr
      rw [times_append, times_foreign hf hn, h.once n hn hD hr]
    never := by
      intro n hn hD
      rw [times_append, times_foreign hf hn, h.never n hn hD]
    orderly := List.forall_mem_append.mpr
      ⟨fun x hx => (h.orderly x hx).persist fun n _ => congrFun hget _, fun x hx => (hf x hx).orderly⟩ }

theorem trans (h : g.Loads p D s s' log) (h' : g.Loads p D' s' s'' log') (hs : s.tables.size ≤ s'.tables.size) :
    g.Loads p (fun n => D n ∨ D' n) s s'' (log ++ log') where
  toGains := h.toGains.trans h'.toGains hs
  once n hn hD hr := by
    rw [times_append]
    -- What the first stretch has loaded the second finds recorded.
    by_cases hD₁ : D n
    · rw [h.once n hn hD₁ hr, h'.never n hn fun _ => h.recorded_iff.mpr (.inr hD₁)]
    · rw [h.never n hn fun h₁ => absurd h₁ hD₁, h'.once n hn (hD.resolve_left hD₁) (h.not_recorded hr hD₁)]
  never n hn hD := by
    rw [times_append, h.never n hn fun hD₁ => hD (.inl hD₁),
      h'.never n hn fun hD₁ => h.recorded_iff.mpr (.inl (hD (.inr hD₁)))]
  orderly := List.forall_mem_append.mpr
    ⟨fun x hx => (h.orderly x hx).persist fun _ hn => h'.persist hn, h'.orderly⟩

theorem widen (h : g.Loads p D s s' log) (hsub : ∀ n, D n → D' n) (hD : ∀ n, D' n → D n ∨ Recorded p s n) :
    g.Loads p D' s s' log where
  stands := h.stands
  others k hk := h.others k fun n hn hn' => hk n hn (hsub n hn')
  loaded n hn hr := h.loaded n ((hD n hn).resolve_right hr) hr
  once n hn hn' hr := h.once n hn ((hD n hn').resolve_right hr) hr
  never n hn hn' := h.never n hn fun h₁ => hn' (hsub n h₁)
  orderly := h.orderly

theorem cons (h : g.Loads p D s s' log) {x : Call} {rest : List Value} {id : Nat} {s₁ : Store} {e₁ : Exec}
    (hx : ∀ n ∈ g.names, x.fn ≠ .fn (g.loader n)) (hargs : x.args = .str n :: rest)
    (hid : s'.rawGet p.modules.loaded (.str n) = .table id)
    (ha : Answers x.surroundings x.fn x.args x.store x.exec (.ok [.table id]) s₁ e₁) :
    g.Loads p D s s' (x :: log) := by
  have htimes {m : Bytes} (hm : m ∈ g.names) : g.times m (x :: log) = g.times m log :=
    List.countP_cons_of_neg (by simp [hx m hm])
  exact { h with
    once := fun m hm hD hr => (htimes hm).trans (h.once m hm hD hr)
    never := fun m hm hD => (htimes hm).trans (h.never m hm hD)
    orderly := List.forall_mem_cons.mpr
      ⟨⟨fun _ => ⟨n, rest, id, s₁, e₁, hargs, hid, ha⟩, fun m hm he => absurd he (hx m hm)⟩, h.orderly⟩ }

/-- The function for a name is called, asks for what the name needs, and its table is recorded. -/
theorem load (h : g.Loads p D s s' log) (hn : n ∈ g.names) (hD : ¬ D n) (hr : ¬ Recorded p s n)
    (hdeps : ∀ d ∈ g.deps n, D d) {x y : Call} (hx : x.fn = .fn (g.loader n))
    (hargs : x.args = [.str n, .nil]) (hy : g.Foreign p y) {id : Nat} (hid : s.tables.size ≤ id) :
    g.Loads p (fun m => D m ∨ m = n) s (p.modules.stored s' n (.table id)) (x :: log ++ [y]) := by
  have hr' := h.not_recorded hr hD
  have hkept (m : Bytes) (hm : Recorded p s' m) :
      (p.modules.stored s' n (.table id)).rawGet p.modules.loaded (.str m) =
        s'.rawGet p.modules.loaded (.str m) := by
    refine ModuleSystem.rawGet_stored_of_ne h.stands.intact.ready.loaded_lt (fun e => hr' ?_) _
    exact Key.str.inj e ▸ hm
  have htimes {m : Bytes} (hm : m ∈ g.names) :
      g.times m (x :: log ++ [y]) = g.times m log + if m = n then 1 else 0 := by
    have hy' : g.times m [y] = 0 := times_foreign (List.forall_mem_singleton.mpr hy) hm
    rw [times_append, hy', Nat.add_zero, times, List.countP_cons, times]
    by_cases hmn : m = n
    · simp [hmn, hx, hargs]
    · simp [hmn, hargs, Ne.symm hmn]
  have hcalled : g.Orderly p (p.modules.stored s' n (.table id)) x :=
    ⟨fun hcall => absurd (Value.fn.inj (hx.symm.trans hcall)) (h.stands.apart n hn).1,
      fun m _ he => ⟨n, hn, Value.fn.inj (hx.symm.trans he), hargs⟩⟩
  exact {
    toGains := h.toGains.record hr' (fun d hd => h.recorded_iff.mpr (.inr (hdeps d hd))) hid
    once := by
      intro m hm hDm hrm
      rw [htimes hm]
      by_cases hmn : m = n
      · rw [if_pos hmn, h.never m hm fun h₁ => absurd (hmn ▸ h₁) hD]
      · rw [if_neg hmn, h.once m hm (hDm.resolve_right hmn) hrm]
    never := by
      intro m hm hDm
      have hne : m ≠ n := fun e => hr (e ▸ hDm (.inr e))
      rw [htimes hm, if_neg hne, h.never m hm fun h₁ => hDm (.inl h₁)]
    orderly := List.forall_mem_append.mpr
      ⟨List.forall_mem_cons.mpr ⟨hcalled, fun z hz => (h.orderly z hz).persist hkept⟩,
        List.forall_mem_singleton.mpr hy.orderly⟩ }

end Loads

/-! ## Functions that ask -/

/-- A call that requires the name comes to the table that is recorded for it, and loads what it needs. -/
def Served (g : Graph) (p : Parts) (n : Bytes) (b : Surroundings) (e : Exec) (rest : List Value)
    (s : Store) : Prop :=
  ∃ log s' id, Calls b (.apply (.fn p.require) (.str n :: rest) s) e log (.act (.ret [.table id] s'))
      (within e (.str n :: rest)) ∧
    s'.rawGet p.modules.loaded (.str n) = .table id ∧ OnlyLoads p s s' ∧ g.Loads p (g.Needs n) s s' log

/-- So it is wherever the name is required, if there is room for so many functions of the graph. -/
def Requires (g : Graph) (p : Parts) (k : Nat) (n : Bytes) : Prop :=
  ∀ b e s rest, g.Stands p s → e.depth.natives ≠ maxNatives →
    (within e (.str n :: rest)).depth.slots + k * g.room + nativeSlots ≤ maxSlots →
    g.Served p n b e rest s

theorem Asks.loads {k : Nat} {b : Surroundings} {e₀ e : Exec} {ds : List Bytes} {c : Control}
    (h : g.Asks p b e₀ s₀ ds s c e) (hn : e₀.depth.natives ≠ maxNatives)
    (hs : e₀.depth.slots + g.room + k * g.room + nativeSlots ≤ maxSlots) (hi : g.Installed p s₀)
    (hreq : ∀ d ∈ ds, g.Requires p k d) :
    ∀ {D log}, g.Loads p D s₀ s log → ∃ c' vs id depth log' s',
      Calls b c e log' c' { e₀ with depth } ∧ c'.Returns vs s' ∧ Value.first vs = .table id ∧
      s₀.tables.size ≤ id ∧ OnlyLoads p s₀ s' ∧
      g.Loads p (fun m => D m ∨ ∃ d ∈ ds, g.Needs d m) s₀ s' (log ++ log') := by
  -- By induction on what is still asked for; `D` is what has been loaded for the ones before.
  induction h with
  | answer run foreign only loaded returns first fresh =>
    intro D log hl
    refine ⟨_, _, _, _, _, _, run, returns, first, fresh, only, ?_⟩
    exact (hl.meanwhile (hi.only only) loaded foreign).widen (fun _ => .inl) fun m hm => .inl (by simpa using hm)
  | @ask d ds s s' c e e' log' rest run foreign only loaded natives slots next ih =>
    intro D log hl
    obtain ⟨hd, hds⟩ := List.forall_mem_cons.mp hreq
    have hl' := hl.meanwhile (hi.only only) loaded foreign
    obtain ⟨log₁, s₁, id, hcalls, -, honly, hloads⟩ := hd b e' s' rest hl'.stands (natives ▸ hn) (by omega)
    have hl₁ := hl'.trans hloads only.tables_size
    obtain ⟨c₂, vs, id₂, depth, log₂, s₂, hcalls₂, hreturns, hfirst, hfresh, honly₂, hl₂⟩ :=
      ih id s₁ honly hds hl₁
    refine ⟨c₂, vs, id₂, depth, log' ++ (log₁ ++ log₂), s₂, run.trans (hcalls.trans hcalls₂), hreturns, hfirst,
      hfresh, honly₂, ?_⟩
    rw [← List.append_assoc, ← List.append_assoc]
    refine hl₂.widen (fun m hm => ?_) fun m hm => .inl ?_
    · simpa [or_assoc] using hm
    · simpa [or_assoc] using hm

theorem not_needs (hn : n ∈ g.names) (hd : d ∈ g.deps n) : ¬ g.Needs d n :=
  fun h => g.acyclic n hn (.head' hd h)

theorem called_loads {k : Nat} (hn : n ∈ g.names) (hs : g.Stands p s) (hr : ¬ Recorded p s n)
    (hreq : ∀ d ∈ g.deps n, g.Requires p k d) (b : Surroundings) (e : Exec) {frames : List Frame}
    (he : e.frames = calling p.halves n e.depth :: frames) (hnatives : e.depth.natives ≠ maxNatives)
    (hslots : e.depth.slots + (k + 1) * g.room + nativeSlots ≤ maxSlots) :
    ∃ log s' id, Calls b (.apply (.fn (g.loader n)) [.str n, .nil] s) e log (.act (.ret [.table id] s'))
        { e with frames } ∧
      s'.rawGet p.modules.loaded (.str n) = .table id ∧ OnlyLoads p s s' ∧ g.Loads p (g.Needs n) s s' log := by
  rw [Nat.succ_mul] at hslots
  obtain ⟨c, e₁, hstep, hasks⟩ := hs.asking n hn s (.refl p s) b e hnatives (by omega)
  obtain ⟨c', vs, id, depth, log, s', hasked, hreturns, hfirst, hfresh, honly, hloads⟩ :=
    hasks.loads (k := k) hnatives (by omega) hs.toInstalled hreq (.refl hs)
  have room : Room e.depth s' := hloads.stands.room hnatives (by omega)
  have hfinish := calls_finishing (n := n) b { e with frames } hloads.stands.intact.serves.finish room vs
  rw [hfirst] at hfinish
  have hback := hreturns.calls (b := b) (e := { e with depth }) he
  have hall := (Calls.single hstep).trans (hasked.trans (hback.trans hfinish))
  -- No name that this one needs leads back to it, so it has not been loaded on the way.
  have hnot : ¬ (False ∨ ∃ d ∈ g.deps n, g.Needs d n) := by
    rintro (h | ⟨d, hd, h⟩)
    · exact h
    · exact not_needs hn hd h
  have hload := hloads.load hn (x := ⟨b, e, .fn (g.loader n), [.str n, .nil], s⟩)
    (y := storing b { e with frames } p.halves n vs s') hnot hr (fun d hd => .inr ⟨d, hd, .refl⟩) rfl rfl
    (hs.foreign (.inr rfl)) hfresh
  have hneeds (m : Bytes) : ((False ∨ ∃ d ∈ g.deps n, g.Needs d m) ∨ m = n) ↔ g.Needs n m := by
    rw [needs_iff]
    simp [or_comm]
  exact ⟨_, _, id, hall, ModuleSystem.rawGet_stored hloads.stands.intact.ready.loaded_lt _,
    honly.trans (.stored p s' n _), hload.widen (fun m => (hneeds m).mp) fun m hm => .inl ((hneeds m).mpr hm)⟩

theorem requires_recorded {k : Nat} (hn : n ∈ g.names) (hs : g.Stands p s) {id : Nat}
    (hid : s.rawGet p.modules.loaded (.str n) = .table id) (b : Surroundings) (e : Exec) (rest : List Value)
    (hnatives : e.depth.natives ≠ maxNatives)
    (hslots : (within e (.str n :: rest)).depth.slots + k * g.room + nativeSlots ≤ maxSlots) :
    g.Served p n b e rest s := by
  have room : Room (within e (.str n :: rest)).depth s := hs.room hnatives (by omega)
  obtain ⟨next, hcalls⟩ := calls_ready b e hs.intact.serves room rfl
    (fun ctx => ModuleSystem.resolve_cached ctx e.threads (cached?_of_table hid))
  have honly := (OnlyLoads.report p s (.cacheHit n.lossy)).trans (.declared p _ n true (.table id) .nil)
  have hloads := ((Loads.refl hs).meanwhile (hs.toInstalled.only honly) rfl
    (hs.foreign_resolving b e (.str n :: rest) s next)).widen (fun _ => False.elim)
    fun m hm => .inr (hs.recorded hn ⟨id, hid⟩ hm)
  exact ⟨_, _, id, hcalls, hid, honly,
    hloads.cons hs.require_ne rfl hid (.returned hcalls.leads.comes (fun _ => rfl) rfl rfl)⟩

theorem requires_unrecorded {k : Nat} (hn : n ∈ g.names) (hs : g.Stands p s)
    (hnone : s.cached? p.modules.loaded (.str n) = none) (hreq : ∀ d ∈ g.deps n, g.Requires p k d)
    (b : Surroundings) (e : Exec) (rest : List Value) (hnatives : e.depth.natives ≠ maxNatives)
    (hslots : (within e (.str n :: rest)).depth.slots + (k + 1) * g.room + nativeSlots ≤ maxSlots) :
    g.Served p n b e rest s := by
  have room : Room (within e (.str n :: rest)).depth s := hs.room hnatives (by omega)
  have hr : ¬ Recorded p s n := by
    rintro ⟨id, hid⟩
    rw [cached?_of_table hid] at hnone
    cases hnone
  obtain ⟨next, hpending⟩ := calls_pending b e hs.intact.serves room rfl
    (fun ctx => ModuleSystem.resolve_preload ctx e.threads hs.intact.ready hnone (hs.preload n hn))
  have honly : OnlyLoads p s (declared s n false (.fn (g.loader n)) .nil) := .declared ..
  have hbefore := (Loads.refl hs).meanwhile (hs.toInstalled.only honly) rfl
    (hs.foreign_resolving b e (.str n :: rest) s next)
  obtain ⟨log, s', id, hcalled, hid, honly', hloads⟩ :=
    called_loads hn hbefore.stands hr hreq b
      { within e (.str n :: rest) with
        frames := calling p.halves n (within e (.str n :: rest)).depth :: e.frames } rfl hnatives hslots
  have hcalls := hpending.trans hcalled
  have hall := (hbefore.trans hloads honly.tables_size).widen
    (fun _ hm => hm.resolve_left not_false) fun _ => .inl ∘ .inr
  exact ⟨_, s', id, hcalls, hid, honly.trans honly',
    hall.cons hs.require_ne rfl hid (.returned hcalls.leads.comes (fun _ => rfl) rfl rfl)⟩

/-- Every name of the graph can be required while the functions for those in `path`, which need it, are
under way. -/
theorem requires (g : Graph) (p : Parts) : ∀ (k : Nat) (path : Finset Bytes) {n : Bytes}, n ∈ g.names →
    path ⊆ g.names → (∀ a ∈ path, Relation.TransGen g.Dep a n) → g.names.card ≤ path.card + k →
    g.Requires p k n := by
  -- By induction on how many names are left. A name is not among those that need it, so the path grows
  -- with each call, and there is always one left for the next.
  intro k
  induction k with
  | zero =>
    intro path n hn hpath hneed hcard
    have hnew : n ∉ path := fun h => g.acyclic n hn (hneed n h)
    have := Finset.card_le_card (Finset.insert_subset hn hpath)
    rw [Finset.card_insert_of_notMem hnew] at this
    omega
  | succ k ih =>
    intro path n hn hpath hneed hcard b e s rest hs hnatives hslots
    rcases hs.cached n hn with ⟨id, hid⟩ | hnone
    · exact requires_recorded hn hs hid b e rest hnatives hslots
    · refine requires_unrecorded hn hs hnone (fun d hd => ?_) b e rest hnatives hslots
      have hnew : n ∉ path := fun h => g.acyclic n hn (hneed n h)
      refine ih (insert n path) (g.deps_mem n hn d hd) (Finset.insert_subset hn hpath) ?_ ?_
      · intro a ha
        rcases Finset.mem_insert.mp ha with rfl | ha
        · exact .single hd
        · exact (hneed a ha).tail hd
      · rw [Finset.card_insert_of_notMem hnew]
        omega

/-! ## Sequences -/

/-- The name is needed by one of these. -/
def Wanted (g : Graph) (ns : List Bytes) (m : Bytes) : Prop := ∃ n ∈ ns, g.Needs n m

/-- What there is to see once these names have been required and these calls were made. -/
structure Settled (g : Graph) (p : Parts) (s₀ : Store) (ns : List Bytes) (log : List Call) (s : Store) :
    Prop where
  /-- The functions for the names that were needed were called once, and no others. -/
  once : ∀ n ∈ g.names, g.Wanted ns n → g.times n log = 1
  never : ∀ n ∈ g.names, ¬ g.Wanted ns n → g.times n log = 0
  /-- What every `require` so far came to is what is recorded. -/
  orderly : ∀ x ∈ log, g.Orderly p s x
  /-- New tables are recorded under the names that were needed, and nothing else has changed. -/
  loaded : ∀ n, g.Wanted ns n →
    ∃ id, s₀.tables.size ≤ id ∧ s.rawGet p.modules.loaded (.str n) = .table id
  others : ∀ k, (∀ n, k = .str n → ¬ g.Wanted ns n) →
    s.rawGet p.modules.loaded k = s₀.rawGet p.modules.loaded k

/-- All is settled, and stays so however these names are required one after the other, whatever code runs in
between: each of the calls returns. -/
def Goes (g : Graph) (p : Parts) (s₀ : Store) : List Bytes → List Bytes → List Call → Store → Prop
  | [], past, log, s => g.Settled p s₀ past log s
  | n :: ns, past, log, s => g.Settled p s₀ past log s ∧ ∀ b e rest s₁,
      OnlyLoads p s₀ s₁ → s₁.table p.modules.loaded = s.table p.modules.loaded →
      e.depth.natives ≠ maxNatives →
      (within e (.str n :: rest)).depth.slots + g.names.card * g.room + nativeSlots ≤ maxSlots →
      ∃ log' id s₂, Calls b (.apply (.fn p.require) (.str n :: rest) s₁) e log'
          (.act (.ret [.table id] s₂)) (within e (.str n :: rest)) ∧
        s₂.rawGet p.modules.loaded (.str n) = .table id ∧
        g.Goes p s₀ ns (n :: past) (log ++ log') s₂

theorem Loads.settled {past : List Bytes} (h : g.Loads p (g.Wanted past) s₀ s log)
    (hnone : ∀ n ∈ g.names, ¬ Recorded p s₀ n) (hpast : ∀ n ∈ past, n ∈ g.names) :
    g.Settled p s₀ past log s where
  once n hn hw := h.once n hn hw (hnone n hn)
  never n hn hw := h.never n hn fun hw' => absurd hw' hw
  orderly := h.orderly
  loaded := by
    rintro m ⟨n, hn, hm⟩
    exact h.loaded m ⟨n, hn, hm⟩ (hnone m (hm.mem (hpast n hn)))
  others k hk := h.others k fun n hn hw => absurd hw (hk n hn)

theorem Loads.goes (hi : g.Installed p s₀) (hnone : ∀ n ∈ g.names, ¬ Recorded p s₀ n) (ns : List Bytes) :
    ∀ {past : List Bytes} {log : List Call} {s : Store}, (∀ n ∈ ns, n ∈ g.names) →
      (∀ n ∈ past, n ∈ g.names) → g.Loads p (g.Wanted past) s₀ s log → g.Goes p s₀ ns past log s := by
  induction ns with
  | nil => exact fun _ hpast hloads => hloads.settled hnone hpast
  | cons n ns ih =>
    intro past log s hns hpast hloads
    obtain ⟨hn, hns⟩ := List.forall_mem_cons.mp hns
    refine ⟨hloads.settled hnone hpast, fun b e rest s₁ honly hsame hnatives hslots => ?_⟩
    have hloads₁ := hloads.meanwhile (hi.only honly) hsame (List.forall_mem_nil _)
    rw [List.append_nil] at hloads₁
    have hserved := requires g p g.names.card ∅ hn (Finset.empty_subset _) (by simp) (by simp)
    obtain ⟨log', s₂, id, hcalls, hid, -, hloads₂⟩ := hserved b e s₁ rest hloads₁.stands hnatives hslots
    have hwanted (m : Bytes) : (g.Wanted past m ∨ g.Needs n m) ↔ g.Wanted (n :: past) m := by
      simp [Wanted, or_comm]
    have hall := (hloads₁.trans hloads₂ honly.tables_size).widen (fun m => (hwanted m).mp)
      fun m hm => .inl ((hwanted m).mpr hm)
    exact ⟨log', id, s₂, hcalls, hid, ih hns (List.forall_mem_cons.mpr ⟨hn, hpast⟩) hall⟩

/-- The names of a graph of which none is loaded are required one after the other. -/
theorem load_once (g : Graph) (p : Parts) (hi : g.Installed p s₀)
    (hnone : ∀ n ∈ g.names, s₀.cached? p.modules.loaded (.str n) = none) (ns : List Bytes)
    (hns : ∀ n ∈ ns, n ∈ g.names) : g.Goes p s₀ ns [] [] s₀ := by
  have hnone' (n : Bytes) (hn : n ∈ g.names) : ¬ Recorded p s₀ n := by
    rintro ⟨id, hid⟩
    exact Option.some_ne_none _ ((cached?_of_table hid).symm.trans (hnone n hn))
  have hs : g.Stands p s₀ := ⟨hi, fun n hn => .inr (hnone n hn), fun n hn h => absurd h (hnone' n hn)⟩
  have hloads : g.Loads p (g.Wanted []) s₀ s₀ [] :=
    (Loads.refl hs).widen (fun _ => False.elim) fun m hm => by simp [Wanted] at hm
  exact hloads.goes hi hnone' ns hns (List.forall_mem_nil _)

/-! ### Three modules -/

/-- `a` needs `b` and `c`, and `b` needs `c`. -/
def threeDeps (n : Bytes) : List Bytes :=
  if n = ("a" : Bytes) then ["b", "c"] else if n = ("b" : Bytes) then ["c"] else []

def threeRank (n : Bytes) : Nat := if n = ("a" : Bytes) then 2 else if n = ("b" : Bytes) then 1 else 0

theorem threeRank_lt (n : Bytes) : ∀ d ∈ threeDeps n, threeRank d < threeRank n := by
  rw [threeDeps, threeRank]
  split
  · decide +kernel
  · split
    · decide +kernel
    · exact List.forall_mem_nil _

def three : Graph where
  names := {("a" : Bytes), ("b" : Bytes), ("c" : Bytes)}
  loader n := 2 - threeRank n
  deps := threeDeps
  room := 14
  deps_mem := by decide +kernel
  acyclic n _ := acyclic_of_rank threeRank threeRank_lt n

/-- A host with a table of global variables and the three functions. -/
def threeHost : Store :=
  let s := (({} : Store).newPermit.2.newTable.2.newCell (.table 0)).2
  let loader (s : Store) (n : Bytes) := (s.newFunction (.closure "three" (importer 1 4 (threeDeps n)) [0])).2
  loader (loader (loader s "a") "b") "c"

def threeParts : Parts :=
  .new { globals := 0, modules := .new 0 threeHost, output := 0, maxMemory := none } threeHost

def threeStore : Store :=
  ((((ModuleSystem.opened 0 threeHost).rawSetStr 0 "require" (.fn threeParts.require)).rawSetStr
    threeParts.preload "a" (.fn 0)).rawSetStr threeParts.preload "b" (.fn 1)).rawSetStr
    threeParts.preload "c" (.fn 2)

theorem three_installed : three.Installed threeParts threeStore where
  intact :=
    ((((Intact.new rfl (by decide +kernel) (by decide +kernel)).rawSetStr (by decide +kernel) _ _).rawSetStr
      (by decide +kernel) _ _).rawSetStr (by decide +kernel) _ _).rawSetStr (by decide +kernel) _ _
  memory := rfl
  preload := by decide +kernel
  apart := by decide +kernel
  asking := by
    intro n hn s' ho
    have sees : Sees threeParts 0 threeStore :=
      ⟨by decide +kernel, by decide +kernel, by decide +kernel, rfl⟩
    have hf : threeStore.function? (three.loader n) =
        some (.closure "three" (importer 1 4 (threeDeps n)) [0]) := by
      have hn' : n = ("a" : Bytes) ∨ n = ("b" : Bytes) ∨ n = ("c" : Bytes) := by simpa [three] using hn
      rcases hn' with rfl | rfl | rfl
      · rw [show three.loader ("a" : Bytes) = 0 by decide +kernel]
        rfl
      · rw [show three.loader ("b" : Bytes) = 1 by decide +kernel]
        rfl
      · rw [show three.loader ("c" : Bytes) = 2 by decide +kernel]
        rfl
    exact asking_importer (sees.only ho) (ho.functions _ _ hf) (by decide)

theorem load_once_three :
    three.Installed threeParts threeStore ∧
    (∀ n ∈ three.names, threeStore.cached? threeParts.modules.loaded (.str n) = none) ∧
    three.Goes threeParts threeStore ["a", "c"] [] [] threeStore := by
  have hnone : ∀ n ∈ three.names, threeStore.cached? threeParts.modules.loaded (.str n) = none := by
    decide +kernel
  exact ⟨three_installed, hnone, load_once three threeParts three_installed hnone ["a", "c"] (by decide +kernel)⟩

/-- On a full stack nothing is required. -/
theorem required_on_full_stack :
    three.Installed threeParts threeStore ∧
    (∀ n ∈ three.names, threeStore.cached? threeParts.modules.loaded (.str n) = none) ∧
    ("a" : Bytes) ∈ three.names ∧
    Answers {} (.fn threeParts.require) [.str "a"] threeStore (start { depth := { slots := maxSlots } } 0 #[])
      (.error (.str "stack overflow")) threeStore (start { depth := { slots := maxSlots } } 0 #[]) := by
  refine ⟨three_installed, by decide +kernel, by decide +kernel, .raised ?_ rfl rfl⟩
  exact Leads.comes (.single fun caller => by rfl)

end Graph

end Cordon
