import Cordon.Proofs.Modules.Parts

/-!
# The history of a sandbox

What a sandbox's `require` finds is decided by what happened to the sandbox before: which modules
were required, which functions were put under `package.preload`, and what the host allowed and
removed. `Agrees` says that the tables hold what such a history says.
-/

namespace Cordon

open Lua

/-! ## Happenings -/

inductive Happening where
  | allowed (name : String) (value : Value)
  | removed (name : String)
  | preloaded (name : Bytes) (fn : Nat)
  | required (name : Bytes) (value : Value)

/-- What happened, the latest first. -/
abbrev History := List Happening

namespace History

/-- The value of the latest successful `require`, if it is neither nil nor false and the name was not
removed since. -/
def recorded (n : Bytes) : History → Option Value
  | [] => none
  | .required n' v :: h =>
    if n' = n then (if v.truthy then some v else none) else recorded n h
  | .removed name :: h => if Bytes.ofString name = n then none else recorded n h
  | _ :: h => recorded n h

/-- The function put under `package.preload` last. -/
def loader (n : Bytes) : History → Option Nat
  | [] => none
  | .preloaded n' f :: h => if n' = n then some f else loader n h
  | _ :: h => loader n h

/-- The value of the latest permission, if it was not removed since. -/
def allowed (n : Bytes) : History → Option Value
  | [] => none
  | .allowed name v :: h => if Bytes.ofString name = n then some v else allowed n h
  | .removed name :: h => if Bytes.ofString name = n then none else allowed n h
  | _ :: h => allowed n h

end History

/-- Where the answer to a `require` comes from. -/
inductive Source where
  | recorded (v : Value)
  | loader (fn : Nat)
  | allowed (v : Value)
  | missing

def History.source (n : Bytes) (h : History) : Source :=
  match h.recorded n with
  | some v => .recorded v
  | none =>
    match h.loader n with
    | some f => .loader f
    | none =>
      match h.allowed n with
      | some v => .allowed v
      | none => .missing

variable {p : Parts} {s s' : Store} {h h' : History} {n : Bytes}

theorem History.text_of_allowed {v : Value} : ∀ {h : History}, h.allowed n = some v →
    ∃ name, n = Bytes.ofString name
  | .allowed name w :: h, ha => by
    rw [allowed] at ha
    split at ha
    · next e => exact ⟨name, e.symm⟩
    · exact text_of_allowed ha
  | .removed name :: h, ha => by
    rw [allowed] at ha
    split at ha
    · cases ha
    · exact text_of_allowed ha
  | .preloaded .. :: h, ha => text_of_allowed (h := h) ha
  | .required .. :: h, ha => text_of_allowed (h := h) ha

theorem History.recorded_of_source {v : Value} (hs : h.source n = .recorded v) :
    h.recorded n = some v := by
  unfold source at hs
  split at hs
  · next hr =>
    cases hs
    exact hr
  · split at hs
    · cases hs
    · split at hs <;> cases hs

/-! ## The tables and the history -/

/-- The tables hold what the history says. -/
structure Agrees (p : Parts) (h : History) (s : Store) : Prop where
  recorded : ∀ n, s.cached? p.modules.loaded (.str n) = h.recorded n
  loader : ∀ n, s.rawGet p.preload (.str n) = (h.loader n).elim .nil .fn
  allowed : ∀ name, (p.permit s).get? name = h.allowed (Bytes.ofString name)

namespace Agrees

theorem kept (ha : Agrees p h s) (hk : Steady p s s') : Agrees p h s' where
  recorded n := by rw [← ha.recorded n, cached?_eq, cached?_eq, hk.loaded]
  loader n := by rw [← ha.loader n, hk.preload]
  allowed name := by rw [← ha.allowed name, hk.permit]

theorem preload (hi : Placed p s) (ha : Agrees p h s) (n : Bytes) (f : Nat) :
    Agrees p (.preloaded n f :: h) (s.rawSetStr p.preload n (.fn f)) where
  recorded n' := by
    rw [cached?_eq, s.rawGet_rawSetStr_of_ne hi.apart.loaded_preload.symm]
    exact ha.recorded n'
  loader n' := by
    rw [History.loader, s.rawGet_rawSetStr_self hi.ready.preload_lt, ha.loader n']
    split <;> rfl
  allowed := ha.allowed

theorem record (hi : Placed p s) (ha : Agrees p h s) (n : Bytes) (v : Value) :
    Agrees p (.required n v :: h) (s.rawSetStr p.modules.loaded n v) where
  recorded n' := by
    rw [History.recorded, ← ha.recorded n', cached?_eq, cached?_eq,
      s.rawGet_rawSetStr_self hi.ready.loaded_lt]
    split <;> rfl
  loader n' := by
    rw [s.rawGet_rawSetStr_of_ne hi.apart.loaded_preload]
    exact ha.loader n'
  allowed := ha.allowed

theorem allow (hi : Placed p s) (ha : Agrees p h s) (name : String) (v : Value) :
    Agrees p (.allowed name v :: h)
      (s.setPermit p.modules.permit ((p.permit s).insert name v).2) where
  recorded := ha.recorded
  loader := ha.loader
  allowed name' := by
    rw [Parts.permit, s.permit_setPermit _ hi.ready.permit_lt, AllowList.get?_insert,
      ha.allowed name', History.allowed]
    simp only [Bytes.ofString_inj]

/-- Between the allow-list and the recorded modules a global variable is cleared. -/
theorem remove (hi : Placed p s) (ha : Agrees p h s) {name : String}
    (hk : Steady p (s.setPermit p.modules.permit ((p.permit s).erase name).2) s') :
    Agrees p (.removed name :: h)
      (s'.rawSetStr p.modules.loaded (Bytes.ofString name) .nil) where
  recorded n' := by
    rw [History.recorded, ← ha.recorded n', cached?_eq, cached?_eq,
      s'.rawGet_rawSetStr_self (Nat.lt_of_lt_of_le hi.ready.loaded_lt hk.tables), hk.loaded]
    split <;> rfl
  loader n' := by
    rw [s'.rawGet_rawSetStr_of_ne hi.apart.loaded_preload, hk.preload]
    exact ha.loader n'
  allowed name' := by
    show (p.permit s').get? name' = _
    rw [hk.permit, Parts.permit, s.permit_setPermit _ hi.ready.permit_lt, AllowList.get?_erase,
      ha.allowed name', History.allowed]
    simp only [Bytes.ofString_inj]

end Agrees

theorem Agrees.again (ha : Agrees p h s) {v : Value} (hr : h.recorded n = some v) :
    Agrees p (.required n v :: h) s where
  recorded n' := by
    rw [History.recorded, ha.recorded n']
    split
    · next e =>
      subst e
      have hc := ha.recorded n
      rw [hr, cached?_eq] at hc
      split at hc
      · next ht =>
        cases hc
        rw [if_pos ht, hr]
      · cases hc
    · rfl
  loader := ha.loader
  allowed := ha.allowed

theorem Placed.stored (hi : Placed p s) (n : Bytes) (v : Value) :
    Placed p (p.modules.stored s n v) :=
  (hi.rawSetStr hi.apart.package_loaded.symm n v).steady (Kept.report ..).toSteady

theorem Intact.stored (hi : Intact p s) (n : Bytes) (v : Value) :
    Intact p (p.modules.stored s n v) :=
  (hi.rawSetStr hi.apart.package_loaded.symm n v).kept (.report ..)

theorem Agrees.stored (hi : Placed p s) (ha : Agrees p h s) (n : Bytes) (v : Value) :
    Agrees p (.required n v :: h) (p.modules.stored s n v) :=
  (ha.record hi n v).kept (Kept.report ..).toSteady

/-! ## The first half of `require` -/

/-- The first half of `require` is decided by the history. -/
theorem resolve_run (hi : Placed p s) (ha : Agrees p h s) (n : Bytes) (ctx : Ctx)
    (threads : Array Thread) :
    (p.modules.resolve n).run ctx ⟨s, threads⟩ =
      match h.source n with
      | .recorded v => some (.ok (.ready v), ⟨s.report (.cacheHit n.lossy), threads⟩)
      | .loader f => some (.ok (.pending (.fn f) .nil), ⟨s, threads⟩)
      | .allowed v => some (.ok (.ready (settled v)), ⟨p.modules.stored s n (settled v), threads⟩)
      | .missing => some (.error (ModuleSystem.notFound n), ⟨s, threads⟩) := by
  unfold History.source
  have hc := ha.recorded n
  cases hr : h.recorded n with
  | some v => exact ModuleSystem.resolve_cached ctx threads (hc.trans hr)
  | none =>
    rw [hr] at hc
    have hp := ha.loader n
    cases hl : h.loader n with
    | some f =>
      rw [hl] at hp
      exact ModuleSystem.resolve_preload ctx threads hi.ready hc hp
    | none =>
      rw [hl] at hp
      cases hv : h.allowed n with
      | some v =>
        obtain ⟨name, rfl⟩ := History.text_of_allowed hv
        exact ModuleSystem.resolve_allowed ctx threads hi.ready hc hp rfl
          ((ha.allowed name).trans hv)
      | none =>
        refine ModuleSystem.resolve_missing ctx threads hi.ready hc hp fun name hn => ?_
        rw [← hv, hn]
        exact ha.allowed name

end Cordon
