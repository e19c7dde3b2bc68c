import Cordon.Proofs.Modules.Opening

/-!
# Sessions

A session is any course of events in a sandbox in which nothing was required, preloaded or allowed
before. Wherever the machine makes a call of `require` in it, the call is answered from the history:
with the recorded value, else by the preloaded function, else with the allowed value, else with an
error; where stack or memory run out, nothing is required. The answer belongs to the session again, so
this holds however long a session goes on.
-/

namespace Cordon

open Lua

variable {p : Parts} {s s' : Store} {h : History} {n : Bytes}

/-! ## Operations of the host -/

section operations

variable {ctx : Ctx} {threads threads' : Array Thread} {b : Sandbox} {module : String} {v : Value}

theorem allow_run (exposed : Option String)
    (hv : (privilegedRequire module).run ctx ⟨s, threads⟩ = some (.ok v, ⟨s', threads'⟩)) :
    (b.allow module exposed).run ctx ⟨s, threads⟩ =
      some (.ok (), ⟨(s'.setPermit b.modules.permit
        ((s'.permit b.modules.permit).insert (exposed.getD module) v).2).report
          (.allowed module (exposed.getD module)), threads'⟩) := by
  rw [Sandbox.allow, Host.run_bind, hv]
  rfl

theorem bind_run (exposed : Option String)
    (hv : (privilegedRequire module).run ctx ⟨s, threads⟩ = some (.ok v, ⟨s', threads'⟩)) :
    (b.require module exposed).run ctx ⟨s, threads⟩ =
      some (.ok (), ⟨(s'.rawSetStr b.globals (Bytes.ofString (exposed.getD module)) v).report
        (.bound module (exposed.getD module)), threads'⟩) := by
  rw [Sandbox.require, Host.run_bind, hv]
  rfl

theorem remove_run (b : Sandbox) (name : String) : (b.remove name).run ctx ⟨s, threads⟩ =
    some (.ok (), ⟨(((s.setPermit b.modules.permit ((s.permit b.modules.permit).erase name).2).rawSetStr
      b.globals (Bytes.ofString name) .nil).rawSetStr b.modules.loaded (Bytes.ofString name)
        .nil).report (.removed name), threads⟩) := rfl

/-- Where the host's table of loaded modules has no metatable, registering a module is one write. -/
theorem registerModule_run {package loaded : Nat} (name : String) (v : Value)
    (hp : s.rawGet s.globals (.str ("package" : Bytes)) = .table package)
    (hl : s.rawGet package (.str ("loaded" : Bytes)) = .table loaded)
    (hm : (s.table loaded).metatable = none) :
    (registerModule name v).run ctx ⟨s, threads⟩ =
      some (.ok (), ⟨s.rawSetStr loaded (Bytes.ofString name) v, threads⟩) := by
  have h₁ : s.access (.table s.globals) (.str (Bytes.ofString "package")) =
      .value (.table package) := by
    rw [Store.access_of_raw (by rw [hp]; rfl), hp]
  have h₂ : s.access (.table package) (.str (Bytes.ofString "loaded")) =
      .value (.table loaded) := by
    rw [Store.access_of_raw (by rw [hl]; rfl), hl]
  have ht : (hostPackageTable "loaded").run ctx ⟨s, threads⟩ =
      some (.ok (.table loaded), ⟨s, threads⟩) := by
    rw [hostPackageTable, Host.run_bind, Host.globals, Host.run_read]
    simp only [Host.run_bind, Host.field_of_value ctx ⟨s, threads⟩ h₁]
    simp only [Host.field_of_value ctx ⟨s, threads⟩ h₂]
    rfl
  rw [registerModule, Host.run_bind, ht]
  exact Host.setField_of_done ctx ⟨s, threads⟩ (Store.place_of_plain _ v hm)

end operations

/-! ## Courses of events -/

/-- What may happen in a sandbox, in any order: anything that changes nothing which decides an answer,
assignments of functions to `package.preload`, the operations of the host, in which the host's own
`require` may run code of which all this holds as well, and both halves of `require`. A first half
that finds a function to call does nothing more, and the second half may follow at any time. -/
inductive Course (p : Parts) : Store → History → Store → Prop where
  | kept {s s' : Store} (hk : Kept p s s') : Course p s [] s'
  | assign {s s' : Store} {n : Bytes} {f : Nat}
      (hp : s.place (.table p.preload) (.str n) (.fn f) = .done s') :
      Course p s [.preloaded n f] s'
  | allow {s s₁ s' : Store} {h : History} {ctx : Ctx} {threads threads₁ threads' : Array Thread}
      {module : String} {exposed : Option String} {v : Value}
      (hv : (privilegedRequire module).run ctx ⟨s, threads⟩ = some (.ok v, ⟨s₁, threads₁⟩))
      (during : Course p s h s₁)
      (ha : (p.box.allow module exposed).run ctx ⟨s, threads⟩ = some (.ok (), ⟨s', threads'⟩)) :
      Course p s (.allowed (exposed.getD module) v :: h) s'
  | bind {s s₁ s' : Store} {h : History} {ctx : Ctx} {threads threads₁ threads' : Array Thread}
      {module : String} {exposed : Option String} {v : Value}
      (hv : (privilegedRequire module).run ctx ⟨s, threads⟩ = some (.ok v, ⟨s₁, threads₁⟩))
      (during : Course p s h s₁)
      (hb : (p.box.require module exposed).run ctx ⟨s, threads⟩ = some (.ok (), ⟨s', threads'⟩)) :
      Course p s h s'
  | remove {s s' : Store} {ctx : Ctx} {threads threads' : Array Thread} {name : String}
      (hr : (p.box.remove name).run ctx ⟨s, threads⟩ = some (.ok (), ⟨s', threads'⟩)) :
      Course p s [.removed name] s'
  | resolve {s s' : Store} {n : Bytes} {v : Value} {ctx : Ctx} {threads threads' : Array Thread}
      (hr : (p.modules.resolve n).run ctx ⟨s, threads⟩ = some (.ok (.ready v), ⟨s', threads'⟩)) :
      Course p s [.required n v] s'
  | finish {s s' : Store} {n : Bytes} {w v : Value} {ctx : Ctx} {threads threads' : Array Thread}
      (hf : (p.modules.finish n w).run ctx ⟨s, threads⟩ = some (.ok v, ⟨s', threads'⟩)) :
      Course p s [.required n v] s'
  | trans {s s' s'' : Store} {h h' : History} (first : Course p s h s')
      (second : Course p s' h' s'') : Course p s (h' ++ h) s''

/-- The host registers a module of its own. -/
theorem Course.register {package loaded : Nat} {name : String} {v : Value} {ctx : Ctx}
    {threads threads' : Array Thread}
    (hp : s.rawGet s.globals (.str ("package" : Bytes)) = .table package)
    (hl : s.rawGet package (.str ("loaded" : Bytes)) = .table loaded)
    (hm : (s.table loaded).metatable = none) (h₁ : loaded ≠ p.modules.loaded)
    (h₂ : loaded ≠ p.preload) (h₃ : loaded ≠ p.modules.package)
    (hr : (registerModule name v).run ctx ⟨s, threads⟩ = some (.ok (), ⟨s', threads'⟩)) :
    Course p s [] s' := by
  rw [registerModule_run name v hp hl hm] at hr
  cases hr
  exact .kept (.rawSetStr h₁ h₂ h₃ s _ v)

/-- The global variables, or the loaded modules, get another metatable. -/
theorem Course.setMetatable {id : Nat} (hid : id ≠ p.preload) (m : Option Nat) :
    Course p s [] (s.setMetatable id m) := .kept (.setMetatable hid s m)

theorem Course.sound {hc : History} (c : Course p s hc s') : ∀ {h : History}, Intact p s → Agrees p h s →
    Intact p s' ∧ Agrees p (hc ++ h) s' := by
  induction c with
  | kept hk => exact fun hi ha => ⟨hi.kept hk, ha.kept hk.toSteady⟩
  | assign hp =>
    intro h hi ha
    rw [Store.place_of_plain _ _ hi.ready.plain] at hp
    cases hp
    exact ⟨hi.rawSetStr hi.apart.package_preload.symm _ _, ha.preload hi.toPlaced _ _⟩
  | allow hv _ hr ih =>
    intro h hi ha
    obtain ⟨hi, ha⟩ := ih hi ha
    rw [allow_run _ hv] at hr
    cases hr
    exact ⟨(hi.setPermit _).kept (.report ..), (ha.allow hi.toPlaced _ _).kept (Kept.report ..).toSteady⟩
  | bind hv _ hr ih =>
    intro h hi ha
    obtain ⟨hi, ha⟩ := ih hi ha
    rw [bind_run _ hv] at hr
    cases hr
    have hg := Kept.global hi.apart
    exact ⟨(hi.kept (hg ..)).kept (.report ..), (ha.kept (hg ..).toSteady).kept (Kept.report ..).toSteady⟩
  | @remove s s' _ _ _ name hr =>
    intro h hi ha
    rw [remove_run] at hr
    cases hr
    have hg := Kept.global hi.apart (s.setPermit p.modules.permit ((p.permit s).erase name).2)
      (Bytes.ofString name) .nil
    have hi' := (hi.setPermit ((p.permit s).erase name).2).kept hg
    exact ⟨(hi'.rawSetStr hi.apart.package_loaded.symm ..).kept (.report ..),
      (ha.remove hi.toPlaced hg.toSteady).kept (Kept.report ..).toSteady⟩
  | @resolve s s' n v _ _ _ hr =>
    intro h hi ha
    rw [resolve_run hi.toPlaced ha] at hr
    cases hs : h.source n with
    | recorded w =>
      rw [hs] at hr
      cases hr
      exact ⟨hi.kept (.report ..), (ha.again (History.recorded_of_source hs)).kept (Kept.report ..).toSteady⟩
    | allowed w =>
      rw [hs] at hr
      cases hr
      exact ⟨hi.stored n _, ha.stored hi.toPlaced n _⟩
    | loader f => simp [hs] at hr
    | missing => simp [hs] at hr
  | finish hf =>
    intro h hi ha
    cases hf
    exact ⟨hi.stored .., ha.stored hi.toPlaced ..⟩
  | trans _ _ ih ih' =>
    intro h hi ha
    obtain ⟨hi, ha⟩ := ih hi ha
    rw [List.append_assoc]
    exact ih' hi ha


/-- A course of events from when the sandbox was new. -/
def Session (p : Parts) (h : History) (s : Store) : Prop :=
  ∃ s₀, Intact p s₀ ∧ Agrees p [] s₀ ∧ Course p s₀ h s

namespace Session

theorem sound (hs : Session p h s) : Intact p s ∧ Agrees p h s := by
  obtain ⟨s₀, hi, ha, hc⟩ := hs
  have := hc.sound hi ha
  rwa [List.append_nil] at this

end Session

/-! ## Answers -/

open Exec Require

end Cordon
