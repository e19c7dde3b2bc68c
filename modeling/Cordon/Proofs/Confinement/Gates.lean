import Cordon.Lua.Invoke
import Cordon.Proofs.AllowList
import Cordon.Proofs.Confinement.Scalars
import Cordon.Proofs.Confinement.Strings
import Cordon.Proofs.Confinement.Tables

/-!
# Native functions keep the ward

The functions of the sandbox do, and then so does every native function that a program may have. The
host's compiler does if it is called with an environment, as the sandbox's own one calls it.
-/

namespace Cordon

open Lua

variable {w : Ward}

/-! ## Modules -/

def Loader.Clear (w : Ward) : Loader → Prop
  | .pending fn extra => fn.Clear w ∧ extra.Clear w
  | .resolved v => v.Clear w

def Search.Clear (w : Ward) : Search → Prop
  | .found loader => loader.Clear w
  | .notFound _ => True

def Resolution.Clear (w : Ward) : Resolution → Prop
  | .ready v => v.Clear w
  | .pending fn extra => fn.Clear w ∧ extra.Clear w

namespace ModuleSystem

variable {m : ModuleSystem} (hm : m.Clear w)

include hm

theorem searchPreload_keeps (name : Bytes) : Host.Keeps w (m.searchPreload name) (Search.Clear w) := by
  refine .bind (.field (show (Value.table m.package).Clear w from hm.package) _) fun preload hp => ?_
  split
  · refine .bind (.ofScript (.index hp trivial)) fun v hv => ?_
    split
    · exact .pure trivial
    · exact .pure ⟨hv, trivial⟩
    · exact .fail _
  · exact .fail _

omit hm in
theorem searchAllowed_keeps (m : ModuleSystem) (name : Bytes) :
    Host.Keeps w (m.searchAllowed name) (Search.Clear w) := by
  refine .read fun s hs => ?_
  unfold searchList
  split
  · next h =>
    obtain ⟨n, -, hv⟩ := Option.bind_eq_some_iff.mp h
    exact hs.permit hv
  · trivial

theorem find_keeps (name : Bytes) : Host.Keeps w (m.find name) (Loader.Clear w) := by
  refine .bind (searchPreload_keeps hm name) fun r hr => ?_
  cases r with
  | found loader => exact .pure hr
  | notFound =>
    refine .bind (searchAllowed_keeps m name) fun r hr => ?_
    cases r with
    | found loader => exact .pure hr
    | notFound => exact .fail _

theorem finish_keeps (name : Bytes) {value : Value} (hv : value.Clear w) :
    Host.Keeps w (m.finish name value) (Value.Clear w) := by
  have hvalue : (if value.isNil then .bool true else value).Clear w := by
    split
    · trivial
    · exact hv
  refine .bind (.update (Q := fun _ => True) trivial fun s hs => ?_) fun _ _ => .pure hvalue
  exact (hs.record hm.loaded (Value.clear_str name) hvalue).report _

theorem resolve_keeps (name : Bytes) : Host.Keeps w (m.resolve name) (Resolution.Clear w) := by
  refine .bind (Q := fun r => ∀ v, r = some v → v.Clear w)
    (.read fun s hs v h => hs.clear_cached? hm.loaded h) fun r hr => ?_
  cases r with
  | some v =>
    exact .bind (.update (Q := fun _ => True) trivial fun s hs => hs.report _) fun _ _ =>
      .pure (hr v rfl)
  | none =>
    refine .bind (find_keeps hm name) fun loader hl => ?_
    cases loader with
    | resolved v => exact .bind (finish_keeps hm name hl) fun v hv => .pure hv
    | pending fn extra => exact .pure hl

theorem require_keeps (name : String) : Host.Keeps w (m.require name) (Value.Clear w) := by
  refine .bind (resolve_keeps hm name) fun r hr => ?_
  cases r with
  | ready v => exact .pure hr
  | pending fn extra =>
    refine .bind (.call (.clear hr.1) (.cons trivial (.one hr.2))) fun vs hvs => ?_
    exact finish_keeps hm _ hvs.first

end ModuleSystem

/-! ## Administration -/

theorem Lua.Store.Confined.permitted {s : Store} (hs : s.Confined w) {v : Value} (hv : v.Clear w)
    (id : Nat) (name : String) :
    (s.setPermit id ((s.permit id).insert name v).2).Confined w := by
  refine hs.setPermit id fun {n u} h => ?_
  rw [AllowList.get?_insert] at h
  split at h
  · cases h
    exact hv
  · exact hs.permit h

section

variable (ho : w.Open)

include ho

theorem privilegedRequire_keeps (module : String) :
    Host.Keeps w (privilegedRequire module) (Value.Clear w) := by
  refine .bind (Q := Value.Clear w) (.read fun s hs => hs.globals ▸ ho.globals) fun g hg => ?_
  refine .bind (.functionField hg _) fun require hr => ?_
  exact .bind (.call (.clear hr) (.one trivial)) fun vs hvs => .pure hvs.first

end

section

variable {b : Sandbox} (hb : b.Clear w)

include hb in
theorem Sandbox.bind_keeps (name : String) {v : Value} (hv : v.Clear w) :
    Host.Keeps w (b.bind name v) fun _ => True :=
  .update trivial fun _ hs => hs.rawSetStr hb.globals _ hv

section

variable {module : String} (hp : Host.Keeps w (privilegedRequire module) (Value.Clear w))

include hp

theorem Sandbox.allow_keeps (b : Sandbox) (exposed : Option String) :
    Host.Keeps w (b.allow module exposed) fun _ => True := by
  exact .bind hp fun v hv => .update trivial fun s hs => (hs.permitted hv ..).report _

include hb

theorem Sandbox.require_keeps (exposed : Option String) :
    Host.Keeps w (b.require module exposed) fun _ => True := by
  refine .bind hp fun v hv => ?_
  refine .bind (Sandbox.bind_keeps hb _ hv) fun _ _ => ?_
  exact .update trivial fun _ hs => hs.report _

end

include hb

theorem Sandbox.remove_keeps (exposed : String) : Host.Keeps w (b.remove exposed) fun _ => True := by
  refine .update trivial fun s hs => ?_
  have hs := hs.setPermit b.modules.permit (l := ((s.permit b.modules.permit).erase exposed).2)
    fun {n u} h => by
      rw [AllowList.get?_erase] at h
      split at h
      · cases h
      · exact hs.permit h
  have hs := hs.rawSetStr (v := .nil) hb.globals exposed trivial
  exact (hs.record (v := .nil) hb.modules.loaded (Value.clear_str _) trivial).report _

end

namespace Lua

variable {args : List Value}

/-! ## Functions of the sandbox -/

namespace GateFn

theorem texts_keeps {tostring : Value} (ht : tostring.Clear w) : ∀ {vs : List Value}, Clears w vs →
    Host.Keeps w (texts tostring vs) fun _ => True
  | [], _ => .pure trivial
  | v :: vs, hvs => by
    refine .bind (.call (.clear ht) (.one hvs.head)) fun rs _ => ?_
    extract_lets text
    split
    · exact .bind (texts_keeps ht hvs.tail) fun _ _ => .pure trivial
    · exact .conversion ..

theorem runPrint_keeps {tostring : Value} (ht : tostring.Clear w) (output : Nat) (echo : Bool)
    (ha : Clears w args) : Host.Keeps w (runPrint tostring output echo args) (Clears w) := by
  refine .bind (texts_keeps ht ha) fun ts _ => ?_
  extract_lets line rest
  have hrest : Host.Keeps w (rest ()) (Clears w) :=
    .bind (.update (Q := fun _ => True) trivial fun s hs => hs.printLine output line) fun _ _ =>
      .pure .nil
  split
  · exact .bind (.update (Q := fun _ => True) trivial fun s hs => hs.report _) fun _ _ => hrest
  · exact hrest

theorem length_loadArguments (globals : Nat) (args : List Value) :
    (loadArguments globals args).length = 4 := by
  unfold loadArguments
  split <;> rfl

theorem loadArguments_clear {globals : Nat} (hg : ¬ w.table globals) (ha : Clears w args) :
    Clears w (loadArguments globals args) := by
  unfold loadArguments
  split
  · exact .cons ha.head (.cons ha.tail.head (.cons trivial (.one ha.tail.tail.tail.head)))
  · exact .cons (ha.getD 0) (.cons (ha.getD 1) (.cons trivial (.one hg)))

theorem runLoad_keeps {hostLoad : Value} {globals : Nat}
    (hl : ∀ args : List Value, args.length = 4 → hostLoad.Callable w args) (hg : ¬ w.table globals)
    (ha : Clears w args) : Host.Keeps w (runLoad hostLoad globals args) (Clears w) :=
  .call (hl _ (length_loadArguments ..)) (loadArguments_clear hg ha)

section

variable (function : String) (args : List Value) (n : Nat)

theorem checkString_keeps : Host.Keeps w (checkString function args n) fun _ => True := by
  unfold checkString
  split
  · exact .fail _
  · split
    · exact .pure trivial
    · exact .fail _

theorem checkName_keeps : Host.Keeps w (checkName function args n) fun _ => True := by
  refine .bind (checkString_keeps ..) fun b _ => ?_
  split
  · exact .pure trivial
  · exact .fail _

theorem optName_keeps : Host.Keeps w (optName function args n) fun _ => True := by
  unfold optName
  split
  · exact .pure trivial
  · exact .pure trivial
  · exact .bind (checkName_keeps ..) fun _ _ => .pure trivial

end

section

variable {m : ModuleSystem} (hm : m.Clear w) {b : Sandbox} (ho : w.Open)
  (hb : b.Clear w)

include hm in
theorem runResolve_keeps (args : List Value) : Host.Keeps w (runResolve m args) (Clears w) := by
  refine .bind (checkString_keeps ..) fun name _ => ?_
  refine .bind (ModuleSystem.resolve_keeps hm name) fun r hr => ?_
  cases r with
  | ready v => exact .pure (.cons trivial (.cons trivial (.cons hr (.one trivial))))
  | pending fn extra => exact .pure (.cons trivial (.cons trivial (.cons hr.1 (.one hr.2))))

include hm in
theorem runFinish_keeps (ha : Clears w args) : Host.Keeps w (runFinish m args) (Clears w) := by
  refine .bind (checkString_keeps ..) fun name _ => ?_
  exact .bind (ModuleSystem.finish_keeps hm name (ha.getD 1)) fun v hv => .pure (.one hv)

include ho hb in
theorem runAdminRequire_keeps (args : List Value) :
    Host.Keeps w (runAdminRequire b args) (Clears w) := by
  refine .bind (checkName_keeps ..) fun module _ => ?_
  refine .bind (optName_keeps ..) fun exposed _ => ?_
  exact .bind (Sandbox.require_keeps hb (privilegedRequire_keeps ho module) exposed) fun _ _ => .pure .nil

include ho in
theorem runAdminAllow_keeps (b : Sandbox) (args : List Value) :
    Host.Keeps w (runAdminAllow b args) (Clears w) := by
  refine .bind (checkName_keeps ..) fun module _ => ?_
  refine .bind (optName_keeps ..) fun exposed _ => ?_
  exact .bind (Sandbox.allow_keeps (privilegedRequire_keeps ho module) b exposed) fun _ _ => .pure .nil

include hb in
theorem runAdminRemove_keeps (args : List Value) :
    Host.Keeps w (runAdminRemove b args) (Clears w) := by
  refine .bind (checkName_keeps ..) fun exposed _ => ?_
  exact .bind (Sandbox.remove_keeps hb exposed) fun _ _ => .pure .nil

theorem runAdminPermitted_keeps (b : Sandbox) :
    Host.Keeps w (runAdminPermitted b) (Clears w) := by
  refine .bind (Q := fun _ => True) (.read fun _ _ => trivial) fun names _ => ?_
  have hnames : Clears w (names.map Value.ofString) := fun v hv => by
    obtain ⟨n, -, rfl⟩ := List.mem_map.mp hv
    trivial
  refine .bind (Q := fun id => ¬ w.table id) (.updateGet fun s hs => ?_) fun id hid => .pure (.one hid)
  exact ⟨hs.fresh_table, hs.newTable_ofItems hnames⟩

end

theorem run_keeps {f : GateFn} (hf : f.Clear w) (ha : Clears w args) :
    Host.Keeps w (f.run args) (Clears w) := by
  cases f with
  | print tostring output echo => exact runPrint_keeps hf output echo ha
  | load hostLoad globals => exact runLoad_keeps hf.1 hf.2 ha
  | isFatal =>
    exact .bind (Q := fun _ => True) (.read fun _ _ => trivial) fun _ _ => .pure (.one trivial)
  | resolve m => exact runResolve_keeps hf args
  | finish m => exact runFinish_keeps hf ha
  | adminRequire b => exact runAdminRequire_keeps hf.1 hf.2 args
  | adminAllow b => exact runAdminAllow_keeps hf.1 b args
  | adminRemove b => exact runAdminRemove_keeps hf.2 args
  | adminPermitted b => exact runAdminPermitted_keeps b

end GateFn

open Script

theorem StubFn.run_keeps {f : StubFn} (hf : f.Clear w) (ha : Clears w args) :
    Keeps w (f.run args) (Verdict.Clear w) := by
  cases f with
  | constant vs => exact .pure hf
  | arguments => exact .pure ha
  | count => exact .pure (.one trivial)
  | counter cell =>
    refine .bind .look fun v _ => ?_
    exact .bind (.update (Q := fun _ => True) trivial fun s hs => hs.setCell (v := .int _) hf trivial)
      fun _ _ => .pure (.one trivial)
  | failing e => exact .ofHost (.fail _)
  | raising v => exact .raise hf
  | applying fn args => exact .pure hf

theorem runFaultText_keeps (args : List Value) : Keeps w (runFaultText args) (Clears w) := by
  unfold runFaultText
  split
  · exact .bind .look fun _ _ => .pure (.one trivial)
  · exact .badType ..

theorem Native.run_keeps {f : Native} (hf : f.Clear w ∨ f.Harmless w args)
    (ha : Clears w args) : Keeps w (f.run args) (Verdict.Clear w) := by
  have hret {p : Script (List Value)} (hp : Keeps w p (Clears w)) :
      Keeps w (do return .ret (← p)) (Verdict.Clear w) := .bind hp fun _ hvs => .pure hvs
  by_cases hbase : ∃ g, f = .base g
  · obtain ⟨g, rfl⟩ := hbase
    exact BaseFn.run_keeps g ha hf
  have hf : f.Clear w := hf.elim id fun h => by
    cases h <;> exact absurd ⟨_, rfl⟩ hbase
  cases f with
  | base g => exact absurd ⟨g, rfl⟩ hbase
  | coroutine f => exact CoroutineFn.run_keeps f ha
  | string f => exact hret (StringFn.run_keeps f ha)
  | utf8 f => exact hret (Utf8Fn.run_keeps f args)
  | table f => exact hret (TableFn.run_keeps f ha)
  | math f => exact hret (MathFn.run_keeps f ha)
  | os f => exact hret (OsFn.run_keeps f ha)
  | io f => exact hret (IoFn.run_keeps f ha)
  | package f => exact hret (PackageFn.run_keeps f hf args)
  | stringArith op => exact hret (StringFn.runArith_keeps args op ha)
  | stringNeg => exact hret (StringFn.runNeg_keeps args ha)
  | ipairsStep => exact hret (BaseFn.runIpairsStep_keeps ha)
  | gmatchStep src pat cell => exact hret (StringFn.runGmatchStep_keeps src pat hf.1 hf.2)
  | codesStep lax => exact hret (Utf8Fn.runCodesStep_keeps lax args)
  | wrapped thread => exact .pure ha
  | faultText => exact hret (runFaultText_keeps args)
  | stub f => exact StubFn.run_keeps hf ha
  | gate f => exact hret (.ofHost (GateFn.run_keeps hf ha))

end Lua

end Cordon
