import Cordon.Proofs.Lua.Libraries
import Cordon.Proofs.Sandbox.Stages

/-!
# Opening keeps laws

So does opening a sandbox, but for the place that it makes for captured output.
-/

namespace Cordon

open Lua

@[grind .]
theorem Lua.Require.function_still (s : Store) (ms : ModuleSystem) :
    s.Still (Require.function s ms).2 := by
  have hhalves := (Store.Still.newNative s (.gate (.resolve ms))).trans
    (.newNative _ (.gate (.finish ms)))
  unfold Require.function
  exact (hhalves.trans (.newCells ..)).trans (.newFunction ..)

theorem Lua.Protect.functions_still (s : Store) (held : Protect.Held) :
    s.Still (Protect.functions s held).2.2 :=
  have hcells := (Store.Still.newCells [] held.values.reverse s).trans (.newCell _ .nil)
  ((hcells.trans (.newFunction ..)).trans (.setCell ..)).trans
    ((Store.Still.newFunction ..).trans (.newFunction ..))

variable {R : Machine → Machine → Prop} {ctx : Ctx} (h : ctx.Lawful R)

include h

@[grind ←]
theorem Lua.Host.setField_obeys (object : Value) (name : String) (v : Value) :
    Obeys R ctx (Host.setField object name v) :=
  Host.ofScript_obeys h fun _ h => Script.assign_obeys h _ _ _

@[grind ←]
theorem Lua.Host.newFunction_obeys (f : Native) : Obeys R ctx (Host.newFunction f) :=
  .updateGet h fun s => .newNative s f

namespace Environment

omit h in
theorem copyBuiltin_still (globals : Nat) (s : Store) (name : String) :
    s.Still (copyBuiltin globals s name) := by
  unfold copyBuiltin
  split
  · exact .report ..
  · exact .rawSetStr ..

theorem protectedCalls_obeys : Obeys R ctx protectedCalls := by
  have hmake (held : Protect.Held) : Obeys R ctx (Host.updateGet fun s =>
      (((Protect.functions s held).1, (Protect.functions s held).2.1), (Protect.functions s held).2.2)) :=
    .updateGet h fun s => Protect.functions_still s held
  unfold protectedCalls
  refine .bind h (Host.read_obeys h _) fun host => ?_
  iterate 5 refine .bind h (Host.functionField_obeys h _ _) fun _ => ?_
  exact .bind h (Host.newFunction_obeys h _) fun _ => hmake _

theorem restrictedLoad_obeys (globals : Nat) : Obeys R ctx (restrictedLoad globals) := by
  unfold restrictedLoad Host.globals
  grind

theorem build_obeys (c : Config) (output : Nat) : Obeys R ctx (build c output) := by
  have hput (globals : Nat) (name : String) (v : Value) :
      Obeys R ctx (Host.update fun s => s.rawSetStr globals name v) :=
    .update h fun s => .rawSetStr s globals _ v
  have hcopy (globals : Nat) :
      Obeys R ctx (Host.update fun s => c.builtins.foldl (copyBuiltin globals) s) :=
    .update h fun s => Store.Still.foldl (copyBuiltin_still globals) c.builtins s
  unfold build
  refine .bind h (Host.updateGet_obeys h fun s => .newTable s _) fun globals => ?_
  refine .bind h (hcopy _) fun _ => .bind h (Host.read_obeys h _) fun _ => ?_
  iterate 3 refine .bind h (hput _ _ _) fun _ => ?_
  refine .bind h (Host.read_obeys h _) fun _ => .bind h (Host.functionField_obeys h _ _) fun _ => ?_
  refine .bind h (Host.newFunction_obeys h _) fun _ => .bind h (hput _ _ _) fun _ => ?_
  refine .bind h (protectedCalls_obeys h) fun calls => ?_
  iterate 2 refine .bind h (hput _ _ _) fun _ => ?_
  refine .bind h (restrictedLoad_obeys h _) fun _ => .bind h (hput _ _ _) fun _ => ?_
  exact .bind h (.update h fun s => .of_eq rfl rfl) fun _ => .pure h _

end Environment

theorem ModuleSystem.open_obeys (permit : Nat) : Obeys R ctx (ModuleSystem.open permit) :=
  .updateGet h fun s => by
    dsimp only
    have htables : s.Still (((s.newTable).2.newTable).2.newTable).2 := .of_eq rfl rfl
    exact ((htables.trans (.rawSetStr ..)).trans (.rawSetStr ..)).trans
      ((Lua.Require.function_still ..).trans (.rawSetStr ..))

theorem Sandbox.bind_obeys (b : Sandbox) (name : String) (v : Value) : Obeys R ctx (b.bind name v) :=
  .update h fun s => .rawSetStr s b.globals _ v

theorem Sandbox.adopt_obeys (b : Sandbox) (binding : Binding) : Obeys R ctx (b.adopt binding) :=
  .bind h (Sandbox.allow_obeys h b _ _) fun _ =>
    .bind h (ModuleSystem.require_obeys h _ _) fun _ => Sandbox.bind_obeys h b _ _

theorem restrictedOs_obeys (functions : List String) : Obeys R ctx (restrictedOs functions) := by
  have hput (id : Nat) (name : String) (v : Value) :
      Obeys R ctx (Host.update fun s => s.rawSetStr id name v) :=
    .update h fun s => .rawSetStr s id _ v
  unfold restrictedOs Host.globals
  refine .bind h (Host.read_obeys h _) fun globals => .bind h (Host.field_obeys h _ _) fun os => ?_
  split
  · refine .bind h (Host.updateGet_obeys h fun s => .newTable s _) fun id => ?_
    refine .bind h (.forIn h (fun name u => ?_) functions _) fun _ => .pure h _
    refine .bind h (.lift h (Host.functionField_obeys h _ name)) fun found => ?_
    split
    · exact .bind h (hput _ _ _) fun _ => .pure h _
    · exact .bind h (Host.fail_obeys h _) fun _ => .pure h _
  · exact Host.fail_obeys h _

theorem hostPackageTable_obeys (field : String) : Obeys R ctx (hostPackageTable field) := by
  unfold hostPackageTable Host.globals
  refine .bind h (Host.read_obeys h _) fun globals => .bind h (Host.field_obeys h _ _) fun package => ?_
  grind

theorem registerModule_obeys (name : String) (v : Value) : Obeys R ctx (registerModule name v) :=
  .bind h (hostPackageTable_obeys h _) fun _ => Host.setField_obeys h _ _ _

theorem applyMemoryLimit_obeys (limit : Option Nat) : Obeys R ctx (applyMemoryLimit limit) := by
  have hlimit (bytes : Nat) : Obeys R ctx (Host.update fun s => { s with memoryLimit := some bytes }) :=
    .update h fun s => .of_eq rfl rfl
  unfold applyMemoryLimit
  grind

namespace Sandbox

variable (hnew : Obeys R ctx (Host.updateGet Store.newOutput))

theorem furnish_obeys (c : Config) (permit output globals : Nat) :
    Obeys R ctx (furnish c permit output globals) := by
  unfold furnish
  refine .bind h (ModuleSystem.open_obeys h _) fun opened => ?_
  iterate 2 refine .bind h (bind_obeys h _ _ _) fun _ => ?_
  refine .bind h (.forIn h (fun binding u => ?_) _ _) fun _ =>
    .bind h (.forIn h (fun binding u => ?_) _ _) fun _ =>
    .bind h (restrictedOs_obeys h _) fun _ => .pure h _
  · exact .bind h (adopt_obeys h _ _) fun _ => .pure h _
  · exact .bind h (allow_obeys h _ _ _) fun _ => .pure h _

theorem grant_obeys (c : Config) (b : Sandbox) (permit : Nat) : Obeys R ctx (grant c b permit) := by
  unfold grant
  refine .bind h (allow_obeys h _ _ _) fun _ => .bind h (ModuleSystem.require_obeys h _ _) fun _ =>
    .bind h (bind_obeys h _ _ _) fun _ => .bind h (applyMemoryLimit_obeys h _) fun _ => ?_
  exact .update h fun s => .report s _

include hnew

theorem found_obeys (c : Config) : Obeys R ctx (found c) := by
  have hpermit : Obeys R ctx (Host.updateGet Store.newPermit) := .updateGet h fun s => .of_eq rfl rfl
  have hmake : Obeys R ctx (do
      let permit ← Host.updateGet Store.newPermit
      let output ← Host.updateGet Store.newOutput
      let globals ← Environment.build c output
      return (permit, output, globals)) :=
    .bind h hpermit fun _ => .bind h hnew fun _ =>
      .bind h (Environment.build_obeys h _ _) fun _ => .pure h _
  unfold found
  split
  · exact .bind h (Host.fail_obeys h _) fun _ => hmake
  · exact hmake

/-- Opening a sandbox keeps a law that making a place for captured output keeps. -/
theorem open_obeys (c : Config) : Obeys R ctx (Sandbox.open c) := by
  rw [open_stages]
  refine .bind h (found_obeys h hnew c) fun parts => .bind h (furnish_obeys h c _ _ _) fun furnished => ?_
  exact .bind h (registerModule_obeys h _ _) fun _ => .bind h (grant_obeys h c _ _) fun _ => .pure h _

end Sandbox

end Cordon
