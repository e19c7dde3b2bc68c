import Cordon.Proofs.Confinement.Gates
import Cordon.Sandbox.Open

/-!
# Opening a sandbox keeps the ward

What a sandbox is made of is clear, as far as the host has what it is asked for.
-/

namespace Cordon

open Lua

variable {w : Ward}

/-- What the host has under a name. -/
def Lua.Ward.Offers (w : Ward) (name : String) (P : Value → Prop) : Prop :=
  ∀ s : Store, s.Confined w → P ((s.table w.globals).getStr name)

/-- A function that programs may have. -/
def Lua.Value.ClearFunction (w : Ward) (v : Value) : Prop := ∃ f, v = .fn f ∧ (Value.fn f).Clear w

/-- The host has what a sandbox with these base functions is made of. -/
structure Lua.Ward.Serves (w : Ward) (builtins : List String) : Prop where
  builtins : ∀ name ∈ builtins, w.Offers name (Value.Clear w)
  version : w.Offers "_VERSION" (Value.Clear w)
  functions : ∀ name ∈ ["pcall", "xpcall", "error", "select", "type", "tostring"],
    w.Offers name (Value.ClearFunction w)
  load : w.Offers "load" fun v => ∃ id, v = .fn id ∧ w.native id (.base .load)
  require : w.Offers "require" fun v => ∃ id, v = .fn id ∧ w.native id (.base .require)
  os : w.Offers "os" fun v => ∃ id, v = .table id ∧ ¬ w.table id
  package : w.Offers "package" fun v => v = .table w.package
  loaded : ∀ s : Store, s.Confined w → (s.table w.package).getStr "loaded" = .table w.loaded

/-! ## Parts of the store -/

namespace Lua.Store.Confined

variable {s : Store}

theorem newPermit (hs : s.Confined w) : s.newPermit.2.Confined w :=
  { hs with
    toClosed := hs.toClosed.of_tables rfl rfl rfl
    installed := fun hg => (hs.installed hg).keep (fun _ _ _ => rfl) fun _ _ h => h
    permit := fun {id n v} hv => by
      replace hv : ((s.permits.push {}).getD id {}).get? n = some v := hv
      rw [Array.getD_eq_getD_getElem?, Array.getElem?_push] at hv
      split at hv
      · cases hv
      · rw [← Array.getD_eq_getD_getElem?] at hv
        exact hs.permit hv }

theorem newOutput (hs : s.Confined w) : s.newOutput.2.Confined w :=
  hs.of_alike (by constructor <;> rfl)

theorem protectFunctions (hs : s.Confined w) {h : Protect.Held} (hh : Clears w h.values) :
    (Protect.functions s h).1.Clear w ∧ (Protect.functions s h).2.1.Clear w ∧
      (Protect.functions s h).2.2.Confined w := by
  have hs₁ := hs.newCells [] hh.reverse
  have hheld := hs.fresh_newCells hh.reverse fun id (h : id ∈ []) => absurd h List.not_mem_nil
  unfold Protect.functions
  generalize s.newCells [] h.values.reverse = r at hs₁ hheld
  obtain ⟨held, s₁⟩ := r
  have hs₂ := hs₁.newCell (v := .nil) trivial
  have hcells : ∀ id ∈ s₁.cells.size :: held, ¬ w.cell id :=
    List.forall_mem_cons.mpr ⟨hs₁.fresh_cell, hheld⟩
  have hclear (f : Func) : (Callable.closure Protect.chunk f (s₁.cells.size :: held)).Clear w :=
    .inl hcells
  have hs₃ := hs₂.newFunction (hclear Protect.finish)
  have hs₄ := hs₃.setCell hs₁.fresh_cell (v := .fn _) hs₂.fresh_function
  have hs₅ := hs₄.newFunction (hclear Protect.pcall)
  exact ⟨hs₄.fresh_function, hs₅.fresh_function, hs₅.newFunction (hclear Protect.xpcall)⟩

theorem requireFunction (hs : s.Confined w) {m : ModuleSystem} (hm : m.Clear w) :
    (Require.function s m).1.Clear w ∧ (Require.function s m).2.Confined w := by
  have hs₁ := hs.newNative (f := .gate (.resolve m)) hm
  have hs₂ := hs₁.newNative (f := .gate (.finish m)) hm
  have hvalues : Clears w [.fn s.functions.size, .fn (s.newNative (.gate (.resolve m))).2.functions.size] :=
    .cons hs.fresh_function (.one hs₁.fresh_function)
  have hs₃ := hs₂.newCells [] hvalues
  have hcells := hs₂.fresh_newCells hvalues fun id (h : id ∈ []) => absurd h List.not_mem_nil
  exact ⟨hs₃.fresh_function, hs₃.newFunction (.inl hcells)⟩

end Lua.Store.Confined

/-! ## The environment -/

section

variable {builtins : List String} (hw : w.Serves builtins)

theorem Lua.Host.Keeps.globals {α : Type} {Q : α → Prop} {f : Value → Host α}
    (h : Host.Keeps w (f (.table w.globals)) Q) : Host.Keeps w (Host.globals >>= f) Q :=
  .bind (Q := fun v => v = .table w.globals) (.read fun _ hs => congrArg _ hs.globals) fun _ hv => hv ▸ h

namespace Environment

include hw

theorem hostFunction_keeps {name : String}
    (hn : name ∈ ["pcall", "xpcall", "error", "select", "type", "tostring"]) :
    Host.Keeps w (Host.functionField (.table w.globals) name) (Value.Clear w) :=
  .functionField_entry fun s hs => hw.functions name hn s hs

theorem copyBuiltin_confined {globals : Nat} (hg : ¬ w.table globals) {name : String}
    (hn : name ∈ builtins) {s : Store} (hs : s.Confined w) : (copyBuiltin globals s name).Confined w := by
  have hv : ((s.table s.globals).getStr name).Clear w := hs.globals ▸ hw.builtins name hn s hs
  unfold copyBuiltin
  split
  · exact hs.report _
  · exact hs.rawSetStr hg _ hv

theorem copyBuiltins_confined {globals : Nat} (hg : ¬ w.table globals) : ∀ {names : List String},
    (∀ name ∈ names, name ∈ builtins) → ∀ {s : Store}, s.Confined w →
    (names.foldl (copyBuiltin globals) s).Confined w
  | [], _, _, hs => hs
  | _ :: _, hn, _, hs =>
    copyBuiltins_confined hg (fun n h => hn n (.tail _ h))
      (copyBuiltin_confined hw hg (hn _ (.head _)) hs)

theorem protectedCalls_keeps :
    Host.Keeps w protectedCalls fun r => r.1.Clear w ∧ r.2.Clear w := by
  refine .globals ?_
  refine .bind (hostFunction_keeps hw (by decide)) fun pcall hpcall => ?_
  refine .bind (hostFunction_keeps hw (by decide)) fun xpcall hxpcall => ?_
  refine .bind (hostFunction_keeps hw (by decide)) fun error herror => ?_
  refine .bind (hostFunction_keeps hw (by decide)) fun select hselect => ?_
  refine .bind (hostFunction_keeps hw (by decide)) fun type htype => ?_
  refine .bind (.newFunction (f := .gate .isFatal) trivial) fun isFatal hfatal => ?_
  refine .updateGet fun s hs => ?_
  have hheld : Clears w (Protect.Held.values { isFatal, type, select, error, xpcall, pcall }) :=
    .cons hfatal (.cons htype (.cons hselect (.cons herror (.cons hxpcall (.one hpcall)))))
  obtain ⟨hp, hx, hs⟩ := hs.protectFunctions hheld
  exact ⟨⟨hp, hx⟩, hs⟩

theorem restrictedLoad_keeps {globals : Nat} (hg : ¬ w.table globals) :
    Host.Keeps w (restrictedLoad globals) (Value.Clear w) := by
  refine .globals ?_
  refine .bind (Q := fun v => ∃ id, v = .fn id ∧ w.native id (.base .load))
    (.functionField_entry fun s hs => ?_) fun load hl => ?_
  · obtain ⟨id, hid, hn⟩ := hw.load s hs
    exact ⟨id, hid, id, rfl, hn⟩
  · obtain ⟨id, rfl, hn⟩ := hl
    refine .newFunction (f := .gate (.load (.fn id) globals)) ⟨fun args h => ?_, hg⟩
    exact .native hn (.load (Nat.le_of_eq h.symm))

theorem build_keeps {c : Config} (hc : c.builtins = builtins) (output : Nat) :
    Host.Keeps w (build c output) fun id => ¬ w.table id := by
  refine .bind (Q := fun id => ¬ w.table id)
    (.updateGet fun s hs => ⟨hs.fresh_table, hs.newTable_empty⟩) fun globals hg => ?_
  extract_lets put
  have hput (name : String) {v : Value} (hv : v.Clear w) :
      Host.Keeps w (put name v) fun _ => True := .update trivial fun s hs => hs.rawSetStr hg _ hv
  refine .bind (.update (Q := fun _ => True) trivial fun s hs => ?_) fun _ _ => ?_
  · exact copyBuiltins_confined hw hg (fun name h => hc ▸ h) hs
  refine .bind (Q := Value.Clear w) (.read fun s hs => hs.globals ▸ hw.version s hs) fun version hv => ?_
  refine .bind (hput _ hv) fun _ _ => .bind (hput _ trivial) fun _ _ => ?_
  refine .bind (hput _ (v := .table globals) hg) fun _ _ => .globals ?_
  refine .bind (hostFunction_keeps hw (by decide)) fun tostring ht => ?_
  refine .bind (.newFunction (f := .gate (.print tostring output c.echoPrint)) ht) fun print hp => ?_
  refine .bind (hput _ hp) fun _ _ => .bind (protectedCalls_keeps hw) fun r hr => ?_
  obtain ⟨pcall, xpcall⟩ := r
  refine .bind (hput _ hr.1) fun _ _ => .bind (hput _ hr.2) fun _ _ => ?_
  refine .bind (restrictedLoad_keeps hw hg) fun load hl => .bind (hput _ hl) fun _ _ => ?_
  refine .bind (.update (Q := fun _ => True) trivial fun s hs => ?_) fun _ _ => .pure hg
  exact hs.of_alike (by constructor <;> rfl)

end Environment

/-! ## Modules -/

theorem ModuleSystem.open_keeps (permit : Nat) :
    Host.Keeps w (ModuleSystem.open permit) fun r => r.1.Clear w ∧ r.2.Clear w := by
  refine .updateGet fun s hs => ?_
  have hs₁ := hs.newTable_empty
  have hs₂ := hs₁.newTable_empty
  have hs₃ := hs₂.newTable_empty
  have hs₄ := hs₃.rawSetStr (v := .table _) hs.fresh_table "loaded" hs₁.fresh_table
  have hs₅ := hs₄.rawSetStr (v := .table _) hs.fresh_table "preload" hs₂.fresh_table
  have hm : ModuleSystem.Clear w ⟨s.tables.size, s.newTable.2.tables.size, permit⟩ :=
    ⟨hs.fresh_table, hs₁.fresh_table⟩
  obtain ⟨hr, hs₆⟩ := hs₅.requireFunction hm
  exact ⟨⟨hm, hr⟩, hs₆.rawSetStr hs.fresh_table "require" hr⟩

include hw

theorem privilegedRequire_library {name : String} (hn : w.library (Bytes.beforeNul name)) :
    Host.Keeps w (privilegedRequire name) (Value.Clear w) := by
  refine .globals ?_
  refine .bind (Q := fun v => ∃ id, v = .fn id ∧ w.native id (.base .require))
    (.functionField_entry fun s hs => ?_) fun require hr => ?_
  · obtain ⟨id, hid, hn⟩ := hw.require s hs
    exact ⟨id, hid, id, rfl, hn⟩
  · obtain ⟨id, rfl, hid⟩ := hr
    exact .bind (.call (.native hid (.require hn)) (.one trivial)) fun vs hvs => .pure hvs.first

theorem Sandbox.adopt_keeps {b : Sandbox} (hb : b.Clear w) {binding : Binding}
    (hn : w.library (Bytes.beforeNul binding.module)) : Host.Keeps w (b.adopt binding) fun _ => True := by
  refine .bind (Sandbox.allow_keeps (privilegedRequire_library hw hn) b none) fun _ _ => ?_
  refine .bind (ModuleSystem.require_keeps hb.modules _) fun v hv => ?_
  exact Sandbox.bind_keeps hb _ hv

theorem restrictedOs_keeps (functions : List String) :
    Host.Keeps w (restrictedOs functions) fun id => ¬ w.table id := by
  refine .globals ?_
  refine .bind (Q := fun v => ∃ id, v = .table id ∧ ¬ w.table id) (.field_entry fun s hs => ?_) fun os ho => ?_
  · obtain ⟨id, hid, hclear⟩ := hw.os s hs
    rw [hid]
    exact ⟨⟨id, rfl, hclear⟩, nofun⟩
  · obtain ⟨host, rfl, hhost⟩ := ho
    refine .bind (Q := fun id => ¬ w.table id)
      (.updateGet fun s hs => ⟨hs.fresh_table, hs.newTable_empty⟩) fun id hid => ?_
    refine .bind (.forIn fun name _ => ?_) fun _ _ => .pure hid
    refine .bind (.attempt (.functionField (show (Value.table host).Clear w from hhost) name)) fun r hr => ?_
    cases r with
    | ok f =>
      refine .bind (.update (Q := fun _ => True) trivial fun s hs => hs.rawSetStr hid _ hr) fun _ _ => ?_
      exact .pure rfl
    | error e => exact .bind (.fail _ (Q := fun _ => True)) fun _ _ => .pure rfl

end

theorem applyMemoryLimit_keeps (limit : Option Nat) :
    Host.Keeps w (applyMemoryLimit limit) fun _ => True := by
  cases limit with
  | none => exact .pure trivial
  | some bytes =>
    refine .bind (Q := fun _ => True) (.read fun _ _ => trivial) fun used _ => ?_
    split
    · exact .fail _
    · exact .update trivial fun s hs => hs.of_alike (by constructor <;> rfl)

end Cordon
