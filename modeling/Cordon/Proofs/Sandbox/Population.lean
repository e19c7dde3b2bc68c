import Cordon.Proofs.AllowList
import Cordon.Proofs.Sandbox.Opened

/-!
# What a new sandbox holds

The keys of the tables of a new sandbox and the names on its allow-list, exactly, and its own objects
among its global variables.
-/

namespace Cordon

open Lua

/-! ## The names -/

/-- The variables that a sandbox has in any case. -/
def Sandbox.reserved : List String :=
  ["os", "package", "require", "load", "xpcall", "pcall", "print", "_G", Environment.hostVersionName]

section

variable {c : Config} {b : Sandbox} {s s' : Store} {o : Outfit} {require os : Value}
  {given : List (Binding × Value)}

theorem Sandbox.mem_exposures (h : Opened c s b s' o require os given) {w : Bytes × Value}
    (hw : w ∈ exposures given) :
    ∃ x ∈ c.adopted, w.1 = Bytes.ofString x.exposedName ∧ w.2 ≠ .nil := by
  obtain ⟨x, hx, rfl⟩ := List.mem_map.mp (List.mem_reverse.mp hw)
  exact ⟨x.1, h.bindings ▸ List.mem_map_of_mem hx, rfl, h.answered x hx⟩

theorem Sandbox.objects_ne_nil (h : Opened c s b s' o require os given) :
    ∀ x ∈ b.objects c o require, x.2 ≠ .nil := by
  have hmade {v : Value} {f : Callable} (hf : s.Makes s' v f) : v ≠ .nil := by
    obtain ⟨id, rfl, -⟩ := hf
    exact nofun
  obtain ⟨_, hprint⟩ := h.outfit.print
  obtain ⟨_, hpcall⟩ := h.outfit.pcall
  obtain ⟨_, hxpcall⟩ := h.outfit.xpcall
  obtain ⟨_, hload⟩ := h.outfit.load
  obtain ⟨_, hrequire⟩ := h.requires
  simp only [objects, List.forall_mem_cons]
  exact ⟨nofun, hmade hrequire, hmade hload, hmade hxpcall, hmade hpcall, hmade hprint, nofun, nofun,
    nofun⟩

theorem Sandbox.contents_names (h : Opened c s b s' o require os given) (k : Key) :
    s'.rawGet b.globals k ≠ .nil ↔ ∃ name, k = .str (Bytes.ofString name) ∧ (name ∈ reserved ∨
      name ∈ c.adopted.map Binding.exposedName ∨
      name ∈ c.copied ∧ (s.table s.globals).getStr name ≠ .nil) := by
  have hnil : ∀ w ∈ b.contents c (s.table s.globals) o require os given, w.2 ≠ .nil := by
    simp only [contents, List.forall_mem_cons, List.forall_mem_append, List.forall_mem_map]
    refine ⟨h.clock, fun w hw => ?_, objects_ne_nil h, fun w hw => ?_⟩
    · obtain ⟨x, -, -, hne⟩ := mem_exposures h hw
      exact hne
    · obtain ⟨name, -, -, hne⟩ := mem_copies.mp hw
      exact hne
  rw [h.globals.entries, written_ne_nil_iff hnil]
  constructor
  · rintro ⟨w, hw, rfl⟩
    rcases List.mem_cons.mp hw with rfl | hw
    · exact ⟨"os", rfl, .inl (.head _)⟩
    rcases List.mem_append.mp hw with hw | hw
    · obtain ⟨x, hx, e, -⟩ := mem_exposures h hw
      exact ⟨x.exposedName, by rw [e], .inr (.inl (List.mem_map_of_mem hx))⟩
    rcases List.mem_append.mp hw with hw | hw
    · obtain ⟨x, hx, rfl⟩ := List.mem_map.mp hw
      have hmem : x.1 ∈ (b.objects c o require).map Prod.fst := List.mem_map_of_mem hx
      exact ⟨x.1, rfl, .inl (.tail _ hmem)⟩
    · obtain ⟨name, hname, rfl, hne⟩ := mem_copies.mp hw
      exact ⟨name, rfl, .inr (.inr ⟨hname, hne⟩)⟩
  · rintro ⟨name, rfl, hname | hname | ⟨hname, hne⟩⟩
    · rcases List.mem_cons.mp hname with rfl | hname
      · exact ⟨_, .head _, rfl⟩
      · have hname : name ∈ (b.objects c o require).map Prod.fst := hname
        obtain ⟨x, hx, rfl⟩ := List.mem_map.mp hname
        have hmem := List.mem_map_of_mem (f := fun x : String × Value => (Bytes.ofString x.1, x.2)) hx
        exact ⟨_, .tail _ (List.mem_append_right _ (List.mem_append_left _ hmem)), rfl⟩
    · obtain ⟨x, hx, rfl⟩ := List.mem_map.mp hname
      obtain ⟨y, hy, rfl⟩ := List.mem_map.mp ((h.bindings : _ = c.adopted) ▸ hx)
      have hmem : (Bytes.ofString y.1.exposedName, y.2) ∈ exposures given :=
        List.mem_reverse.mpr (List.mem_map.mpr ⟨y, hy, rfl⟩)
      exact ⟨_, .tail _ (List.mem_append_left _ hmem), rfl⟩
    · have hmem : (Bytes.ofString name, (s.table s.globals).getStr name) ∈
          copies (s.table s.globals) c.copied := mem_copies.mpr ⟨name, hname, rfl, hne⟩
      exact ⟨_, .tail _ (List.mem_append_right _ (List.mem_append_right _ hmem)), rfl⟩

theorem Sandbox.nodup_objects (b : Sandbox) (c : Config) (o : Outfit) (require : Value) :
    ((b.objects c o require).map Prod.fst).Nodup := by
  have h : reserved.tail.Nodup := by decide
  exact h

/-- The writes before the modules came count where no module is exposed under that name. -/
theorem Sandbox.contents_apart (h : Opened c s b s' o require os given) {name : String}
    (hos : name ≠ "os") (hname : name ∉ c.adopted.map Binding.exposedName) :
    s'.rawGet b.globals (.str (Bytes.ofString name)) =
      written ((b.objects c o require).map (fun x => (Bytes.ofString x.1, x.2)) ++
        copies (s.table s.globals) c.copied) (.str (Bytes.ofString name)) := by
  have hskip : ∀ w ∈ exposures given, Key.str w.1 ≠ .str (Bytes.ofString name) := by
    intro w hw e
    obtain ⟨x, hx, hw, -⟩ := mem_exposures h hw
    rw [hw] at e
    exact hname (Bytes.ofString_inj.mp (Key.str.inj e) ▸ List.mem_map_of_mem hx)
  rw [h.globals.entries, contents, written, if_neg, written_append_of_not hskip]
  exact fun e => hos (Bytes.ofString_inj.mp (Key.str.inj e)).symm

theorem Sandbox.object_kept (h : Opened c s b s' o require os given) {x : String × Value}
    (hx : x ∈ b.objects c o require) (hname : x.1 ∉ c.adopted.map Binding.exposedName) :
    s'.rawGet b.globals (.str (Bytes.ofString x.1)) = x.2 := by
  have hos : x.1 ≠ "os" := by
    have hmem : x.1 ∈ reserved.tail := List.mem_map_of_mem (f := Prod.fst) hx
    exact fun e => absurd (e ▸ hmem) (by decide)
  rw [contents_apart h hos hname]
  exact written_of_mem _ (b.nodup_objects c o require) hx

end

/-! ## Exact population -/

/-- No module takes the place of a variable. -/
def Config.Free (c : Config) (name : String) : Prop := name ∉ c.adopted.map Binding.exposedName

def Sandbox.global (b : Sandbox) (s : Store) (name : String) : Value :=
  s.rawGet b.globals (.str (Bytes.ofString name))

/-- A sandbox opened on `s` has objects of its own, unless a module takes their place. -/
structure Sandbox.Equipped (c : Config) (s : Store) (b : Sandbox) (s' : Store) : Prop where
  self : c.Free "_G" → b.global s' "_G" = .table b.globals
  package : c.Free "package" → b.global s' "package" = .table b.modules.package
  require : c.Free "require" → ∃ cells,
    s.Makes s' (b.global s' "require") (.closure Require.chunk Require.program cells)
  print : c.Free "print" → ∃ tostring,
    s.Makes s' (b.global s' "print") (.native (.gate (.print tostring b.output c.echoPrint)))
  pcall : c.Free "pcall" → ∃ cells,
    s.Makes s' (b.global s' "pcall") (.closure Protect.chunk Protect.pcall cells)
  xpcall : c.Free "xpcall" → ∃ cells,
    s.Makes s' (b.global s' "xpcall") (.closure Protect.chunk Protect.xpcall cells)
  load : c.Free "load" → ∃ host,
    s.Makes s' (b.global s' "load") (.native (.gate (.load host b.globals)))

/-- What a sandbox holds that was opened on `s`, by the keys of its tables and by the names on its
allow-list. -/
structure Sandbox.Populated (c : Config) (s : Store) (b : Sandbox) (s' : Store) : Prop where
  fresh : ∀ id, b.Own id → s.tables.size ≤ id
  globals : ∀ k, s'.rawGet b.globals k ≠ .nil ↔ ∃ name, k = .str (Bytes.ofString name) ∧
    (name ∈ reserved ∨ name ∈ c.adopted.map Binding.exposedName ∨
      name ∈ c.copied ∧ s.rawGet s.globals (.str (Bytes.ofString name)) ≠ .nil)
  package : s'.rawGet b.modules.package (.str (Bytes.ofString "loaded")) = .table b.modules.loaded
  loaded : ∀ k, s'.rawGet b.modules.loaded k ≠ .nil ↔ ∃ name, k = .str (Bytes.ofString name) ∧
    (name = "os" ∨ name ∈ c.adopted.map Binding.module)
  allowed : ∀ name, name ∈ (s'.permit b.modules.permit).names ↔ name = "os" ∨
    name ∈ c.adopted.map Binding.module ∨ name ∈ c.allowed.map Binding.exposedName
  own : b.Equipped c s s'

section

variable {c : Config} {b : Sandbox} {s s' : Store} {o : Outfit} {require os : Value}
  {given : List (Binding × Value)} {ctx : Ctx} {m m' : Machine}

theorem Sandbox.Opened.equipped (h : Opened c s b s' o require os given) : b.Equipped c s s' := by
  have object {name : String} {v : Value} (hx : (name, v) ∈ b.objects c o require)
      (hname : c.Free name) : b.global s' name = v := object_kept h hx hname
  constructor
  case self => exact object (by simp [objects])
  case package => exact object (by simp [objects])
  case require =>
    intro hf
    rw [object (v := require) (by simp [objects]) hf]
    exact h.requires
  case print =>
    intro hf
    rw [object (v := o.print) (by simp [objects]) hf]
    exact h.outfit.print
  case pcall =>
    intro hf
    rw [object (v := o.pcall) (by simp [objects]) hf]
    exact h.outfit.pcall
  case xpcall =>
    intro hf
    rw [object (v := o.xpcall) (by simp [objects]) hf]
    exact h.outfit.xpcall
  case load =>
    intro hf
    rw [object (v := o.load) (by simp [objects]) hf]
    exact h.outfit.load

theorem Sandbox.records_names (h : Opened c s b s' o require os given) (k : Key) :
    s'.rawGet b.modules.loaded k ≠ .nil ↔ ∃ name, k = .str (Bytes.ofString name) ∧
      (name = "os" ∨ name ∈ c.adopted.map Binding.module) := by
  have hnil : ∀ w ∈ (Bytes.ofString "os", os) :: records given, w.2 ≠ .nil := by
    refine List.forall_mem_cons.mpr ⟨h.clock, fun w hw => ?_⟩
    obtain ⟨x, hx, rfl⟩ := List.mem_map.mp (List.mem_reverse.mp hw)
    exact h.answered x hx
  rw [h.loaded.entries, written_ne_nil_iff hnil]
  constructor
  · rintro ⟨w, hw, rfl⟩
    rcases List.mem_cons.mp hw with rfl | hw
    · exact ⟨"os", rfl, .inl rfl⟩
    · obtain ⟨x, hx, rfl⟩ := List.mem_map.mp (List.mem_reverse.mp hw)
      have hmem : x.1 ∈ c.adopted := h.bindings ▸ List.mem_map_of_mem hx
      exact ⟨_, rfl, .inr (List.mem_map_of_mem hmem)⟩
  · rintro ⟨name, rfl, rfl | hname⟩
    · exact ⟨_, .head _, rfl⟩
    · obtain ⟨x, hx, rfl⟩ := List.mem_map.mp hname
      obtain ⟨y, hy, rfl⟩ := List.mem_map.mp ((h.bindings : _ = c.adopted) ▸ hx)
      exact ⟨_, .tail _ (List.mem_reverse.mpr (List.mem_map_of_mem hy)), rfl⟩

/-- Opening leaves these keys and names, and no others. -/
theorem open_populates (closed : m.store.Discreet fun _ => False)
    (hr : (Sandbox.open c).run (ctx.only b.Avoided) m = some (.ok b, m')) :
    b.Populated c m.store m'.store := by
  obtain ⟨o, require, os, given, h⟩ := Sandbox.open_holds closed hr
  constructor
  case fresh => exact h.fresh
  case globals => exact Sandbox.contents_names h
  case package => exact h.package.entries _
  case loaded => exact Sandbox.records_names h
  case allowed =>
    intro name
    rw [AllowList.mem_names, h.allowed, List.mem_cons, List.mem_append]
  case own => exact h.equipped

theorem only_lookingUp {loaded : Nat} (h : ¬ b.Own loaded) :
    (lookingUp loaded).only b.Avoided = lookingUp loaded :=
  Ctx.only_eq fun handler f args m r m' hc => by
    constructor
    case grows =>
      cases hc
      exact (Store.lasting_extends 0).refl _
    case spared =>
      rintro own vs hown hd hf hargs rfl
      exact (spares_lookingUp h b.modules.permit).call hown hd hf hargs hc

theorem open_populates_small : ∃ b m', smallHost.Discreet (fun _ => False) ∧
    (Sandbox.open smallConfig).run ((lookingUp 3).only b.Avoided) ⟨smallHost, #[]⟩ = some (.ok b, m') ∧
    b.Populated smallConfig smallHost m'.store := by
  obtain ⟨b, m', hopen, hb⟩ := exists_of_endsWith
    (q := fun b _ => b.globals == 5 && b.modules.package == 6 && b.modules.loaded == 7)
    (r := (Sandbox.open smallConfig).run (lookingUp 3) ⟨smallHost, #[]⟩) (by decide +kernel)
  simp only [Bool.and_eq_true, beq_iff_eq] at hb
  have hown : ¬ b.Own 3 := by
    rintro (h | h | h | h) <;> omega
  rw [← only_lookingUp hown] at hopen
  exact ⟨b, m', discreet_smallHost, hopen, open_populates discreet_smallHost hopen⟩

end

end Cordon
