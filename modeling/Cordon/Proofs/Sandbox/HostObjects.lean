import Cordon.Proofs.Confinement.Fresh
import Cordon.Proofs.Sandbox.Population

/-!
# Objects of the host in a new sandbox

The configured base functions are copied by name, whatever they are. So an object of the host stays out
of a sandbox only if none of these names stands for it, or the sandbox uses the name itself.
-/

namespace Cordon

open Lua

/-- A value is an object that is there. -/
def Lua.Store.Has (s : Store) : Value → Prop
  | .table id => id < s.tables.size
  | .fn id => (s.function? id).isSome
  | _ => False

theorem Lua.Store.Has.ne_nil {s : Store} {v : Value} (h : s.Has v) : v ≠ .nil := by
  rintro rfl
  exact h

theorem Lua.Store.Makes.not_has {s s' : Store} {v : Value} {f : Callable} (h : s.Makes s' v f) :
    ¬ s.Has v := by
  obtain ⟨id, rfl, hnone, -⟩ := h
  intro hhas
  rw [Has, hnone] at hhas
  cases hhas

theorem written_copies {host : Table} {names : List String} {name : String} (hname : name ∈ names) :
    written (copies host names) (.str (Bytes.ofString name)) = host.getStr name := by
  have hne : ∀ w ∈ copies host names, w.2 ≠ .nil := by
    intro w hw
    obtain ⟨_, -, -, hne⟩ := mem_copies.mp hw
    exact hne
  by_cases hw : written (copies host names) (.str (Bytes.ofString name)) = .nil
  · rw [hw]
    by_cases hnil : host.getStr name = .nil
    · exact hnil.symm
    · exact absurd hw ((written_ne_nil_iff hne _).mpr
        ⟨_, mem_copies.mpr ⟨name, hname, rfl, hnil⟩, rfl⟩)
  · obtain ⟨n, hn, hmem⟩ := mem_of_written rfl hw
    obtain ⟨name', -, hpair, -⟩ := mem_copies.mp hmem
    obtain ⟨rfl, hv⟩ := Prod.mk.inj hpair
    rw [hv, Bytes.ofString_inj.mp (Key.str.inj hn)]

section

variable {c : Config} {b : Sandbox} {s s' : Store} {o : Outfit} {require os : Value}
  {given : List (Binding × Value)} {ctx : Ctx} {m m' : Machine}

theorem Sandbox.object_new (h : Opened c s b s' o require os given) :
    ∀ x ∈ b.objects c o require, ¬ s.Has x.2 := by
  obtain ⟨_, hprint⟩ := h.outfit.print
  obtain ⟨_, hpcall⟩ := h.outfit.pcall
  obtain ⟨_, hxpcall⟩ := h.outfit.xpcall
  obtain ⟨_, hload⟩ := h.outfit.load
  obtain ⟨_, hrequire⟩ := h.requires
  simp only [objects, List.forall_mem_cons]
  refine ⟨?_, hrequire.not_has, hload.not_has, hxpcall.not_has, hpcall.not_has, hprint.not_has, ?_,
    id, fun _ h => absurd h List.not_mem_nil⟩
  · exact Nat.not_lt_of_le (h.fresh _ (.inr (.inl rfl)))
  · exact Nat.not_lt_of_le (h.fresh _ (.inl rfl))

theorem Sandbox.copy_kept (h : Opened c s b s' o require os given) {name : String}
    (hfree : name ∉ c.adopted.map Binding.exposedName) (hname : name ∈ c.copied)
    (hres : name ∉ reserved) :
    s'.rawGet b.globals (.str (Bytes.ofString name)) = (s.table s.globals).getStr name := by
  have hos : name ≠ "os" := by
    rintro rfl
    exact hres (.head _)
  have hskip : ∀ w ∈ (b.objects c o require).map (fun x => (Bytes.ofString x.1, x.2)),
      Key.str w.1 ≠ .str (Bytes.ofString name) := by
    intro w hw e
    obtain ⟨x, hx, rfl⟩ := List.mem_map.mp hw
    have hmem : x.1 ∈ (b.objects c o require).map Prod.fst := List.mem_map_of_mem hx
    exact hres (.tail _ (Bytes.ofString_inj.mp (Key.str.inj e) ▸ hmem))
  rw [contents_apart h hos hfree, written_append_of_not hskip, written_copies hname]

/-- The clock library of a sandbox without modules is what its allow-list has for it. -/
theorem Sandbox.os_eq_iff (h : Opened c s b s' o require os given) (hempty : c.adopted = []) {d : Value}
    (hd : s.Has d) : os = d ↔ (s'.permit b.modules.permit).get? "os" = some d := by
  obtain ⟨v, hv, rfl⟩ := h.restricted (by rw [hempty]; exact nofun)
  rw [hv, Option.some_inj]
  cases v with
  | nil =>
    refine iff_of_false ?_ fun e => hd.ne_nil e.symm
    rintro rfl
    exact hd
  | _ => exact Iff.rfl

/-- An object of the host is in a sandbox without modules if it was copied under a name that the
sandbox does not use itself, or is the clock library. -/
theorem Sandbox.holds_iff (h : Opened c s b s' o require os given) (hempty : c.adopted = []) {d : Value}
    (hd : s.Has d) : (∃ k, s'.rawGet b.globals k = d) ↔
      (∃ name ∈ c.copied, name ∉ reserved ∧ (s.table s.globals).getStr name = d) ∨
        (s'.permit b.modules.permit).get? "os" = some d := by
  have hfree (name : String) : name ∉ c.adopted.map Binding.exposedName := by
    rw [hempty]
    exact List.not_mem_nil
  have hos : s'.rawGet b.globals (.str (Bytes.ofString "os")) = os := by
    rw [h.globals.entries, contents, written, if_pos rfl]
  rw [← os_eq_iff h hempty hd]
  constructor
  · rintro ⟨k, rfl⟩
    -- under a name of its own the sandbox has an object of its own
    have hown : ∀ name ∈ reserved, k = .str (Bytes.ofString name) → os = s'.rawGet b.globals k := by
      rintro name hname rfl
      rcases List.mem_cons.mp hname with rfl | hname
      · exact hos.symm
      · obtain ⟨x, hx, rfl⟩ := List.mem_map.mp
          (show name ∈ (b.objects c o require).map Prod.fst from hname)
        rw [object_kept h hx (hfree _)] at hd
        exact absurd hd (object_new h x hx)
    obtain ⟨name, rfl, hname | hname | ⟨hname, -⟩⟩ := (contents_names h k).mp hd.ne_nil
    · exact .inr (hown name hname rfl)
    · exact absurd hname (hfree name)
    · by_cases hres : name ∈ reserved
      · exact .inr (hown name hres rfl)
      · exact .inl ⟨name, hname, hres, (copy_kept h (hfree name) hname hres).symm⟩
  · rintro (⟨name, hname, hres, rfl⟩ | rfl)
    · exact ⟨_, copy_kept h (hfree name) hname hres⟩
    · exact ⟨_, hos⟩

/-- The host's globals that lead out of a sandbox. -/
def Environment.dangerous : List String :=
  ["io", "debug", "dofile", "loadfile", "load", "require", "package"]

/-- The base functions are copied as they are configured. Without modules a dangerous object of the
host comes in exactly if a base function is named that is this object, unless the sandbox has a variable
of its own by that name, or if the host gives it for the clock library. -/
theorem dangerous_global_enters_iff (closed : m.store.Discreet fun _ => False)
    (hr : (Sandbox.open c).run (ctx.only b.Avoided) m = some (.ok b, m')) (hempty : c.adopted = []) :
    ∀ danger ∈ Environment.dangerous, m.store.Has (m.store.global danger) →
      ((∃ k, m'.store.rawGet b.globals k = m.store.global danger) ↔
        (∃ name ∈ c.copied, name ∉ Sandbox.reserved ∧
          m.store.global name = m.store.global danger) ∨
        (m'.store.permit b.modules.permit).get? "os" = some (m.store.global danger)) := by
  intro danger _ hhas
  obtain ⟨o, require, os, given, h⟩ := Sandbox.open_holds closed hr
  exact Sandbox.holds_iff h hempty hhas

theorem package_stays_out_small : ∃ (c : Config) (b : Sandbox) (m' : Machine), c.adopted = [] ∧
    "package" ∈ c.builtins ∧ smallHost.Has (smallHost.global "package") ∧
    (Sandbox.open c).run ((lookingUp 3).only b.Avoided) ⟨smallHost, #[]⟩ = some (.ok b, m') ∧
    ¬ ∃ k, m'.store.rawGet b.globals k = smallHost.global "package" := by
  obtain ⟨b, m', hopen, hb⟩ := exists_of_endsWith
    (q := fun b m => b.globals == 5 && b.modules.package == 6 && b.modules.loaded == 7 &&
      (m.store.permit b.modules.permit).get? "os" != some (smallHost.global "package"))
    (r := (Sandbox.open { smallConfig with libraries := [], builtins := ["package"] }).run
      (lookingUp 3) ⟨smallHost, #[]⟩) (by decide +kernel)
  simp only [Bool.and_eq_true, beq_iff_eq, bne_iff_ne] at hb
  have hown : ¬ b.Own 3 := by
    rintro (h | h | h | h) <;> omega
  have hglobal : smallHost.global "package" = .table 2 := by decide +kernel
  have hhas : smallHost.Has (smallHost.global "package") := by
    rw [hglobal]
    exact (by decide : 2 < 5)
  have hcopied : ∀ name ∈ ["package", "_VERSION"], name ∉ Sandbox.reserved →
      smallHost.global name ≠ smallHost.global "package" := by decide +kernel
  rw [← only_lookingUp hown] at hopen
  refine ⟨_, b, m', rfl, .head _, hhas, hopen, fun henters => ?_⟩
  rcases (dangerous_global_enters_iff discreet_smallHost hopen rfl "package" (by decide) hhas).mp
    henters with ⟨name, hname, hres, e⟩ | hos
  · exact hcopied name hname hres e
  · exact hb.2 hos

/-- The host's table of functions for files is the sandbox's as well. -/
def sharesIo (host : Store) (b : Sandbox) (s : Store) : Bool :=
  match host.global "io" with
  | .table id => b.global s "io" == .table id
  | _ => false

theorem io_enters : ∃ b m' host, Machine.fresh.perform 1000
      (Sandbox.open { Config.plain with builtins := ["io"], libraries := [] }) = some (.ok b, m') ∧
    Machine.fresh.store.global "io" = .table host ∧ b.global m'.store "io" = .table host := by
  obtain ⟨b, m', hopen, hb⟩ := exists_of_endsWith
    (q := fun b m => sharesIo Machine.fresh.store b m.store)
    (r := Machine.fresh.perform 1000
      (Sandbox.open { Config.plain with builtins := ["io"], libraries := [] })) (by decide +kernel)
  unfold sharesIo at hb
  split at hb
  · next host hio => exact ⟨b, m', host, hopen, hio, beq_iff_eq.mp hb⟩
  · cases hb

end

end Cordon
