import Cordon.Proofs.Fresh
import Cordon.Proofs.Modules.Agreeing
import Cordon.Proofs.Modules.Sessions

/-!
# Allowing a module again

The host allows a module under a name, and a program requires that name. Where nothing is preloaded under
it, the program gets what is recorded under the name, and only if nothing is what the host has allowed: to
allow a module does not make forgotten what was loaded under its name before.
-/

namespace Cordon

open Lua

namespace Lua

/-! ## Modules that are allowed -/

namespace Require

open Exec

variable {m : ModuleSystem} {req : Nat} {g : Halves} {s : Store} {n : Bytes} {v : Value}
variable {rest : List Value} {b : Surroundings} {e : Exec} {m₁ : Machine}

/-- In a call of `require` nothing is found preloaded under the name; the code of metatables that may run
in this leaves machine `m₁`, in which the same is allowed as before. -/
structure Vacant (m : ModuleSystem) (g : Halves) (b : Surroundings) (e : Exec) (args : List Value)
    (n : Bytes) (s : Store) (m₁ : Machine) : Prop where
  search : ∃ i why, ∀ fuel, i ≤ fuel →
    (m.searchPreload n).run (searching b e args g fuel) ⟨s, e.threads⟩ = some (.ok (.notFound why), m₁)
  permits : m₁.store.permit m.permit = s.permit m.permit

theorem vacant_of_ready {preload : Nat} (h : m.Ready preload s) (hentry : s.rawGet preload (.str n) = .nil)
    (g : Halves) (b : Surroundings) (e : Exec) (args : List Value) :
    Vacant m g b e args n s ⟨s, e.threads⟩ := by
  refine ⟨⟨0, "\n\tno field package.preload['" ++ n.lossy ++ "']", fun fuel _ => ?_⟩, rfl⟩
  rw [ModuleSystem.searchPreload_run _ _ h, hentry]

/-- What a vacant name is resolved to: the record, else the allowed value. -/
def known (m : ModuleSystem) (s : Store) (n : Bytes) (v : Value) : Value :=
  (s.cached? m.loaded (.str n)).getD (settled v)

theorem resolve_vacant {name : String} {args : List Value} (h : Vacant m g b e args (name : Bytes) s m₁)
    (hv : (s.permit m.permit).get? name = some v) :
    ∃ m' i, ∀ fuel, i ≤ fuel → (m.resolve (name : Bytes)).run (searching b e args g fuel) ⟨s, e.threads⟩ =
      some (.ok (.ready (known m s (name : Bytes) v)), m') := by
  unfold known
  cases hc : s.cached? m.loaded (.str (name : Bytes)) with
  | some r => exact ⟨_, 0, fun fuel _ => ModuleSystem.resolve_cached _ _ hc⟩
  | none =>
    obtain ⟨i, why, hsearch⟩ := h.search
    refine ⟨⟨m.stored m₁.store (name : Bytes) (settled v), m₁.threads⟩, i, fun fuel hfuel => ?_⟩
    have hfind : (m.find (name : Bytes)).run (searching b e args g fuel) ⟨s, e.threads⟩ =
        some (.ok (.resolved v), m₁) := by
      rw [ModuleSystem.find, Host.run_bind, hsearch fuel hfuel]
      simp only [ModuleSystem.searchAllowed, Host.run_bind, Host.run_read, h.permits,
        ModuleSystem.searchList_of_get? hv]
      rfl
    rw [ModuleSystem.resolve_uncached _ _ hc, hfind]
    rfl

theorem known_eq_iff : known m s n v = v ↔
    s.cached? m.loaded (.str n) = some v ∨ s.cached? m.loaded (.str n) = none ∧ v ≠ .nil := by
  unfold known
  cases s.cached? m.loaded (.str n) with
  | some r => simp
  | none =>
    have hsettled : settled v = v ↔ v ≠ .nil :=
      ⟨fun h hnil => settled_ne_nil v (h.trans hnil), fun h => by cases v <;> first | rfl | exact absurd rfl h⟩
    simpa using hsettled

theorem answers_ready (h : Serves m req g s) (room : Room (within e (v :: rest)).depth s)
    (hv : v.text? = some n) {w : Value} {i : Nat} (hr : ∀ fuel, i ≤ fuel →
      (m.resolve n).run (searching b e (v :: rest) g fuel) ⟨s, e.threads⟩ = some (.ok (.ready w), m₁)) :
    Answers b (.fn req) (v :: rest) s e (.ok [w]) (declared m₁.store n true w .nil)
      { within e (v :: rest) with threads := m₁.threads } := by
  obtain ⟨next, hcall, hready, -⟩ := leads_resolve b e h room
  have hrun (fuel : Nat) (hfuel : i ≤ fuel) :
      ((GateFn.resolve m).run (v :: rest)).run (searching b e (v :: rest) g fuel) ⟨s, e.threads⟩ =
        some (.ok [.str n, .bool true, w, .nil], m₁) := by
    show (GateFn.runResolve m (v :: rest)).run _ _ = _
    rw [runResolve_run _ _ hv, hr fuel hfuel]
  have hcomes : Comes b (.apply (.fn req) (v :: rest) s) e
      (.act (next [.str n, .bool true, w, .nil] m₁.store))
      { within e (v :: rest) with threads := m₁.threads } :=
    hcall.comes.trans (.trans (.of_native h.resolve room.natives room.slots
      (fun fuel hfuel => Native.run_gate_ok _ _ (hrun fuel hfuel)) rfl) (Leads.of_ret rfl).comes)
  rw [hready] at hcomes
  exact .returned hcomes (fun _ => rfl) rfl rfl

end Require

end Lua

open Exec Require

/-- The host has allowed a module under a name, for which its own `require` gave `v`, and no operation has
changed since what the name is allowed; nothing is preloaded under it. Then the sandbox's `require` of that
name returns what is recorded under it, and otherwise `v`, for which true stands if it is nil. So it returns
`v` exactly if nothing is recorded and `v` is not nil, or if `v` is what is recorded. -/
theorem allow_takes_effect_iff {p : Sandbox} {module : String} {exposed : Option String} {v : Value}
    {ctx : Ctx} {m₀ m₁ m₂ : Machine}
    (hv : (privilegedRequire module).run ctx m₀ = some (.ok v, m₁))
    (hp : p.modules.permit < m₁.store.permits.size)
    (ha : (p.allow module exposed).run ctx m₀ = some (.ok (), m₂))
    {s : Store} (hkept : (s.permit p.modules.permit).get? (exposed.getD module) =
      (m₂.store.permit p.modules.permit).get? (exposed.getD module))
    {req : Nat} {g : Halves} (hs : Serves p.modules req g s) {name : Value}
    (hname : name.text? = some (exposed.getD module : Bytes)) (rest : List Value) (b : Surroundings)
    (e : Exec) (room : Room (within e (name :: rest)).depth s) {m₃ : Machine}
    (hvacant : Vacant p.modules g b e (name :: rest) (exposed.getD module : Bytes) s m₃) :
    ∃ w s' e', Answers b (.fn req) (name :: rest) s e (.ok [w]) s' e' ∧
      w = (s.cached? p.modules.loaded (.str (exposed.getD module : Bytes))).getD (settled v) ∧
      (w = v ↔ s.cached? p.modules.loaded (.str (exposed.getD module : Bytes)) = some v ∨
        s.cached? p.modules.loaded (.str (exposed.getD module : Bytes)) = none ∧ v ≠ .nil) := by
  have hget : (s.permit p.modules.permit).get? (exposed.getD module) = some v := by
    cases (allow_run exposed hv).symm.trans ha
    rw [hkept]
    show ((m₁.store.setPermit p.modules.permit _).permit p.modules.permit).get? _ = _
    rw [m₁.store.permit_setPermit _ hp, AllowList.get?_insert, if_pos rfl]
  obtain ⟨m', i, hr⟩ := resolve_vacant hvacant hget
  exact ⟨_, _, _, answers_ready hs room hname hr, rfl, known_eq_iff⟩

/-! ### The first time and the second time -/

/-- A host with a place for an allow-list. -/
def allowingHost : Store := (smallHost.newPermit.2.newFunction (.native (.stub (.raising .nil)))).2

/-- A new module system there, of a sandbox whose global variables are in table 5. -/
def allowingParts : Parts :=
  .new { globals := 5, modules := .new 0 allowingHost.newTable.2, output := 0, maxMemory := none }
    allowingHost.newTable.2

def allowingStore : Store := ModuleSystem.opened 0 allowingHost.newTable.2

/-- A library is allowed under another name and required. -/
theorem allow_takes_effect_iff_first : ∃ (m₂ : Machine) (s' : Store) (e' : Exec),
    (privilegedRequire "string").run (lookingUp 3) ⟨allowingStore, #[]⟩ =
      some (.ok (.table 4), ⟨allowingStore, #[]⟩) ∧
    (allowingParts.box.allow "string" (some "text")).run (lookingUp 3) ⟨allowingStore, #[]⟩ =
      some (.ok (), m₂) ∧ Intact allowingParts m₂.store ∧
    Answers {} (.fn allowingParts.require) [.ofString "text"] m₂.store (start {} 0 #[]) (.ok [.table 4])
      s' e' := by
  -- The names of the store and of the parts keep them from being evaluated.
  have hallow (p : Parts) (s : Store) (hi : Intact p s) (hm : s.memoryLimit = none)
      (hv : (privilegedRequire "string").run (lookingUp 3) ⟨s, #[]⟩ = some (.ok (.table 4), ⟨s, #[]⟩))
      (hloaded : s.rawGet p.modules.loaded (.str ("text" : String)) = .nil)
      (hpreload : s.rawGet p.preload (.str ("text" : String)) = .nil) :
      ∃ m₂ s' e', (p.box.allow "string" (some "text")).run (lookingUp 3) ⟨s, #[]⟩ = some (.ok (), m₂) ∧
        Intact p m₂.store ∧
        Answers {} (.fn p.require) [.ofString "text"] m₂.store (start {} 0 #[]) (.ok [.table 4]) s' e' := by
    have ha := allow_run (b := p.box) (some "text") hv
    have hi₂ := (hi.setPermit ((s.permit p.modules.permit).insert "text" (.table 4)).2).kept
      (.report p _ (.allowed "string" "text"))
    have room : Room (within (start {} 0 #[]) [.ofString "text"]).depth
        ((s.setPermit p.modules.permit ((s.permit p.modules.permit).insert "text" (.table 4)).2).report
          (.allowed "string" "text")) :=
      ⟨by decide, by decide, by
        show s.exhausted _ = false
        rw [Store.exhausted, hm]⟩
    have htext : (Value.ofString "text").text? = some ("text" : Bytes) := rfl
    obtain ⟨w, s', e', hanswers, hw, -⟩ := allow_takes_effect_iff hv hi.ready.permit_lt ha rfl hi₂.serves
      htext [] {} (start {} 0 #[]) room
      (vacant_of_ready hi₂.ready hpreload p.halves {} (start {} 0 #[]) [.ofString "text"])
    have hcached : s.cached? p.modules.loaded (.str ("text" : String)) = none := by
      rw [cached?_eq, hloaded]
      rfl
    obtain rfl : w = .table 4 := hw.trans (congrArg (·.getD (settled (.table 4))) hcached)
    exact ⟨_, s', e', ha, hi₂, hanswers⟩
  have hi : Intact allowingParts allowingStore := .new rfl (by decide +kernel) (by decide +kernel)
  have hmissing (k : Bytes) (id : Nat) (hid : 6 < id) : allowingStore.rawGet id (.str k) = .nil :=
    ModuleSystem.rawGet_opened hid k
  have hv : (privilegedRequire "string").run (lookingUp 3) ⟨allowingStore, #[]⟩ =
      some (.ok (.table 4), ⟨allowingStore, #[]⟩) := by rfl
  obtain ⟨m₂, s', e', ha, hi₂, hanswers⟩ := hallow _ _ hi (by rfl) hv (hmissing _ 7 (by decide))
    (hmissing _ 8 (by decide))
  exact ⟨m₂, s', e', hv, ha, hi₂, hanswers⟩

/-- A module of the host is allowed and required, and the host replaces it by another one. -/
def replacing : Host Sandbox := do
  let b ← Sandbox.open .plain
  registerModule "m" (.int 1)
  b.allow "m" (some "n")
  let _ ← b.execute "return require('n')"
  registerModule "m" (.int 2)
  return b

/-- Whether `package.preload` is a plain table with nothing under the name. -/
def unpreloaded (b : Sandbox) (s : Store) (n : Bytes) : Bool :=
  match s.rawGet b.modules.package (.str ("preload" : Bytes)) with
  | .table id => (s.table id).metatable.isNone && (s.rawGet id (.str n)).isNil
  | _ => false

/-- The host allows the new one, and the program still gets the old one. -/
theorem second_allow_has_no_effect : ∃ b m₀ m₁ m₂ m₃ r,
    Machine.fresh.perform 1000 replacing = some (.ok b, m₀) ∧
    m₀.perform 1000 (privilegedRequire "m") = some (.ok (.int 2), m₁) ∧
    m₀.perform 1000 (b.allow "m" (some "n")) = some (.ok (), m₂) ∧
    unpreloaded b m₂.store "n" = true ∧
    m₂.perform 1000 (b.execute "return require('n')") = some (.ok r, m₃) ∧ r.values = [.int 1] := by
  obtain ⟨b, m₀, hprepared, h⟩ := exists_of_endsWith
    (q := fun b m => endsWith (fun v _ => v == .int 2 && endsWith (fun _ m => unpreloaded b m.store "n" &&
        endsWith (fun r _ => r.values == [.int 1]) (m.perform 1000 (b.execute "return require('n')")))
      (m.perform 1000 (b.allow "m" (some "n")))) (m.perform 1000 (privilegedRequire "m")))
    (r := Machine.fresh.perform 1000 replacing) (by decide +kernel)
  obtain ⟨v, m₁, hfetch, h⟩ := exists_of_endsWith h
  obtain ⟨hv, h⟩ := Bool.and_eq_true_iff.mp h
  obtain ⟨_, m₂, hallow, h⟩ := exists_of_endsWith h
  obtain ⟨hpreload, h⟩ := Bool.and_eq_true_iff.mp h
  obtain ⟨r, m₃, hrun, hr⟩ := exists_of_endsWith h
  rw [beq_iff_eq.mp hv] at hfetch
  exact ⟨b, m₀, m₁, m₂, m₃, r, hprepared, hfetch, hallow, hpreload, hrun, beq_iff_eq.mp hr⟩

end Cordon
