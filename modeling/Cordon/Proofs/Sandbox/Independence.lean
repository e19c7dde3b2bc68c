import Cordon.Proofs.Fresh
import Cordon.Proofs.Lua.Answers
import Cordon.Proofs.Lua.Writes
import Cordon.Proofs.Sandbox.Operations

/-!
# Independent sandboxes

However many sandboxes are opened beside one and whatever is done to them, it keeps its allow-list, its
tables and its output, and its `require` answers as if there were no other one. The code that runs
meanwhile has to leave the sandbox alone by itself: it may have got hold of anything.
-/

namespace Cordon

open Lua

/-! ## The others -/

/-- Sandboxes are opened on the interpreter of another one, with success or without, and used. The calls
that are made meanwhile disturb the other one no more than what happens between the operations. -/
inductive Neighbours (g : Registry) (p : Parts) (m : Machine) : List Sandbox → Machine → Prop where
  | start : Neighbours g p m [] m
  | opened {bs : List Sandbox} {m₁ m₂ : Machine} {c : Config} {ctx : Ctx} {r : Except Failure Sandbox}
      (before : Neighbours g p m bs m₁) (unlimited : c.maxMemory = none)
      (run : (Sandbox.open c).run (ctx.only fun _ _ m _ m' => Undisturbed g p m.store m'.store) m₁ =
        some (r, m₂)) : Neighbours g p m (r.toOption.toList ++ bs) m₂
  | operated {bs : List Sandbox} {b : Sandbox} {op : Operation} {m₁ m₂ : Machine} {ctx : Ctx}
      {r : Except Failure (List Value)} (before : Neighbours g p m bs m₁) (known : b ∈ bs)
      (run : (op.run b).run (ctx.only fun _ _ m _ m' => Undisturbed g p m.store m'.store) m₁ =
        some (r, m₂)) : Neighbours g p m bs m₂
  | meanwhile {bs : List Sandbox} {m₁ m₂ : Machine} (before : Neighbours g p m bs m₁)
      (undisturbed : Undisturbed g p m₁.store m₂.store) : Neighbours g p m bs m₂

variable {g : Registry} {p : Parts} {m m' : Machine} {bs : List Sandbox} {s s₀ : Store} {h : History}

theorem Neighbours.undisturbed (hn : Neighbours g p m bs m') (hs : Standing g p m.store) :
    Undisturbed g p m.store m'.store ∧ ∀ b ∈ bs, Stranger g p b := by
  induction hn with
  | start => exact ⟨.refl g p _, nofun⟩
  | @opened bs m₁ m₂ c ctx r before unlimited run ih =>
    obtain ⟨hu, hb⟩ := ih
    obtain ⟨hopen, hnew⟩ :=
      Sandbox.open_undisturbed (Ctx.only_maintains id) (hu.standing hs) unlimited run
    refine ⟨hu.trans hopen, fun b hmem => ?_⟩
    rcases List.mem_append.mp hmem with hmem | hmem
    · cases r with
      | ok b' =>
        obtain rfl := List.mem_singleton.mp hmem
        exact hnew b rfl
      | error e => cases hmem
    · exact hb b hmem
  | operated before known run ih =>
    obtain ⟨hu, hb⟩ := ih
    have hrun := Operation.run_undisturbed (hu.standing hs) (hb _ known) (Ctx.only_maintains id) run
    exact ⟨hu.trans hrun, hb⟩
  | meanwhile before undisturbed ih => exact ⟨ih.1.trans undisturbed, ih.2⟩

/-! ## What is left as it was -/

/-- The allow-list, the entries of the two tables and the output are the same. -/
structure Untouched (b : Sandbox) (s s' : Store) : Prop where
  permit : s'.permit b.modules.permit = s.permit b.modules.permit
  globals : ∀ k, s'.rawGet b.globals k = s.rawGet b.globals k
  loaded : ∀ k, s'.rawGet b.modules.loaded k = s.rawGet b.modules.loaded k
  output : s'.output b.output = s.output b.output

theorem Undisturbed.untouched {s' : Store} (hu : Undisturbed g p s s') : Untouched p.box s s' where
  permit := hu.permit
  globals := hu.rawGet (.inl rfl)
  loaded := hu.rawGet (.inr (.inr (.inl rfl)))
  output := hu.output

/-! ## Answers where preloaded functions are constant -/

open Exec Require

/-- A function returns these values wherever it is called with so much of the stack left, and leaves the
sandbox as it is. -/
def Constant (p : Parts) (s₀ : Store) (room f : Nat) (vs : List Value) : Prop :=
  ∀ b e s n site next d frames, s₀.Extends s → Intact p s → s.memoryLimit = none →
    e.depth.natives ≠ maxNatives → e.depth.slots + room ≤ maxSlots →
    e.frames = .call site next d :: frames →
    ∃ s', Comes b (.apply (.fn f) [.str n, .nil] s) e (.act (next vs s')) { e with frames, depth := d } ∧
      Kept p s s' ∧ s'.memoryLimit = none

/-- The value of a module, if there is one. -/
def Source.reply (const : Nat → List Value) : Source → Option Value
  | recorded v => some v
  | loader f => some (settled (.first (const f)))
  | allowed v => some (settled v)
  | missing => none

/-- A call of `require` returns the value, which is recorded then, or it fails as there is no such
module. -/
def Replied (p : Parts) (h : History) (s : Store) (n : Bytes) (args : List Value) (b : Surroundings)
    (e : Exec) : Option Value → Prop
  | some v => ∃ s', Intact p s' ∧ Agrees p (.required n v :: h) s' ∧
      Comes b (.apply (.fn p.require) args s) e (.act (.ret [v] s')) (within e args)
  | none => ∃ s' id e', Intact p s' ∧ Agrees p h s' ∧
      s'.fault id = .callback tracebackText (ModuleSystem.notFound n).toScript ∧
      Comes b (.apply (.fn p.require) args s) e (.raise (.fault id) s') e'

/-- Wherever `require` is called with so much of the stack left, this is the answer. -/
def Replies (p : Parts) (h : History) (s : Store) (room : Nat) (n : Bytes) (r : Option Value) : Prop :=
  ∀ v rest b e, v.text? = some n → (within e (v :: rest)).depth.natives ≠ maxNatives →
    (within e (v :: rest)).depth.slots + room ≤ maxSlots → Replied p h s n (v :: rest) b e r

theorem exhausted_of_unlimited (hm : s.memoryLimit = none) (more : Nat) : s.exhausted more = false := by
  rw [Store.exhausted, hm]

theorem replies {room : Nat} {const : Nat → List Value} (hi : Intact p s) (ha : Agrees p h s)
    (hm : s.memoryLimit = none) (hs : s₀.Extends s) (hroom : nativeSlots ≤ room)
    (hc : ∀ n f, h.loader n = some f → Constant p s₀ room f (const f)) (n : Bytes) :
    Replies p h s room n ((h.source n).reply const) := by
  intro v rest b e hv hnatives hslots
  have hroom {s' : Store} (hm : s'.memoryLimit = none) : Room (within e (v :: rest)).depth s' :=
    ⟨hnatives, Nat.le_trans (Nat.add_le_add_left hroom _) hslots, exhausted_of_unlimited hm _⟩
  have hr (ctx : Ctx) := resolve_run hi.toPlaced ha n ctx e.threads
  cases hsrc : h.source n with
  | recorded w =>
    simp only [hsrc] at hr
    have hi' := hi.kept (.report p s (.cacheHit n.lossy))
    have ha' := (ha.again (History.recorded_of_source hsrc)).kept
      (Kept.report p s (.cacheHit n.lossy)).toSteady
    have hk := Kept.declared hi' n true w .nil
    exact ⟨_, hi'.kept hk, ha'.kept hk.toSteady, (leads_ready b e hi.serves (hroom hm) hv hr).comes⟩
  | loader f =>
    simp only [hsrc] at hr
    have hk := Kept.declared hi n false (.fn f) .nil
    have hl : h.loader n = some f := by
      unfold History.source at hsrc
      split at hsrc
      · cases hsrc
      · split at hsrc
        · next hl => cases hsrc; exact hl
        · split at hsrc <;> cases hsrc
    have hext : s₀.Extends (declared s n false (.fn f) .nil) := ⟨hs.tables, hs.functions⟩
    obtain ⟨s', hcomes, hk', hm'⟩ := hc n f hl b { within e (v :: rest) with
      frames := calling p.halves n (within e (v :: rest)).depth :: e.frames } _ n _ _ _ _ hext
      (hi.kept hk) hm hnatives hslots rfl
    have hi' := (hi.kept hk).kept hk'
    have ha' := (ha.kept hk.toSteady).kept hk'.toSteady
    refine ⟨_, hi'.stored n _, ha'.stored hi'.toPlaced n _, ?_⟩
    refine (leads_pending b e hi.serves (hroom hm) hv hr).comes.trans (hcomes.trans ?_)
    exact (leads_finishing b (within e (v :: rest)) hi'.serves.finish (hroom hm') _).comes
  | allowed w =>
    simp only [hsrc] at hr
    have hi' := hi.stored n (settled w)
    have ha' := ha.stored hi.toPlaced n (settled w)
    have hk := Kept.declared hi' n true (settled w) .nil
    exact ⟨_, hi'.kept hk, ha'.kept hk.toSteady, (leads_ready b e hi.serves (hroom hm) hv hr).comes⟩
  | missing =>
    simp only [hsrc] at hr
    obtain ⟨next, hl⟩ := leads_failed b e hi.serves (hroom hm) hv hr
    have hk := Kept.newFault p s (.callback tracebackText (ModuleSystem.notFound n).toScript)
    exact ⟨_, _, _, hi.kept hk, ha.kept hk.toSteady, s.fault_newFault _, hl.comes⟩

/-! ## Independence -/

/-- Other sandboxes change nothing of one sandbox, and nothing of what its `require` answers. What is done
by its own handle is seen by every copy of that, then as before. -/
theorem Neighbours.independent (hn : Neighbours g p m bs m') (hs : Standing g p m.store)
    (hi : Intact p m.store) (ha : Agrees p h m.store) (hm : m.store.memoryLimit = none) :
    Untouched p.box m.store m'.store ∧
      (Standing g p m'.store ∧ Intact p m'.store ∧ Agrees p h m'.store) ∧
      (∀ room const, nativeSlots ≤ room →
        (∀ n f, h.loader n = some f → Constant p m.store room f (const f)) → ∀ n,
          Replies p h m.store room n ((h.source n).reply const) ∧
          Replies p h m'.store room n ((h.source n).reply const)) ∧
      ∀ (op : Operation) (ctx : Ctx) (vs : List Value) (m'' : Machine),
        (op.run p.box).run (ctx.only fun _ _ m _ m' => m.store.Grows m'.store) m' = some (.ok vs, m'') →
        op.Seen g p.box (ctx.only fun _ _ m _ m' => m.store.Grows m'.store) m' m'' vs := by
  obtain ⟨hu, -⟩ := hn.undisturbed hs
  have hs' := hu.standing hs
  have hk := hu.kept hi
  have hi' := hi.kept hk
  have ha' := ha.kept hk.toSteady
  have hm' := hu.memoryLimit.trans hm
  refine ⟨hu.untouched, ⟨hs', hi', ha'⟩, fun room const hroom hc n => ⟨?_, ?_⟩, ?_⟩
  · exact replies hi ha hm ⟨Nat.le_refl _, fun _ _ h => h⟩ hroom hc n
  · exact replies hi' ha' hm' ⟨hu.tables, hu.functions⟩ hroom hc n
  · exact fun op ctx vs m'' hr => op.run_seen hs' hi'.toPlaced ha' (Ctx.only_maintains id) hr

/-! ### A small host -/

namespace Registry

def seven : Func := .mk 0 false (.mk [.ret [.int 7]] []) 1 2

/-- The small host with a function and with what a sandbox needs before it has its modules. -/
def smallFounded : Store :=
  (smallHost.newFunction (.closure "seven" seven [])).2.newPermit.2.newOutput.2.newTable.2

def smallBox : Sandbox := { globals := 5, modules := .new 0 smallFounded, output := 0, maxMemory := none }

def smallParts : Parts := .new smallBox smallFounded

/-- The function is preloaded in the sandbox. -/
def smallStore : Store :=
  (ModuleSystem.opened 0 smallFounded).rawSetStr smallParts.preload "m" (.fn 0)

theorem intact_small : Intact smallParts smallStore :=
  (Intact.new rfl (by decide +kernel) (by decide +kernel)).rawSetStr (by decide +kernel) _ _

theorem agrees_small : Agrees smallParts [.preloaded "m" 0] smallStore := by
  have hi : Intact smallParts (ModuleSystem.opened 0 smallFounded) :=
    .new rfl (by decide +kernel) (by decide +kernel)
  exact (Agrees.new rfl fun _ => rfl).preload hi.toPlaced "m" 0

theorem standing_small : Standing small smallParts smallStore where
  ready := by
    constructor
    · rfl
    all_goals decide +kernel
  foreign := by rintro (h | h | h | h) <;> revert h <;> decide +kernel
  globals_loaded := by decide
  package_loaded := by decide
  tables := by rintro id (rfl | rfl | rfl | rfl) <;> decide +kernel
  permit := by decide +kernel
  output := by decide +kernel

theorem constant_small : Constant smallParts smallStore 20 0 [.int 7] := by
  intro b e s n site next d frames hs hi hm hnatives hslots hframes
  have hf : s.function? 0 = some (.closure "seven" seven []) := hs.functions 0 _ rfl
  have hroom : (e.inside seven [.str n, .nil]).depth.slots ≤ maxSlots := by
    have hslots' : (e.inside seven [.str n, .nil]).depth.slots = e.depth.slots + 2 := rfl
    omega
  have hreturn : Exec.Leads b (.act (.ret [.int 7] s)) (e.inside seven [.str n, .nil])
      (.act (next [.int 7] s)) { e with frames, depth := d } := by
    refine .single fun caller => ?_
    simp only [Exec.step, Exec.act, Exec.ret, Exec.inside, hframes]
  exact ⟨s, ((Exec.Leads.of_apply hf hnatives hroom).trans hreturn).comes, .refl _ s, hm⟩

/-- Beside a sandbox with a preloaded function another one is opened, and a library allowed to it. -/
theorem independent_small : ∃ b m',
    Neighbours small smallParts ⟨smallStore, #[]⟩ [b] m' ∧ Standing small smallParts smallStore ∧
    Intact smallParts smallStore ∧ Agrees smallParts [.preloaded "m" 0] smallStore ∧
    smallStore.memoryLimit = none ∧ Untouched smallBox smallStore m'.store ∧
    Replies smallParts [.preloaded "m" 0] m'.store 20 "m" (some (.int 7)) := by
  have hctx : (lookingUp 3).only (fun _ _ m _ m' => Undisturbed small smallParts m.store m'.store) =
      lookingUp 3 :=
    Ctx.only_eq fun _ _ _ m _ _ h => by
      cases h
      exact .refl small smallParts m.store
  obtain ⟨b, m₁, hopen, hr⟩ := exists_of_endsWith
    (q := fun b m => endsWith (fun _ _ => true)
      (((Operation.allow "string" none).run b).run (lookingUp 3) m))
    (r := (Sandbox.open smallConfig).run (lookingUp 3) ⟨smallStore, #[]⟩) (by decide +kernel)
  obtain ⟨vs, m₂, hallow, -⟩ := exists_of_endsWith hr
  rw [← hctx] at hopen hallow
  have hn : Neighbours small smallParts ⟨smallStore, #[]⟩ [b] m₂ :=
    .operated (.opened .start rfl hopen) (.head _) hallow
  have hi := intact_small
  have hind := Neighbours.independent hn standing_small hi agrees_small rfl
  have hc : ∀ n f, History.loader n [.preloaded "m" 0] = some f →
      Constant smallParts smallStore 20 f [.int 7] := by
    intro n f hf
    rw [History.loader] at hf
    split at hf
    · cases hf
      exact constant_small
    · cases hf
  exact ⟨b, m₂, hn, standing_small, hi, agrees_small, rfl, hind.1,
    (hind.2.2.1 20 (fun _ => [.int 7]) (Nat.le_refl _) hc "m").2⟩

end Registry

/-! ### Code that meddles -/

/-- A value of one sandbox is printed in another one. What is captured of the first one before and
after. -/
def printsElsewhere : Host (String × String) := do
  let a ← Sandbox.open .plain
  let b ← Sandbox.open .plain
  let run ← a.execute
    "return setmetatable({}, \x7b__tostring = function() print('hidden') return 'x' end\x7d)"
  let before ← Host.read fun s => (s.output a.output).text
  let print ← Host.read fun s => s.rawGet b.globals (.str "print")
  let _ ← Host.call print [run.first]
  let after ← Host.read fun s => (s.output a.output).text
  return (before, after)

/-- The host's loaded modules fall back on the global variables of one sandbox when the admin module of
another one is installed. What the first one has under that name before and after. -/
def registersElsewhere : Host (Value × Value) := do
  let a ← Sandbox.open .plain
  let b ← Sandbox.open .plain
  let .table loaded ← hostPackageTable "loaded" | return (.nil, .nil)
  let fallback ← Host.updateGet fun s => s.newTable
  Host.update fun s => s.rawSetStr fallback Meta.newindex (.table a.globals)
  Host.update fun s => s.setMetatable loaded (some fallback)
  let before ← Host.read fun s => s.rawGet a.globals (.str "adm")
  let _ ← b.installAdmin "adm"
  let after ← Host.read fun s => s.rawGet a.globals (.str "adm")
  return (before, after)

theorem neighbours_meddle :
    endsWith (fun r _ => r == ("", "hidden\n")) (Machine.fresh.perform 1000 printsElsewhere) = true ∧
      endsWith (fun r _ => r.1 == .nil && r.2 != .nil)
        (Machine.fresh.perform 1000 registersElsewhere) = true := by
  decide +kernel

end Cordon
