import Cordon.Proofs.Confinement.Keeping
import Cordon.Lua.Lib.Base
import Cordon.Lua.Lib.Coroutine

/-!
# The base library keeps the ward

So do the functions on threads. The host's compiler gives a function the environment that it is called
with, or else the host's global variables; the searchers for modules look into the host's own tables.
-/

namespace Cordon.Lua

open Script

variable {w : Ward} {args : List Value}

namespace Store

variable {s : Store}

theorem Confined.compiled (hs : s.Confined w) {shown : Bytes} {f : Func} {environment : Value}
    (he : environment.Clear w) :
    (s.instantiate shown f environment).1.Clear w ∧
      (s.instantiate shown f environment).2.Confined w := by
  have hs' := hs.newCell he
  exact ⟨hs'.fresh_function, hs'.newFunction (.inl fun id hid => by
    rw [List.mem_singleton.mp hid]
    exact hs.fresh_cell)⟩

end Store

namespace BaseFn

section

variable {α : Type} {Q : α → Prop}

theorem raiseAt_keeps {v : Value} (hv : v.Clear w) (level : Int64) :
    Keeps w (raiseAt v level : Script α) Q := by
  unfold raiseAt
  split
  · split
    · exact (Keeps.position _).bind fun _ _ => .raise trivial
    · exact .raise trivial
  · exact .raise hv

end

section

variable (ha : Clears w args)

include ha

theorem runAssert_keeps : Keeps w (runAssert args) (Clears w) := by
  unfold runAssert
  split
  · exact .pure ha
  · refine .bind (.checkAny ha 1) fun _ _ => ?_
    split
    · next h => exact raiseAt_keeps (ha.get h) _
    · exact raiseAt_keeps (Value.clear_str _) _

theorem runGetmetatable_keeps : Keeps w (runGetmetatable args) (Clears w) := by
  refine .bind (.checkAny ha 1) fun v hv => ?_
  refine .bind (.read (Q := fun r => ∀ id, r = some id → ¬ w.table id) fun s hs id h =>
    hs.metatable? hv h) fun r hr => ?_
  split
  · exact .pure (.one trivial)
  · next id =>
    have hid : ¬ w.table id := hr id rfl
    refine .bind (.read (Q := Value.Clear w) fun s hs => hs.getStr hid _) fun m hm => ?_
    split
    · exact .pure (.one hid)
    · exact .pure (.one hm)

theorem runSetmetatable_keeps : Keeps w (runSetmetatable args) (Clears w) := by
  refine .bind (.checkTable ha 1) fun id hid => ?_
  extract_lets rest
  have hrest (m : Option Nat) (hm : ∀ mt, m = some mt → ¬ w.table mt) :
      Keeps w (rest m) (Clears w) := by
    simp only [rest]
    refine .bind .look fun _ _ => ?_
    have hset : Keeps w (do
        Script.update fun s => s.setMetatable id m
        return [Value.table id]) (Clears w) :=
      (Keeps.update (Q := fun _ => True) trivial fun s hs => hs.setMetatable hid hm).bind fun _ _ =>
        .pure (.one hid)
    split
    · exact hset
    · exact .ended (.complain _)
  have hdrop := ha.drop 1
  split
  · exact .bind (Q := fun m => m = none) (.pure rfl) fun m hm => hrest m fun _ h => by simp [hm] at h
  · next m _ h =>
    rw [h] at hdrop
    refine .bind (Q := fun m' => m' = some m) (.pure rfl) fun m' hm => hrest m' fun mt h => ?_
    rw [hm] at h
    cases h
    exact hdrop.head
  · exact .ended (.badType ..)

theorem runNext_keeps : Keeps w (runNext args) (Clears w) := by
  refine .bind (.checkTable ha 1) fun id hid => ?_
  refine (Keeps.read (Q := fun r => ∀ e, r = some (some e) → e.1.Clear w ∧ e.2.Clear w)
    fun s hs e h => hs.clear_next? hid h).bind fun r hr => ?_
  split
  · obtain ⟨hk, hv⟩ := hr _ rfl
    exact .pure (.cons hk (.one hv))
  · exact .pure (.one trivial)
  · exact .raise trivial

theorem runPairs_keeps : Keeps w (runPairs args) (Clears w) := by
  refine .bind (.checkAny ha 1) fun v hv => ?_
  refine .bind (.read (Q := Value.Clear w) fun s hs => hs.metafield hv _) fun h hh => ?_
  split
  · refine .bind (.read (Q := Value.Clear w) fun s hs => hs.nextFn) fun f hf => ?_
    exact .pure (.cons hf (.cons hv (.one trivial)))
  · refine .bind (.call (.clear hh) (.one hv)) fun rs hrs => ?_
    exact .pure (.cons hrs.first (.cons (hrs.drop 1).first (.one (hrs.drop 2).first)))

theorem runIpairs_keeps : Keeps w (runIpairs args) (Clears w) := by
  refine .bind (.checkAny ha 1) fun v hv => ?_
  refine .bind (.read (Q := Value.Clear w) fun s hs => hs.ipairsStep) fun f hf => ?_
  exact .pure (.cons hf (.cons hv (.one trivial)))

theorem runIpairsStep_keeps : Keeps w (runIpairsStep args) (Clears w) := by
  refine .bind (.checkInt ..) fun i _ => ?_
  refine .bind (.index (ha.arg 1) trivial) fun v hv => .pure ?_
  split
  · exact .one trivial
  · exact .cons trivial (.one hv)

theorem runRawget_keeps : Keeps w (runRawget args) (Clears w) := by
  refine .bind (.checkTable ha 1) fun id hid => ?_
  refine .bind (.checkAny ha 2) fun k _ => ?_
  exact (Keeps.read (Q := Value.Clear w) fun s hs => hs.rawIndex hid k).bind fun v hv => .pure (.one hv)

theorem runRawset_keeps : Keeps w (runRawset args) (Clears w) := by
  refine .bind (.checkTable ha 1) fun id hid => ?_
  refine .bind (.checkAny ha 2) fun k hk => ?_
  refine .bind (.checkAny ha 3) fun v hv => ?_
  split
  · next key hkey =>
    exact (Keeps.update (Q := fun _ => True) trivial fun s hs => hs.rawSet hid (hk.key hkey) hv).bind
      fun _ _ => .pure (.one hid)
  · exact .ended (.raise trivial)

theorem runSelect_keeps : Keeps w (runSelect args) (Clears w) := by
  have hrest : Keeps w (do
      let n ← checkInt args 1
      let count := args.length
      let n : Int := if n < 0 then count + n.toInt else min n.toInt count
      if n < 1 then badArgument 1 "index out of range"
      return args.drop n.toNat) (Clears w) := by
    refine .bind (.checkInt ..) fun n _ => ?_
    extract_lets count n rest
    split
    · exact .ended (.badArgument ..)
    · exact .pure (ha.drop _)
  unfold runSelect
  split
  · split
    · exact .pure (.one trivial)
    · exact hrest
  · exact hrest

end

theorem runCollect_keeps (args : List Value) : Keeps w (runCollect args) (Clears w) := by
  have hmode (g : Bool) : Keeps w (Script.updateGet fun s => (s.generational, { s with generational := g }))
      fun _ => True := .updateGet fun s hs => ⟨trivial, hs.of_alike (by constructor <;> rfl)⟩
  unfold runCollect
  refine .bind (.checkOption ..) fun option _ => ?_
  split
  · exact .bind .look fun _ _ => .pure (.one trivial)
  · exact .pure (.one trivial)
  · exact .pure (.one trivial)
  · exact .pure (.one trivial)
  · exact .pure (.one trivial)
  · exact (hmode true).bind fun _ _ => .pure (.one trivial)
  · exact (hmode false).bind fun _ _ => .pure (.one trivial)
  · exact .pure (.one trivial)

theorem runRawlen_keeps (args : List Value) : Keeps w (runRawlen args) (Clears w) := by
  unfold runRawlen
  split
  · exact .bind .look fun _ _ => .pure (.one trivial)
  · exact .pure (.one trivial)
  · exact .badType ..

theorem runTonumber_keeps (ha : Clears w args) : Keeps w (runTonumber args) (Clears w) := by
  unfold runTonumber
  split
  · split
    · exact .pure (.one trivial)
    · exact .pure (.one trivial)
    · split
      · next n _ => cases n <;> exact .pure (.one trivial)
      · exact .pure (.one trivial)
    · exact .bind (.checkAny ha 1) fun _ _ => .pure (.one trivial)
  · refine .bind (.checkInt ..) fun base _ => ?_
    split
    · extract_lets rest
      have hrest : Keeps w (rest ()) (Clears w) := by
        simp only [rest]
        split
        · exact .pure (.one trivial)
        · exact .pure (.one trivial)
      split
      · exact .ended (.badArgument ..)
      · exact hrest
    · exact .badType ..

/-! ## Compiling -/

theorem readPieces_keeps {reader : Value} (hr : reader.Clear w) : ∀ (n : Nat) (acc : Bytes),
    Keeps w (readPieces reader n acc) fun r => ∀ v, r = .error v → v.Clear w
  | 0, _ => .pure nofun
  | n + 1, acc => by
    refine .bind (.attempt (.clear hr) .nil) fun r hr' => ?_
    split
    · refine .pure fun v h => ?_
      cases h
      exact hr'
    · split
      · exact .pure nofun
      · split
        · split
          · exact .pure nofun
          · split
            · exact .pure nofun
            · exact readPieces_keeps hr n _
        · refine .bind (.position 1) fun _ _ => .pure fun v h => ?_
          cases h
          trivial

theorem runLoad_keeps (ha : Clears w args) (hg : 4 ≤ args.length ∨ ¬ w.table w.globals) :
    Keeps w (runLoad args) (Clears w) := by
  refine .bind (.optText ..) fun mode _ => ?_
  extract_lets finish
  have hfinish (source chunk : Bytes) : Keeps w (finish source chunk) (Clears w) := by
    simp only [finish]
    refine .bind .look fun r _ => ?_
    split
    · exact .pure (.cons trivial (.one trivial))
    · have hmake (environment : Value) (he : environment.Clear w) (shown : Bytes) (f : Func) :
          Keeps w (do return [← Script.updateGet fun s => s.instantiate shown f environment])
            (Clears w) :=
        .bind (.updateGet fun s hs => hs.compiled he) fun v hv => .pure (.one hv)
      split
      · next h => exact .bind (.pure (ha.get h)) fun e he => hmake e he ..
      · next h =>
        refine .bind (Q := Value.Clear w) (.read fun s hs => ?_) fun e he => hmake e he ..
        rcases hg with hg | hg
        · rw [List.getElem?_eq_none_iff] at h
          omega
        · exact hs.globals ▸ hg
  split
  · exact .bind (.optText ..) fun chunk _ => hfinish ..
  · refine .bind (.optText ..) fun chunk _ => ?_
    refine .bind (.checkFunction ha 1) fun reader hr => ?_
    refine .bind (readPieces_keeps hr ..) fun r hr => ?_
    split
    · exact hfinish ..
    · next v =>
      refine .context fun ctx ctx' hctx => ⟨by rw [hctx.handler], ?_⟩
      refine .bind (.lift (.handle hctx.clear (hr v rfl))) fun message hm => ?_
      exact .bind (.lift .caught) fun _ _ => .pure (.cons trivial (.one hm))

/-! ## Loading modules -/

theorem findLoader_keeps {searchers : Value} (hs : searchers.Clear w) (name : Bytes) :
    ∀ (n : Nat) (i : Int64) (message : Bytes), Keeps w (findLoader searchers name n i message)
      fun r => r.1.Clear w ∧ r.2.Clear w
  | 0, _, _ => .complain _
  | n + 1, i, message => by
    refine .bind (Q := Value.Clear w) (.read fun s hc => ?_) fun searcher hv => ?_
    · split
      · exact hc.rawGet hs _
      · trivial
    · split
      · exact .complain _
      · refine .bind (.call (.clear hv) (.one trivial)) fun rs hrs => ?_
        have hfirst := hrs.first
        split
        · next h =>
          rw [h] at hfirst
          exact .pure ⟨hfirst, (hrs.drop 1).first⟩
        · split
          · exact findLoader_keeps hs name n ..
          · exact findLoader_keeps hs name n ..

section

variable (ho : w.Open)

include ho

theorem preloadSearch_keeps (name : Bytes) : Keeps w (preloadSearch name) (Clears w) := by
  refine .bind (Q := Value.Clear w) (.read fun s hs => hs.preload ▸ ho.preload) fun preload hp => ?_
  refine .bind (.index hp trivial) fun v hv => ?_
  split
  · exact .pure (.one trivial)
  · exact .pure (.cons hv (.one trivial))

theorem fileSearch_keeps (name : Bytes) : Keeps w (fileSearch name) (Clears w) := by
  refine .bind (Q := fun id => ¬ w.table id) (.read fun s hs => hs.package ▸ ho.package) fun id hp => ?_
  refine .bind (.index (show (Value.table id).Clear w from hp) trivial) fun v _ => ?_
  split
  · exact .pure (.one trivial)
  · exact .complain _

theorem runRequire_keeps (args : List Value) : Keeps w (runRequire args) (Clears w) := by
  refine .bind (.checkText ..) fun b _ => ?_
  extract_lets name
  refine .bind (Q := Value.Clear w) (.read fun s hs => hs.loaded ▸ ho.loaded) fun loaded hl => ?_
  refine .bind (.index hl trivial) fun found hf => ?_
  split
  · exact .pure (.one hf)
  · refine .bind (Q := fun id => ¬ w.table id) (.read fun s hs => hs.package ▸ ho.package) fun id hp => ?_
    refine .bind (.index (show (Value.table id).Clear w from hp) trivial) fun searchers hs => ?_
    split
    · refine .bind (findLoader_keeps hs ..) fun r hr => ?_
      obtain ⟨loader, extra⟩ := r
      refine .bind (.checkText ..) fun b' _ => ?_
      refine .bind (.call (.clear hr.1) (.cons trivial (.one hr.2))) fun vs hvs => ?_
      extract_lets v rest
      have hv : v.Clear w := hvs.first
      have hrest : Keeps w (rest ()) (Clears w) := by
        refine .bind (.index hl trivial) fun u hu => ?_
        split
        · refine .bind (.assign hl trivial trivial) fun _ _ => ?_
          exact .pure (.cons trivial (.one hr.2))
        · exact .pure (.cons hu (.one hr.2))
      split
      · exact hrest
      · exact .bind (.assign hl trivial hv) fun _ _ => hrest
    · exact .ended (.complain _)

end

theorem runRequire_library {name : Bytes} (hn : w.library name.beforeNul) :
    Keeps w (runRequire [.str name]) (Clears w) := by
  obtain ⟨hkept, hcontent⟩ := w.libraries hn
  refine .bind (Q := fun b => b = name) (.pure rfl) fun b hb => ?_
  subst hb
  refine .bind (Q := fun v => v = .table w.loaded) (.read fun s hs => congrArg _ hs.loaded) fun v hv => ?_
  subst hv
  -- the table of loaded modules is kept, but what it has under this name is not
  refine .bind (Q := fun v => v.truthy = true ∧ v.Clear w) (.index_entry fun s hs => ?_) fun v hv => ?_
  · obtain ⟨id, hget, hclear⟩ := hcontent _ (hs.content hkept)
    rw [hget]
    exact ⟨⟨rfl, hclear⟩, nofun⟩
  · rw [if_pos hv.1]
    exact .pure (.one hv.2)

theorem run_keeps (f : BaseFn) (ha : Clears w args) (hf : (Native.base f).Clear w ∨
    (Native.base f).Harmless w args) : Keeps w (f.run args) (Verdict.Clear w) := by
  have hret {p : Script (List Value)} (hp : Keeps w p (Clears w)) :
      Keeps w (do return .ret (← p)) (Verdict.Clear w) := .bind hp fun _ hvs => .pure hvs
  cases f with
  | assert => exact hret (runAssert_keeps ha)
  | collectgarbage => exact hret (runCollect_keeps args)
  | dofile => exact .bind (.optText ..) fun _ _ => .complain _
  | error => exact .bind (.optInt ..) fun level _ => raiseAt_keeps (ha.arg 1) level
  | getmetatable => exact hret (runGetmetatable_keeps ha)
  | ipairs => exact hret (runIpairs_keeps ha)
  | load =>
    refine hret (runLoad_keeps ha ?_)
    rcases hf with hf | hf
    · exact .inr hf
    · cases hf with
      | load hlen => exact .inl hlen
  | loadfile => exact .bind (.optText ..) fun _ _ => .pure (.cons trivial (.one trivial))
  | next => exact hret (runNext_keeps ha)
  | pairs => exact hret (runPairs_keeps ha)
  | pcall => exact .bind (.checkAny ha 1) fun f hf => .pure ⟨nofun, hf, ha.drop 1⟩
  | print =>
    refine .bind (.forM fun v hv => ?_) fun _ _ => .pure .nil
    exact .bind (.text (ha v hv)) fun _ _ => .pure trivial
  | rawequal =>
    exact .bind (.checkAny ha 1) fun a _ => .bind (.checkAny ha 2) fun b _ => .pure (.one trivial)
  | rawget => exact hret (runRawget_keeps ha)
  | rawlen => exact hret (runRawlen_keeps args)
  | rawset => exact hret (runRawset_keeps ha)
  | require =>
    rcases hf with hf | hf
    · exact hret (runRequire_keeps hf args)
    · cases hf with
      | require hn => exact hret (runRequire_library hn)
  | select => exact hret (runSelect_keeps ha)
  | setmetatable => exact hret (runSetmetatable_keeps ha)
  | tonumber => exact hret (runTonumber_keeps ha)
  | tostring => exact .bind (.checkAny ha 1) fun v hv => .bind (.text hv) fun _ _ => .pure (.one trivial)
  | type =>
    cases args with
    | nil => exact .badArgument ..
    | cons v vs => exact .pure (.one trivial)
  | warn => exact .bind (.checkText ..) fun _ _ => .pure .nil
  | xpcall =>
    refine .bind (.checkFunction ha 2) fun h hh => .pure ⟨fun v hv => ?_, ha.arg 1, ha.drop 2⟩
    cases hv
    exact hh

end BaseFn

namespace CoroutineFn

theorem newThread_keeps (ha : Clears w args) : Keeps w (newThread args) fun _ => True :=
  .bind (.checkFunction ha 1) fun _ hf => .lift (.newThread (fun _ => trivial) (.fresh hf))

theorem threadState_keeps {α : Type} {Q : α → Prop} {f : Thread → Script α} {id : Nat}
    (h : ∀ t t' : Thread, t.Alike w t' → f t' = f t ∧ Keeps w (f t) Q) :
    Keeps w (threadState id >>= f) Q := by
  have hact : Act.Keeps w (Act.thread id >>= fun t => (f t).run) (Post w Q) :=
    .thread fun t t' ht => by
      obtain ⟨he, hk⟩ := h t t' ht
      rw [he]
      exact hk
  exact hact

theorem runClose_keeps (args : List Value) : Keeps w (runClose args) (Clears w) := by
  have hdead : Thread.Alike w (.dead none) (.dead none) := .dead nofun
  have hclosed (id : Nat) : Keeps w (setThreadState id (.dead none)) fun _ => True :=
    .lift (.setThread trivial hdead id)
  refine .bind (.checkThread ..) fun id _ => threadState_keeps fun t t' ht => ?_
  cases ht with
  | fresh => exact ⟨rfl, .bind (hclosed id) fun _ _ => .pure (.one trivial)⟩
  | suspended => exact ⟨rfl, .bind (hclosed id) fun _ _ => .pure (.one trivial)⟩
  | running => exact ⟨rfl, .complain _⟩
  | normal => exact ⟨rfl, .complain _⟩
  | @dead error he =>
    refine ⟨rfl, ?_⟩
    cases error with
    | none => exact .pure (.one trivial)
    | some v => exact .bind (hclosed id) fun _ _ => .pure (.cons trivial (.one (he v rfl)))

theorem run_keeps (f : CoroutineFn) (ha : Clears w args) :
    Keeps w (f.run args) (Verdict.Clear w) := by
  cases f with
  | close => exact .bind (runClose_keeps args) fun _ hvs => .pure hvs
  | create => exact .bind (newThread_keeps ha) fun _ _ => .pure (.one trivial)
  | isyieldable =>
    refine .context fun ctx ctx' hctx => ⟨by rw [hctx.thread, hctx.yieldable], ?_⟩
    split
    · exact .pure (.one trivial)
    · exact .pure (.one trivial)
  | resume => exact .bind (.checkThread ..) fun _ _ => .pure (ha.drop 1)
  | running =>
    refine .context fun ctx ctx' hctx => ⟨by rw [hctx.thread], ?_⟩
    exact .pure (.cons trivial (.one trivial))
  | status =>
    refine .bind (.checkThread ..) fun id _ => threadState_keeps fun t t' ht => ⟨?_, ?_⟩
    · cases ht <;> rfl
    · exact .pure (.one trivial)
  | wrap =>
    refine .bind (newThread_keeps ha) fun id _ => ?_
    refine .bind (Q := Value.Clear w) (.updateGet fun s hs => ?_) fun v hv => .pure (.one hv)
    exact ⟨hs.clear_newNative _, hs.newNative trivial⟩
  | yield => exact .pure ha

end CoroutineFn

end Cordon.Lua
