import Cordon.Proofs.Sandbox.Entering
import Cordon.Proofs.Sandbox.Judging
import Cordon.Proofs.Sandbox.Sealing
import Cordon.Proofs.Sandbox.Swallowing

/-!
# Fatal errors pass protected calls

However many protected calls lie around a function, a fatal error that it fails with is raised by all of
them, as it is, and no message handler gets to see it. And no protected call ever returns one.

That takes room on the stack, for the program in front of the message handler looks at the error where it
is raised. If there is none, what this program fails with is caught in place of the fatal error.
-/

namespace Cordon.Lua.Protect

open Exec

section

variable {g : Guard} {p x m : Nat} {b : Surroundings} {s : Store} {e : Exec}

/-- The thread raises an error where only the protected calls further out are left, the same one unless
there is no memory for what protected calls do behind so many slots of the stack. -/
def Passed (b : Surroundings) (m : Nat) (v : Value) (s : Store) (e : Exec)
    (around : Option (Option Value × Depth × List Frame)) : Prop :=
  ∃ v' s' e', Rises b (slotBytes * (m + 64)) v s e v' s' e' ∧ innerGuard? e'.frames = around

theorem Nested.passed {n : Nat} {v : Value} {around : Option (Option Value × Depth × List Frame)}
    (hi : Installed g s) (hv : GateFn.isFatalValue s v = true)
    (hf : Nested g s m (e.outermost b) around n e.frames) (he : Room (m + 32) e.depth)
    (hm : m + 64 ≤ maxSlots) : Passed b m v s e around := by
  obtain ⟨v', s', e', h, hout, -⟩ := rises hi hv hf he hm
  exact ⟨v', s', e', h, hout⟩

/-- If the function in a nest fails with a fatal error, in whatever it calls, the nest raises that. -/
theorem Within.passed {n : Nat} {v : Value} {base frames own : List Frame}
    (hf : Within g s m base n frames) (hi : Installed g s) (hv : GateFn.isFatalValue s v = true)
    (he : e.frames = own ++ frames) (hown : innerGuard? own = none) (hd : Room (m + 32) e.depth)
    (hbase : Room m (giveWay (e.outermost b) base).2) (hm : m + 64 ≤ maxSlots) :
    Passed b m v s e (innerGuard? base) :=
  Nested.passed hi hv (he ▸ (hf _ hbase).1.append hown) hd hm

theorem Within.outside (s : Store) (m : Nat) (base : List Frame) : Within g s m base 0 base :=
  fun _ hr => ⟨.outside rfl, hr⟩

theorem Within.kept {n : Nat} {s' : Store} {base frames : List Frame} (hf : Within g s m base n frames)
    (hk : ∀ id f, s.function? id = some f → s'.function? id = some f) : Within g s' m base n frames :=
  fun o hr => ⟨(hf o hr).1.kept hk, (hf o hr).2⟩

end

/-- Where there is room, every protected call passes fatal errors on; and nowhere does one return any. -/
theorem fatal_errors_pass {g : Guard} {p x m : Nat} {b : Surroundings} {s : Store}
    (ho : Offered g p x s) (hs : Sealed g s) (hm : m + 64 ≤ maxSlots) :
    -- a sandbox's protected calls are made so that nothing else gets at their variables
    (∀ {m : Machine} (ctx : Ctx), Bounded m.store → Environment.hasCalls m.store = true →
      ∃ g p x m', Environment.protectedCalls.run ctx m = some (.ok (.fn p, .fn x), m') ∧
        Offered g p x m'.store ∧ Sealed g m'.store) ∧
    -- a nest of them comes to the call of its function, and raises the fatal error that this fails with
    (∀ {e : Exec} (layers : List Layer) (f : Value) (args : List Value),
      e.depth.slots + layers.length * (args.length + 2 * layers.length + 10) ≤ m →
      e.depth.natives + layers.length + 2 ≤ maxNatives →
      s.exhausted (slotBytes * m + 8 * layers.length) = false →
      ∃ s₁ e₁, Leads b (.apply (nest p x layers f args).1 (nest p x layers f args).2 s) e
          (.apply f args s₁) e₁ ∧ Offered g p x s₁ ∧ Room m e₁.depth ∧ e₁.resumers = e.resumers ∧
        ∀ {s₂ : Store} {e₂ : Exec} {v : Value} {own : List Frame},
          (∀ id f, s₁.function? id = some f → s₂.function? id = some f) → Installed g s₂ →
          GateFn.isFatalValue s₂ v = true → e₂.frames = own ++ e₁.frames → innerGuard? own = none →
          Room (m + 32) e₂.depth → Room m (giveWay (e₂.outermost b) e.frames).2 →
          Passed b m v s₂ e₂ (innerGuard? e.frames)) ∧
    -- so does a nest with other calls in between
    (∀ {n : Nat} {e : Exec} {v : Value} {around : Option (Option Value × Depth × List Frame)},
      GateFn.isFatalValue s v = true → Nested g s m (e.outermost b) around n e.frames →
      Room (m + 32) e.depth → Passed b m v s e around) ∧
    -- what comes back to a protected call is returned if it does not say that a fatal error was caught
    (∀ {e : Exec} {site : Site} {line : Nat} {depth : Depth} {frames : List Frame} (ok : Value)
      (vs : List Value), e.frames = .call site (finishing g line) depth :: frames →
      Outcome b (ok :: vs) (giveWay (e.outermost b) frames).1 s (.ret (ok :: vs) s) e) ∧
    -- so nothing changes in a run if something else follows such results
    (∀ {s' : Store} {fn : Value} {as args : List Value} {thread n n' id : Nat} {threads : Array Thread}
      {e : Exec} {f : Func} {site : Site} {next next' : List Value → Store → Action} {depth : Depth}
      {frames : List Frame}, Threads.Alike (.guarding g s) threads threads →
      Reaches b n (.apply fn as s) (start b thread threads) n' (.apply (.fn id) args s') e →
      s'.function? id = some (.closure chunk f g.cells) → Judges g f →
      e.frames = .call site next depth :: frames →
      (∀ vs s'', Judged s'' vs → next' vs s'' = next vs s'') →
      (run n' b (.apply (.fn id) args s')
          { e with frames := .call site next' depth :: frames }).map
            (fun f => (f.result, f.machine.store)) =
        (run n' b (.apply (.fn id) args s') e).map fun f => (f.result, f.machine.store)) := by
  refine ⟨?made, ?nest, ?between, ?returned, ?run⟩
  case made =>
    intro machine ctx hbounded hc
    obtain ⟨g, p, x, m', hrun, ho, hsealed, -⟩ := Environment.protectedCalls_sealed hbounded hc ctx
    exact ⟨g, p, x, m', hrun, ho, hsealed⟩
  case nest =>
    intro e layers f args hslots hn hx
    obtain ⟨s₁, e₁, hleads, hlater, hf, hslots₁, hnatives, hr, -⟩ := leads_nest (b := b) (n := 0) ho
      layers f args (.outside s m e.frames) hslots hn hm hx
    refine ⟨s₁, e₁, hleads, ho.later hlater, ⟨hslots₁, by omega⟩, hr, ?_⟩
    intro s₂ e₂ v own hk hi hv he hown hd hbase
    exact (hf.kept hk).passed hi hv he hown hd hbase hm
  case between => exact fun hv hf he => hf.passed ho.installed hv he hm
  case returned =>
    intro e site line depth frames ok vs he
    have hret : Leads b (.ret (ok :: vs) s) e (.act (finishing g line (ok :: vs) s))
        { e with frames, depth } := .of_ret he
    exact (finishing_outcome ho.installed line ok vs).after hret (.refl s)
  case run =>
    intro s' fn as args thread n n' id threads e f site next next' depth frames ht hr hid hj he hsame
    have hstart : Alike (.guarding g s) (.apply fn as s) (start b thread threads)
        (start b thread threads) :=
      .apply hs (.clear fn.clear_guarding) (clears_guarding as) ⟨rfl, .nil, rfl, ht⟩ .nil
    -- the run keeps the variables of the programs, so the call that it comes to is still judged
    exact (run_judged (w := .guarding g s) rfl hj hid he
      (hr.alike b.handler.clear_guarding hstart) b.handler.clear_guarding
      (fun vs s'' _ _ hj => hsame vs s'' hj) n').results

/-- `function () pcall() end`, with a protected call in its variable. -/
def caller : Func := .mk 0 false (.mk [.call (.call (.var ⟨0, "pcall", true⟩) [] 1)] []) 1 2

/-- The programs and a function that calls one of them. -/
def callingStore : Store :=
  ((smallStore.newCell (.fn 7)).2.newFunction (.closure "calling" caller [7])).2

/-- The end of a call that protected calls have been made in. -/
def smallCall : Frame := .call pcallSite (finishing smallGuard 12) { natives := 1 }

theorem fatal_errors_pass_small :
    (∃ g p x m', Environment.protectedCalls.run (Machine.outside 0) Machine.fresh =
        some (.ok (.fn p, .fn x), m') ∧ Offered g p x m'.store ∧ Sealed g m'.store) ∧
    (∃ s e, Leads base (.apply (nest 7 8 [.pcall, .xpcall 1] (.fn 3) [.str outOfMemoryText, .int 0]).1
        (nest 7 8 [.pcall, .xpcall 1] (.fn 3) [.str outOfMemoryText, .int 0]).2 callingStore)
        (start base 0 #[.running]) (.apply (.fn 3) [.str outOfMemoryText, .int 0] s) e ∧
      Passed base 100 (.str outOfMemoryText) s e none) ∧
    Passed base 100 (.str outOfMemoryText) callingStore (smallExec []) none ∧
    Outcome base [.bool false, .str outOfMemoryText] [] callingStore
      (.ret [.bool false, .str outOfMemoryText] callingStore)
      { smallExec [] with frames := [smallCall] } ∧
    (∃ e site next depth frames, Reaches base 7 (.apply (.fn 9) [] callingStore)
        (start base 0 #[.running]) 5 (.apply (.fn 7) [] callingStore) e ∧
      e.frames = .call site next depth :: frames ∧
      ∀ next', (∀ vs s, Judged s vs → next' vs s = next vs s) →
        (run 5 base (.apply (.fn 7) [] callingStore)
            { e with frames := .call site next' depth :: frames }).map
              (fun f => (f.result, f.machine.store)) =
          (run 5 base (.apply (.fn 7) [] callingStore) e).map fun f => (f.result, f.machine.store)) := by
  have hbase : Bounded { functions := #[.native (.gate .isFatal), .native (.base .type),
      .native (.base .select), .native (.base .error), .native (.base .xpcall),
      .native (.base .pcall)] } := bounded_of (by decide +kernel)
  have hsmall : Sealed smallGuard smallStore :=
    (@functions_sealed _ 0 1 2 3 4 5 hbase rfl rfl rfl rfl rfl rfl).2
  have hcaller : Callable.Clear (.guarding smallGuard callingStore) (.closure "calling" caller [7]) :=
    .inl (by simp [Ward.guarding, Guard.cells, smallGuard])
  have hs : Sealed smallGuard callingStore :=
    (Store.Confined.newCell hsmall (v := .fn 7) id).newFunction hcaller
  have ho : Offered smallGuard 7 8 callingStore := ⟨by constructor <;> rfl, rfl, rfl⟩
  obtain ⟨hmade, hnest, hbetween, hreturned, hrun⟩ :=
    fatal_errors_pass (m := 100) (b := base) ho hs (by decide)
  refine ⟨?made, ?nest, ?between, ?returned, ?run⟩
  case made => exact hmade _ (bounded_of (by decide +kernel)) (by decide +kernel)
  case nest =>
    obtain ⟨s, e, hleads, ho', hroom, hr, hpass⟩ := hnest (e := start base 0 #[.running])
      [.pcall, .xpcall 1] (.fn 3) [.str outOfMemoryText, .int 0] (by decide) (by decide) rfl
    refine ⟨s, e, hleads, hpass (fun _ _ h => h) ho'.installed (isFatalValue_outOfMemory s)
      (List.nil_append _).symm rfl ⟨Nat.le_add_right_of_le hroom.slots, hroom.natives⟩ ?_⟩
    have houter : e.outermost base = base.depth := by rw [outermost, hr]; rfl
    rw [houter]
    exact ⟨by decide, by decide⟩
  case between =>
    exact hbetween (n := 1) (isFatalValue_outOfMemory _)
      (.guard .none ⟨by decide, by decide⟩ (.outside rfl)) ⟨by decide, by decide⟩
  case returned => exact hreturned (e := { smallExec [] with frames := [smallCall] }) _ _ rfl
  case run =>
    obtain ⟨e, site, next, depth, frames, hr, he⟩ : ∃ e site next depth frames,
        Reaches base 7 (.apply (.fn 9) [] callingStore) (start base 0 #[.running]) 5
          (.apply (.fn 7) [] callingStore) e ∧ e.frames = .call site next depth :: frames :=
      ⟨_, _, _, _, _, .head rfl (.head rfl (.refl ..)), rfl⟩
    exact ⟨e, site, next, depth, frames, hr, he, fun next' h => hrun (.running _) hr rfl .pcall he h⟩

/-- The programs and an error that a searcher has broken its contract. -/
def brokenStore : Store := (smallStore.newFault (.host (.searcherContract "broken"))).2

/-- What comes of a call where so much of the stack is taken: whether it returns, and with what. -/
def outcomeAt (slots : Nat) (call : Value × List Value) : Option (Bool × List Value) :=
  let b : Surroundings := { base with depth := { slots, natives := 1 } }
  (run 1000 b (.apply call.1 call.2 brokenStore) (start b 0 #[.running])).map fun f =>
    match f.result with
    | .ok vs => (true, vs)
    | .error v => (false, [v])

/-- There is room for `error` behind the frame of `xpcall`, but not for the test of what it raises. -/
theorem crowded_call_loses_fatal_error :
    GateFn.isFatalValue brokenStore (.fault 0) = true ∧
    outcomeAt 999980 (.fn 3, [.fault 0, .int 0]) = some (false, [.fault 0]) ∧
    outcomeAt 999968 (nest 7 8 [.xpcall 1] (.fn 3) [.fault 0, .int 0]) =
      some (true, [.bool false, .str handlerFailure]) := by decide +kernel

end Cordon.Lua.Protect
