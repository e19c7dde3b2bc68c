import Cordon.Proofs.Lua.Answers
import Cordon.Proofs.Sandbox.Entering
import Cordon.Proofs.Sandbox.Judging
import Cordon.Proofs.Sandbox.Sealing
import Cordon.Proofs.Sandbox.Swallowing

/-!
# Protected calls pass on what the host's return

The sandbox's `pcall` calls that of the host with the arguments it got, and returns what this returns, as
it is. A function that is missing it takes for nil, so the host's never gets to see that there is none.
-/

namespace Cordon.Lua.Protect

open Exec

variable {g : Guard} {b : Surroundings} {e : Exec} {s : Store} {p : Nat}

/-- There is room for a program with so many arguments, and for the native functions that it calls. -/
structure Space (d : Depth) (n : Nat) (s : Store) : Prop where
  slots : d.slots + n + 26 ≤ maxSlots
  natives : d.natives ≠ maxNatives
  memory : s.exhausted (slotBytes * (d.slots + n + 6)) = false

/-! ## Calling -/

/-- The arguments that the host's protected call gets: where there is no function it is nil. -/
def filled : List Value → List Value
  | [] => [.nil]
  | args => args

theorem pcall_call (hi : Installed g s) (args : List Value) : Eval.call chunk pcall g.cells args s =
    .call (.fn g.pcall) (filled args) pcallSite (finishing g 12) (s.newCell (.first args)).2 := by
  cases args with
  | nil =>
    have hcall : Eval.call chunk pcall g.cells [] s =
        .call ((s.newCell .nil).2.cell g.pcallCell) [(s.newCell .nil).2.cell s.cells.size] pcallSite
          (fun vs s' => .tail ((s.newCell .nil).2.cell g.finishCell) vs
            ⟨some (chunk, 12), some (.captured, "finish")⟩ s') (s.newCell .nil).2 := rfl
    have hf : (s.newCell .nil).2.cell s.cells.size = .nil := by rw [s.cell_newCell, if_pos rfl]
    have hi := hi.grown (.newCell s .nil)
    rw [hcall, hi.finishCell, hi.pcallCell, hf]
    rfl
  | cons f rest => exact pcall_eq hi f rest

/-- In the program, where it calls the host's. -/
def delegating (g : Guard) (e : Exec) (args : List Value) : Exec :=
  { e.inside pcall args with
    frames := .call pcallSite (finishing g 12) (e.inside pcall args).depth :: e.frames }

/-- How the host's protected call ends there. -/
def Delegated (g : Guard) (b : Surroundings) (args : List Value) (s : Store) (e : Exec) :
    Except Value (List Value) → Store → Exec → Prop :=
  Answers b (.fn g.pcall) (filled args) (s.newCell (.first args)).2 (delegating g e args)

theorem leads_delegating (hi : Installed g s) (hp : s.function? p = some (.closure chunk pcall g.cells))
    (args : List Value) (hs : Space e.depth args.length s) :
    Leads b (.apply (.fn p) args s) e (.apply (.fn g.pcall) (filled args) (s.newCell (.first args)).2)
      (delegating g e args) := by
  have hslots : (e.inside pcall args).depth.slots = e.depth.slots + args.length + 6 := by
    show e.depth.slots + 5 + (args.length + 1) = _
    omega
  have hroom := hs.slots
  have happly : Leads b (.apply (.fn p) args s) e (.act (Eval.call chunk pcall g.cells args s))
      (e.inside pcall args) := .of_apply hp hs.natives (by rw [hslots]; omega)
  rw [pcall_call hi] at happly
  exact happly.trans (.of_call rfl (by rw [hslots]; exact hs.memory))

/-! ## Returning -/

/-- What the programs take for a fatal error that was caught. -/
def Grave (s : Store) (vs : List Value) : Prop :=
  (Value.first vs).truthy = false ∧ GateFn.isFatalValue s (.first (vs.drop 1)) = true

section

variable {vs : List Value}

theorem slots_finish (e : Exec) (vs : List Value) :
    (e.inside finish vs).depth.slots = e.depth.slots + vs.length + 6 := by
  show e.depth.slots + 5 + (vs.length + 1) = _
  omega

theorem leads_finish (hi : Installed g s) (line : Nat) (hs : Space (e.givenWay b).depth vs.length s) :
    Leads b (.act (finishing g line vs s)) e (.act (Eval.call chunk finish g.cells vs s))
      ((e.givenWay b).inside finish vs) := by
  have hroom := hs.slots
  have hmemory : s.exhausted (slotBytes * (e.givenWay b).depth.slots) = false := by
    refine Bool.eq_false_iff.mpr fun hx => ?_
    have hle := exhausted_le
      (Nat.mul_le_mul_left slotBytes (Nat.le_add_right (e.givenWay b).depth.slots (vs.length + 6))) hx
    exact Bool.false_ne_true (hs.memory.symm.trans hle)
  have htail : Leads b (.act (finishing g line vs s)) e (.apply (.fn g.finish) vs s) (e.givenWay b) :=
    .of_tail_closure hi.finish hmemory
  exact htail.trans (.of_apply hi.finish hs.natives (by rw [slots_finish]; omega))

theorem leads_tested (hi : Installed g s) (line : Nat) (hs : Space (e.givenWay b).depth vs.length s)
    (hfail : (Value.first vs).truthy = false) : ∃ next : List Value → Store → Action,
      Leads b (.act (finishing g line vs s)) e
        (.act (next [.bool (GateFn.isFatalValue s (.first (vs.drop 1)))] (s.newCell (.first vs)).2))
        ((e.givenWay b).inside finish vs) ∧
      ∀ rs s', Installed g s' → next rs s' =
        if (Value.first rs).truthy then
          .call (.fn g.error) [.first (vs.drop 1), .int 0] raiseSite
            (fun _ s'' => .ret (s''.cell s.cells.size :: vs.drop 1) s'') s'
        else .ret (s'.cell s.cells.size :: vs.drop 1) s' := by
  obtain ⟨next, hcall, hnext⟩ := finish_call hi vs
  have hfinish := leads_finish (b := b) hi line hs
  rw [hcall, if_neg (by rw [hfail]; exact Bool.false_ne_true)] at hfinish
  have hroom := hs.slots
  have hmemory : (s.newCell (.first vs)).2.exhausted
      (slotBytes * ((e.givenWay b).inside finish vs).depth.slots) = false := by
    rw [slots_finish]
    exact hs.memory
  have hslots : ((e.givenWay b).inside finish vs).depth.slots + nativeSlots ≤ maxSlots := by
    rw [slots_finish, nativeSlots]
    omega
  exact ⟨next, hfinish.trans ((Leads.of_call rfl hmemory).trans
    ((leads_test (hi.grown (.newCell s (.first vs))) _ (by exact hs.natives) (by exact hslots)).trans
      (.of_ret rfl))), hnext⟩

/-- What the host's protected call returned is returned, as it is. -/
theorem finish_returns (hi : Installed g s) (line : Nat) (ok : Value)
    (hs : Space (e.givenWay b).depth (ok :: vs).length s) (hj : ¬ Grave s (ok :: vs)) :
    ∃ s', Widened s s' ∧ Leads b (.act (finishing g line (ok :: vs) s)) e (.act (.ret (ok :: vs) s'))
      ((e.givenWay b).inside finish (ok :: vs)) := by
  have hok : (s.newCell (.first (ok :: vs))).2.cell s.cells.size = ok := by
    rw [s.cell_newCell, if_pos rfl]
    rfl
  refine ⟨_, .newCell s ok, ?_⟩
  by_cases ht : (Value.first (ok :: vs)).truthy = true
  · obtain ⟨next, hcall, -⟩ := finish_call hi (ok :: vs)
    have hfinish := leads_finish (b := b) hi line hs
    rw [hcall, if_pos ht] at hfinish
    exact hfinish
  · have ht : (Value.first (ok :: vs)).truthy = false := Bool.eq_false_iff.mpr ht
    have hspared : GateFn.isFatalValue s (.first ((ok :: vs).drop 1)) = false :=
      Bool.eq_false_iff.mpr fun hv => hj ⟨ht, hv⟩
    obtain ⟨next, htested, hnext⟩ := leads_tested (b := b) hi line hs ht
    rw [hspared, hnext _ _ (hi.grown (.newCell s (.first (ok :: vs)))),
      if_neg (by exact Bool.false_ne_true), hok] at htested
    exact htested

/-- A fatal error that the host's protected call returned is raised again. -/
theorem finish_fails (hi : Installed g s) (line : Nat) (hs : Space (e.givenWay b).depth vs.length s)
    (hj : Grave s vs) : ∃ s' e', Widened s s' ∧ innerGuard? e'.frames = innerGuard? e.frames ∧
      e'.thread = e.thread ∧
      Leads b (.act (finishing g line vs s)) e (.raise (.first (vs.drop 1)) s') e' := by
  obtain ⟨next, htested, hnext⟩ := leads_tested (b := b) hi line hs hj.1
  have hi' := hi.grown (.newCell s (.first vs))
  rw [hj.2, hnext _ _ hi', if_pos (by exact rfl)] at htested
  have hroom := hs.slots
  have hmemory : (s.newCell (.first vs)).2.exhausted
      (slotBytes * ((e.givenWay b).inside finish vs).depth.slots) = false := by
    rw [slots_finish]
    exact hs.memory
  have hslots : ((e.givenWay b).inside finish vs).depth.slots + nativeSlots ≤ maxSlots := by
    rw [slots_finish, nativeSlots]
    omega
  have hraise := htested.trans ((Leads.of_call rfl hmemory).trans
    (leads_error hi' _ (by exact hs.natives) (by exact hslots)))
  refine ⟨_, _, .newCell s (.first vs), ?_, ?_, hraise⟩
  · exact innerGuard?_giveWay (e.outermost b) e.frames
  · rfl

end

/-! ## Whole runs -/

/-- The programs are in place wherever a run that keeps off their variables comes to their end. -/
theorem installed_of_alike {w : Ward} (hg : w.guards g) {line : Nat} {vs : List Value}
    (h : Alike w (.act (finishing g line vs s)) e e) : Installed g s := by
  have hconfined : ∀ n, (finishing g line vs s).Tame w n → s.Confined w := fun n ha => by
    cases ha with
    | tail hs => exact hs
  cases h with
  | act ha => exact (hconfined _ ha).installed hg
  | guarded _ ht => exact (hconfined _ ht).installed hg

/-- What the host's call returned comes to the end of the program, which is still in place. -/
theorem Delegated.comes_back {w : Ward} (hg : w.guards g) (hb : b.handler.Clear w) {args vs : List Value}
    {s' : Store} {e' : Exec} (hcalled : Alike w (.apply (.fn p) args s) e e)
    (hleads : Leads b (.apply (.fn p) args s) e
      (.apply (.fn g.pcall) (filled args) (s.newCell (.first args)).2) (delegating g e args))
    (h : Delegated g b args s e (.ok vs) s' e') :
    e'.thread = e.thread ∧ Installed g s' ∧ ∃ d, Comes b (.apply (.fn p) args s) e
      (.act (finishing g 12 vs s')) { e' with frames := e.frames, depth := d } := by
  cases h with
  | returned comes ret frames thread =>
    have hret : e'.ret vs s' = .next (.act (finishing g 12 vs s'))
        { e' with frames := e.frames, depth := (e.inside pcall args).depth } := by
      rw [Exec.ret, frames]
      rfl
    obtain ⟨i, j, hreaches⟩ := hleads.comes.trans
      (comes.trans (Leads.single fun caller => (ret caller).trans (congrArg some hret)).comes)
    -- the run up to there keeps the variables of the programs
    have halike := (hreaches i (Nat.le_refl i)).alike hb hcalled
    exact ⟨thread, installed_of_alike hg halike, _, i, j, hreaches⟩

/-- Where the variables of the programs are out of reach, a protected call of the sandbox calls the host's
with the same arguments, nil for a missing function, and ends as this ends, unless this returns that it has
caught a fatal error. -/
theorem pcall_follows_host {s₀ : Store} {fn : Value} {as args : List Value} {thread n₀ n : Nat}
    {threads : Array Thread} (hs : Sealed g s₀) (ht : Threads.Alike (.guarding g s₀) threads threads)
    (hr : Reaches b n₀ (.apply fn as s₀) (start b thread threads) n (.apply (.fn p) args s) e)
    (hp : s.function? p = some (.closure chunk pcall g.cells)) (hroom : Space e.depth args.length s) :
    s.function? g.pcall = some (.native (.base .pcall)) ∧
    -- an error of the host's call itself is one of the sandbox's
    (∀ {v : Value} {s' : Store} {e' : Exec}, Delegated g b args s e (.error v) s' e' →
      Answers b (.fn p) args s e (.error v) s' e') ∧
    -- what the host's returns is returned, unless it says that a fatal error was caught
    (∀ {ok : Value} {vs : List Value} {s' : Store} {e' : Exec},
      Delegated g b args s e (.ok (ok :: vs)) s' e' →
      Space ({ e' with frames := e.frames }.givenWay b).depth (ok :: vs).length s' →
      ¬ Grave s' (ok :: vs) →
      ∃ s'' e'', Widened s' s'' ∧ Answers b (.fn p) args s e (.ok (ok :: vs)) s'' e'') ∧
    -- and then the error is raised again
    (∀ {vs : List Value} {s' : Store} {e' : Exec}, Delegated g b args s e (.ok vs) s' e' →
      Space ({ e' with frames := e.frames }.givenWay b).depth vs.length s' → Grave s' vs →
      ∃ s'' e'', Widened s' s'' ∧ Answers b (.fn p) args s e (.error (.first (vs.drop 1))) s'' e'') := by
  have hstart : Alike (.guarding g s₀) (.apply fn as s₀) (start b thread threads)
      (start b thread threads) :=
    .apply hs (.clear fn.clear_guarding) (clears_guarding as) ⟨rfl, .nil, rfl, ht⟩ .nil
  have hcalled : Alike (.guarding g s₀) (.apply (.fn p) args s) e e :=
    hr.alike b.handler.clear_guarding hstart
  have hi : Installed g s := hcalled.calling.1.installed rfl
  have hawaiting : Awaiting e.frames := hr.entering .outside
  have hleads := leads_delegating (b := b) hi hp args hroom
  refine ⟨hi.pcall, ?error, ?same, ?grave⟩
  case error =>
    intro v s' e' h
    cases h with
    | raised comes guard thread => exact .raised (hleads.comes.trans comes) guard thread
  case same =>
    intro ok vs s' e' h hroom' hj
    obtain ⟨hthread, hi', d, hcomes⟩ :=
      h.comes_back (w := .guarding g s₀) rfl b.handler.clear_guarding hcalled hleads
    obtain ⟨s'', hw, hfinish⟩ := finish_returns (b := b) hi' 12 ok
      (e := { e' with frames := e.frames, depth := d }) hroom' hj
    exact ⟨s'', { e' with frames := e.frames }, hw, .returned (hcomes.trans hfinish.comes)
      (fun _ => congrArg some (ret_giveWay (e := { e' with frames := e.frames }) hawaiting _ _ _ _))
      rfl hthread⟩
  case grave =>
    intro vs s' e' h hroom' hj
    obtain ⟨hthread, hi', d, hcomes⟩ :=
      h.comes_back (w := .guarding g s₀) rfl b.handler.clear_guarding hcalled hleads
    obtain ⟨s'', e'', hw, hout, hsame, hfail⟩ := finish_fails (b := b) hi' 12
      (e := { e' with frames := e.frames, depth := d }) hroom' hj
    exact ⟨s'', e'', hw, .raised (hcomes.trans hfail.comes) hout (hsame.trans hthread)⟩

/-- `pcall(type, nil)` returns, and `pcall(error, "not enough memory", 0)` raises its error. -/
theorem pcall_follows_small :
    (∃ s e, Answers base (.fn 7) [.fn 1, .nil] smallStore (start base 0 #[.running])
      (.ok [.bool true, .str ("nil" : Bytes)]) s e) ∧
    ∃ s e, Answers base (.fn 7) [.fn 3, .str outOfMemoryText, .int 0] smallStore
      (start base 0 #[.running]) (.error (.str outOfMemoryText)) s e := by
  have hbase : Bounded { functions := #[.native (.gate .isFatal), .native (.base .type),
      .native (.base .select), .native (.base .error), .native (.base .xpcall),
      .native (.base .pcall)] } := bounded_of (by decide +kernel)
  have hsmall : Sealed smallGuard smallStore :=
    (@functions_sealed _ 0 1 2 3 4 5 hbase rfl rfl rfl rfl rfl rfl).2
  let e : Exec := start base 0 #[.running]
  have hstart (args : List Value) : Reaches base 0 (.apply (.fn 7) args smallStore) e 0
      (.apply (.fn 7) args smallStore) e := .refl ..
  have hroom (k : Nat) (hk : k ≤ 3) : Space e.depth k smallStore := by
    refine ⟨?_, by decide, rfl⟩
    show 0 + k + 26 ≤ 1000000
    omega
  refine ⟨?returns, ?raises⟩
  case returns =>
    obtain ⟨-, -, hsame, -⟩ := pcall_follows_host hsmall (.running _) (hstart [.fn 1, .nil]) rfl
      (hroom 2 (by decide))
    have hhost : Delegated smallGuard base [.fn 1, .nil] smallStore e
        (.ok [.bool true, .str ("nil" : Bytes)]) (smallStore.newCell (.fn 1)).2
        (delegating smallGuard e [.fn 1, .nil]) :=
      .returned (c := .ret [.bool true, .str ("nil" : Bytes)] (smallStore.newCell (.fn 1)).2)
        (Leads.head (fun _ => rfl) (.head (fun _ => rfl) (.single fun _ => rfl))).comes
        (fun _ => rfl) rfl rfl
    obtain ⟨s, e, -, h⟩ := hsame hhost ⟨by decide, by decide, rfl⟩ (by rintro ⟨h, -⟩; cases h)
    exact ⟨s, e, h⟩
  case raises =>
    obtain ⟨-, -, -, hgrave⟩ := pcall_follows_host hsmall (.running _)
      (hstart [.fn 3, .str outOfMemoryText, .int 0]) rfl (hroom 3 (by decide))
    have hhost : Delegated smallGuard base [.fn 3, .str outOfMemoryText, .int 0] smallStore e
        (.ok [.bool false, .str outOfMemoryText]) (smallStore.newCell (.fn 3)).2
        (delegating smallGuard e [.fn 3, .str outOfMemoryText, .int 0]) :=
      .returned (c := .ret [.bool false, .str outOfMemoryText] (smallStore.newCell (.fn 3)).2)
        (Leads.head (fun _ => rfl) (.head (fun _ => rfl) (.single fun _ => rfl))).comes
        (fun _ => rfl) rfl rfl
    obtain ⟨s, e, -, h⟩ := hgrave hhost ⟨by decide, by decide, rfl⟩ ⟨rfl, isFatalValue_outOfMemory _⟩
    exact ⟨s, e, h⟩

def outcome (fn : Value) (args : List Value) : Option (Bool × List Value) :=
  (run 100 base (.apply fn args smallStore) (start base 0 #[.running])).map fun f =>
    match f.result with
    | .ok vs => (true, vs)
    | .error v => (false, [v])

/-- The host's `pcall` refuses to be called without a function, and the sandbox's returns. -/
theorem missing_function_is_called :
    outcome (.fn 5) [] = some (false, [.str ("bad argument #1 to '?' (value expected)" : Bytes)]) ∧
    outcome (.fn 7) [] =
      some (true, [.bool false, .str ("attempt to call a nil value" : Bytes)]) := by decide +kernel

end Cordon.Lua.Protect
