import Cordon.Proofs.Fresh
import Cordon.Proofs.Lua.Follows
import Cordon.Sandbox.Execute

/-!
# Only text is compiled

A sandbox's `load` is the host's, called in text mode whatever mode its caller names. So neither it nor the
host's own way to compile a source for a sandbox makes a function of code that was compiled before, which
is known by its first byte.
-/

namespace Cordon

open Lua

/-! ## What `load` makes of its arguments -/

namespace Lua.GateFn

/-- The arguments name the same text, the same chunk name and the same environment: an absent one is not a
nil one. They may differ in the mode and in what comes after the environment. -/
structure SameText (args args' : List Value) : Prop where
  source : args.getD 0 .nil = args'.getD 0 .nil
  name : args.getD 1 .nil = args'.getD 1 .nil
  environment : args.getD 3 .nil = args'.getD 3 .nil
  given : args.length < 4 ↔ args'.length < 4

def textArguments (globals : Nat) (args : List Value) : List Value :=
  [args.getD 0 .nil, args.getD 1 .nil, .ofString "t",
    if args.length < 4 then .table globals else args.getD 3 .nil]

theorem loadArguments_eq (globals : Nat) : ∀ args, loadArguments globals args = textArguments globals args
  | [] | [_] | [_, _] | [_, _, _] => rfl
  | _ :: _ :: _ :: _ :: _ => by
    rw [textArguments, if_neg (by simp only [List.length_cons]; omega)]
    rfl

theorem SameText.textArguments {args args' : List Value} (h : SameText args args') (globals : Nat) :
    textArguments globals args = textArguments globals args' := by
  unfold GateFn.textArguments
  simp only [h.source, h.name, h.environment, h.given]

end Lua.GateFn

/-! ## Native functions called by native code -/

namespace Lua

namespace Script

variable {ctx : Ctx} {m m' : Machine} {α : Type} {a : α}

theorem complain_ne_ok (message : Bytes) :
    (complain message : Script α).run ctx m ≠ some (.ok a, m') := fun h => by
  obtain ⟨_, _, -, h⟩ := ok_bind h
  cases h

theorem badArgument_ne_ok (n : Nat) (message : Bytes) :
    (badArgument n message : Script α).run ctx m ≠ some (.ok a, m') := fun h => by
  obtain ⟨_, _, -, h⟩ := ok_bind h
  split at h
  · split at h
    · exact complain_ne_ok _ h
    · exact complain_ne_ok _ h
  · exact complain_ne_ok _ h
  · obtain ⟨_, _, -, h⟩ := ok_bind h
    exact complain_ne_ok _ h

theorem badType_ne_ok (args : List Value) (n : Nat) (expected : String) :
    (badType args n expected : Script α).run ctx m ≠ some (.ok a, m') := fun h => by
  obtain ⟨_, _, -, h⟩ := ok_bind h
  exact badArgument_ne_ok _ _ h

end Script

namespace Exec

variable {e : Exec} {b : Surroundings}

/-- Around what native code calls in this execution. -/
def beneath (b : Surroundings) (e : Exec) : Surroundings where
  handler := .traceback
  sites := fun _ => {} :: e.sites b
  depth := e.depth.deeper

/-- What a native function sees that native code calls. -/
def beneathCtx (b : Surroundings) (e : Exec) (fuel : Nat) (fn : Value) (threads : Array Thread) : Ctx :=
  (start (beneath b e) e.thread threads).context (caller fuel) (beneath b e) fn

theorem run_raise_ne_ok {e' : Exec} (hf : e'.frames = []) (hr : e'.resumers = []) (fuel : Nat) (v : Value)
    (s : Store) {vs : List Value} {m : Machine} : run fuel b (.raise v s) e' ≠ some ⟨.ok vs, m⟩ := by
  intro h
  cases fuel with
  | zero => cases h
  | succ fuel =>
    rw [run_succ] at h
    simp only [step, raise, hf, innerGuard?, hr] at h
    cases h

/-- Native code calls a native function that only returns: it does so if there is room for it on the native
stack, and fuel. -/
theorem call_native_iff {id fuel : Nat} {f : Native} {p : Script (List Value)} {s : Store}
    {args vs : List Value} {threads : Array Thread} {callee : Value} {m' : Machine}
    (hf : s.function? id = some (.native f)) (hp : f.run args = p >>= fun vs => pure (.ret vs)) :
    (e.context (caller (fuel + 1)) b callee).call .traceback (.fn id) args ⟨s, threads⟩ =
        some (.ok vs, m') ↔
      fuel ≠ 0 ∧ e.depth.deeper.natives ≠ maxNatives ∧ e.depth.deeper.slots + nativeSlots ≤ maxSlots ∧
        p.run (beneathCtx b e fuel (.fn id) threads) ⟨s, threads⟩ = some (.ok vs, m') := by
  have hcall : (e.context (caller (fuel + 1)) b callee).call .traceback (.fn id) args ⟨s, threads⟩ =
      (run (fuel + 1) (beneath b e) (.apply (.fn id) args s) (start (beneath b e) e.thread threads)).map
        fun f => (f.result, f.machine) := rfl
  have hraise {v : Value} {s' : Store} {e' : Exec} (hf : e'.frames = []) (hr : e'.resumers = []) :
      (run fuel (beneath b e) (.raise v s') e').map (fun f => (f.result, f.machine)) ≠
        some (.ok vs, m') := by
    intro h
    obtain ⟨⟨r, m⟩, hrun, h⟩ := Option.map_eq_some_iff.mp h
    cases h
    exact run_raise_ne_ok hf hr fuel v s' hrun
  rw [hcall, run_succ]
  -- Its one step looks first at the native stack, then at the stack of values, and then runs the function.
  by_cases hn : e.depth.deeper.natives = maxNatives
  · rw [step_crowded (e := start (beneath b e) e.thread threads) hn]
    exact ⟨fun h => absurd h (hraise rfl rfl), fun h => absurd hn h.2.1⟩
  by_cases hs : maxSlots < e.depth.deeper.slots + nativeSlots
  · rw [step_full (e := start (beneath b e) e.thread threads) hf hn hs]
    exact ⟨fun h => absurd h (hraise rfl rfl), fun h => absurd h.2.2.1 (Nat.not_le.mpr hs)⟩
  have hstep : (start (beneath b e) e.thread threads).step (caller fuel) (beneath b e)
      (.apply (.fn id) args s) = ((p >>= fun vs => pure (Verdict.ret vs) : Script Verdict).run
        (beneathCtx b e fuel (.fn id) threads) ⟨s, threads⟩).bind fun r => some (follow
          { start (beneath b e) e.thread threads with threads := r.2.threads } (beneath b e) r.1
            r.2.store) := by
    rw [← hp]
    exact step_entered (e := start (beneath b e) e.thread threads) hf hn (Nat.not_lt.mp hs) _
  rw [hstep, Script.run_bind]
  cases p.run (beneathCtx b e fuel (.fn id) threads) ⟨s, threads⟩ with
  | none => simp
  | some r =>
    obtain ⟨r, m⟩ := r
    cases r with
    | error v => exact ⟨fun h => absurd h (hraise rfl rfl), fun h => nomatch h.2.2.2⟩
    | ok ws =>
      cases fuel with
      | zero => exact ⟨nofun, fun h => absurd rfl h.1⟩
      | succ fuel => exact ⟨fun h => ⟨nofun, hn, Nat.not_lt.mp hs, h⟩, fun h => h.2.2.2⟩

end Exec

/-! ## Compiled code -/

/-- What a compiler in text mode says of compiled code. -/
def refusal : Bytes := "attempt to load a binary chunk (mode is 't')"

theorem compile_binary {source : Bytes} (h : isBinary source = true) (s : Store) (chunk : Bytes) :
    compile s source chunk .text = .error refusal := by
  rw [compile, if_pos h, if_neg (by decide)]
  exact congrArg Except.error (by decide +kernel)

/-- The value is compiled code or gives some: as a string, or as a function whose first piece begins with
it, after which none is asked for. -/
inductive Binary (ctx : Ctx) (m : Machine) : Value → Machine → Prop where
  | text {source : Bytes} (h : isBinary source = true) : Binary ctx m (.str source) m
  | reader {id : Nat} {rs : List Value} {piece : Bytes} {m' : Machine}
      (call : ctx.call (ctx.handler ()) (.fn id) [] m = some (.ok rs, m'))
      (text : (Value.first rs).text? = some piece) (h : isBinary piece = true) : Binary ctx m (.fn id) m'

/-- What passes for a chunk name: nothing, a string or a number. -/
def Names (name : Value) : Prop := name = .nil ∨ ∃ b, name.text? = some b

namespace Script

variable {ctx : Ctx} {m : Machine}

theorem optText_run (args : List Value) (n : Nat) (default : Bytes) :
    (optText args n default).run ctx m =
      if (arg args n).isNil then some (.ok default, m)
      else match (arg args n).text? with
        | some b => some (.ok b, m)
        | none => (badType args n "string" : Script Bytes).run ctx m := by
  unfold optText checkText
  split
  · rfl
  · cases (arg args n).text? <;> rfl

theorem optText_of_names {args : List Value} {n : Nat} (h : Names (arg args n)) (default : Bytes) :
    ∃ b, (optText args n default).run ctx m = some (.ok b, m) := by
  rw [optText_run]
  rcases h with h | ⟨b, h⟩
  · exact ⟨default, by rw [h]; rfl⟩
  · split
    · exact ⟨default, rfl⟩
    · exact ⟨b, by rw [h]⟩

theorem names_of_optText {args : List Value} {n : Nat} {default b : Bytes} {m' : Machine}
    (h : (optText args n default).run ctx m = some (.ok b, m')) : Names (arg args n) := by
  rw [optText_run] at h
  split at h
  · next hnil =>
    left
    cases hv : arg args n <;> first | rfl | (rw [hv] at hnil; cases hnil)
  · split at h
    · next b hb => exact .inr ⟨b, hb⟩
    · exact absurd h (badType_ne_ok _ _ _)

end Script

namespace BaseFn

variable {ctx : Ctx} {m m' m₁ : Machine} {chunk name environment : Value} {vs : List Value}

theorem readPieces_binary {id n : Nat} {rs : List Value} {piece : Bytes}
    (call : ctx.call (ctx.handler ()) (.fn id) [] m = some (.ok rs, m₁))
    (text : (Value.first rs).text? = some piece) (h : isBinary piece = true) :
    (readPieces (.fn id) (n + 1) .empty).run ctx m = some (.ok (.ok piece), m₁) := by
  have hattempt : (Script.attempt (.fn id) []).run ctx m = some (.ok (.ok rs), m₁) := by
    show (ctx.call (ctx.handler ()) (.fn id) [] m).bind _ = _
    rw [call]
    rfl
  have hempty : piece.isEmpty = false := by
    have hsize : 0 < piece.size := of_decide_eq_true (Bool.and_eq_true_iff.mp h).1
    exact beq_false_of_ne (Nat.ne_of_gt hsize)
  rw [readPieces, Script.run_bind, hattempt]
  cases hv : Value.first rs with
  | nil => rw [hv] at text; cases text
  | _ =>
    rw [hv] at text
    simp only [hv, text, hempty, ByteArray.empty_append, h, Bool.false_eq_true, if_false, if_true]
    rfl

theorem runLoad_binary (h : Binary ctx m chunk m₁) (hn : Names name) :
    (runLoad [chunk, name, .ofString "t", environment]).run ctx m =
      some (.ok [.nil, .str refusal], m₁) := by
  have hmode : (Script.optText [chunk, name, .ofString "t", environment] 3 "bt").run ctx m =
      some (.ok "t", m) := rfl
  have htext : (⟨(Bytes.ofString "t").beforeNul⟩ : Mode) = .text := congrArg Mode.mk (by decide +kernel)
  rw [runLoad, Script.run_bind, hmode]
  -- The name is read before anything is compiled, or asked of a reader.
  cases h with
  | @text source h =>
    have hname : Names (Script.arg [.str source, name, .ofString "t", environment] 2) := hn
    obtain ⟨b, hb⟩ := Script.optText_of_names hname source
    show (Script.optText [.str source, name, .ofString "t", environment] 2 source >>= _).run ctx m = _
    rw [Script.run_bind, hb]
    dsimp only
    rw [Script.run_bind, Script.run_read, htext, compile_binary h]
    rfl
  | @reader id rs piece _ call text h =>
    have hname : Names (Script.arg [.fn id, name, .ofString "t", environment] 2) := hn
    obtain ⟨b, hb⟩ := Script.optText_of_names hname "=(load)"
    show (Script.optText [.fn id, name, .ofString "t", environment] 2 "=(load)" >>= _).run ctx m = _
    rw [Script.run_bind, hb]
    show (readPieces (.fn id) maxPieces .empty >>= _).run ctx m = _
    rw [Script.run_bind, maxPieces, readPieces_binary call text h]
    dsimp only
    rw [Script.run_bind, Script.run_read, htext, compile_binary h]
    rfl

theorem names_of_runLoad
    (h : (runLoad [chunk, name, .ofString "t", environment]).run ctx m = some (.ok vs, m')) :
    Names name := by
  obtain ⟨mode, m₂, -, h⟩ := Script.ok_bind h
  dsimp only at h
  split at h
  · obtain ⟨b, _, hb, -⟩ := Script.ok_bind h
    exact Script.names_of_optText hb
  · obtain ⟨b, _, hb, -⟩ := Script.ok_bind h
    exact Script.names_of_optText hb

end BaseFn

/-! ## The two ways to compile -/

/-- The host's `load` accepts a chunk name: called with it, on an empty text, it raises no error. -/
def Accepts (ctx : Ctx) (m : Machine) (hostLoad name environment : Value) : Prop :=
  ∃ vs m', (Host.call hostLoad [.str .empty, name, .ofString "t", environment]).run ctx m = some (.ok vs, m')

/-- What a call of `load` comes to that was given compiled code, from where that has left machine `m'`:
whenever it returns it gives no function but a message, and it returns wherever the name is accepted. -/
structure Refuses (load : Host (List Value)) (ctx : Ctx) (m m' : Machine) (accepts : Prop) : Prop where
  never : ∀ vs m'', load.run ctx m = some (.ok vs, m'') → vs = [.nil, .str refusal] ∧ m'' = m'
  always : accepts → load.run ctx m = some (.ok [.nil, .str refusal], m')

section

open Exec

variable {e : Exec} {b : Surroundings} {callee : Value} {s : Store} {fuel id globals : Nat}
variable {args vs : List Value} {m' : Machine}

theorem load_returns_iff (hload : s.function? id = some (.native (.base .load))) :
    (Host.call (.fn id) args).run (e.context (caller (fuel + 1)) b callee) ⟨s, e.threads⟩ =
        some (.ok vs, m') ↔
      fuel ≠ 0 ∧ e.depth.deeper.natives ≠ maxNatives ∧ e.depth.deeper.slots + nativeSlots ≤ maxSlots ∧
        (BaseFn.runLoad args).run (beneathCtx b e fuel (.fn id) e.threads) ⟨s, e.threads⟩ =
          some (.ok vs, m') := by
  refine ⟨fun h => (call_native_iff hload rfl).mp (Host.ok_call h), fun h => ?_⟩
  rw [Host.run_call, (call_native_iff hload rfl).mpr h]

theorem load_refuses (hload : s.function? id = some (.native (.base .load)))
    (h : Binary (beneathCtx b e fuel (.fn id) e.threads) ⟨s, e.threads⟩ (args.getD 0 .nil) m') :
    Refuses ((GateFn.load (.fn id) globals).run args) (e.context (caller (fuel + 1)) b callee)
      ⟨s, e.threads⟩ m' (∃ environment, Accepts (e.context (caller (fuel + 1)) b callee) ⟨s, e.threads⟩
        (.fn id) (args.getD 1 .nil) environment) := by
  have hrun : (GateFn.load (.fn id) globals).run args =
      Host.call (.fn id) (GateFn.textArguments globals args) :=
    congrArg (Host.call _) (GateFn.loadArguments_eq globals args)
  rw [hrun]
  constructor
  · intro vs m'' hok
    obtain ⟨-, -, -, hok⟩ := (load_returns_iff hload).mp hok
    cases (BaseFn.runLoad_binary h (BaseFn.names_of_runLoad hok)).symm.trans hok
    exact ⟨rfl, rfl⟩
  · rintro ⟨environment, vs, m'', haccepts⟩
    obtain ⟨hfuel, hnatives, hslots, hok⟩ := (load_returns_iff hload).mp haccepts
    exact (load_returns_iff hload).mpr
      ⟨hfuel, hnatives, hslots, BaseFn.runLoad_binary h (BaseFn.names_of_runLoad hok)⟩

end

end Lua

namespace Sandbox

/-- The host does not compile a source for a sandbox, under no chunk name and for no environment. Wherever
the name is one that it compiles a text under, this is a syntax error. -/
structure Refuses (p : Sandbox) (source chunk : String) : Prop where
  never : ∀ environment ctx m f m', (p.load source chunk environment).run ctx m ≠ some (.ok f, m')
  always : (∃ environment ctx m f m', (p.load "" chunk environment).run ctx m = some (.ok f, m')) →
    ∀ ctx m, (∀ environment, (p.load source chunk environment).run ctx m =
        some (.error (.script (.syntaxError refusal.lossy false)), m)) ∧
      (p.executeNamed source chunk).run ctx m =
        some (.error (.script (.syntaxError refusal.lossy false)), m)

variable {source chunk : String} {environment : Value} {ctx : Ctx} {m m' : Machine}

theorem compileSource_binary (h : isBinary source = true) :
    (compileSource source chunk environment).run ctx m =
      match (Bytes.ofString chunk).find? (.ofList [0]) 0 with
      | some i => some (.error (.script (.runtime
          ("invalid name: nul byte found in provided data at position: " ++ toString i))), m)
      | none => some (.error (.script (.syntaxError refusal.lossy false)), m) := by
  unfold compileSource
  cases (Bytes.ofString chunk).find? (.ofList [0]) 0 with
  | some i => rfl
  | none =>
    have hbefore : refusal.beforeNul = refusal := by decide +kernel
    have hincomplete : isIncomplete refusal = false := by decide +kernel
    dsimp only
    rw [Host.run_bind, Host.run_read, compile_binary h]
    dsimp only
    rw [hbefore, hincomplete]
    rfl

theorem executeNamed_binary (p : Sandbox) (h : isBinary source = true)
    (hname : (Bytes.ofString chunk).find? (.ofList [0]) 0 = none) :
    (p.executeNamed source chunk).run ctx m =
      some (.error (.script (.syntaxError refusal.lossy false)), m) := by
  rw [executeNamed, Host.run_bind, Host.run_read]
  dsimp only
  rw [Host.run_bind, load, compileSource_binary h, hname]

theorem refuses (p : Sandbox) (h : isBinary source = true) (chunk : String) : p.Refuses source chunk := by
  constructor
  · intro environment ctx m f m' hok
    rw [load, compileSource_binary h] at hok
    split at hok <;> cases hok
  · rintro ⟨environment, ctx, m, f, m', hok⟩ ctx' m'
    have hname : (Bytes.ofString chunk).find? (.ofList [0]) 0 = none := by
      cases hi : (Bytes.ofString chunk).find? (.ofList [0]) 0 with
      | none => rfl
      | some i =>
        rw [load, compileSource, hi] at hok
        cases hok
    refine ⟨fun environment => ?_, p.executeNamed_binary h hname⟩
    rw [load, compileSource_binary h, hname]

end Sandbox

open Exec in
/-- The sandbox's `load` is the same for arguments that differ in the mode only: it is the host's in text
mode. Neither this nor the host's way to compile a source for a sandbox makes a function of compiled code,
whatever the mode, the environment and the chunk name are, and wherever a text is compiled under the name
compiled code is refused. -/
theorem only_text_is_compiled :
    (∀ hostLoad globals args args', GateFn.SameText args args' →
      (Native.gate (.load hostLoad globals)).run args = (Native.gate (.load hostLoad globals)).run args') ∧
    (∀ hostLoad globals args, (GateFn.load hostLoad globals).run args =
      Host.call hostLoad (GateFn.textArguments globals args)) ∧
    (∀ {e : Exec} {b : Surroundings} {callee : Value} {s : Store} {fuel id globals : Nat}
        {args : List Value} {m' : Machine}, s.function? id = some (.native (.base .load)) →
      Binary (beneathCtx b e fuel (.fn id) e.threads) ⟨s, e.threads⟩ (args.getD 0 .nil) m' →
      Refuses ((GateFn.load (.fn id) globals).run args) (e.context (caller (fuel + 1)) b callee)
        ⟨s, e.threads⟩ m' (∃ environment, Accepts (e.context (caller (fuel + 1)) b callee)
          ⟨s, e.threads⟩ (.fn id) (args.getD 1 .nil) environment)) ∧
    ∀ (p : Sandbox) (source : String), isBinary source = true → (∀ chunk, p.Refuses source chunk) ∧
      ∀ ctx m, (p.execute source).run ctx m =
        some (.error (.script (.syntaxError refusal.lossy false)), m) := by
  have hrun (hostLoad : Value) (globals : Nat) (args : List Value) :
      (GateFn.load hostLoad globals).run args = Host.call hostLoad (GateFn.textArguments globals args) :=
    congrArg (Host.call _) (GateFn.loadArguments_eq globals args)
  refine ⟨fun hostLoad globals args args' h => ?_, hrun, fun hload h => load_refuses hload h,
    fun p source h => ⟨p.refuses h, fun ctx m => ?_⟩⟩
  · rw [Native.run_gate, Native.run_gate, hrun, hrun, h.textArguments]
  · exact p.executeNamed_binary h (by decide +kernel)

/-- What `dump` made of a function, which is no text. -/
def dumped : String := "\x1bLua"

def loadingStore : Store := (({} : Store).newFunction (.native (.base .load))).2

def loadingSandbox : Sandbox := { globals := 0, modules := ⟨0, 0, 0⟩, output := 0, maxMemory := none }

open Exec in
/-- It is given to `load` in binary mode and without a mode, and to the host. -/
theorem only_text_is_compiled_dumped :
    (Native.gate (.load (.fn 0) 0)).run [.ofString dumped, .ofString "x", .ofString "b"] =
      (Native.gate (.load (.fn 0) 0)).run [.ofString dumped, .ofString "x"] ∧
    isBinary dumped = true ∧
    Accepts ((start {} 0 #[]).context (caller 2) {} .nil) ⟨loadingStore, #[]⟩ (.fn 0) (.ofString "x") .nil ∧
    ((GateFn.load (.fn 0) 0).run [.ofString dumped, .ofString "x", .ofString "b"]).run
        ((start {} 0 #[]).context (caller 2) {} .nil) ⟨loadingStore, #[]⟩ =
      some (.ok [.nil, .str refusal], ⟨loadingStore, #[]⟩) ∧
    loadingSandbox.Refuses dumped "x" := by
  have htext : isBinary dumped = true := by decide +kernel
  have haccepts : Accepts ((start {} 0 #[]).context (caller 2) {} .nil) ⟨loadingStore, #[]⟩ (.fn 0)
      (.ofString "x") .nil := ⟨_, _, by rfl⟩
  have hbinary : Binary (beneathCtx {} (start {} 0 #[]) 1 (.fn 0) #[]) ⟨loadingStore, #[]⟩
      (.ofString dumped) ⟨loadingStore, #[]⟩ := .text htext
  obtain ⟨hsame, -, hload, hsource⟩ := only_text_is_compiled
  have hrefuses : Refuses ((GateFn.load (.fn 0) 0).run [.ofString dumped, .ofString "x", .ofString "b"])
      ((start {} 0 #[]).context (caller 2) {} .nil) ⟨loadingStore, #[]⟩ ⟨loadingStore, #[]⟩
      (∃ environment, Accepts ((start {} 0 #[]).context (caller 2) {} .nil) ⟨loadingStore, #[]⟩ (.fn 0)
        (.ofString "x") environment) := hload rfl hbinary
  exact ⟨hsame _ _ _ _ ⟨rfl, rfl, rfl, by decide⟩, htext, haccepts, hrefuses.always ⟨_, haccepts⟩,
    (hsource _ _ htext).1 _⟩

end Cordon
