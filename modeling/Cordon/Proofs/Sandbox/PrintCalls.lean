import Cordon.Proofs.Lua.Follows
import Cordon.Proofs.Sandbox.Transcripts

/-!
# Calls of `print`

A call of `print` has its arguments made texts, one after the other, by code that may print itself, fail
or go on without end. It captures one line at the end, or none, and what the conversions print stands
before it.
-/

namespace Cordon

open Lua

namespace Lua.GateFn

variable {ctx : Ctx} {tostring : Value} {m m' : Machine} {v : Value} {args : List Value}

/-! ## Conversions -/

/-- The values are made these texts in turn, each where the one before has left the machine. -/
inductive Converts (ctx : Ctx) (tostring : Value) :
    Machine → List Value → List String → Machine → Prop where
  | nil (m : Machine) : Converts ctx tostring m [] [] m
  | cons {m m₁ m' : Machine} {v : Value} {vs ws : List Value} {b : Bytes} {texts : List String}
      (call : (Host.call tostring [v]).run ctx m = some (.ok ws, m₁))
      (text : (Value.first ws).text? = some b) (rest : Converts ctx tostring m₁ vs texts m') :
      Converts ctx tostring m (v :: vs) (b.lossy :: texts) m'

def notText (v : Value) : Failure :=
  .script (.conversion v.hostTypeName "string" (some "expected string or number"))

/-- A value is not made a text: the call fails, or gives something else. -/
inductive Unconverted (ctx : Ctx) (tostring : Value) (m : Machine) (v : Value) :
    Failure → Machine → Prop where
  | failed {e : Failure} {m' : Machine}
      (call : (Host.call tostring [v]).run ctx m = some (.error e, m')) :
      Unconverted ctx tostring m v e m'
  | textless {ws : List Value} {m' : Machine}
      (call : (Host.call tostring [v]).run ctx m = some (.ok ws, m'))
      (text : (Value.first ws).text? = none) :
      Unconverted ctx tostring m v (notText (.first ws)) m'

/-- What the conversions come to. None is made after one that fails. -/
inductive Conversion (ctx : Ctx) (tostring : Value) (m : Machine) (args : List Value) :
    Option (Except Failure (List String) × Machine) → Prop where
  | done {texts : List String} {m' : Machine} (converted : Converts ctx tostring m args texts m') :
      Conversion ctx tostring m args (some (.ok texts, m'))
  | failed {before after : List Value} {v : Value} {texts : List String} {e : Failure} {m₁ m' : Machine}
      (split : args = before ++ v :: after) (converted : Converts ctx tostring m before texts m₁)
      (failure : Unconverted ctx tostring m₁ v e m') :
      Conversion ctx tostring m args (some (.error e, m'))
  | endless {before after : List Value} {v : Value} {texts : List String} {m₁ : Machine}
      (split : args = before ++ v :: after) (converted : Converts ctx tostring m before texts m₁)
      (call : (Host.call tostring [v]).run ctx m₁ = none) : Conversion ctx tostring m args none

theorem conversion_cons {vs : List Value} {ws : List Value} {m₁ : Machine} {b : Bytes}
    (call : (Host.call tostring [v]).run ctx m = some (.ok ws, m₁))
    (text : (Value.first ws).text? = some b)
    {r : Option (Except Failure (List String) × Machine)} (h : Conversion ctx tostring m₁ vs r) :
    Conversion ctx tostring m (v :: vs)
      (r.map fun x => (x.1.map (b.lossy :: ·), x.2)) := by
  cases h with
  | done converted => exact .done (.cons call text converted)
  | failed split converted failure =>
    exact .failed (congrArg (v :: ·) split) (.cons call text converted) failure
  | endless split converted hnone =>
    exact .endless (congrArg (v :: ·) split) (.cons call text converted) hnone

theorem texts_conversion : ∀ (args : List Value) (m : Machine),
    Conversion ctx tostring m args ((GateFn.texts tostring args).run ctx m)
  | [], m => .done (.nil m)
  | v :: vs, m => by
    rw [GateFn.texts, Host.run_bind]
    cases hcall : (Host.call tostring [v]).run ctx m with
    | none => exact .endless rfl (.nil m) hcall
    | some x =>
      obtain ⟨x, m₁⟩ := x
      cases x with
      | error e => exact .failed rfl (.nil m) (.failed hcall)
      | ok ws =>
        cases htext : (Value.first ws).text? with
        | none =>
          simp only [htext]
          exact .failed rfl (.nil m) (.textless hcall htext)
        | some b =>
          have hrest := conversion_cons hcall htext (texts_conversion vs m₁)
          simp only [htext, Host.run_bind]
          cases hvs : (GateFn.texts tostring vs).run ctx m₁ with
          | none => rwa [hvs] at hrest
          | some y =>
            obtain ⟨y, m₂⟩ := y
            rw [hvs] at hrest
            cases y <;> exact hrest

/-! ## Lines -/

/-- What a call of `print` comes to, where `lines` were printed by conversions. Each outcome names the
machine that it leaves, so that nothing else happens to it. -/
inductive PrintCall (ctx : Ctx) (tostring : Value) (out : Nat) (echo : Bool) (m : Machine)
    (args : List Value) : Option (Except Value Verdict × Machine) → Prop where
  /-- All arguments are converted, and then their line is captured. -/
  | line {texts lines : List String} {m₁ : Machine} {s : Store}
      (converted : Converts ctx tostring m args texts m₁)
      (nested : Store.Prints out m.store lines m₁.store)
      (store : s = (if echo then m₁.store.report (.printed (String.intercalate "\t" texts))
        else m₁.store).printLine out (String.intercalate "\t" texts))
      (captured : (s.output out).text =
        (m₁.store.output out).text ++ (String.intercalate "\t" texts ++ "\n"))
      (whole : (s.output out).text =
        (m.store.output out).text ++ Output.printed (lines ++ [String.intercalate "\t" texts])) :
      PrintCall ctx tostring out echo m args (some (.ok (.ret []), ⟨s, m₁.threads⟩))
  /-- The argument `v` is not converted. The failure is raised, and the captured text is as the last
  conversion has left it. -/
  | nothing {before after : List Value} {v : Value} {texts lines : List String} {e : Failure}
      {m₁ m₂ : Machine} (split : args = before ++ v :: after)
      (converted : Converts ctx tostring m before texts m₁)
      (failure : Unconverted ctx tostring m₁ v e m₂)
      (error : (Script.blamed m₂ e).store.fault m₂.store.faults.size = .callback tracebackText e.toScript)
      (nested : Store.Prints out m.store lines m₂.store)
      (captured : ((Script.blamed m₂ e).store.output out).text = (m₂.store.output out).text)
      (whole : ((Script.blamed m₂ e).store.output out).text =
        (m.store.output out).text ++ Output.printed lines) :
      PrintCall ctx tostring out echo m args
        (some (.error (.fault m₂.store.faults.size), Script.blamed m₂ e))
  /-- The conversion of `v` does not end. -/
  | endless {before after : List Value} {v : Value} {texts : List String} {m₁ : Machine}
      (split : args = before ++ v :: after) (converted : Converts ctx tostring m before texts m₁)
      (call : (Host.call tostring [v]).run ctx m₁ = none) : PrintCall ctx tostring out echo m args none

variable {out : Nat} {echo : Bool}

theorem printCall_of_lawful (hc : ctx.Lawful (Within fun s s' => ∃ lines, Store.Prints out s lines s'))
    (hm : m.Calm) (ho : out < m.store.outputs.size) (args : List Value) :
    PrintCall ctx tostring out echo m args
      (((Native.gate (.print tostring out echo)).run args).run ctx m) := by
  have hprinted {r : Except Failure (List String)} {m' : Machine}
      (h : (GateFn.texts tostring args).run ctx m = some (r, m')) :=
    (texts_obeys hc tostring args _ _ _ h hm).2
  have hconversion : Conversion ctx tostring m args _ := texts_conversion args m
  generalize hr : (GateFn.texts tostring args).run ctx m = r at hconversion
  cases hconversion with
  | @done texts m₁ converted =>
    obtain ⟨lines, nested⟩ := hprinted hr
    obtain ⟨hlt, htext⟩ := nested.text ho
    have hrun : (runPrint tostring out echo args).run ctx m = _ := run_runPrint hr
    have hpushed := (Store.output_of_pushed (outputs_runPrint hr hrun).1 hlt).2
    rw [if_pos rfl] at hpushed
    rw [Native.run_gate_ok ctx m (f := .print tostring out echo) hrun]
    refine .line converted nested rfl ?_ ?_
    · rw [hpushed, Output.push, String.append_assoc]
    · rw [hpushed, Output.push, htext, Output.printed_append, Output.printed_one, String.append_assoc,
        String.append_assoc]
  | @failed before after v texts e m₁ m₂ split converted failure =>
    -- Conversions that came before have printed their lines, and so may have the one that fails.
    obtain ⟨lines, nested⟩ := hprinted hr
    have hrun : (runPrint tostring out echo args).run ctx m = _ := runPrint_of_error hr
    rw [Native.run_gate_error ctx m (f := .print tostring out echo) hrun]
    exact .nothing split converted failure (Store.fault_newFault ..) nested rfl (nested.text ho).2
  | endless split converted call =>
    have hrun : (runPrint tostring out echo args).run ctx m = none := by
      rw [runPrint, Host.run_bind, hr]
    rw [Native.run_gate_none ctx m (f := .print tostring out echo) hrun]
    exact .endless split converted call

/-- Whatever program calls a `print` that captures into `out`, with whatever arguments and in whatever state
of the machine: one line of the texts of all arguments is captured at the end, or nothing of this call is,
and then the call fails as the conversion of one argument has failed, after which none is converted. -/
theorem print_one_line_or_nothing {e : Exec} (he : e.Calm) {s : Store} (ho : out < s.outputs.size)
    (fuel : Nat) (around : Surroundings) (callee tostring : Value) (echo : Bool) (args : List Value) :
    PrintCall (e.context (Exec.caller fuel) around callee) tostring out echo ⟨s, e.threads⟩ args
      (((Native.gate (.print tostring out echo)).run args).run
        (e.context (Exec.caller fuel) around callee) ⟨s, e.threads⟩) := by
  have hlaw := Store.Prints.law out
  have hcaller : Caller.Within (fun s s' => ∃ lines, Store.Prints out s lines s') (Exec.caller fuel) :=
    fun {_ _ fn args m _} hrun hm =>
      Exec.run_within hlaw fuel (c := .apply fn args m.store) (Store.Still.refl m.store)
        (Exec.start_calm hm) hrun
  exact printCall_of_lawful (m := ⟨s, e.threads⟩) (Exec.context_lawful hlaw hcaller e around callee)
    he.threads ho args

/-- A value that prints while it is made a text. -/
def nestedSource : String :=
  "return setmetatable(\x7b\x7d, \x7b__tostring = function() print('in', 'side') return 'out' end\x7d)"

/-- Whether `print` captures this text of a value and 1, at the end of a run that has given the value. -/
def capturing (b : Sandbox) (text : String) (tostring v : Value) (m : Machine) : Bool :=
  match ((Native.gate (.print tostring b.output false)).run [v, .int 1]).run
    ((Exec.start {} 0 m.threads).context (Exec.caller 100) {} .nil) m with
  | some (.ok (.ret []), m') => (m'.store.output b.output).text == text
  | _ => false

/-- The line of the value's own `print` stands before the one of the call. -/
theorem print_one_line_or_nothing_nested : ∃ (b : Sandbox) (r : Run) (m₀ m m' : Machine) (tostring : Value),
    Machine.fresh.perform 1000 (Sandbox.open .plain) = some (.ok b, m₀) ∧
    m₀.perform 1000 (b.execute nestedSource) = some (.ok r, m) ∧
    (Exec.start {} 0 m.threads).Calm ∧ b.output < m.store.outputs.size ∧
    PrintCall ((Exec.start {} 0 m.threads).context (Exec.caller 100) {} .nil) tostring b.output false m
      [r.first, .int 1] (some (.ok (.ret []), m')) ∧
    (m'.store.output b.output).text = "in\tside\nout\t1\n" := by
  obtain ⟨b, m₀, hopen, hr⟩ := exists_of_endsWith
    (q := fun b m => endsWith (fun r m => capturing b "in\tside\nout\t1\n"
        (m.store.rawGet m.store.globals (.str ("tostring" : Bytes))) r.first m)
      (m.perform 1000 (b.execute nestedSource)))
    (r := Machine.fresh.perform 1000 (Sandbox.open .plain)) (by decide +kernel)
  obtain ⟨r, m, hrun, hprint⟩ := exists_of_endsWith hr
  have hlive := Sandbox.open_live Machine.fresh_calm hopen
  obtain ⟨lines, hcomes, hm⟩ := Sandbox.run_comes hlive hrun
  have hcalm : (Exec.start {} 0 m.threads).Calm := Exec.start_calm hm
  have hout := (hcomes.text hlive.output).1
  have hcall := print_one_line_or_nothing hcalm hout 100 {} .nil
    (m.store.rawGet m.store.globals (.str ("tostring" : Bytes))) false [r.first, .int 1]
  unfold capturing at hprint
  split at hprint
  · next m' hm' =>
    change PrintCall _ _ _ _ m _ (((Native.gate _).run _).run _ m) at hcall
    rw [hm'] at hcall
    exact ⟨b, r, m₀, m, m', _, hopen, hrun, hcalm, hout, hcall, eq_of_beq hprint⟩
  · cases hprint

end Lua.GateFn

end Cordon
