import Cordon.Proofs.Failure.Flags
import Cordon.Proofs.Sandbox.Transcripts

/-!
# Failed runs

A run that fails once it has started reports the engine's error with its memory failure made plain, and
what it had printed. Main statement: that keeps every answer about the failure, and a memory failure is
found as one, never as an error of the engine.
-/

namespace Cordon

open Lua

/-! ## What a run fails with -/

namespace Sandbox

/-- The source compiles, and running it fails with an error of the engine. -/
def Fails (b : Sandbox) (source chunk : String) (ctx : Ctx) (m : Machine) (e : ScriptError)
    (m' : Machine) : Prop :=
  ∃ f m₁, (b.load source chunk none).run ctx m = some (.ok f, m₁) ∧
    (Host.call f []).run ctx m₁ = some (.error (.script e), m')

variable {b : Sandbox} {source chunk : String} {ctx : Ctx} {m m' : Machine}

theorem call_error {f : Value} {args : List Value} {e : Failure}
    (h : (Host.call f args).run ctx m = some (.error e, m')) : ∃ cause, e = .script cause := by
  rw [Host.run_call] at h
  split at h
  · cases h
  · obtain ⟨r, -, hr⟩ := Option.map_eq_some_iff.mp h
    cases hr
    exact ⟨_, rfl⟩
  · cases h

/-- A run that fails reports the error of the engine, and only then a failed run is reported. -/
theorem executeNamed_execution_iff {g : Failure} {output : String} :
    (b.executeNamed source chunk).run ctx m = some (.error (.execution g output), m') ↔
      ∃ e, b.Fails source chunk ctx m e m' ∧ g = (Failure.script e).normalizeMemory ∧
        output = (m'.store.output b.output).since (m.store.output b.output).size := by
  rw [executeNamed, Host.run_bind, Host.run_read]
  dsimp only
  rw [Host.run_bind]
  constructor
  · intro h
    cases hload : (b.load source chunk none).run ctx m with
    | none =>
      rw [hload] at h
      cases h
    | some p =>
      obtain ⟨r, m₁⟩ := p
      rw [hload] at h
      cases r with
      | error e =>
        -- what compiling fails with is an error of the engine, and no failed run
        obtain ⟨_, hf, -⟩ | ⟨_, he, -⟩ := compile_cases hload
        · cases hf
        · cases he
          cases h
      | ok f =>
        dsimp only at h
        rw [Host.run_bind, Host.run_attempt] at h
        cases hcall : (Host.call f []).run ctx m₁ with
        | none =>
          rw [hcall] at h
          cases h
        | some p =>
          obtain ⟨result, m₂⟩ := p
          rw [hcall] at h
          cases result with
          | ok values => cases h
          | error e =>
            cases h
            obtain ⟨cause, rfl⟩ := call_error hcall
            exact ⟨cause, ⟨f, m₁, hload, hcall⟩, rfl, rfl⟩
  · rintro ⟨e, ⟨f, m₁, hload, hcall⟩, rfl, rfl⟩
    simp only [hload, Host.run_bind, Host.run_attempt, hcall]
    rfl

end Sandbox

/-! ## What is found behind it -/

namespace Failure

theorem flags_execution (f : Failure) (output : String) : (execution f output).flags = f.flags :=
  flags_of_classify rfl

theorem classify_normalized {e : ScriptError} (h : (script e).isMemoryLimit = true) (output : String) :
    (execution (script e).normalizeMemory output).classify = .memoryLimit e.message := by
  show (script e).normalizeMemory.classify = _
  rw [(normalizes (script e)).wrapped h nofun]
  rfl

/-- Making memory failures plain keeps all answers, of which at most one names a kind, leaves every other
failure as it is and does nothing more the second time. So a failed run is answered for as the engine's
error is, and a memory failure behind it is found as such, with the full text. -/
theorem memory_failures_made_plain :
    (∀ f : Failure, f.Normalizes f.normalizeMemory ∧ f.flags.kinds ≤ 1 ∧
      f.normalizeMemory.normalizeMemory = f.normalizeMemory) ∧
    ∀ (b : Sandbox) (source chunk : String) (ctx : Ctx) (m m' : Machine) (e : ScriptError),
      b.Fails source chunk ctx m e m' → ∃ output, (b.executeNamed source chunk).run ctx m =
          some (.error (.execution (script e).normalizeMemory output), m') ∧
        (execution (script e).normalizeMemory output).flags = (script e).flags ∧
        ((script e).isMemoryLimit = true →
          (execution (script e).normalizeMemory output).classify = .memoryLimit e.message) := by
  refine ⟨fun f => ⟨normalizes f, kinds_flags_le f, normalizeMemory_idem f⟩, ?_⟩
  intro b source chunk ctx m m' e h
  refine ⟨_, Sandbox.executeNamed_execution_iff.mpr ⟨e, h, rfl, rfl⟩, ?_, fun hm => ?_⟩
  · rw [flags_execution, (normalizes (script e)).flags]
  · exact classify_normalized hm _

def runsOut {α : Type} : Option (Except Failure α × Machine) → Bool
  | some (.error e, _) => e.isMemoryLimit
  | _ => false

theorem exists_of_runsOut {ctx : Ctx} {m : Machine} {f : Value} {args : List Value}
    (h : runsOut ((Host.call f args).run ctx m) = true) : ∃ e m',
      (Host.call f args).run ctx m = some (.error (.script e), m') ∧
      (script e).isMemoryLimit = true := by
  unfold runsOut at h
  split at h
  · next e m' hcall =>
    obtain ⟨cause, rfl⟩ := Sandbox.call_error hcall
    exact ⟨cause, m', hcall, h⟩
  · cases h

/-- A run that prints and then raises the message of a failed allocation. -/
theorem memory_failures_made_plain_raised : ∃ (b : Sandbox) (m m' : Machine) (e : ScriptError)
    (output : String),
    b.Fails "print('a') error('not enough memory', 0)" "=x" (Machine.outside 1000) m e m' ∧
    (script e).isMemoryLimit = true ∧
    (b.executeNamed "print('a') error('not enough memory', 0)" "=x").run (Machine.outside 1000) m =
      some (.error (.execution (script e).normalizeMemory output), m') ∧
    (execution (script e).normalizeMemory output).flags = (script e).flags ∧
    (execution (script e).normalizeMemory output).classify = .memoryLimit e.message := by
  obtain ⟨b, m, -, hr⟩ := exists_of_endsWith
    (q := fun b m => endsWith (fun f m => runsOut ((Host.call f []).run (Machine.outside 1000) m))
      ((b.load "print('a') error('not enough memory', 0)" "=x" none).run (Machine.outside 1000) m))
    (r := Machine.fresh.perform 1000 (Sandbox.open .plain)) (by decide +kernel)
  obtain ⟨f, m₁, hload, hr⟩ := exists_of_endsWith hr
  obtain ⟨e, m', hcall, he⟩ := exists_of_runsOut hr
  have hfails : b.Fails _ "=x" _ m e m' := ⟨f, m₁, hload, hcall⟩
  obtain ⟨output, hrun, hflags, hclassify⟩ := memory_failures_made_plain.2 b _ _ _ m m' e hfails
  exact ⟨b, m, m', e, output, hfails, he, hrun, hflags, hclassify he⟩

end Failure

end Cordon
