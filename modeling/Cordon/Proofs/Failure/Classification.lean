import Cordon.Failure.Classify

/-!
# What classification finds

Callback and context layers hide nothing. A failure that is itself an engine error or a failed run is
found as it is, so what is behind it is not classified a second time. Main statements: a failure that
has gone through the engine is classified as before if and only if it is no failed run, and the test of
protected calls agrees with the host's if and only if nothing fatal is behind the failure found.
-/

namespace Cordon

/-- What an error gets on its way through the engine. -/
inductive Layer where
  | callback (traceback : String)
  | context (note : String)

def Layer.wrap : Layer → ScriptError → ScriptError
  | callback traceback, e => .callback traceback e
  | context note, e => .context note e

namespace ScriptError

/-- The error in these layers, the outermost one first. -/
def within (layers : List Layer) (e : ScriptError) : ScriptError := layers.foldr Layer.wrap e

/-- What does not look at layers is the same within them. -/
theorem within_induct {α : Type} {p : ScriptError → α} (h : ∀ l e, p (Layer.wrap l e) = p e)
    (layers : List Layer) (e : ScriptError) : p (e.within layers) = p e := by
  induction layers with
  | nil => rfl
  | cons l ls ih => exact (h l _).trans ih

@[simp] theorem failure?_within (layers : List Layer) (e : ScriptError) :
    (e.within layers).failure? = e.failure? := within_induct (by rintro (_ | _) _ <;> rfl) layers e

@[simp] theorem isMemory_within (layers : List Layer) (e : ScriptError) :
    (e.within layers).isMemory = e.isMemory := within_induct (by rintro (_ | _) _ <;> rfl) layers e

theorem sizeOf_failure? : ∀ {e : ScriptError} {f : Failure}, e.failure? = some f → sizeOf f < sizeOf e
  | .host g, f, h => by
    cases h
    decreasing_tactic
  | .callback traceback cause, f, h => by
    have := sizeOf_failure? (e := cause) h
    simp only [callback.sizeOf_spec]
    omega
  | .context note cause, f, h => by
    have := sizeOf_failure? (e := cause) h
    simp only [context.sizeOf_spec]
    omega

theorem failure?_of_isMemory : ∀ {e : ScriptError}, e.isMemory = true → e.failure? = none
  | .memory _, _ => rfl
  | .runtime _, _ => rfl
  | .callback _ cause, h => failure?_of_isMemory (e := cause) h
  | .context _ cause, h => failure?_of_isMemory (e := cause) h

end ScriptError

namespace Failure

variable {f : Failure} {e : ScriptError}

theorem sizeOf_classify_le : ∀ f : Failure, sizeOf f.classify ≤ sizeOf f
  | .script e => by
    unfold classify
    cases h : e.failure? with
    | none => exact Nat.le_refl _
    | some f =>
      have := ScriptError.sizeOf_failure? h
      simp only [Option.getD_some, script.sizeOf_spec]
      omega
  | .execution source output => by
    have := sizeOf_classify_le source
    simp only [classify, execution.sizeOf_spec]
    omega
  | .argument .. | .moduleNotFound .. | .searcherContract _ | .memoryLimit _ | .setup _ | .config _ =>
    Nat.le_refl _

theorem classify_execution_ne (source : Failure) (output : String) :
    (execution source output).classify ≠ .execution source output := by
  intro h
  have := sizeOf_classify_le source
  rw [classify] at h
  rw [h, execution.sizeOf_spec] at this
  omega

theorem classify_script (h : e.failure? = some f) : (script e).classify = f := by
  rw [classify, h, Option.getD_some]

theorem classify_script_of_none (h : e.failure? = none) : (script e).classify = .script e := by
  rw [classify, h, Option.getD_none]

/-- What comes out of the engine when a host function returns the failure. -/
def returned (f : Failure) (layers : List Layer) : Failure := .script (f.toScript.within layers)

/-- The failure is classified as before once it has gone through the engine. -/
structure Survives (f : Failure) (layers : List Layer) : Prop where
  same : f.classify.kind ≠ .script → (f.returned layers).classify = f.classify
  /-- An engine error may get layers. -/
  script : ∀ e, f.classify = .script e →
    ∃ outer, (f.returned layers).classify = .script (e.within outer)
  isArgument : (f.returned layers).isArgument = f.isArgument
  isModuleNotFound : (f.returned layers).isModuleNotFound = f.isModuleNotFound
  isSearcherContract : (f.returned layers).isSearcherContract = f.isSearcherContract
  isMemoryLimit : (f.returned layers).isMemoryLimit = f.isMemoryLimit
  isFatal : (f.returned layers).isFatal = f.isFatal

theorem Survives.of_classify {layers : List Layer} (h : (f.returned layers).classify = f.classify) :
    f.Survives layers where
  same _ := h
  script _ he := ⟨[], h.trans he⟩
  isArgument := by unfold Failure.isArgument; rw [h]
  isModuleNotFound := by unfold Failure.isModuleNotFound; rw [h]
  isSearcherContract := by unfold Failure.isSearcherContract; rw [h]
  isMemoryLimit := by unfold Failure.isMemoryLimit; rw [h]
  isFatal := by unfold Failure.isFatal Failure.isSearcherContract Failure.isMemoryLimit; rw [h]

theorem survives_script (e : ScriptError) (layers : List Layer) : (script e).Survives layers := by
  cases h : e.failure? with
  | some f =>
    refine .of_classify ?_
    rw [classify_script h]
    exact classify_script ((ScriptError.failure?_within layers e).trans h)
  | none =>
    have hr : ((script e).returned layers).classify = .script (e.within layers) :=
      classify_script_of_none ((ScriptError.failure?_within layers e).trans h)
    have he := classify_script_of_none h
    have hm : ((script e).returned layers).isMemoryLimit = (script e).isMemoryLimit := by
      unfold Failure.isMemoryLimit
      rw [hr, he]
      exact ScriptError.isMemory_within layers e
    have hc : ((script e).returned layers).isSearcherContract = (script e).isSearcherContract := by
      unfold Failure.isSearcherContract
      rw [hr, he]
      rfl
    refine ⟨fun hk => ?_, fun e' h' => ⟨layers, ?_⟩, ?_, ?_, hc, hm, ?_⟩
    · rw [he] at hk
      exact absurd rfl hk
    · rw [he] at h'
      cases h'
      exact hr
    · unfold Failure.isArgument
      rw [hr, he]
      rfl
    · unfold Failure.isModuleNotFound
      rw [hr, he]
      rfl
    · unfold Failure.isFatal
      rw [hc, hm]

theorem classify_returned {layers : List Layer} (h : f.toScript = .host f) :
    (f.returned layers).classify = f := by
  refine classify_script ?_
  rw [ScriptError.failure?_within, h]
  rfl

/-- A failure comes through the engine with its classification if and only if it is no failed run: what
is behind that one is not looked at. -/
theorem survives_iff (f : Failure) (layers : List Layer) :
    f.Survives layers ↔ f.kind ≠ .execution := by
  constructor
  · rintro h hk
    cases f with
    | execution source output =>
      have hr : ((execution source output).returned layers).classify = .execution source output :=
        classify_returned rfl
      cases hs : (execution source output).classify with
      | script e =>
        obtain ⟨outer, ho⟩ := h.script e hs
        cases hr.symm.trans ho
      | _ =>
        have hsame := h.same (by rw [hs]; exact nofun)
        exact classify_execution_ne source output (hsame.symm.trans hr)
    | _ => cases hk
  · intro hk
    cases f with
    | script e => exact survives_script e layers
    | execution => exact absurd rfl hk
    | _ => exact .of_classify (classify_returned rfl)

/-- The failed run of a nested sandbox that broke a searcher's contract. -/
def nestedContract : Failure := .execution (.searcherContract "bad") ""

theorem nested_contract_does_not_survive : ¬ nestedContract.Survives [] := fun h =>
  absurd h.isSearcherContract (by decide)

/-! ## The two tests for fatal errors -/

/-- Fatal by its own kind, whatever may be behind it. -/
def openlyFatal : Failure → Bool
  | .searcherContract _ => true
  | .memoryLimit _ => true
  | .script e => e.isMemory
  | _ => false

theorem isFatal_eq (f : Failure) : f.isFatal = f.classify.openlyFatal := by
  unfold Failure.isFatal Failure.isSearcherContract Failure.isMemoryLimit
  cases f.classify <;> rfl

/-- Something other than the failure itself is behind it: then it is not fatal by its own kind. -/
theorem openlyFatal_of_classify_ne (h : f.classify ≠ f) : f.openlyFatal = false := by
  cases f with
  | script e =>
    cases hf : e.failure? with
    | none => exact absurd (classify_script_of_none hf) h
    | some g =>
      cases hm : e.isMemory with
      | false => exact hm
      | true =>
        rw [ScriptError.failure?_of_isMemory hm] at hf
        cases hf
  | execution => rfl
  | _ => exact absurd rfl h

end Failure

/-- The test by which protected calls raise an error again is the one by which the host judges it if and
only if a failure found behind the layers is not fatal for the sake of another one behind it. -/
theorem ScriptError.isFatal_eq_iff (e : ScriptError) : e.isFatal = (Failure.script e).isFatal ↔
    ∀ f, e.failure? = some f → f.isFatal = true → f.classify = f := by
  rw [Failure.isFatal_eq]
  unfold ScriptError.isFatal
  cases h : e.failure? with
  | none =>
    rw [Failure.classify_script_of_none h]
    exact ⟨fun _ _ => nofun, fun _ => rfl⟩
  | some f =>
    rw [Failure.classify_script h]
    show f.isFatal = f.openlyFatal ↔ _
    constructor
    · rintro he g ⟨⟩ hf
      refine Classical.byContradiction fun hc => ?_
      rw [he, Failure.openlyFatal_of_classify_ne hc] at hf
      cases hf
    · intro hc
      by_cases hf : f.isFatal = true
      · rw [f.isFatal_eq, hc f rfl hf]
      · have hopen : f.openlyFatal = false := by
          by_cases hs : f.classify = f
          · rwa [f.isFatal_eq, hs, Bool.not_eq_true] at hf
          · exact Failure.openlyFatal_of_classify_ne hs
        rw [hopen]
        exact Bool.eq_false_iff.mpr hf

/-- The failed run of a nested sandbox that ran out of memory. -/
def nestedLimit : ScriptError := .host (.execution (.memoryLimit "test") "before\n")

theorem tests_differ_on_nested_limit : nestedLimit.isFatal ≠ (Failure.script nestedLimit).isFatal := by
  decide

end Cordon
