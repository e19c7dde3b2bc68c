import Cordon.Proofs.Failure.Classification

/-!
# Answers about failures

Whoever gets a failure asks five questions about it. Callback and context layers change none of the
answers, and nor does making a plain memory failure of one in any wrapping.
-/

namespace Cordon

namespace Failure

/-- The answers to the questions about a failure. -/
structure Flags where
  argument : Bool
  moduleNotFound : Bool
  searcherContract : Bool
  memoryLimit : Bool
  fatal : Bool
  deriving DecidableEq

def flags (f : Failure) : Flags where
  argument := f.isArgument
  moduleNotFound := f.isModuleNotFound
  searcherContract := f.isSearcherContract
  memoryLimit := f.isMemoryLimit
  fatal := f.isFatal

/-- How many kinds the answers name. -/
def Flags.kinds (a : Flags) : Nat :=
  [a.argument, a.moduleNotFound, a.searcherContract, a.memoryLimit].count true

variable {f g : Failure}

theorem flags_of_classify (h : f.classify = g.classify) : f.flags = g.flags := by
  unfold flags isFatal isArgument isModuleNotFound isSearcherContract isMemoryLimit
  rw [h]

theorem kinds_flags_le (f : Failure) : f.flags.kinds ≤ 1 := by
  unfold Flags.kinds flags isArgument isModuleNotFound isSearcherContract isMemoryLimit
  cases f.classify with
  | script e =>
    dsimp only
    cases e.isMemory <;> exact Nat.le_of_ble_eq_true rfl
  | _ => exact Nat.le_of_ble_eq_true rfl

/-! ## Layers -/

theorem flags_within (layers : List Layer) (e : ScriptError) :
    (script (e.within layers)).flags = (script e).flags := by
  have h := survives_script e layers
  unfold flags
  congr 1
  · exact h.isArgument
  · exact h.isModuleNotFound
  · exact h.isSearcherContract
  · exact h.isMemoryLimit
  · exact h.isFatal

theorem kind_classify_within (layers : List Layer) (e : ScriptError) :
    (script (e.within layers)).classify.kind = (script e).classify.kind := by
  have hw := ScriptError.failure?_within layers e
  cases h : e.failure? with
  | some f => rw [classify_script (hw.trans h), classify_script h]
  | none =>
    rw [classify_script_of_none (hw.trans h), classify_script_of_none h]
    rfl

/-! ## Memory failures -/

theorem flags_of_isMemoryLimit (h : f.isMemoryLimit = true) :
    f.flags = ⟨false, false, false, true, true⟩ := by
  have hkinds := kinds_flags_le f
  unfold Flags.kinds flags at hkinds
  unfold flags isFatal
  rw [h] at hkinds ⊢
  cases hargument : f.isArgument <;> cases hmissing : f.isModuleNotFound <;>
    cases hcontract : f.isSearcherContract <;> simp_all

/-- `g` is `f`, made a plain memory failure if it is one in some wrapping. -/
structure Normalizes (f g : Failure) : Prop where
  flags : g.flags = f.flags
  plain : g.kind = .memoryLimit ↔ f.isMemoryLimit = true
  wrapped : f.isMemoryLimit = true → f.kind ≠ .memoryLimit → g = .memoryLimit f.message
  unchanged : f.isMemoryLimit = false ∨ f.kind = .memoryLimit → g = f

theorem normalizeMemory_of_kind (h : f.kind = .memoryLimit) : f.normalizeMemory = f := by
  cases f with
  | memoryLimit => rfl
  | _ => cases h

theorem normalizeMemory_of_kind_ne (h : f.kind ≠ .memoryLimit) :
    f.normalizeMemory = if f.isMemoryLimit then .memoryLimit f.message else f := by
  cases f with
  | memoryLimit => exact absurd rfl h
  | _ => rfl

theorem isMemoryLimit_of_kind (h : f.kind = .memoryLimit) : f.isMemoryLimit = true := by
  cases f with
  | memoryLimit => rfl
  | _ => cases h

theorem normalizes (f : Failure) : f.Normalizes f.normalizeMemory := by
  by_cases hk : f.kind = .memoryLimit
  · have hf := normalizeMemory_of_kind hk
    rw [hf]
    exact ⟨rfl, iff_of_true hk (isMemoryLimit_of_kind hk), fun _ hne => absurd hk hne, fun _ => rfl⟩
  · have hf := normalizeMemory_of_kind_ne hk
    by_cases hm : f.isMemoryLimit = true
    · rw [hf, if_pos hm]
      refine ⟨(flags_of_isMemoryLimit hm).symm, iff_of_true rfl hm, fun _ _ => rfl, ?_⟩
      rintro (h | h)
      · rw [hm] at h
        cases h
      · exact absurd h hk
    · rw [hf, if_neg hm]
      exact ⟨rfl, iff_of_false hk hm, fun h => absurd h hm, fun _ => rfl⟩

/-- What was normalised already is left alone. -/
theorem normalizeMemory_idem (f : Failure) : f.normalizeMemory.normalizeMemory = f.normalizeMemory := by
  have h := normalizes f
  by_cases hm : f.isMemoryLimit = true
  · exact normalizeMemory_of_kind (h.plain.mpr hm)
  · rw [h.unchanged (.inl (Bool.eq_false_iff.mpr hm))]
    exact h.unchanged (.inl (Bool.eq_false_iff.mpr hm))

end Failure

/-- Layers of any number and order change neither what is found behind an error, nor whether a protected
call raises it again, nor any answer about the failure that the host takes it for. -/
theorem ScriptError.layers_are_transparent (layers : List Layer) (e : ScriptError) :
    (e.within layers).failure? = e.failure? ∧ (e.within layers).isFatal = e.isFatal ∧
      (Failure.script (e.within layers)).flags = (Failure.script e).flags ∧
      (Failure.script (e.within layers)).classify.kind = (Failure.script e).classify.kind := by
  refine ⟨failure?_within layers e, ?_, Failure.flags_within layers e,
    Failure.kind_classify_within layers e⟩
  unfold isFatal
  rw [failure?_within, isMemory_within]

end Cordon
