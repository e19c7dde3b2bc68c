import Cordon.Proofs.Fresh
import Cordon.Proofs.Modules.History

/-!
# Interleaved calls of `require`

Between the two halves of a `require` other programs may run, and they may require the same name. The
record of the name then stays one value exactly if no second half finds another value recorded than
the one it is about to record; it does not look.
-/

namespace Cordon

open Lua

namespace Interleaving

/-- What a moment of some program's run does about one name. -/
inductive Deed where
  /-- A call is answered with the recorded value. -/
  | found (v : Value)
  /-- A call records its value and is answered with it. -/
  | stored (v : Value)
  | other

/-- The value that a call is answered with. -/
def Deed.answer : Deed → Option Value
  | found v => some v
  | stored v => some v
  | other => none

/-- What is recorded afterwards. -/
def Deed.leaves (before : Option Value) : Deed → Option Value
  | stored v => if v.truthy then some v else none
  | _ => before

variable {m : ModuleSystem} {n : Bytes}

/-- The moments of calls for one name, and any others that leave its record alone. A call that finds
nothing recorded searches and, if there is a value in the end, records it by the second half. -/
inductive Step (m : ModuleSystem) (n : Bytes) : Store → Deed → Store → Prop where
  | found {s s' : Store} {v : Value} {ctx : Ctx} {threads threads' : Array Thread}
      (hc : s.cached? m.loaded (.str n) = some v)
      (hr : (m.resolve n).run ctx ⟨s, threads⟩ = some (.ok (.ready v), ⟨s', threads'⟩)) :
      Step m n s (.found v) s'
  | stored {s s' : Store} {v w : Value} {ctx : Ctx} {threads threads' : Array Thread}
      (hf : (m.finish n w).run ctx ⟨s, threads⟩ = some (.ok v, ⟨s', threads'⟩)) :
      Step m n s (.stored v) s'
  | other {s s' : Store} (hs : s.tables.size ≤ s'.tables.size)
      (hc : s'.cached? m.loaded (.str n) = s.cached? m.loaded (.str n)) : Step m n s .other s'

structure Moment where
  before : Store
  deed : Deed
  after : Store

/-- A call that records its value finds nothing recorded, or the same value. -/
def Coherent (same : Value → Value → Prop) (m : ModuleSystem) (n : Bytes) (ms : List Moment) : Prop :=
  ∀ x ∈ ms, ∀ v w, x.before.cached? m.loaded (.str n) = some v → x.deed = .stored w →
    w.truthy ∧ same v w

theorem cached?_stored {s : Store} (hl : m.loaded < s.tables.size) (v : Value) :
    (m.stored s n v).cached? m.loaded (.str n) = if v.truthy then some v else none := by
  show (s.rawSetStr m.loaded n v).cached? m.loaded (.str n) = _
  rw [cached?_eq, s.rawGet_rawSetStr_self hl, if_pos rfl]

theorem tables_stored_size (s : Store) (v : Value) : (m.stored s n v).tables.size = s.tables.size :=
  s.tables_rawSet_size ..

theorem Step.size {s s' : Store} {d : Deed} (h : Step m n s d s') :
    s.tables.size ≤ s'.tables.size := by
  cases h with
  | found hc hr =>
    rw [ModuleSystem.resolve_cached _ _ hc] at hr
    cases hr
    exact Nat.le_refl _
  | stored hf =>
    cases hf
    exact Nat.le_of_eq (tables_stored_size ..).symm
  | other hs => exact hs

section

variable {same : Value → Value → Prop} {s s' : Store}

theorem Step.record {d : Deed} (h : Step m n s d s') (hl : m.loaded < s.tables.size) :
    s'.cached? m.loaded (.str n) = d.leaves (s.cached? m.loaded (.str n)) := by
  cases h with
  | found hc hr =>
    rw [ModuleSystem.resolve_cached _ _ hc] at hr
    cases hr
    rfl
  | stored hf =>
    cases hf
    exact cached?_stored hl _
  | other _ hc => exact hc

theorem Coherent.head {d : Deed} {s s' : Store} {ms : List Moment}
    (hc : Coherent same m n (⟨s, d, s'⟩ :: ms)) {v : Value}
    (hv : s.cached? m.loaded (.str n) = some v) : ∀ w, d = .stored w → w.truthy ∧ same v w :=
  fun w hw => hc ⟨s, d, s'⟩ (.head _) v w hv hw

theorem Coherent.tail {x : Moment} {ms : List Moment} (hc : Coherent same m n (x :: ms)) :
    Coherent same m n ms :=
  fun y hy => hc y (.tail _ hy)

end

end Interleaving

end Cordon
