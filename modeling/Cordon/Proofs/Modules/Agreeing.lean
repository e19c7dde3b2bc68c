import Cordon.Proofs.Failure.Classification
import Cordon.Proofs.Fresh
import Cordon.Proofs.Modules.Deciding
import Cordon.Proofs.Modules.Failing

/-!
# Two ways to require

The host requires a module of a sandbox by a method, and programs in the sandbox by a function. Both make
the same search and call the same function with the same arguments. Both come to the same value, or both
fail; what a function raises is the error of the program's call as it is, while the host makes an error of
its own of it. To that end a text is made of the value, which may run a metamethod of it.
-/

namespace Cordon

open Lua

/-! ## Ends of the search -/

namespace ModuleSystem

end ModuleSystem

namespace Lua

theorem Exec.Comes.of_native {b : Surroundings} {e e' : Exec} {c' : Control} {s : Store} {id i : Nat}
    {args : List Value} {f : Native} {r : Except Value Verdict} {m' : Machine}
    (hf : s.function? id = some (.native f)) (hn : e.depth.natives ≠ maxNatives)
    (hs : e.depth.slots + nativeSlots ≤ maxSlots)
    (hr : ∀ fuel, i ≤ fuel →
      (f.run args).run (e.context (caller fuel) b (.fn id)) ⟨s, e.threads⟩ = some (r, m'))
    (hc : follow { e with threads := m'.threads } b r m'.store = .next c' e') :
    Comes b (.apply (.fn id) args s) e c' e' := by
  refine ⟨i, 1, fun fuel hfuel => .head ?_ (.refl ..)⟩
  simp only [step, apply, if_neg hn, callable_fn hf]
  rw [if_neg (Nat.not_lt.mpr hs), hr fuel hfuel, ← hc]
  rfl

namespace Require

open Exec

variable {m : ModuleSystem} {req : Nat} {g : Halves} {s s₁ : Store} {n : Bytes} {ctx : Ctx}
variable {b : Surroundings} {e : Exec} {m₁ : Machine} {found : Except Failure Resolution}

/-! ## The same search -/

/-- The tables and the error objects are the same. -/
structure SameHeap (s s' : Store) : Prop where
  tables : s'.tables = s.tables
  faults : s'.faults = s.faults

theorem SameHeap.rawGet {s s' : Store} (h : SameHeap s s') (id : Nat) : s'.rawGet id = s.rawGet id := by
  funext k
  rw [Store.rawGet, Store.table, h.tables, Store.rawGet, Store.table]

theorem SameHeap.stored {s s' : Store} (h : SameHeap s s') (v : Value) :
    SameHeap (m.stored s n v) (m.stored s' n v) := by
  refine ⟨?_, h.faults⟩
  show (s'.rawSet m.loaded (.str n) v).tables = (s.rawSet m.loaded (.str n) v).tables
  unfold Store.rawSet
  rw [h.tables]

end Require

end Lua

end Cordon
