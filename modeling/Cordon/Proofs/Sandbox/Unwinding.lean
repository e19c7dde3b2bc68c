import Cordon.Lua.Invoke
import Cordon.Proofs.Sandbox.Fatal
import Cordon.Proofs.Sandbox.Nesting

/-!
# Unwinding

All protected calls of a thread let a fatal error pass. If there is no memory left to look at what was
caught, it is another one from there on.
-/

namespace Cordon.Lua.Protect

open Exec

/-! ## Room -/

/-- There is room for what a protected call does with an error. -/
structure Ample (d : Depth) : Prop where
  slots : d.slots + 64 ≤ maxSlots
  natives : d.natives + 2 ≤ maxNatives

/-- There is room for a message handler. -/
structure Enough (d : Depth) : Prop where
  slots : d.slots + 32 ≤ maxSlots
  natives : d.natives + 2 ≤ maxNatives

/-- There is memory for a full stack. -/
def Fits (s : Store) : Prop := s.exhausted (slotBytes * maxSlots) = false

section

variable {g : Guard} {s s' : Store} {v : Value}

theorem Fits.exhausted (h : Fits s) {n : Nat} (hn : n ≤ maxSlots) :
    s.exhausted (slotBytes * n) = false :=
  Bool.eq_false_iff.mpr fun hx =>
    Bool.false_ne_true (h.symm.trans (exhausted_le (Nat.mul_le_mul_left slotBytes hn) hx))

theorem Fits.grown (h : Fits s) (hg : Grown s s') : Fits s' := by
  unfold Fits Store.exhausted
  rw [hg.memoryLimit, hg.used]
  exact h

/-! ## Frames -/

/-- Every protected call in these frames was made by one of the programs, and there is room for what
the program does next. -/
inductive Shielded (g : Guard) (s : Store) (outermost : Depth) : List Frame → Prop where
  | nil : Shielded g s outermost []
  | call {site : Site} {next : List Value → Store → Action} {depth : Depth} {rest : List Frame}
      (h : Shielded g s outermost rest) : Shielded g s outermost (.call site next depth :: rest)
  | loop {body : List Value → Store → Action} {done : Store → Action} {rest : List Frame}
      (h : Shielded g s outermost rest) : Shielded g s outermost (.loop body done :: rest)
  | scope {labels : List Label} {entry : Nat → List Nat → Store → Action} {rest : List Frame}
      (h : Shielded g s outermost rest) : Shielded g s outermost (.scope labels entry :: rest)
  | guard {handler : Option Value} {depth depth' : Depth} {site : Site} {line : Nat}
      {rest : List Frame} (passing : Passing g s handler)
      (ample : Ample (giveWay outermost rest).2) (h : Shielded g s outermost rest) :
      Shielded g s outermost (.guard handler depth :: .call site (finishing g line) depth' :: rest)

def guards : List Frame → Nat
  | [] => 0
  | .guard .. :: rest => guards rest + 1
  | .call .. :: rest | .loop .. :: rest | .scope .. :: rest => guards rest

variable {outermost : Depth} {frames : List Frame}

theorem Shielded.grown (h : Shielded g s outermost frames) (hg : Grown s s') :
    Shielded g s' outermost frames := by
  induction h with
  | nil => exact .nil
  | call _ ih => exact .call ih
  | loop _ ih => exact .loop ih
  | scope _ ih => exact .scope ih
  | guard passing ample _ ih => exact .guard (passing.kept hg.functions) ample ih

theorem Shielded.nested (h : Shielded g s outermost frames) {m : Nat} (hm : m + 64 = maxSlots) :
    Nested g s m outermost none (guards frames) frames := by
  induction h with
  | nil => exact .outside rfl
  | call _ ih => exact .call ih
  | loop _ ih => exact .loop ih
  | scope _ ih => exact .scope ih
  | guard passing ample _ ih =>
    exact .guard passing ⟨Nat.le_of_add_le_add_right (hm ▸ ample.slots), ample.natives⟩ ih

end

end Cordon.Lua.Protect
