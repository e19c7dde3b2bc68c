import Cordon.Proofs.Fresh
import Cordon.Proofs.Sandbox.Unwinding

/-!
# Which fatal errors get lost

A fatal error that no protected call keeps goes on to the thread that waits for the current one. One
that was resumed by `coroutine.wrap` lets it pass, if it need not change its text for that. Any other
thread gets it as a value. Nothing else can happen to it.
-/

namespace Cordon.Lua.Protect

open Exec

/-- The depth at which a thread's part of a run starts, behind the threads that wait for it. -/
def origin (b : Surroundings) : List Resumer → Depth
  | [] => b.depth
  | r :: _ => { slots := 0, natives := r.depth.natives + 1 }

/-- The protected calls of all waiting threads were made by the programs, and there is room for what
these do next. -/
inductive Lined (g : Guard) (s : Store) (b : Surroundings) : List Resumer → Prop where
  | nil : Lined g s b []
  | cons {r : Resumer} {rest : List Resumer} (shielded : Shielded g s (origin b rest) r.frames)
      (enough : Enough r.depth) (h : Lined g s b rest) : Lined g s b (r :: rest)

section

variable {g : Guard} {s s' : Store} {v : Value} {b : Surroundings}

theorem Lined.grown {resumers : List Resumer} (h : Lined g s b resumers) (hg : Grown s s') :
    Lined g s' b resumers := by
  induction h with
  | nil => exact .nil
  | cons shielded enough _ ih => exact .cons (shielded.grown hg) enough ih

end

end Cordon.Lua.Protect

namespace Cordon

open Lua Protect Exec

/-- What a run by host code starts with. -/
def base : Surroundings := { handler := .traceback, depth := { natives := 1 } }

/-- The programs, the functions that they hold, and nothing else. -/
def smallStore : Store :=
  (Protect.functions
    { functions := #[.native (.gate .isFatal), .native (.base .type), .native (.base .select),
        .native (.base .error), .native (.base .xpcall), .native (.base .pcall)] }
    { isFatal := .fn 0, type := .fn 1, select := .fn 2, error := .fn 3, xpcall := .fn 4,
      pcall := .fn 5 }).2.2

def smallGuard : Guard where
  finishCell := 6
  isFatalCell := 5
  typeCell := 4
  selectCell := 3
  errorCell := 2
  xpcallCell := 1
  pcallCell := 0
  finish := 6
  isFatal := 0
  type := 1
  select := 2
  error := 3
  xpcall := 4
  pcall := 5

/-- In a protected call, with these threads waiting. -/
def smallExec (resumers : List Resumer) : Exec where
  frames := [.guard none { natives := 1 }, .call pcallSite (finishing smallGuard 12) { natives := 1 }]
  depth := { natives := 2 }
  resumers
  thread := 0
  threads := #[.running, .normal]

end Cordon
