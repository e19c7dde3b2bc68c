import Cordon.Proofs.Sandbox.Delegating

/-!
# Protected calls with a message handler

The sandbox's `xpcall` makes a message handler of the one that it got, and hands it to the host's with the
function and the arguments from the third on. What it does then with what becomes of the function is what
the host's does by itself, with the handler as it is: values are returned behind a true, and an error that
is not fatal is given to the handler once, of which the first result is returned behind a false.
-/

namespace Cordon.Lua.Protect

open Exec

variable {g : Guard} {b : Surroundings} {e e' : Exec} {s s' : Store} {f v w : Value}
  {h x : Nat} {rest vs ws : List Value}

/-! ## The host's protected call -/

def guarding (e : Exec) (w : Value) : Exec :=
  { e with frames := .guard (some w) e.depth :: e.frames, depth := e.depth.deeper }

/-- The handler that was made of a message handler is as it was made. -/
structure Intact (g : Guard) (s : Store) (f : Value) (h : Nat) (s' : Store) : Prop where
  wrapper : s'.function? (handed s f (.fn h)).functions.size = some (wrapper g s f)
  msgh : s'.cell (s.newCell f).2.cells.size = .fn h
  handler : ∃ k, s'.function? h = some k

/-- `function (v) return v end` -/
def same : Func := .mk 1 false (.mk [.ret [own 0 "v"]] []) 1 2

end Cordon.Lua.Protect
