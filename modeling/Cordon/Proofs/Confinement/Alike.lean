import Cordon.Lua.Invoke
import Cordon.Proofs.Confinement.Actions

/-!
# Machines that are alike

Two runs are alike if they have the same confined store and the same tame frames, but for one thing: they
may differ in what follows some calls of the sandbox's protected calls, as long as it makes no difference
for results that these may have. No such result says that a fatal error was caught.
-/

namespace Cordon.Lua

variable {w : Ward}

/-- What a call of a protected call may return. -/
def Judged (s : Store) : List Value → Prop
  | .bool false :: v :: _ => GateFn.isFatalValue s v = false
  | _ => True

/-! ## Programs behind protected calls -/

/-- What the programs behind protected calls do before they return. A caught value is tested, and what
follows counts for the right answer only. -/
inductive Action.Guarded (w : Ward) : Action → Prop where
  | ret {s : Store} {vs : List Value} (hs : s.Confined w) (hv : Clears w vs) (hj : Judged s vs) :
    Guarded w (.ret vs s)
  | call {s : Store} {fn : Value} {args : List Value} {site : Site}
    {next : List Value → Store → Action} (hs : s.Confined w) (hf : fn.Clear w) (ha : Clears w args)
    (hn : ∀ vs s', s'.Confined w → Clears w vs → Guarded w (next vs s')) :
    Guarded w (.call fn args site next s)
  | finish {s : Store} {g : Protect.Guard} {args : List Value} {site : Site} (hg : w.guards g)
    (hs : s.Confined w) (ha : Clears w args) : Guarded w (.tail (.fn g.finish) args site s)
  | raise {s : Store} {v : Value} (hs : s.Confined w) (hv : v.Clear w) : Guarded w (.raise v s)
  | test {s : Store} {g : Protect.Guard} {v : Value} {site : Site}
    {next : List Value → Store → Action} (hg : w.guards g) (hs : s.Confined w) (hv : v.Clear w)
    (hn : ∀ s', s'.Confined w → Guarded w (next [.bool (GateFn.isFatalValue s' v)] s')) :
    Guarded w (.call (.fn g.isFatal) [v] site next s)
  | fail {s : Store} {g : Protect.Guard} {v : Value} {site : Site}
    {next : List Value → Store → Action} (hg : w.guards g) (hs : s.Confined w) (hv : v.Clear w) :
    Guarded w (.call (.fn g.error) [v, .int 0] site next s)

theorem Ward.admits_guarded (w : Ward) : w.Admits (Action.Guarded w) := ⟨.raise, .call⟩

/-- Two continuations of a protected call make no difference for what it may return. -/
structure Agree (w : Ward) (n : Nat) (next next' : List Value → Store → Action) : Prop where
  tame : ∀ vs s, s.Confined w → Clears w vs → (next vs s).Tame w n
  same : ∀ vs s, s.Confined w → Clears w vs → Judged s vs → next' vs s = next vs s

/-! ## Frames -/

/-- How many blocks with labels the innermost frames stand for. -/
def scopes : List Frame → Nat
  | .scope .. :: rest => scopes rest + 1
  | _ => 0

/-- A frame, with so many blocks with labels next to it. -/
inductive Frame.Tame (w : Ward) (n : Nat) : Frame → Prop where
  | call {site : Site} {next : List Value → Store → Action} {depth : Depth}
    (hn : ∀ vs s, s.Confined w → Clears w vs → (next vs s).Tame w n) : Tame w n (.call site next depth)
  | loop {body : List Value → Store → Action} {done : Store → Action}
    (hb : ∀ vs s, s.Confined w → Clears w vs → (body vs s).Tame w 0)
    (hd : ∀ s, s.Confined w → (done s).Tame w n) : Tame w n (.loop body done)
  | scope {labels : List Label} {entry : Nat → List Nat → Store → Action}
    (he : ∀ i cells s, s.Confined w → (∀ id ∈ cells, ¬ w.cell id) →
      (entry i cells s).Tame w (n + 1)) :
    Tame w n (.scope labels entry)
  | guard {handler : Option Value} {depth : Depth} (hh : ∀ h, handler = some h → h.Clear w) :
    Tame w n (.guard handler depth)

/-- Frames that are the same, but for calls of protected calls that have a program of theirs under way. -/
inductive Frames.Alike (w : Ward) : List Frame → List Frame → Prop where
  | nil : Alike w [] []
  | cons {f : Frame} {fs fs' : List Frame} (hf : f.Tame w (scopes fs)) (h : Alike w fs fs') :
    Alike w (f :: fs) (f :: fs')
  | within {site site' : Site} {k next next' : List Value → Store → Action} {depth depth' : Depth}
    {fs fs' : List Frame} (hk : ∀ vs s, s.Confined w → Clears w vs → (k vs s).Guarded w)
    (ht : ∀ vs s, s.Confined w → Clears w vs → (k vs s).Tame w 0)
    (hn : Agree w (scopes fs) next next') (h : Alike w fs fs') :
    Alike w (.call site k depth :: .call site' next depth' :: fs)
      (.call site k depth :: .call site' next' depth' :: fs')

theorem Frames.Alike.scopes {fs fs' : List Frame} (h : Frames.Alike w fs fs') :
    scopes fs' = scopes fs := by
  induction h with
  | nil => rfl
  | @cons f _ _ _ _ ih =>
    cases f with
    | scope => exact congrArg Nat.succ ih
    | _ => rfl
  | within => rfl

theorem Frames.Alike.left {fs fs' : List Frame} (h : Frames.Alike w fs fs') : Frames.Alike w fs fs := by
  induction h with
  | nil => exact .nil
  | cons hf _ ih => exact .cons hf ih
  | within _ ht hn _ ih => exact .cons (.call ht) (.cons (.call hn.tame) ih)

theorem Frames.Alike.cons_left {f : Frame} {fs fs' : List Frame} (h : Frames.Alike w (f :: fs) fs') :
    f.Tame w (Lua.scopes fs) ∧ Frames.Alike w fs fs := by
  cases h with
  | cons hf h => exact ⟨hf, h.left⟩
  | within _ ht hn h => exact ⟨.call ht, .cons (.call hn.tame) h.left⟩

/-- Frames whose innermost one is a call of a protected call. -/
inductive Frames.Bare (w : Ward) : List Frame → List Frame → Prop where
  | intro {site : Site} {next next' : List Value → Store → Action} {depth : Depth}
    {fs fs' : List Frame} (hn : Agree w (scopes fs) next next') (h : Frames.Alike w fs fs') :
    Bare w (.call site next depth :: fs) (.call site next' depth :: fs')

/-- Frames that are alike once some calls are off, as an error takes them. -/
inductive Frames.Loose (w : Ward) : List Frame → List Frame → Prop where
  | alike {fs fs' : List Frame} (h : Frames.Alike w fs fs') : Loose w fs fs'
  | call {site : Site} {next next' : List Value → Store → Action} {depth : Depth}
    {fs fs' : List Frame} (h : Loose w fs fs') :
    Loose w (.call site next depth :: fs) (.call site next' depth :: fs')

theorem Frames.Bare.scopes {fs fs' : List Frame} (h : Frames.Bare w fs fs') : Lua.scopes fs = 0 := by
  cases h
  rfl

theorem Frames.Bare.left {fs fs' : List Frame} (h : Frames.Bare w fs fs') : Frames.Alike w fs fs := by
  cases h with
  | intro hn h => exact .cons (.call hn.tame) h.left

theorem Frames.Bare.loose {fs fs' : List Frame} (h : Frames.Bare w fs fs') : Frames.Loose w fs fs' := by
  cases h with
  | intro _ h => exact .call (.alike h)

/-! ## Threads -/

inductive Thread.Alike (w : Ward) : Thread → Thread → Prop where
  | fresh {fn : Value} (hf : fn.Clear w) : Alike w (.fresh fn) (.fresh fn)
  | suspended {fs fs' : List Frame} {depth : Depth} (h : Frames.Alike w fs fs') :
    Alike w (.suspended fs depth) (.suspended fs' depth)
  | running : Alike w .running .running
  | normal : Alike w .normal .normal
  | dead {error : Option Value} (he : ∀ v, error = some v → v.Clear w) :
    Alike w (.dead error) (.dead error)

structure Threads.Alike (w : Ward) (ts ts' : Array Thread) : Prop where
  size : ts'.size = ts.size
  thread : ∀ id, Thread.Alike w (ts.getD id default) (ts'.getD id default)

structure Machine.Alike (w : Ward) (m m' : Machine) : Prop where
  store : m'.store = m.store
  confined : m.store.Confined w
  threads : Threads.Alike w m.threads m'.threads

namespace Threads.Alike

variable {ts ts' : Array Thread} {t t' : Thread}

theorem set (h : Threads.Alike w ts ts') (id : Nat) (ht : Thread.Alike w t t') :
    Threads.Alike w (ts.setIfInBounds id t) (ts'.setIfInBounds id t') where
  size := by rw [Array.size_setIfInBounds, Array.size_setIfInBounds, h.size]
  thread id' := by
    have hget := h.thread id'
    rw [Array.getD_eq_getD_getElem?, Array.getD_eq_getD_getElem?] at hget ⊢
    rw [Array.getElem?_setIfInBounds, Array.getElem?_setIfInBounds, h.size]
    by_cases e : id = id'
    · subst e
      rw [if_pos rfl, if_pos rfl]
      by_cases hlt : id < ts.size
      · rw [if_pos hlt, if_pos hlt]
        exact ht
      · rw [if_neg hlt, if_neg hlt]
        exact .running
    · rw [if_neg e, if_neg e]
      exact hget

theorem push (h : Threads.Alike w ts ts') (ht : Thread.Alike w t t') :
    Threads.Alike w (ts.push t) (ts'.push t') where
  size := by rw [Array.size_push, Array.size_push, h.size]
  thread id := by
    have hget := h.thread id
    rw [Array.getD_eq_getD_getElem?, Array.getD_eq_getD_getElem?] at hget ⊢
    rw [Array.getElem?_push, Array.getElem?_push, h.size]
    by_cases e : id = ts.size
    · rw [if_pos e, if_pos e]
      exact ht
    · rw [if_neg e, if_neg e]
      exact hget

theorem running (w : Ward) : Threads.Alike w #[.running] #[.running] := by
  refine ⟨rfl, fun id => ?_⟩
  have hget : (#[Thread.running] : Array Thread).getD id default = .running := by
    rcases id with _ | id <;> rfl
  rw [hget]
  exact .running

end Threads.Alike

end Cordon.Lua
