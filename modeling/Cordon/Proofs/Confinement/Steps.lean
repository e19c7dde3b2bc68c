import Cordon.Lua.Machine
import Cordon.Proofs.Confinement.Gates
import Cordon.Proofs.Confinement.Programs

/-!
# Steps keep machines alike

Of two machines that are alike, both come to an end with the next step, in the same way, or both go on and
are alike again. So do whole runs, by induction on the fuel.
-/

namespace Cordon.Lua

variable {w : Ward}

/-! ## Frames -/

namespace Frames

variable {fs fs' : List Frame}

theorem Loose.sites (h : Loose w fs fs') :
    fs'.filterMap Frame.site? = fs.filterMap Frame.site? := by
  have halike {fs fs' : List Frame} (h : Alike w fs fs') :
      fs'.filterMap Frame.site? = fs.filterMap Frame.site? := by
    induction h with
    | nil => rfl
    | cons _ _ ih => rw [List.filterMap_cons, List.filterMap_cons, ih]
    | within _ _ _ _ ih => simp only [List.filterMap_cons, Frame.site?, ih]
  induction h with
  | alike h => exact halike h
  | call _ ih => simp only [List.filterMap_cons, Frame.site?, ih]

/-- The same protected call is the innermost one. -/
inductive Guards (w : Ward) : Option (Option Value × Depth × List Frame) →
    Option (Option Value × Depth × List Frame) → Prop where
  | none : Guards w none none
  | some {handler : Option Value} {depth : Depth} {fs fs' : List Frame}
    (hh : ∀ h, handler = some h → h.Clear w) (h : Alike w fs fs') :
    Guards w (some (handler, depth, fs)) (some (handler, depth, fs'))

theorem Loose.guards (h : Loose w fs fs') : Guards w (innerGuard? fs) (innerGuard? fs') := by
  have halike {fs fs' : List Frame} (h : Alike w fs fs') :
      Guards w (innerGuard? fs) (innerGuard? fs') := by
    induction h with
    | nil => exact .none
    | cons hf h ih =>
      cases hf with
      | guard hh => exact .some hh h
      | _ => exact ih
    | within _ _ _ _ ih => exact ih
  induction h with
  | alike h => exact halike h
  | call _ ih => exact ih

inductive Loops (w : Ward) : Option ((List Value → Store → Action) × (Store → Action) × List Frame) →
    Option ((List Value → Store → Action) × (Store → Action) × List Frame) → Prop where
  | none : Loops w none none
  | some {body : List Value → Store → Action} {done : Store → Action} {fs fs' : List Frame}
    (hb : ∀ vs s, s.Confined w → Clears w vs → (body vs s).Tame w 0)
    (hd : ∀ s, s.Confined w → (done s).Tame w (scopes fs)) (h : Alike w fs fs') :
    Loops w (some (body, done, fs)) (some (body, done, fs'))

theorem Alike.loops (h : Alike w fs fs') : Loops w (innerLoop? fs) (innerLoop? fs') := by
  induction h with
  | nil => exact .none
  | cons hf h ih =>
    cases hf with
    | loop hb hd => exact .some hb hd h
    | scope => exact ih
    | call => exact .none
    | guard => exact .none
  | within => exact .none

inductive Labels (w : Ward) : Option (Label × (Nat → List Nat → Store → Action) × List Frame) →
    Option (Label × (Nat → List Nat → Store → Action) × List Frame) → Prop where
  | none : Labels w none none
  | some {label : Label} {entry : Nat → List Nat → Store → Action} {fs fs' : List Frame}
    (he : ∀ i cells s, s.Confined w → (∀ id ∈ cells, ¬ w.cell id) →
      (entry i cells s).Tame w (scopes fs))
    (h : Alike w fs fs') : Labels w (some (label, entry, fs)) (some (label, entry, fs'))

theorem Alike.labels (name : Bytes) (h : Alike w fs fs') :
    Labels w (labelled? name fs) (labelled? name fs') := by
  induction h with
  | nil => exact .none
  | cons hf h ih =>
    cases hf with
    | loop => exact ih
    | scope he =>
      unfold labelled?
      split
      · exact .some he (.cons (.scope he) h)
      · exact ih
    | call => exact .none
    | guard => exact .none
  | within => exact .none

theorem Alike.giveWay (outermost : Depth) (h : Alike w fs fs') :
    Alike w (Lua.giveWay outermost fs).1 (Lua.giveWay outermost fs').1 ∧
      (Lua.giveWay outermost fs').2 = (Lua.giveWay outermost fs).2 := by
  induction h with
  | nil => exact ⟨.nil, rfl⟩
  | cons hf h ih =>
    cases hf with
    | call hn => exact ⟨.cons (.call hn) h, rfl⟩
    | guard hh => exact ⟨.cons (.guard hh) h, rfl⟩
    | loop => exact ih
    | scope => exact ih
  | within hk ht hn h => exact ⟨.within hk ht hn h, rfl⟩

theorem Bare.giveWay (outermost : Depth) (h : Bare w fs fs') :
    Bare w (Lua.giveWay outermost fs).1 (Lua.giveWay outermost fs').1 ∧
      (Lua.giveWay outermost fs').2 = (Lua.giveWay outermost fs).2 := by
  cases h with
  | intro hn h => exact ⟨.intro hn h, rfl⟩

/-- A test of what was caught is under way. -/
inductive Testing (w : Ward) (v : Value) : List Frame → List Frame → Prop where
  | intro {site : Site} {next : List Value → Store → Action} {depth : Depth} {fs fs' : List Frame}
    (hn : ∀ s, s.Confined w → (next [.bool (GateFn.isFatalValue s v)] s).Guarded w)
    (ht : ∀ vs s, s.Confined w → Clears w vs → (next vs s).Tame w 0) (h : Bare w fs fs') :
    Testing w v (.call site next depth :: fs) (.call site next depth :: fs')

theorem Testing.loose {v : Value} (h : Testing w v fs fs') : Loose w fs fs' := by
  cases h with
  | intro _ _ h => exact .call h.loose

theorem Testing.left {v : Value} (h : Testing w v fs fs') : Alike w fs fs := by
  cases h with
  | intro _ ht h => exact .cons (.call (h.scopes.symm ▸ ht)) h.left

end Frames

/-! ## Machines -/

inductive Resumers.Alike (w : Ward) : List Resumer → List Resumer → Prop where
  | nil : Alike w [] []
  | cons {thread : Nat} {fs fs' : List Frame} {depth : Depth} {wrapped : Bool} {rs rs' : List Resumer}
    (hf : Frames.Alike w fs fs') (h : Alike w rs rs') :
    Alike w (⟨thread, fs, depth, wrapped⟩ :: rs) (⟨thread, fs', depth, wrapped⟩ :: rs')

theorem Resumers.Alike.isEmpty {rs rs' : List Resumer} (h : Resumers.Alike w rs rs') :
    rs'.isEmpty = rs.isEmpty := by
  cases h <;> rfl

namespace Exec

/-- Everything but the frames is alike. -/
structure Around (w : Ward) (e e' : Exec) : Prop where
  depth : e'.depth = e.depth
  resumers : Resumers.Alike w e.resumers e'.resumers
  thread : e'.thread = e.thread
  threads : Threads.Alike w e.threads e'.threads

/-- Two machines that are to do the same next. -/
inductive Alike (w : Ward) : Control → Exec → Exec → Prop where
  | act {a : Action} {e e' : Exec} (ha : a.Tame w (scopes e.frames)) (h : Around w e e')
    (hf : Frames.Alike w e.frames e'.frames) : Alike w (.act a) e e'
  | apply {fn : Value} {args : List Value} {s : Store} {e e' : Exec} (hs : s.Confined w)
    (hfn : fn.Callable w args) (ha : Clears w args) (h : Around w e e')
    (hf : Frames.Alike w e.frames e'.frames) : Alike w (.apply fn args s) e e'
  | ret {vs : List Value} {s : Store} {e e' : Exec} (hs : s.Confined w) (hv : Clears w vs)
    (h : Around w e e') (hf : Frames.Alike w e.frames e'.frames) : Alike w (.ret vs s) e e'
  | raise {v : Value} {s : Store} {e e' : Exec} (hs : s.Confined w) (hv : v.Clear w)
    (h : Around w e e') (hf : Frames.Loose w e.frames e'.frames) : Alike w (.raise v s) e e'
  | guarded {a : Action} {e e' : Exec} (ha : a.Guarded w) (ht : a.Tame w 0) (h : Around w e e')
    (hf : Frames.Bare w e.frames e'.frames) : Alike w (.act a) e e'
  | judging {g : Protect.Guard} {f : Func} {id : Nat} {args : List Value} {s : Store} {e e' : Exec}
    (hg : w.guards g) (hj : Protect.Judges g f)
    (hid : s.function? id = some (.closure Protect.chunk f g.cells)) (hs : s.Confined w)
    (ha : Clears w args) (h : Around w e e') (hf : Frames.Bare w e.frames e'.frames) :
    Alike w (.apply (.fn id) args s) e e'
  | testing {g : Protect.Guard} {v : Value} {s : Store} {e e' : Exec} (hg : w.guards g)
    (hs : s.Confined w) (hv : v.Clear w) (h : Around w e e')
    (hf : Frames.Testing w v e.frames e'.frames) : Alike w (.apply (.fn g.isFatal) [v] s) e e'
  | tested {v : Value} {s : Store} {e e' : Exec} (hs : s.Confined w) (h : Around w e e')
    (hf : Frames.Testing w v e.frames e'.frames) :
    Alike w (.ret [.bool (GateFn.isFatalValue s v)] s) e e'
  | failing {g : Protect.Guard} {v : Value} {s : Store} {e e' : Exec} (hg : w.guards g)
    (hs : s.Confined w) (hv : v.Clear w) (h : Around w e e') (hl : Frames.Alike w e.frames e.frames)
    (hf : Frames.Loose w e.frames e'.frames) : Alike w (.apply (.fn g.error) [v, .int 0] s) e e'

/-- What two steps come to. -/
inductive Steps (w : Ward) : Option Progress → Option Progress → Prop where
  | none : Steps w none none
  | next {c : Control} {e e' : Exec} (h : Alike w c e e') : Steps w (some (.next c e)) (some (.next c e'))
  | done {r : Except Value (List Value)} {m m' : Machine} (hr : Result.Clear w r) (hm : m.Alike w m') :
    Steps w (some (.done ⟨r, m⟩)) (some (.done ⟨r, m'⟩))

/-- What two runs come to. -/
inductive Ends.Alike (w : Ward) : Option Finish → Option Finish → Prop where
  | none : Alike w none none
  | some {r : Except Value (List Value)} {m m' : Machine} (hr : Result.Clear w r) (hm : m.Alike w m') :
    Alike w (some ⟨r, m⟩) (some ⟨r, m'⟩)

theorem Ends.Alike.outcomes {f f' : Option Finish} (h : Ends.Alike w f f') :
    Outcomes w (Result.Clear w) (f.map fun f => (f.result, f.machine))
      (f'.map fun f => (f.result, f.machine)) := by
  cases h with
  | none => exact .none
  | some hr hm => exact .some hr hm

/-- Runs within a step come to the same. -/
def Runs (w : Ward) (caller : Caller) : Prop :=
  ∀ (b : Surroundings) (thread : Nat) {fn : Value} {args : List Value} {m m' : Machine},
    b.handler.Clear w → fn.Callable w args → Clears w args → m.Alike w m' →
    Ends.Alike w (caller b thread fn args m) (caller b thread fn args m')

section

variable {b : Surroundings} {e e' : Exec} {s : Store}

theorem sites_alike (h : Around w e e') (hf : Frames.Loose w e.frames e'.frames) :
    e'.sites b = e.sites b := by
  rw [sites, hf.sites, h.resumers.isEmpty, sites]

theorem handler_alike (h : Around w e e') (hf : Frames.Loose w e.frames e'.frames) :
    e'.handler b = e.handler b := by
  unfold handler
  have hg := hf.guards
  generalize innerGuard? e.frames = x, innerGuard? e'.frames = x' at hg
  cases hg with
  | none => simp only [h.resumers.isEmpty]
  | @some handler => cases handler <;> rfl

theorem handler_clear (hb : b.handler.Clear w) (hf : Frames.Loose w e.frames e'.frames) :
    (e.handler b).Clear w := by
  unfold handler
  have hg := hf.guards
  generalize innerGuard? e.frames = x, innerGuard? e'.frames = x' at hg
  cases hg with
  | none =>
    simp only
    split
    · exact hb
    · trivial
  | @some handler _ _ _ hh =>
    cases handler with
    | none => trivial
    | some v => exact hh v rfl

theorem context_alike {caller : Caller} (hc : Runs w caller) (hb : b.handler.Clear w)
    (h : Around w e e') (hf : Frames.Loose w e.frames e'.frames) (callee : Value) :
    Ctx.Alike w (e.context caller b callee) (e'.context caller b callee) where
  callee := rfl
  sites := by simp only [context, sites_alike h hf]
  handler := by simp only [context, handler_alike h hf]
  clear := handler_clear hb hf
  thread := h.thread
  yieldable := by simp only [context, h.resumers.isEmpty]
  natives := by simp only [context, h.depth]
  call {handler fn args m m'} hh hfn ha hm := by
    simp only [context, sites_alike h hf, h.thread, h.depth]
    exact (hc { handler, sites := fun _ => {} :: e.sites b, depth := e.depth.deeper } e.thread hh hfn
      ha hm).outcomes

theorem Around.framed (h : Around w e e') (fs fs' : List Frame) (d : Depth) :
    Around w { e with frames := fs, depth := d } { e' with frames := fs', depth := d } :=
  ⟨rfl, h.resumers, h.thread, h.threads⟩

theorem outermost_alike (h : Around w e e') : e'.outermost b = e.outermost b := by
  unfold outermost
  have hr := h.resumers
  generalize e.resumers = rs, e'.resumers = rs' at hr
  cases hr <;> rfl

/-! ### Complaints -/

theorem complain_steps (hs : s.Confined w) (h : Around w e e') (hf : Frames.Loose w e.frames e'.frames)
    (message : Bytes) : Steps w (some (.next (e.complain b message s) e))
      (some (.next (e'.complain b message s) e')) := by
  have hplace : e'.place b = e.place b := by rw [place, sites_alike h hf, place]
  rw [complain, complain, hplace]
  exact .next (.raise hs trivial h hf)

theorem charged_steps {c : Store → Control} (hs : s.Confined w) (h : Around w e e')
    (hf : Frames.Loose w e.frames e'.frames) (hc : Alike w (c s) e e') :
    Steps w (some (e.charged s c)) (some (e'.charged s c)) := by
  unfold charged
  rw [h.depth]
  split
  · exact .next (.raise (hs.flagged true) trivial h hf)
  · exact .next hc

/-! ### Threads that wait -/

theorem Around.setThread (h : Around w e e') (id : Nat) {t t' : Thread} (ht : t.Alike w t') :
    Around w (e.setThread id t) (e'.setThread id t') :=
  ⟨h.depth, h.resumers, h.thread, h.threads.set id ht⟩

theorem Around.backTo (h : Around w e e') {t t' : Thread} (ht : t.Alike w t') {r r' : Resumer}
    {rest rest' : List Resumer} (hr : Resumers.Alike w (r :: rest) (r' :: rest')) :
    Around w (e.backTo r rest t) (e'.backTo r' rest' t') := by
  cases hr with
  | @cons id _ _ _ _ _ _ _ hr =>
    refine ⟨rfl, hr, rfl, ?_⟩
    have hset := (h.threads.set e.thread ht).set id .running
    unfold Exec.backTo Exec.setThread
    rw [h.thread]
    exact hset

/-! ### The kinds of steps -/

theorem ret_steps {vs : List Value} (hs : s.Confined w) (hv : Clears w vs) (h : Around w e e')
    (hf : Frames.Alike w e.frames e'.frames) : Steps w (some (e.ret vs s)) (some (e'.ret vs s)) := by
  obtain ⟨fs, d, rs, id, ts⟩ := e
  obtain ⟨fs', d', rs', id', ts'⟩ := e'
  cases hf with
  | nil =>
    have hr : Resumers.Alike w rs rs' := h.resumers
    cases hr with
    | nil => exact .done hv ⟨rfl, hs, h.threads⟩
    | @cons _ _ _ _ wrapped _ _ hf hr =>
      have hback := h.backTo (t := .dead none) (.dead nofun) h.resumers
      refine .next (.ret hs ?_ hback hf)
      cases wrapped with
      | true => exact hv
      | false => exact .cons trivial hv
  | cons hf hfs =>
    cases hf with
    | call hn => exact .next (.act (hn _ _ hs hv) (h.framed ..) hfs)
    | loop => exact .next (.ret hs hv ⟨h.depth, h.resumers, h.thread, h.threads⟩ hfs)
    | scope => exact .next (.ret hs hv ⟨h.depth, h.resumers, h.thread, h.threads⟩ hfs)
    | guard =>
      exact .next (.ret hs (.cons trivial hv) (h.framed ..) hfs)
  | within hk ht hn hfs =>
    exact .next (.guarded (hk _ _ hs hv) (ht _ _ hs hv) (h.framed ..) (.intro hn hfs))

theorem ret_judged {vs : List Value} (hs : s.Confined w) (hv : Clears w vs) (hj : Judged s vs)
    (h : Around w e e') (hf : Frames.Bare w e.frames e'.frames) :
    Steps w (some (e.ret vs s)) (some (e'.ret vs s)) := by
  obtain ⟨fs, d, rs, id, ts⟩ := e
  obtain ⟨fs', d', rs', id', ts'⟩ := e'
  cases hf with
  | @intro _ next next' _ _ _ hn hfs =>
    -- the frames below differ only in what follows results that are not judged
    show Steps w _ (some (.next (.act (next' vs s)) _))
    rw [hn.same vs s hs hv hj]
    exact .next (.act (hn.tame vs s hs hv) (h.framed ..) hfs)

theorem ret_tested {v : Value} (hs : s.Confined w) (h : Around w e e')
    (hf : Frames.Testing w v e.frames e'.frames) :
    Steps w (some (e.ret [.bool (GateFn.isFatalValue s v)] s))
      (some (e'.ret [.bool (GateFn.isFatalValue s v)] s)) := by
  obtain ⟨fs, d, rs, id, ts⟩ := e
  obtain ⟨fs', d', rs', id', ts'⟩ := e'
  cases hf with
  | intro hn ht hfs =>
    exact .next (.guarded (hn s hs) (ht _ s hs (.one trivial)) (h.framed ..) hfs)

theorem caught_keeps {handler : Option Value} (hh : ∀ h, handler = some h → h.Clear w) {v : Value}
    (hv : v.Clear w) : Act.Keeps w (caught handler v) (Value.Clear w) := by
  have hend (v : Value) (hv : v.Clear w) :
      Act.Keeps w (do Act.caught; return v) (Value.Clear w) := .bind .caught fun _ _ => .pure hv
  unfold caught
  cases handler with
  | none => exact hend v hv
  | some f => exact .bind (.handle (h := .fn f) (hh f rfl) hv) hend

theorem raise_steps {caller : Caller} (hc : Runs w caller) (hb : b.handler.Clear w) {v : Value}
    (hs : s.Confined w) (hv : v.Clear w) (h : Around w e e')
    (hf : Frames.Loose w e.frames e'.frames) :
    Steps w (e.raise caller b v s) (e'.raise caller b v s) := by
  have hctx := context_alike hc hb h hf .nil
  have hg := hf.guards
  unfold raise
  generalize innerGuard? e.frames = x, innerGuard? e'.frames = x' at hg
  cases hg with
  | some hh hfs =>
    have hm : Machine.Alike w ⟨s, e.threads⟩ ⟨s, e'.threads⟩ := ⟨rfl, hs, h.threads⟩
    have ho := (caught_keeps hh hv).outcomes hctx hm
    simp only
    generalize caught _ v (e.context caller b .nil) _ = r,
      caught _ v (e'.context caller b .nil) _ = r' at ho
    cases ho with
    | none => exact .none
    | @some v m m' hv hm =>
      show Steps w (some (.next (.ret [.bool false, v] m.store) _))
        (some (.next (.ret [.bool false, v] m'.store) _))
      rw [hm.store]
      exact .next (.ret hm.confined (.cons trivial (.one hv)) ⟨rfl, h.resumers, h.thread, hm.threads⟩
        hfs)
  | none =>
    obtain ⟨fs, d, rs, id, ts⟩ := e
    obtain ⟨fs', d', rs', id', ts'⟩ := e'
    have hr : Resumers.Alike w rs rs' := h.resumers
    cases hr with
    | nil => exact .done hv ⟨rfl, hs, h.threads⟩
    | @cons _ _ _ _ wrapped _ _ hw =>
      cases wrapped with
      | true =>
        have hback := h.backTo (t := .dead none) (.dead nofun) h.resumers
        simp only [if_true]
        split
        · split
          · exact .next (.raise hs hv hback (.alike hw))
          · exact complain_steps hs hback (.alike hw) _
        · exact .next (.raise hs hv hback (.alike hw))
      | false =>
        have hback := h.backTo (t := .dead (some v)) (.dead fun _ h => Option.some.inj h ▸ hv) h.resumers
        exact .next (.ret (hs.flagged false) (.cons trivial (.one hv)) hback hw)

/-! ### Coroutines -/

theorem resume_steps {id : Nat} {args : List Value} {wrapped : Bool} (hs : s.Confined w)
    (ha : Clears w args) (h : Around w e e') (hf : Frames.Alike w e.frames e'.frames) :
    Steps w (some (e.resume b id args wrapped s)) (some (e'.resume b id args wrapped s)) := by
  unfold resume
  extract_lets refuse r turned enter refuse' r' turned' enter'
  have hrefuse (message : Bytes) : Steps w (some (refuse message)) (some (refuse' message)) := by
    simp only [refuse, refuse']
    split
    · exact complain_steps hs h (.alike hf) message
    · exact .next (.ret hs (.cons trivial (.one trivial)) h hf)
  have henter (fs fs' : List Frame) (d : Depth) : Around w (enter fs d) (enter' fs' d) := by
    have hr : Resumers.Alike w (r :: e.resumers) (r' :: e'.resumers) := by
      simp only [r, r']
      rw [h.thread, h.depth]
      exact .cons hf h.resumers
    have ht : Around w turned turned' := by
      simp only [turned, turned']
      rw [h.thread]
      exact (h.setThread e.thread .normal).setThread id .running
    exact ⟨rfl, hr, rfl, ht.threads⟩
  rw [h.depth]
  split
  · exact hrefuse _
  · have ht := h.threads.thread id
    generalize e.threads.getD id default = t, e'.threads.getD id default = t' at ht
    cases ht with
    | fresh hfn => exact .next (.apply hs (.clear hfn) ha (henter ..) .nil)
    | suspended hf' => exact .next (.ret hs ha (henter ..) hf')
    | dead => exact hrefuse _
    | running => exact hrefuse _
    | normal => exact hrefuse _

theorem yield_steps {vs : List Value} (hs : s.Confined w) (hv : Clears w vs) (h : Around w e e')
    (hf : Frames.Alike w e.frames e'.frames) :
    Steps w (some (e.yield vs s)) (some (e'.yield vs s)) := by
  obtain ⟨fs, d, rs, id, ts⟩ := e
  obtain ⟨fs', d', rs', id', ts'⟩ := e'
  obtain rfl : d' = d := h.depth
  obtain rfl : id' = id := h.thread
  have hr : Resumers.Alike w rs rs' := h.resumers
  cases hr with
  | nil => exact .next (.raise hs trivial h (.alike hf))
  | @cons _ _ _ _ wrapped _ _ hw =>
    have hback := h.backTo (t := .suspended fs d') (.suspended hf) h.resumers
    refine .next (.ret hs ?_ hback hw)
    cases wrapped with
    | true => exact hv
    | false => exact .cons trivial hv

theorem follow_steps {r : Except Value Verdict} (hs : s.Confined w)
    (hr : Script.Post w (Verdict.Clear w) r) (h : Around w e e')
    (hf : Frames.Alike w e.frames e'.frames) :
    Steps w (some (e.follow b r s)) (some (e'.follow b r s)) := by
  cases r with
  | error v => exact .next (.raise hs hr h (.alike hf))
  | ok r =>
    cases r with
    | ret vs => exact .next (.ret hs hr h hf)
    | tail fn args => exact .next (.apply hs (.clear hr.1) hr.2 h hf)
    | protect handler fn args =>
      unfold follow
      rw [h.depth]
      exact .next (.apply hs (.clear hr.2.1) hr.2.2 (h.framed ..)
        (.cons (.guard hr.1) hf))
    | resume id args wrapped => exact resume_steps hs hr h hf
    | yield vs => exact yield_steps hs hr h hf

/-! ### Calls -/

theorem callable?_clear (hs : s.Confined w) {fn : Value} {f : Lua.Callable} {args' : List Value} :
    ∀ (n : Nat) {v : Value} {args : List Value}, v.Clear w → Clears w args →
      callable? s n v args = some (fn, f, args') → f.Clear w ∧ Clears w args'
  | 0, _, _, _, _, h => by cases h
  | n + 1, v, args, hv, ha, h => by
    unfold callable? at h
    split at h
    · next id =>
      obtain ⟨c, hc, he⟩ := Option.map_eq_some_iff.mp h
      cases he
      exact ⟨hs.callable hv hc, ha⟩
    · split at h
      · cases h
      · exact callable?_clear hs n (hs.metafield hv _) (.cons hv ha) h

theorem callable?_callable (hs : s.Confined w) {v fn : Value} {args args' : List Value}
    {f : Lua.Callable} (hv : v.Callable w args) (ha : Clears w args)
    (h : callable? s maxStandIns v args = some (fn, f, args')) :
    (f.Clear w ∨ ∃ n, f = .native n ∧ n.Harmless w args') ∧ Clears w args' := by
  cases hv with
  | clear hv =>
    obtain ⟨hf, ha⟩ := callable?_clear hs maxStandIns hv ha h
    exact ⟨.inl hf, ha⟩
  | native hid hf =>
    obtain ⟨c, hc, he⟩ := Option.map_eq_some_iff.mp h
    rw [hs.native hid] at hc
    cases hc
    cases he
    exact ⟨.inr ⟨_, rfl, hf⟩, ha⟩

/-- What a call comes to, if it is one of a program, and if it is one of a native function. -/
theorem apply_steps {caller : Caller} {fn : Value} {args : List Value} (hs : s.Confined w)
    (h : Around w e e') (hf : Frames.Loose w e.frames e'.frames)
    (hclosure : ∀ {v chunk f cells args'}, callable? s maxStandIns fn args =
      some (v, .closure chunk f cells, args') → ∀ slots, Alike w (.act (Eval.call chunk f cells args' s))
        { e with depth := { e.depth with slots } } { e' with depth := { e'.depth with slots } })
    (hnative : ∀ {v f args'}, callable? s maxStandIns fn args = some (v, .native f, args') →
      Steps w
        (((f.run args').run (e.context caller b v) ⟨s, e.threads⟩).map fun r =>
          follow { e with threads := r.2.threads } b r.1 r.2.store)
        (((f.run args').run (e'.context caller b v) ⟨s, e'.threads⟩).map fun r =>
          follow { e' with threads := r.2.threads } b r.1 r.2.store)) :
    Steps w (e.apply caller b fn args s) (e'.apply caller b fn args s) := by
  unfold apply
  rw [h.depth, sites_alike h hf]
  split
  · exact complain_steps hs h hf _
  · generalize hr : callable? s maxStandIns fn args = r at hclosure hnative
    cases r with
    | none => exact complain_steps hs h hf _
    | some r =>
      obtain ⟨v, f, args'⟩ := r
      cases f with
      | closure chunk f cells =>
        have hnext := hclosure rfl (e.depth.slots + f.slots + if f.isVararg then args'.length + 1 else 0)
        rw [h.depth] at hnext
        dsimp only
        generalize (e.depth.slots + f.slots + if f.isVararg then args'.length + 1 else 0) = slots at hnext ⊢
        split
        · exact complain_steps hs h hf _
        · exact .next hnext
      | native f =>
        have hnext := hnative rfl
        rw [h.depth] at hnext
        dsimp only
        split
        · exact complain_steps hs h hf _
        · generalize (f.run args').run (e.context caller b v) ⟨s, e.threads⟩ = x,
            (f.run args').run (e'.context caller b v) ⟨s, e'.threads⟩ = x' at hnext ⊢
          cases x <;> cases x' <;> exact hnext

theorem apply_alike {caller : Caller} (hc : Runs w caller) (hb : b.handler.Clear w) {fn : Value}
    {args : List Value} (hs : s.Confined w) (hfn : fn.Callable w args) (ha : Clears w args)
    (h : Around w e e') (hf : Frames.Alike w e.frames e'.frames) :
    Steps w (e.apply caller b fn args s) (e'.apply caller b fn args s) := by
  refine apply_steps hs h (.alike hf) (fun {v chunk f cells args'} hcall slots => ?_)
    fun {v f args'} hcall => ?_
  · obtain ⟨hclear, ha'⟩ := callable?_callable hs hfn ha hcall
    -- a kept function that does no harm is a native one
    have hclear := hclear.resolve_right fun ⟨_, h, _⟩ => nomatch h
    have hbody : (Eval.call chunk f cells args' s).Tame w (scopes e.frames) := by
      rcases hclear with hcells | hprogram
      · exact Eval.call_tame hs chunk f hcells ha'
      · exact Protect.program_tame hprogram hs ha'
    rw [h.depth]
    exact .act hbody (h.framed ..) hf
  · obtain ⟨hclear, ha'⟩ := callable?_callable hs hfn ha hcall
    have hclear : f.Clear w ∨ f.Harmless w args' :=
      hclear.imp_right fun ⟨_, h, hf⟩ => Lua.Callable.native.inj h ▸ hf
    have hm : Machine.Alike w ⟨s, e.threads⟩ ⟨s, e'.threads⟩ := ⟨rfl, hs, h.threads⟩
    have hrun := (Native.run_keeps hclear ha').outcomes (context_alike hc hb h (.alike hf) v) hm
    generalize (f.run args').run (e.context caller b v) ⟨s, e.threads⟩ = x,
      (f.run args').run (e'.context caller b v) ⟨s, e'.threads⟩ = x' at hrun
    cases hrun with
    | none => exact .none
    | @some r m m' hr hm =>
      dsimp only [Option.map_some]
      rw [hm.store]
      exact follow_steps hm.confined hr ⟨h.depth, h.resumers, h.thread, hm.threads⟩ hf

/-- A program that looks at what was caught does the same, whatever waits for it. -/
theorem apply_judging {caller : Caller} {g : Protect.Guard} {f : Func} {id : Nat} {args : List Value}
    (hg : w.guards g) (hj : Protect.Judges g f)
    (hid : s.function? id = some (.closure Protect.chunk f g.cells)) (hs : s.Confined w)
    (ha : Clears w args) (h : Around w e e') (hf : Frames.Bare w e.frames e'.frames) :
    Steps w (e.apply caller b (.fn id) args s) (e'.apply caller b (.fn id) args s) := by
  have hcallable := callable_fn hid args
  refine apply_steps hs h hf.loose (fun hcall slots => ?_) fun hcall => ?_
  · cases hcallable.symm.trans hcall
    rw [h.depth]
    exact .guarded (hj.guarded hg hs ha) (hj.tame hg hs ha) (h.framed ..) hf
  · cases hcallable.symm.trans hcall

theorem apply_native {caller : Caller} {f : Native} {id : Nat} {args : List Value}
    {r : Except Value Verdict} (hid : s.function? id = some (.native f))
    (hrun : ∀ ctx threads, (f.run args).run ctx ⟨s, threads⟩ = some (r, ⟨s, threads⟩))
    (hs : s.Confined w) (h : Around w e e') (hf : Frames.Loose w e.frames e'.frames)
    (hfollow : Steps w (some (e.follow b r s)) (some (e'.follow b r s))) :
    Steps w (e.apply caller b (.fn id) args s) (e'.apply caller b (.fn id) args s) := by
  have hcallable := callable_fn hid args
  refine apply_steps hs h hf (fun hcall slots => ?_) fun hcall => ?_
  · cases hcallable.symm.trans hcall
  · cases hcallable.symm.trans hcall
    rw [hrun, hrun]
    exact hfollow

/-! ### Actions -/

theorem act_alike {a : Action} (ha : a.Tame w (scopes e.frames)) (h : Around w e e')
    (hf : Frames.Alike w e.frames e'.frames) : Steps w (some (e.act b a)) (some (e'.act b a)) := by
  obtain ⟨fs, d, rs, id, ts⟩ := e
  obtain ⟨fs', d', rs', id', ts'⟩ := e'
  obtain rfl : d' = d := h.depth
  have ho := outermost_alike (b := b) h
  replace hf : Frames.Alike w fs fs' := hf
  generalize hn : scopes fs = n at ha
  have hpush {f : Frame} (hframe : f.Tame w n) : Frames.Alike w (f :: fs) (f :: fs') :=
    .cons (hn ▸ hframe) hf
  cases ha with
  | ret hs hv => exact ret_steps hs hv h hf
  | call hs hfn ha hnext =>
    exact charged_steps hs (h.framed ..) (.alike (hpush (.call hnext)))
      (.apply hs (.clear hfn) ha (h.framed ..) (hpush (.call hnext)))
  | @tail _ s fn args site hs hfn ha =>
    have hcall : Steps w
        (some (charged ⟨.call site (fun vs s => .ret vs s) d' :: fs, d', rs, id, ts⟩ s (.apply fn args)))
        (some (charged ⟨.call site (fun vs s => .ret vs s) d' :: fs', d', rs', id', ts'⟩ s
          (.apply fn args))) := by
      have hret : Frame.Tame w n (.call site (fun vs s => .ret vs s) d') :=
        .call fun _ _ hs hv => .ret hs hv
      exact charged_steps hs (h.framed ..) (.alike (hpush hret))
        (.apply hs (.clear hfn) ha (h.framed ..) (hpush hret))
    unfold act
    rw [ho]
    dsimp only
    split
    · obtain ⟨hfs, hdepth⟩ := hf.giveWay (outermost b ⟨fs, d', rs, id, ts⟩)
      rw [hdepth]
      exact charged_steps hs (h.framed ..) (.alike hfs) (.apply hs (.clear hfn) ha (h.framed ..) hfs)
    · exact hcall
  | raise hs hv => exact .next (.raise hs hv h (.alike hf))
  | loop hs hv hb hd => exact .next (.act (hb _ _ hs hv) (h.framed ..) (hpush (.loop hb hd)))
  | again hs hv =>
    have hl := hf.loops
    unfold act
    dsimp only
    generalize innerLoop? fs = x, innerLoop? fs' = x' at hl
    cases hl with
    | none => exact ret_steps hs .nil h hf
    | some hb hd hfs =>
      have hloop := Frames.Alike.cons (.loop hb hd) hfs
      exact charged_steps hs (h.framed ..) (.alike hloop) (.act (hb _ _ hs hv) (h.framed ..) hloop)
  | leave hs =>
    have hl := hf.loops
    unfold act
    dsimp only
    generalize innerLoop? fs = x, innerLoop? fs' = x' at hl
    cases hl with
    | none => exact ret_steps hs .nil h hf
    | some hb hd hfs => exact .next (.act (hd _ hs) (h.framed ..) hfs)
  | scope hs hc he =>
    refine .next (.act ?_ (h.framed ..) (hpush (.scope he)))
    have hentry := he 0 _ _ hs hc
    rw [← hn] at hentry
    exact hentry
  | endScope hs hnext =>
    -- the innermost frame is that of the block, which has the label
    cases hf with
    | nil => cases hn
    | @cons f fs fs' hframe hfs =>
      cases f with
      | scope =>
        cases hn
        exact .next (.act (hnext _ hs) (h.framed ..) hfs)
      | _ => cases hn
    | within => cases hn
  | @jump _ _ label _ hs hc =>
    have hl := hf.labels label
    unfold act
    dsimp only
    generalize labelled? label fs = x, labelled? label fs' = x' at hl
    cases hl with
    | none => exact ret_steps hs .nil h hf
    | some he hfs =>
      refine .next (.act (he _ _ _ hs fun id hid => hc id (List.mem_of_mem_drop hid)) (h.framed ..) hfs)

theorem act_guarded {a : Action} (ha : a.Guarded w) (ht : a.Tame w 0) (h : Around w e e')
    (hf : Frames.Bare w e.frames e'.frames) : Steps w (some (e.act b a)) (some (e'.act b a)) := by
  obtain ⟨fs, d, rs, id, ts⟩ := e
  obtain ⟨fs', d', rs', id', ts'⟩ := e'
  obtain rfl : d' = d := h.depth
  have ho := outermost_alike (b := b) h
  replace hf : Frames.Bare w fs fs' := hf
  cases ha with
  | ret hs hv hj => exact ret_judged hs hv hj h hf
  | call hs hfn ha hnext =>
    obtain ⟨hn, hfs⟩ := hf
    cases ht with
    | call _ _ _ ht =>
      exact charged_steps hs (h.framed ..) (.alike (.within hnext ht hn hfs))
        (.apply hs (.clear hfn) ha (h.framed ..) (.within hnext ht hn hfs))
  | @finish s g args site hg hs ha =>
    have hid := (hs.installed hg).finish
    obtain ⟨hfs, hdepth⟩ := hf.giveWay (outermost b ⟨fs, d', rs, id, ts⟩)
    unfold act
    rw [ho]
    simp only [callable_fn hid]
    rw [hdepth]
    exact charged_steps hs (h.framed ..) hfs.loose (.judging hg .finish hid hs ha (h.framed ..) hfs)
  | raise hs hv => exact .next (.raise hs hv h hf.loose)
  | test hg hs hv hn =>
    cases ht with
    | call _ _ _ ht =>
      exact charged_steps hs (h.framed ..) (.call hf.loose)
        (.testing hg hs hv (h.framed ..) (.intro hn ht hf))
  | fail hg hs hv =>
    cases ht with
    | call _ _ _ ht =>
      exact charged_steps hs (h.framed ..) (.call hf.loose)
        (.failing hg hs hv (h.framed ..) (.cons (.call (hf.scopes.symm ▸ ht)) hf.left) (.call hf.loose))

/-! ### All steps -/

theorem step_alike {caller : Caller} (hc : Runs w caller) (hb : b.handler.Clear w) {c : Control}
    (h : Alike w c e e') : Steps w (e.step caller b c) (e'.step caller b c) := by
  cases h with
  | act ha h hf => exact act_alike ha h hf
  | apply hs hfn ha h hf => exact apply_alike hc hb hs hfn ha h hf
  | ret hs hv h hf => exact ret_steps hs hv h hf
  | raise hs hv h hf => exact raise_steps hc hb hs hv h hf
  | guarded ha ht h hf => exact act_guarded ha ht h hf
  | judging hg hj hid hs ha h hf => exact apply_judging hg hj hid hs ha h hf
  | @testing g v s _ _ hg hs hv h hf =>
    exact apply_native (r := .ok (.ret [.bool (GateFn.isFatalValue s v)])) (hs.installed hg).isFatal
      (fun _ _ => rfl) hs h hf.loose (.next (.tested hs h hf))
  | tested hs h hf => exact ret_tested hs h hf
  | @failing g v s _ _ hg hs hv h _ hf =>
    exact apply_native (hs.installed hg).error (fun ctx _ => Protect.run_error v ctx _) hs h hf
      (.next (.raise hs hv h hf))

end

theorem Around.start {m m' : Machine} (hm : m.Alike w m') (b : Surroundings) (thread : Nat) :
    Around w (start b thread m.threads) (start b thread m'.threads) :=
  ⟨rfl, .nil, rfl, hm.threads⟩

theorem Runs.of_runs {n : Nat} (h : ∀ {b : Surroundings} {c : Control} {e e' : Exec},
    b.handler.Clear w → Alike w c e e' → Ends.Alike w (run n b c e) (run n b c e')) :
    Runs w fun b thread fn args m => run n b (.apply fn args m.store) (start b thread m.threads) := by
  intro b thread fn args m m' hb hfn ha hm
  dsimp only
  rw [hm.store]
  exact h hb (.apply hm.confined hfn ha (.start hm b thread) .nil)

/-- Runs of machines that are alike come to the same. -/
theorem run_alike (n : Nat) {b : Surroundings} (hb : b.handler.Clear w) {c : Control} {e e' : Exec}
    (h : Alike w c e e') : Ends.Alike w (run n b c e) (run n b c e') := by
  induction n generalizing b c e e' with
  | zero => exact .none
  | succ n ih =>
    have hstep := step_alike (.of_runs fun hb h => ih hb h) hb h
    unfold run
    generalize e.step _ b c = x, e'.step _ b c = x' at hstep
    cases hstep with
    | none => exact .none
    | next h => exact ih hb h
    | done hr hm => exact .some hr hm

theorem runs_alike (w : Ward) (n : Nat) :
    Runs w fun b thread fn args m => run n b (.apply fn args m.store) (start b thread m.threads) :=
  .of_runs fun hb h => run_alike n hb h

end Exec

end Cordon.Lua
