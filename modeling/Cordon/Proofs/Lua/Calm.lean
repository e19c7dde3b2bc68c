import Cordon.Lua.Interpreter
import Cordon.Proofs.Lua.Libraries
import Cordon.Proofs.Lua.Quiet

/-!
# Calm machines

A machine is calm if the programs that wait in its threads are quiet. It stays so, and whatever holds of
quiet changes and of every line that is printed, one after the other, holds of all that a run does to the
store.
-/

namespace Cordon.Lua

/-- What a frame goes back to is quiet. -/
inductive Frame.Quiet : Frame → Prop where
  | call {site : Site} {next : List Value → Store → Action} {depth : Depth}
    (hn : ∀ vs s, (next vs s).Quiet s) : Quiet (.call site next depth)
  | loop {body : List Value → Store → Action} {done : Store → Action}
    (hb : ∀ vs s, (body vs s).Quiet s) (hd : ∀ s, (done s).Quiet s) : Quiet (.loop body done)
  | scope {labels : List Label} {entry : Nat → List Nat → Store → Action}
    (he : ∀ i cells s, (entry i cells s).Quiet s) : Quiet (.scope labels entry)
  | guard {handler : Option Value} {depth : Depth} : Quiet (.guard handler depth)

def Quiets (frames : List Frame) : Prop := ∀ f ∈ frames, f.Quiet

def Thread.Quiet : Thread → Prop
  | .suspended frames _ => Quiets frames
  | _ => True

theorem Thread.Idle.quiet {t : Thread} (h : t.Idle) : t.Quiet := by
  cases t with
  | suspended frames depth => exact h.elim
  | _ => trivial

def Calm (threads : Array Thread) : Prop := ∀ t ∈ threads, t.Quiet

def Machine.Calm (m : Machine) : Prop := Lua.Calm m.threads

theorem Calm.set {threads : Array Thread} (h : Calm threads) (id : Nat) {t : Thread} (ht : t.Quiet) :
    Calm (threads.setIfInBounds id t) := fun _ hu =>
  (Array.mem_or_eq_of_mem_setIfInBounds hu).elim (h _) fun e => e ▸ ht

theorem Calm.push {threads : Array Thread} (h : Calm threads) {t : Thread} (ht : t.Quiet) :
    Calm (threads.push t) := fun _ hu =>
  (Array.mem_push.mp hu).elim (h _) fun e => e ▸ ht

theorem Calm.get {threads : Array Thread} (h : Calm threads) (id : Nat) :
    (threads.getD id default).Quiet := by
  rw [Array.getD_eq_getD_getElem?]
  cases ht : threads[id]? with
  | none => trivial
  | some t => exact h t (Array.mem_of_getElem? ht)

/-! ## What holds of runs -/

/-- Calm machines stay calm, and their stores are related. -/
def Within (S : Store → Store → Prop) (m m' : Machine) : Prop :=
  m.Calm → m'.Calm ∧ S m.store m'.store

/-- What holds of quiet changes and of printing, one after the other. -/
structure Store.Law (S : Store → Store → Prop) : Prop where
  still : ∀ {s s'}, s.Still s' → S s s'
  trans : ∀ {s s' s''}, S s s' → S s' s'' → S s s''
  print : ∀ {ctx : Ctx}, ctx.Lawful (Within S) → ∀ tostring output echo args,
    Obeys (Within S) ctx (GateFn.runPrint tostring output echo args)

variable {S : Store → Store → Prop} {s s' : Store}

theorem Store.Law.within (still : ∀ {s s'}, s.Still s' → S s s')
    (trans : ∀ {s s' s''}, S s s' → S s' s'' → S s s'') : Lua.Law (Within S) where
  store _ hs hm := ⟨hm, still hs⟩
  setThread s _ id _ ht hm := ⟨Calm.set hm id ht.quiet, still (.refl s)⟩
  newThread s _ _ ht hm := ⟨Calm.push hm ht.quiet, still (.refl s)⟩
  trans h h' hm :=
    have hm' := h hm
    have hm'' := h' hm'.1
    ⟨hm''.1, trans hm'.2 hm''.2⟩

theorem Native.run_within (h : Store.Law S) {ctx : Ctx} (hc : ctx.Lawful (Within S)) (f : Native)
    (args : List Value) : Obeys (Within S) ctx (f.run args) := by
  by_cases hf : ∃ tostring output echo, f = .gate (.print tostring output echo)
  · obtain ⟨tostring, output, echo, rfl⟩ := hf
    exact .bind hc (Script.ofHost_obeys hc (h.print hc _ _ _ _)) fun _ => .pure hc _
  · exact Native.run_obeys hc (fun _ _ _ e => hf ⟨_, _, _, e⟩) args

/-! ## Frames -/

section

variable {f : Frame} {frames rest : List Frame}

theorem Quiets.head (h : Quiets (f :: frames)) : f.Quiet := h f (.head _)

theorem Quiets.tail (h : Quiets (f :: frames)) : Quiets frames := fun g hg => h g (.tail _ hg)

theorem Quiets.nil : Quiets [] := fun _ h => absurd h List.not_mem_nil

theorem Quiets.cons (hf : f.Quiet) (h : Quiets frames) : Quiets (f :: frames) :=
  List.forall_mem_cons.mpr ⟨hf, h⟩

theorem Quiets.giveWay (outermost : Depth) (h : Quiets frames) :
    Quiets (Lua.giveWay outermost frames).1 := by
  fun_induction Lua.giveWay outermost frames with
  | case1 site next depth rest =>
    cases h.head with
    | call hn => exact .cons (.call hn) h.tail
  | case2 handler depth rest => exact h
  | case3 _ _ _ _ ih => exact ih h.tail
  | case4 => exact h

theorem innerLoop?_quiet {body : List Value → Store → Action} {done : Store → Action}
    (h : Quiets frames) (hl : innerLoop? frames = some (body, done, rest)) :
    (Frame.loop body done).Quiet ∧ Quiets rest := by
  fun_induction innerLoop? frames with
  | case1 body done rest =>
    cases hl
    exact ⟨h.head, h.tail⟩
  | case2 _ _ _ ih => exact ih h.tail hl
  | case3 => cases hl

theorem labelled?_quiet {name : Bytes} {label : Label} {entry : Nat → List Nat → Store → Action}
    (h : Quiets frames) (hl : labelled? name frames = some (label, entry, rest)) :
    (∀ i cells s, (entry i cells s).Quiet s) ∧ Quiets rest := by
  fun_induction labelled? name frames with
  | case1 labels entry frames l hfind =>
    cases hl
    cases h.head with
    | scope he => exact ⟨he, h⟩
  | case2 labels entry frames hfind ih => exact ih h.tail hl
  | case3 _ _ _ ih => exact ih h.tail hl
  | case4 => cases hl

theorem innerGuard?_quiet {handler : Option Value} {depth : Depth} (h : Quiets frames)
    (hg : innerGuard? frames = some (handler, depth, rest)) : Quiets rest := by
  fun_induction innerGuard? frames with
  | case1 handler depth rest =>
    cases hg
    exact h.tail
  | case2 _ _ _ ih => exact ih h.tail hg
  | case3 => cases hg

end

/-! ## Steps -/

namespace Exec

structure Calm (e : Exec) : Prop where
  frames : Quiets e.frames
  resumers : ∀ r ∈ e.resumers, Quiets r.frames
  threads : Lua.Calm e.threads

/-- What is next comes quietly from a store. -/
def Control.Quiet (s : Store) : Control → Prop
  | .act a => a.Quiet s
  | .apply _ _ s' | .ret _ s' | .raise _ s' => s.Still s'

theorem Control.Quiet.after {c : Control} (h : Control.Quiet s' c) (hs : s.Still s') :
    Control.Quiet s c := by
  cases c with
  | act a => exact Action.Quiet.after h hs
  | _ => exact hs.trans h

/-- A step changes a store in ways that the relation allows. -/
def Progress.Within (S : Store → Store → Prop) (s : Store) : Progress → Prop
  | .next c e => ∃ s', S s s' ∧ Control.Quiet s' c ∧ e.Calm
  | .done f => f.machine.Calm ∧ S s f.machine.store

/-- A step changes nothing that was printed. -/
def Progress.Quiet (s : Store) : Progress → Prop
  | .next c e => Control.Quiet s c ∧ e.Calm
  | .done f => f.machine.Calm ∧ s.Still f.machine.store

theorem Progress.Quiet.within (h : Store.Law S) {p : Progress} (hp : Progress.Quiet s' p) (hs : S s s') :
    Progress.Within S s p := by
  cases p with
  | next c e => exact ⟨s', hs, hp⟩
  | done f => exact ⟨hp.1, h.trans hs (h.still hp.2)⟩

variable {e : Exec} {b : Surroundings} (he : e.Calm) (hs : s.Still s')

include he

theorem backTo_calm {r : Resumer} {rest : List Resumer} {t : Thread} (hr : e.resumers = r :: rest)
    (ht : t.Quiet) : (e.backTo r rest t).Calm where
  frames := he.resumers r (hr ▸ .head _)
  resumers := fun r' h => he.resumers r' (hr ▸ .tail _ h)
  threads := (he.threads.set _ ht).set _ trivial

theorem charged_quiet {c : Store → Control} (hs : s.Still s') (hc : Control.Quiet s (c s')) :
    Progress.Quiet s (e.charged s' c) := by
  unfold charged
  split
  · exact ⟨hs.trans (.of_eq rfl rfl), he⟩
  · exact ⟨hc, he⟩

include hs

theorem ret_quiet (vs : List Value) : Progress.Quiet s (e.ret vs s') := by
  have htail {f : Frame} {rest : List Frame} (hf : e.frames = f :: rest) (depth : Depth) :
      Exec.Calm { e with frames := rest, depth } :=
    ⟨fun g hg => he.frames g (hf ▸ .tail _ hg), he.resumers, he.threads⟩
  unfold ret
  split
  · next site next depth rest hf =>
    have hframe : (Frame.call site next depth).Quiet := he.frames _ (hf ▸ .head _)
    cases hframe with
    | call hn => exact ⟨(hn vs s').after hs, htail hf depth⟩
  · next hf => exact ⟨hs, htail hf _⟩
  · next hf => exact ⟨hs, htail hf _⟩
  · split
    · exact ⟨he.threads, hs⟩
    · next hr => exact ⟨hs, backTo_calm he hr trivial⟩

theorem resume_quiet (id : Nat) (args : List Value) (wrapped : Bool) :
    Progress.Quiet s (e.resume b id args wrapped s') := by
  unfold resume
  extract_lets refuse r base enter
  have hrefuse (message : Bytes) : Progress.Quiet s (refuse message) := by
    simp only [refuse]
    split <;> exact ⟨hs, he⟩
  have henter {frames : List Frame} (hf : Quiets frames) (depth : Depth) : (enter frames depth).Calm :=
    ⟨hf, List.forall_mem_cons.mpr ⟨he.frames, he.resumers⟩,
      (he.threads.set e.thread (t := .normal) trivial).set _ trivial⟩
  split
  · exact hrefuse _
  · have ht := he.threads.get id
    split
    · exact ⟨hs, henter .nil _⟩
    · next hsuspended =>
      rw [hsuspended] at ht
      exact ⟨hs, henter ht _⟩
    · exact hrefuse _
    · exact hrefuse _

theorem yield_quiet (vs : List Value) : Progress.Quiet s (e.yield vs s') := by
  unfold yield
  split
  · next hr => exact ⟨hs, backTo_calm he hr he.frames⟩
  · exact ⟨hs, he⟩

theorem follow_quiet (r : Except Value Verdict) : Progress.Quiet s (e.follow b r s') := by
  unfold follow
  split
  · exact ⟨hs, he⟩
  · exact ⟨hs, he⟩
  · exact ⟨hs, he⟩
  · exact ⟨hs, .cons .guard he.frames, he.resumers, he.threads⟩
  · exact resume_quiet he hs ..
  · exact yield_quiet he hs _

omit hs in
theorem act_quiet {a : Action} (ha : a.Quiet s) : Progress.Quiet s (e.act b a) := by
  have hframes {frames : List Frame} (hf : Quiets frames) (depth : Depth) :
      Exec.Calm { e with frames, depth } := ⟨hf, he.resumers, he.threads⟩
  cases ha with
  | ret hs => exact ret_quiet he hs _
  | call hs hn => exact charged_quiet (hframes (.cons (.call hn) he.frames) _) hs hs
  | tail hs =>
    simp only [act]
    split
    · exact charged_quiet (hframes (he.frames.giveWay _) _) hs hs
    · exact charged_quiet (hframes (.cons (.call fun _ s => .ret (.refl s)) he.frames) _) hs hs
  | raise hs => exact ⟨hs, he⟩
  | loop hs hb hd => exact ⟨(hb _ _).after hs, hframes (.cons (.loop hb hd) he.frames) _⟩
  | again hs =>
    simp only [act]
    split
    · next hl =>
      obtain ⟨hloop, hrest⟩ := innerLoop?_quiet he.frames hl
      refine charged_quiet (hframes (.cons hloop hrest) _) hs ?_
      cases hloop with
      | loop hb hd => exact (hb _ _).after hs
    · exact ret_quiet he hs _
  | leave hs =>
    simp only [act]
    split
    · next hl =>
      obtain ⟨hloop, hrest⟩ := innerLoop?_quiet he.frames hl
      cases hloop with
      | loop hb hd => exact ⟨(hd _).after hs, hframes hrest _⟩
    · exact ret_quiet he hs _
  | scope hs hentry => exact ⟨(hentry _ _ _).after hs, hframes (.cons (.scope hentry) he.frames) _⟩
  | endScope hs hn =>
    exact ⟨(hn _).after hs, hframes (fun f hf => he.frames f (List.mem_of_mem_drop hf)) _⟩
  | jump hs =>
    simp only [act]
    split
    · next hl =>
      obtain ⟨hentry, hrest⟩ := labelled?_quiet he.frames hl
      exact ⟨(hentry _ _ _).after hs, hframes hrest _⟩
    · exact ret_quiet he hs _

end Exec

/-! ## Runs -/

/-- A caller walks quiet programs only, and does to the store what the relation allows. -/
def Caller.Within (S : Store → Store → Prop) (caller : Caller) : Prop :=
  ∀ {b thread fn args m f}, caller b thread fn args m = some f → Lua.Within S m f.machine

namespace Exec

variable {e : Exec} {b : Surroundings} {caller : Caller}

theorem context_lawful (h : Store.Law S) (hc : Caller.Within S caller) (e : Exec) (b : Surroundings)
    (callee : Value) : (e.context caller b callee).Lawful (Lua.Within S) where
  law := Store.Law.within h.still h.trans
  call := by
    intro handler f args m r m' hr
    obtain ⟨g, hg, heq⟩ := Option.map_eq_some_iff.mp hr
    cases heq
    exact hc hg

theorem caught_obeys {R : Machine → Machine → Prop} {ctx : Ctx} (h : ctx.Lawful R)
    (handler : Option Value) (v : Value) : Act.Obeys R ctx (caught handler v) := by
  unfold caught
  cases handler with
  | none => exact .bind h (.pure h _) fun _ => .bind h (Act.caught_obeys h) fun _ => .pure h _
  | some f =>
    exact .bind h (Act.handle_obeys h _ _) fun _ => .bind h (Act.caught_obeys h) fun _ => .pure h _

theorem raise_within (h : Store.Law S) (hc : Caller.Within S caller) (he : e.Calm) (hs : s.Still s')
    {v : Value} {p : Progress} (hp : e.raise caller b v s' = some p) : Progress.Within S s p := by
  unfold raise at hp
  split at hp
  · next handler depth rest hg =>
    obtain ⟨⟨w, m⟩, hw, hp⟩ := Option.bind_eq_some_iff.mp hp
    cases hp
    obtain ⟨hm, hs'⟩ := caught_obeys (context_lawful h hc e b .nil) handler v _ _ _ hw he.threads
    exact ⟨m.store, h.trans (h.still hs) hs', .refl _, innerGuard?_quiet he.frames hg, he.resumers, hm⟩
  · split at hp
    · cases hp
      exact ⟨he.threads, h.still hs⟩
    · next r rest hr =>
      have hback := backTo_calm he hr (t := .dead none) trivial
      split at hp
      · split at hp
        · split at hp
          · cases hp
            exact ⟨s, h.still (.refl s), hs, hback⟩
          · cases hp
            exact ⟨s, h.still (.refl s), hs, hback⟩
        · cases hp
          exact ⟨s, h.still (.refl s), hs, hback⟩
      · cases hp
        exact ⟨s, h.still (.refl s), hs.trans (.of_eq rfl rfl), backTo_calm he hr trivial⟩

theorem apply_within (h : Store.Law S) (hc : Caller.Within S caller) (he : e.Calm) (hs : s.Still s')
    {fn : Value} {args : List Value} {p : Progress} (hp : e.apply caller b fn args s' = some p) :
    Progress.Within S s p := by
  have hstay (message : Bytes) : Progress.Within S s (.next (e.complain b message s') e) :=
    ⟨s, h.still (.refl s), hs, he⟩
  unfold apply at hp
  split at hp
  · cases hp
    exact hstay _
  · split at hp
    · cases hp
      exact hstay _
    · dsimp only at hp
      -- the room that the extra arguments take does not matter
      split at hp
      all_goals
        split at hp
        · cases hp
          exact hstay _
        · cases hp
          exact ⟨s, h.still (.refl s), (Eval.call_quiet ..).after hs, he.frames, he.resumers, he.threads⟩
    · split at hp
      · cases hp
        exact hstay _
      · obtain ⟨⟨r, m⟩, hr, hp⟩ := Option.bind_eq_some_iff.mp hp
        cases hp
        obtain ⟨hm, hs'⟩ := Native.run_within h (context_lawful h hc e b _) _ _ _ _ _ hr he.threads
        have he' : Exec.Calm { e with threads := m.threads } := ⟨he.frames, he.resumers, hm⟩
        exact (follow_quiet he' (.refl _) r).within h
          (h.trans (h.still hs) hs')

theorem step_within (h : Store.Law S) (hc : Caller.Within S caller) (he : e.Calm) {c : Control}
    (hq : Control.Quiet s c) {p : Progress} (hp : e.step caller b c = some p) :
    Progress.Within S s p := by
  have hrefl : S s s := h.still (.refl s)
  cases c with
  | act a =>
    cases hp
    exact (act_quiet he hq).within h hrefl
  | apply fn args s' => exact apply_within h hc he hq hp
  | ret vs s' =>
    cases hp
    exact (ret_quiet he hq vs).within h hrefl
  | raise v s' => exact raise_within h hc he hq hp

theorem start_calm {threads : Array Thread} (h : Lua.Calm threads) {thread : Nat} :
    (start b thread threads).Calm :=
  ⟨.nil, fun _ hr => absurd hr List.not_mem_nil, h⟩

theorem run_within (h : Store.Law S) : ∀ (fuel : Nat) {b : Surroundings} {c : Control} {e : Exec}
    {s : Store} {f : Finish}, Control.Quiet s c → e.Calm → run fuel b c e = some f →
    f.machine.Calm ∧ S s f.machine.store
  | 0, _, _, _, _, _, _, _, hr => by cases hr
  | fuel + 1, b, c, e, s, f, hq, he, hr => by
    have hcaller : Caller.Within S fun b thread fn args m =>
        run fuel b (.apply fn args m.store) (start b thread m.threads) :=
      fun {_ _ fn args m _} hr hm =>
        run_within h fuel (c := .apply fn args m.store) (Store.Still.refl m.store) (start_calm hm) hr
    unfold run at hr
    split at hr
    · cases hr
    · next hp =>
      cases hr
      exact step_within h hcaller he hq hp
    · next hp =>
      obtain ⟨s', hs, hq', he'⟩ := step_within h hcaller he hq hp
      obtain ⟨hm, hs'⟩ := run_within h fuel hq' he' hr
      exact ⟨hm, h.trans hs hs'⟩

end Exec

theorem Machine.outside_lawful (h : Store.Law S) (fuel : Nat) :
    (Machine.outside fuel).Lawful (Within S) where
  law := Store.Law.within h.still h.trans
  call := by
    intro handler f args m r m' hr hm
    obtain ⟨g, hg, heq⟩ := Option.map_eq_some_iff.mp hr
    cases heq
    exact Exec.run_within h fuel (c := .apply f args m.store) (Store.Still.refl m.store)
      (Exec.start_calm hm) hg

end Cordon.Lua
