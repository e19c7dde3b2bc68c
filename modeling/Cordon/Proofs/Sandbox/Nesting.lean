import Cordon.Proofs.Sandbox.Protected

/-!
# Nests of protected calls

A fatal error is caught by the protected calls of a nest one after the other, and each of them raises
it again. Not always the same: if there is no memory left to look at what was caught, the error is
that one from there on. Nothing else changes meanwhile but that there are new variables, whatever the
message handlers would do.
-/

namespace Cordon.Lua.Protect

open Exec

section

variable {g : Guard} {s s' s'' : Store} {v : Value}

/-! ## What may change -/

/-- Nothing has changed but that there are new variables, or whether an allocation has failed. -/
def Widened (s s' : Store) : Prop :=
  ∃ more failed, s' = { s with cells := s.cells ++ more, allocationFailed := failed }

namespace Widened

theorem refl (s : Store) : Widened s s := ⟨#[], s.allocationFailed, by rw [Array.append_empty]⟩

theorem trans (h : Widened s s') (h' : Widened s' s'') : Widened s s'' := by
  obtain ⟨more, _, rfl⟩ := h
  obtain ⟨more', failed, rfl⟩ := h'
  exact ⟨more ++ more', failed, by rw [Array.append_assoc]⟩

theorem newCell (s : Store) (v : Value) : Widened s (s.newCell v).2 :=
  ⟨#[v], s.allocationFailed, by rw [Array.append_singleton]; rfl⟩

theorem flagged (s : Store) (failed : Bool) : Widened s { s with allocationFailed := failed } :=
  ⟨#[], failed, by rw [Array.append_empty]⟩

theorem grown (h : Widened s s') : Grown s s' := by
  obtain ⟨more, failed, rfl⟩ := h
  refine ⟨fun _ _ h => h, fun id hid => ?_, rfl, rfl, rfl⟩
  rw [Store.cell_eq, Store.cell_eq]
  exact congrArg (·.getD .nil) (Array.getElem?_append_left (s.lt_of_cell hid))

theorem exhausted (h : Widened s s') (more : Nat) : s'.exhausted more = s.exhausted more := by
  obtain ⟨_, _, rfl⟩ := h
  rfl

theorem isFatalValue (h : Widened s s') (v : Value) :
    GateFn.isFatalValue s' v = GateFn.isFatalValue s v := by
  obtain ⟨_, _, rfl⟩ := h
  rfl

end Widened

theorem exhausted_le {n n' : Nat} (h : n ≤ n') (hs : s.exhausted n = true) :
    s.exhausted n' = true := by
  unfold Store.exhausted at hs ⊢
  split
  · next limit hl =>
    simp only [hl, decide_eq_true_eq] at hs ⊢
    omega
  · next hl =>
    rw [hl] at hs
    cases hs

theorem isFatalValue_outOfMemory (s : Store) :
    GateFn.isFatalValue s (.str outOfMemoryText) = true := by
  show (Bytes.ofString outOfMemoryText == Bytes.ofString outOfMemoryText) = true
  decide

/-- The error itself, or the one that there is no memory left to look at it. -/
def Reraised (more : Nat) (s : Store) (v v' : Value) : Prop :=
  v' = v ∨ v' = .str outOfMemoryText ∧ s.exhausted more = true

theorem Reraised.isFatalValue {more : Nat} {v' : Value} (h : Reraised more s v v')
    (hv : GateFn.isFatalValue s v = true) : GateFn.isFatalValue s v' = true := by
  rcases h with rfl | ⟨rfl, -⟩
  · exact hv
  · exact isFatalValue_outOfMemory s

theorem Reraised.mono {more more' : Nat} {v' : Value} (h : Reraised more s v v') (hm : more ≤ more') :
    Reraised more' s v v' := h.imp_right fun ⟨h, hx⟩ => ⟨h, exhausted_le hm hx⟩

/-! ## Functions that the programs call -/

theorem leads_test (hi : Installed g s) (v : Value) {b : Surroundings} {e : Exec}
    (hn : e.depth.natives ≠ maxNatives) (hs : e.depth.slots + nativeSlots ≤ maxSlots) :
    Leads b (.apply (.fn g.isFatal) [v] s) e (.ret [.bool (GateFn.isFatalValue s v)] s) e :=
  .of_gate hi.isFatal hn hs fun _ => rfl

theorem leads_error (hi : Installed g s) (v : Value) {b : Surroundings} {e : Exec}
    (hn : e.depth.natives ≠ maxNatives) (hs : e.depth.slots + nativeSlots ≤ maxSlots) :
    Leads b (.apply (.fn g.error) [v, .int 0] s) e (.raise v s) e :=
  .of_native hi.error hn hs (fun ctx => run_error v ctx _) rfl

/-! ## The message handler -/

/-- No message handler, or one that leaves fatal errors as they are. -/
inductive Passing (g : Guard) (s : Store) : Option Value → Prop where
  | none : Passing g s none
  | wrapped {id a b : Nat} (h : s.function? id = some (.closure chunk handler (a :: b :: g.cells))) :
    Passing g s (some (.fn id))

theorem Passing.kept {h : Option Value} (hp : Passing g s h)
    (hf : ∀ id f, s.function? id = some f → s'.function? id = some f) : Passing g s' h := by
  cases hp with
  | none => exact .none
  | wrapped h => exact .wrapped (hf _ _ h)

theorem handler_ends (hi : Installed g s) (hv : GateFn.isFatalValue s v = true) {id x y : Nat}
    (hf : s.function? id = some (.closure chunk handler (x :: y :: g.cells))) {b : Surroundings}
    (hs : b.depth.slots + 25 ≤ maxSlots) (hn : b.depth.natives < maxNatives) (thread : Nat)
    (threads : Array Thread) :
    ∃ r s', Widened s s' ∧ Ends b (.apply (.fn id) [v] s) (start b thread threads) ⟨r, ⟨s', threads⟩⟩ ∧
      (r = .ok [v] ∨ r = .error (.str outOfMemoryText) ∧ s'.allocationFailed = true ∧
        s.exhausted (slotBytes * (b.depth.slots + 5)) = true) := by
  obtain ⟨next, hcall, hnext⟩ := handler_eq hi x y v
  have hwider : Widened s (s.newCell v).2 := .newCell s v
  have hslots : ((start b thread threads).inside handler [v]).depth.slots = b.depth.slots + 5 := rfl
  have hroom : ((start b thread threads).inside handler [v]).depth.slots ≤ maxSlots := by omega
  have happly := Leads.of_apply (b := b) hf (Nat.ne_of_lt hn) hroom
  rw [hcall] at happly
  -- the handler fails if there is no memory for the stack of the test
  cases hx : (s.newCell v).2.exhausted
      (slotBytes * ((start b thread threads).inside handler [v]).depth.slots) with
  | true =>
    refine ⟨.error (.str outOfMemoryText), _, hwider.trans (.flagged _ true), ?_, .inr ⟨rfl, rfl, ?_⟩⟩
    · refine (happly.trans (.of_call_exhausted rfl hx)).follows.ends (.done fun caller => ?_)
      rfl
    · rw [hwider.exhausted, hslots] at hx
      exact hx
  | false =>
    refine ⟨.ok [v], _, hwider, ?_, .inl rfl⟩
    have hcell : (s.newCell v).2.cell s.cells.size = v := by rw [s.cell_newCell, if_pos rfl]
    have hroom : ((start b thread threads).inside handler [v]).depth.slots + nativeSlots ≤
        maxSlots := by
      rw [hslots, nativeSlots]
      omega
    have htest := (happly.trans (.of_call rfl hx)).trans
      (leads_test (hi.grown hwider.grown) v (by exact Nat.ne_of_lt hn) (by exact hroom))
    have hret := htest.trans (.of_ret rfl)
    rw [hwider.isFatalValue, hv, hnext _ hcell] at hret
    exact hret.follows.ends (.done fun caller => rfl)

/-! ## One protected call -/

theorem caught_fatal (hi : Installed g s) (hv : GateFn.isFatalValue s v = true) {h : Option Value}
    (hp : Passing g s h) {b : Surroundings} {e : Exec} (hs : e.depth.slots + 25 ≤ maxSlots)
    (hn : e.depth.natives + 2 ≤ maxNatives) : ∃ v' s' i, Widened s s' ∧ s'.allocationFailed = false ∧
      Reraised (slotBytes * (e.depth.slots + 5)) s v v' ∧ ∀ k, i ≤ k →
        caught h v (e.context (caller k) b .nil) ⟨s, e.threads⟩ = some (v', ⟨s', e.threads⟩) := by
  cases hp with
  | none => exact ⟨v, _, 0, .flagged s false, rfl, .inl rfl, fun _ _ => rfl⟩
  | @wrapped id x y hf =>
    -- a failed allocation meets no handler, so the error has not been looked at
    cases hflag : s.allocationFailed with
    | true =>
      refine ⟨v, _, 0, .flagged s false, rfl, .inl rfl, fun k _ => ?_⟩
      rw [caught, Act.bind_apply, Act.handle_of_failed _ _ _ v hflag]
      rfl
    | false =>
      let inner : Surroundings :=
        { handler := .fn (.fn id), sites := fun _ => {} :: e.sites b, depth := e.depth.deeper }
      obtain ⟨r, s', hg, ⟨i, hends⟩, hr⟩ := handler_ends hi hv hf (b := inner) hs
        (Nat.lt_of_lt_of_le (Nat.lt_succ_self _) hn) e.thread e.threads
      obtain ⟨n, hn⟩ : ∃ n, handlerRounds e.depth.natives = n + 1 :=
        ⟨219 - e.depth.natives, by simp only [handlerRounds, maxNatives] at hn ⊢; omega⟩
      have hcall (k : Nat) (hk : i ≤ k) : Act.call (.fn (.fn id)) (.fn id) [v]
          (e.context (caller k) b .nil) ⟨s, e.threads⟩ = some (r, ⟨s', e.threads⟩) := by
        show (run k inner _ _).map _ = _
        rw [hends k hk]
        rfl
      have hcaught (k : Nat) {w : Value} (hw : Act.handle (.fn (.fn id)) v
          (e.context (caller k) b .nil) ⟨s, e.threads⟩ = some (w, ⟨s', e.threads⟩)) :
          caught (some (.fn id)) v (e.context (caller k) b .nil) ⟨s, e.threads⟩ =
            some (w, ⟨{ s' with allocationFailed := false }, e.threads⟩) := by
        rw [caught, Act.bind_apply, hw]
        rfl
      rcases hr with rfl | ⟨rfl, hfail, hx⟩
      · refine ⟨v, _, i, hg.trans (.flagged s' false), rfl, .inl rfl, fun k hk => hcaught k ?_⟩
        rw [Act.handle_fn _ _ _ v hflag]
        exact (congrArg (fun n => Act.handle.rounds _ n v _ _) hn).trans
          (Act.rounds_of_ok _ _ n (hcall k hk))
      · refine ⟨_, _, i, hg.trans (.flagged s' false), rfl, .inr ⟨rfl, hx⟩, fun k hk => hcaught k ?_⟩
        rw [Act.handle_fn _ _ _ v hflag]
        exact (congrArg (fun n => Act.handle.rounds _ n v _ _) hn).trans
          (Act.rounds_of_failed _ _ n (hcall k hk) hfail)

/-- The frames, or one call more. -/
inductive Atop (frames : List Frame) : List Frame → Prop where
  | same : Atop frames frames
  | call {site : Site} {next : List Value → Store → Action} {depth : Depth} :
    Atop frames (.call site next depth :: frames)

theorem finish_raises (hi : Installed g s) (hv : GateFn.isFatalValue s v = true) (line : Nat)
    {b : Surroundings} {e : Exec} (hs : (e.givenWay b).depth.slots + 28 ≤ maxSlots)
    (hn : (e.givenWay b).depth.natives ≠ maxNatives) : ∃ v' s' frames depth,
      Leads b (.act (finishing g line [.bool false, v] s)) e (.raise v' s') { e with frames, depth } ∧
      Atop (e.givenWay b).frames frames ∧ depth.slots ≤ (e.givenWay b).depth.slots + 8 ∧
      depth.natives = (e.givenWay b).depth.natives ∧ Widened s s' ∧
      Reraised (slotBytes * ((e.givenWay b).depth.slots + 8)) s v v' ∧
      (s.exhausted (slotBytes * ((e.givenWay b).depth.slots + 8)) = false →
        s'.allocationFailed = s.allocationFailed) := by
  generalize hmore : slotBytes * ((e.givenWay b).depth.slots + 8) = more
  cases hx : s.exhausted (slotBytes * (e.givenWay b).depth.slots) with
  | true =>
    have hx' : s.exhausted more = true := exhausted_le (by rw [← hmore, slotBytes]; omega) hx
    refine ⟨_, _, _, _, .of_tail_exhausted hi.finish hx, .same, Nat.le_add_right .., rfl,
      .flagged s true, .inr ⟨rfl, hx'⟩, fun h => ?_⟩
    rw [hx'] at h
    cases h
  | false =>
    have hslots : ((e.givenWay b).inside finish [.bool false, v]).depth.slots =
      (e.givenWay b).depth.slots + 8 := rfl
    have hnative : ((e.givenWay b).inside finish [.bool false, v]).depth.slots + nativeSlots ≤
      maxSlots := by rw [hslots, nativeSlots]; omega
    obtain ⟨next, next', hcall, hnext⟩ := finish_eq hi v
    have hwider : Widened s (s.newCell (.bool false)).2 := .newCell s _
    have hi' := hi.grown hwider.grown
    have htail : Leads b (.act (finishing g line [.bool false, v] s)) e
        (.apply (.fn g.finish) [.bool false, v] s) (e.givenWay b) := .of_tail_closure hi.finish hx
    have hcalled := htail.trans (.of_apply hi.finish hn (by show _ + 8 ≤ _; omega))
    rw [hcall] at hcalled
    cases hx' : (s.newCell (.bool false)).2.exhausted
        (slotBytes * ((e.givenWay b).inside finish [.bool false, v]).depth.slots) with
    | true =>
      have hx'' : s.exhausted more = true := by rw [← hmore, ← hslots, ← hwider.exhausted, hx']
      refine ⟨_, _, _, _, hcalled.trans (.of_call_exhausted rfl hx'), .call, Nat.le_of_eq hslots, rfl,
        hwider.trans (.flagged _ true), .inr ⟨rfl, hx''⟩, fun h => ?_⟩
      rw [hx''] at h
      cases h
    | false =>
      have htest := (hcalled.trans (.of_call rfl hx')).trans
        (leads_test hi' v (by exact hn) (by exact hnative))
      have hret := htest.trans (.of_ret rfl)
      rw [hwider.isFatalValue, hv, hnext _ hi'] at hret
      have herror := (hret.trans (.of_call rfl hx')).trans
        (leads_error hi' v (by exact hn) (by exact hnative))
      exact ⟨v, _, _, _, herror, .call, Nat.le_of_eq hslots, rfl, hwider, .inl rfl, fun _ => rfl⟩

/-! ## Frames -/

/-- There is room for what a protected call does next to so many slots of the stack. -/
structure Room (m : Nat) (d : Depth) : Prop where
  slots : d.slots ≤ m
  natives : d.natives + 2 ≤ maxNatives

/-- So many protected calls were made by the programs within the innermost one of others, and there is
room for what each of them does next. -/
inductive Nested (g : Guard) (s : Store) (m : Nat) (outermost : Depth)
    (around : Option (Option Value × Depth × List Frame)) : Nat → List Frame → Prop where
  | outside {frames : List Frame} (h : innerGuard? frames = around) :
    Nested g s m outermost around 0 frames
  | call {n : Nat} {site : Site} {next : List Value → Store → Action} {depth : Depth}
    {rest : List Frame} (h : Nested g s m outermost around n rest) :
    Nested g s m outermost around n (.call site next depth :: rest)
  | loop {n : Nat} {body : List Value → Store → Action} {done : Store → Action} {rest : List Frame}
    (h : Nested g s m outermost around n rest) :
    Nested g s m outermost around n (.loop body done :: rest)
  | scope {n : Nat} {labels : List Label} {entry : Nat → List Nat → Store → Action}
    {rest : List Frame} (h : Nested g s m outermost around n rest) :
    Nested g s m outermost around n (.scope labels entry :: rest)
  | guard {n : Nat} {handler : Option Value} {depth depth' : Depth} {site : Site} {line : Nat}
    {rest : List Frame} (passing : Passing g s handler) (room : Room m (giveWay outermost rest).2)
    (h : Nested g s m outermost around n rest) :
    Nested g s m outermost around (n + 1)
      (.guard handler depth :: .call site (finishing g line) depth' :: rest)

theorem innerGuard?_giveWay (outermost : Depth) : ∀ frames : List Frame,
    innerGuard? (giveWay outermost frames).1 = innerGuard? frames
  | [] => rfl
  | .call .. :: _ => rfl
  | .guard .. :: _ => rfl
  | .loop .. :: rest => innerGuard?_giveWay outermost rest
  | .scope .. :: rest => innerGuard?_giveWay outermost rest

namespace Nested

variable {m n : Nat} {outermost : Depth} {around : Option (Option Value × Depth × List Frame)}
  {frames frames' : List Frame}

theorem kept (h : Nested g s m outermost around n frames)
    (hf : ∀ id f, s.function? id = some f → s'.function? id = some f) :
    Nested g s' m outermost around n frames := by
  induction h with
  | outside h => exact .outside h
  | call _ ih => exact .call ih
  | loop _ ih => exact .loop ih
  | scope _ ih => exact .scope ih
  | guard passing room _ ih => exact .guard (passing.kept hf) room ih

theorem giveWay (h : Nested g s m outermost around n frames) (outermost' : Depth) :
    Nested g s m outermost around n (Lua.giveWay outermost' frames).1 := by
  induction h with
  | outside h => exact .outside (by rw [innerGuard?_giveWay, h])
  | call h => exact .call h
  | loop _ ih => exact ih
  | scope _ ih => exact ih
  | guard passing room h => exact .guard passing room h

theorem atop (h : Nested g s m outermost around n frames) (ha : Atop frames frames') :
    Nested g s m outermost around n frames' := by
  cases ha with
  | same => exact h
  | call => exact .call h

theorem append (h : Nested g s m outermost around n frames) :
    ∀ {own : List Frame}, innerGuard? own = none → Nested g s m outermost around n (own ++ frames)
  | [], _ => h
  | .call .. :: _, hown => .call (h.append hown)
  | .loop .. :: _, hown => .loop (h.append hown)
  | .scope .. :: _, hown => .scope (h.append hown)

theorem inner (h : Nested g s m outermost around (n + 1) frames) :
    ∃ handler depth site line depth' rest,
      innerGuard? frames = some (handler, depth, .call site (finishing g line) depth' :: rest) ∧
      Passing g s handler ∧ Room m (Lua.giveWay outermost rest).2 ∧
      Nested g s m outermost around n rest := by
  generalize hk : n + 1 = k at h
  induction h with
  | outside => cases hk
  | call _ ih => exact ih hk
  | loop _ ih => exact ih hk
  | scope _ ih => exact ih hk
  | guard passing room h =>
    cases hk
    exact ⟨_, _, _, _, _, _, rfl, passing, room, h⟩

theorem innerGuard?_eq (h : Nested g s m outermost around 0 frames) : innerGuard? frames = around := by
  generalize hk : 0 = k at h
  induction h with
  | outside h => exact h
  | call _ ih => exact ih hk
  | loop _ ih => exact ih hk
  | scope _ ih => exact ih hk
  | guard => cases hk

end Nested

/-! ## Nests -/

/-- The same thread raises a fatal error further out. -/
structure Rises (b : Surroundings) (more : Nat) (v : Value) (s : Store) (e : Exec) (v' : Value)
    (s' : Store) (e' : Exec) : Prop where
  follows : Follows b (.raise v s) e (.raise v' s') e'
  widened : Widened s s'
  value : Reraised more s v v'
  resumers : e'.resumers = e.resumers
  thread : e'.thread = e.thread
  threads : e'.threads = e.threads

namespace Rises

variable {b : Surroundings} {more : Nat} {e e' e'' : Exec} {v' v'' : Value}

theorem refl (b : Surroundings) (more : Nat) (v : Value) (s : Store) (e : Exec) :
    Rises b more v s e v s e :=
  ⟨.refl .., .refl s, .inl rfl, rfl, rfl, rfl⟩

theorem trans (h : Rises b more v s e v' s' e') (h' : Rises b more v' s' e' v'' s'' e'') :
    Rises b more v s e v'' s'' e'' where
  follows := h.follows.trans h'.follows
  widened := h.widened.trans h'.widened
  value := by
    rcases h'.value with rfl | ⟨rfl, hx⟩
    · exact h.value
    · exact .inr ⟨rfl, h.widened.exhausted more ▸ hx⟩
  resumers := h'.resumers.trans h.resumers
  thread := h'.thread.trans h.thread
  threads := h'.threads.trans h.threads

theorem outermost (h : Rises b more v s e v' s' e') : e'.outermost b = e.outermost b := by
  rw [Exec.outermost, h.resumers, Exec.outermost]

end Rises

section

variable {m n : Nat} {b : Surroundings} {e : Exec}
  {around : Option (Option Value × Depth × List Frame)}

theorem rises_once (hi : Installed g s) (hv : GateFn.isFatalValue s v = true)
    (hf : Nested g s m (e.outermost b) around (n + 1) e.frames) (he : Room (m + 32) e.depth)
    (hm : m + 64 ≤ maxSlots) : ∃ v' s' e', Rises b (slotBytes * (m + 64)) v s e v' s' e' ∧
      Nested g s' m (e'.outermost b) around n e'.frames ∧ Room (m + 32) e'.depth ∧
      (s.exhausted (slotBytes * (m + 64)) = false → s'.allocationFailed = false) := by
  obtain ⟨handler, depth, site, line, depth', rest, hg, hp, room, hrest⟩ := hf.inner
  obtain ⟨w, s₁, i, hwider, hflag, hw, hcaught⟩ := caught_fatal (b := b) hi hv hp
    (Nat.le_trans (Nat.add_le_add_right he.slots 25) (by omega)) he.natives
  -- the host's protected call returns what was caught, and the program looks at it
  let e₁ : Exec := { e with frames := .call site (finishing g line) depth' :: rest, depth }
  let e₂ : Exec := { e with frames := rest, depth := depth' }
  have hraise : Follows b (.raise v s) e (.ret [.bool false, w] s₁) e₁ := by
    refine .single (i := i) fun k hk => ?_
    show e.raise (caller k) b v s = _
    rw [Exec.raise, hg]
    simp only [hcaught k hk]
    rfl
  have hret : Leads b (.ret [.bool false, w] s₁) e₁ (.act (finishing g line [.bool false, w] s₁)) e₂ :=
    .of_ret rfl
  have hslots : (e₂.givenWay b).depth.slots ≤ m := room.slots
  have hnatives : (e₂.givenWay b).depth.natives + 2 ≤ maxNatives := room.natives
  obtain ⟨v', s', frames, d, hleads, hatop, hd, hdn, hwider', hv', hflag'⟩ :=
    finish_raises (hi.grown hwider.grown) (hwider.isFatalValue w ▸ hw.isFatalValue hv) line (b := b)
      (e := e₂) (by omega) (by omega)
  have hcaughtBytes : slotBytes * (e.depth.slots + 5) ≤ slotBytes * (m + 64) :=
    Nat.mul_le_mul_left _ (by have := he.slots; omega)
  have hfinishBytes : slotBytes * ((e₂.givenWay b).depth.slots + 8) ≤ slotBytes * (m + 64) :=
    Nat.mul_le_mul_left _ (by omega)
  have hrises : Rises b (slotBytes * (m + 64)) v s e v' s' { e₂ with frames, depth := d } :=
    ⟨hraise.trans (hret.trans hleads).follows, hwider.trans hwider', by
      rcases hv'.mono hfinishBytes with rfl | ⟨rfl, hx⟩
      · exact hw.mono hcaughtBytes
      · exact .inr ⟨rfl, hwider.exhausted _ ▸ hx⟩, rfl, rfl, rfl⟩
  refine ⟨v', s', _, hrises, ?_, ⟨by show d.slots ≤ _; omega, by show d.natives + 2 ≤ _; omega⟩,
    fun hx => ?_⟩
  · exact ((hrest.giveWay _).atop hatop).kept hrises.widened.grown.functions
  · rw [hflag' ?_, hflag]
    rw [hwider.exhausted]
    exact Bool.eq_false_iff.mpr fun h => by rw [exhausted_le hfinishBytes h] at hx; cases hx

/-- All protected calls of a nest raise a fatal error again. -/
theorem rises (hi : Installed g s) (hv : GateFn.isFatalValue s v = true)
    (hf : Nested g s m (e.outermost b) around n e.frames) (he : Room (m + 32) e.depth)
    (hm : m + 64 ≤ maxSlots) : ∃ v' s' e', Rises b (slotBytes * (m + 64)) v s e v' s' e' ∧
      innerGuard? e'.frames = around ∧ Room (m + 32) e'.depth ∧
      (s.exhausted (slotBytes * (m + 64)) = false →
        s'.allocationFailed = (s.allocationFailed && n == 0)) := by
  induction n generalizing v s e with
  | zero => exact ⟨v, s, e, .refl .., hf.innerGuard?_eq, he, fun _ => (Bool.and_true _).symm⟩
  | succ n ih =>
    -- what the innermost call raises may be another error, but it is fatal again
    obtain ⟨v₁, s₁, e₁, h₁, hf₁, he₁, hflag⟩ := rises_once hi hv hf he hm
    have hv₁ : GateFn.isFatalValue s₁ v₁ = true :=
      h₁.widened.isFatalValue v₁ ▸ h₁.value.isFatalValue hv
    obtain ⟨v', s', e', h', hout, he', hflag'⟩ := ih (hi.grown h₁.widened.grown) hv₁ hf₁ he₁
    refine ⟨v', s', e', h₁.trans h', hout, he', fun hx => ?_⟩
    rw [hflag' (h₁.widened.exhausted _ ▸ hx), hflag hx, Bool.false_and]
    exact (Bool.and_false _).symm

end

end

end Cordon.Lua.Protect
