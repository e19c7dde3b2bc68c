import Cordon.Proofs.Sandbox.Nesting

/-!
# Calls of protected calls

What a nest of protected calls does before its function is called: each of them puts a frame of its own
and one of the host's protected call on those that there are.
-/

namespace Cordon.Lua.Protect

open Exec

section

variable {g : Guard} {s s' : Store} {b : Surroundings} {e : Exec} {p x : Nat} {f : Value} {h : Nat}
  {rest : List Value}

/-! ## What stays -/

/-- Functions and variables stay, and there is memory left but for so many new functions. -/
structure Later (n : Nat) (s s' : Store) : Prop where
  functions : ∀ id f, s.function? id = some f → s'.function? id = some f
  cells : ∀ id, s.cell id ≠ .nil → s'.cell id = s.cell id
  memory : ∀ more, s.exhausted (more + 8 * n) = false → s'.exhausted more = false

theorem Later.refl (s : Store) : Later 0 s s := ⟨fun _ _ h => h, fun _ _ => rfl, fun _ h => h⟩

theorem Later.trans {n n' : Nat} {s s' s'' : Store} (h : Later n s s') (h' : Later n' s' s'') :
    Later (n' + n) s s'' where
  functions id f hf := h'.functions id f (h.functions id f hf)
  cells id hc := (h'.cells id (by rwa [h.cells id hc])).trans (h.cells id hc)
  memory more hm := h'.memory more (h.memory _ (by rwa [Nat.add_assoc, ← Nat.mul_add]))

theorem Installed.later {n : Nat} (hi : Installed g s) (h : Later n s s') : Installed g s' :=
  hi.keep (fun id _ => h.cells id) h.functions

theorem Grown.later (h : Grown s s') (n : Nat) : Later n s s' where
  functions := h.functions
  cells := h.cells
  memory more hm := by
    refine Bool.eq_false_iff.mpr fun hx => ?_
    have hx : s.exhausted more = true := by
      unfold Store.exhausted at hx ⊢
      rwa [h.memoryLimit, h.used] at hx
    rw [exhausted_le (Nat.le_add_right ..) hx] at hm
    cases hm

theorem exhausted_newFunction (s : Store) (f : Callable) (more : Nat) :
    (s.newFunction f).2.exhausted more = s.exhausted (more + 8) := by
  have hlimit : (s.newFunction f).2.memoryLimit = s.memoryLimit := rfl
  have hused : (s.newFunction f).2.used = s.used + 8 := rfl
  unfold Store.exhausted
  rw [hlimit, hused, Nat.add_assoc, Nat.add_comm 8]

theorem later_newFunction (s : Store) (f : Callable) : Later 1 s (s.newFunction f).2 where
  functions _ _ h := s.function?_newFunction_of_some h f
  cells _ _ := rfl
  memory more hm := (exhausted_newFunction s f more).trans hm

/-! ## One protected call -/

/-- In a protected call of one of the programs. -/
def inCall (e : Exec) (handler : Option Value) (site : Site) (line : Nat) (g : Guard) (d : Depth) :
    Exec :=
  { e with
    frames := .guard handler d :: .call site (finishing g line) d :: e.frames
    depth := d.deeper }

theorem leads_pcall (hi : Installed g s)
    (hp : s.function? p = some (.closure chunk Protect.pcall g.cells))
    (hn : e.depth.natives ≠ maxNatives) (hs : e.depth.slots + rest.length + 27 ≤ maxSlots)
    (hx : s.exhausted (slotBytes * (e.depth.slots + rest.length + 7)) = false) :
    Leads b (.apply (.fn p) (f :: rest) s) e (.apply f rest (s.newCell f).2)
      (inCall e none pcallSite 12 g (e.inside Protect.pcall (f :: rest)).depth) := by
  have hslots : (e.inside Protect.pcall (f :: rest)).depth.slots = e.depth.slots + rest.length + 7 := by
    show e.depth.slots + 5 + (rest.length + 1 + 1) = _
    omega
  have hroom : (e.inside Protect.pcall (f :: rest)).depth.slots + nativeSlots ≤ maxSlots := by
    rw [hslots, nativeSlots]
    omega
  have happly := Leads.of_apply (b := b) hp hn (Nat.le_trans (Nat.le_add_right _ nativeSlots) hroom)
  rw [pcall_eq hi] at happly
  have hcall := happly.trans (.of_call rfl (by rw [hslots]; exact hx))
  refine hcall.trans (.of_native (r := .ok (.protect none f rest))
    (hi.grown (.newCell s f)).pcall ?_ ?_ (fun _ => rfl) rfl)
  · exact hn
  · exact hroom

/-- The store in which `xpcall` has wrapped its message handler. -/
def wrapped (g : Guard) (s : Store) (f : Value) (h : Nat) : Store :=
  ((handed s f (.fn h)).newFunction (wrapper g s f)).2

/-- The message handler that `xpcall` makes. -/
def wrapperOf (s : Store) (f : Value) (h : Nat) : Value := .fn (handed s f (.fn h)).functions.size

theorem run_select (f h : Value) (rest : List Value) (ctx : Ctx) (m : Machine) :
    ((Native.base .select).run (.int 3 :: f :: h :: rest)).run ctx m = some (.ok (.ret rest), m) := by
  have hcount : min (Int64.toInt 3) ((.int 3 :: f :: h :: rest : List Value).length : Int) = 3 := by
    have hthree : Int64.toInt 3 = 3 := rfl
    rw [hthree]
    simp only [List.length_cons]
    omega
  have hneg : ¬ (3 : Int64) < 0 := by decide
  have hselect : (BaseFn.runSelect (.int 3 :: f :: h :: rest)).run ctx m = some (.ok rest, m) := by
    unfold BaseFn.runSelect
    have harg : Script.arg (.int 3 :: f :: h :: rest) 1 = .int 3 := rfl
    have hint : (Script.checkInt (.int 3 :: f :: h :: rest) 1).run ctx m = some (.ok 3, m) := rfl
    simp only [harg, Script.run_bind, hint, if_neg hneg, hcount]
    rfl
  show (BaseFn.runSelect (.int 3 :: f :: h :: rest) >>= fun vs => pure (Verdict.ret vs)).run ctx m = _
  rw [Script.run_bind, hselect]
  rfl

theorem later_wrapped (g : Guard) (s : Store) (f : Value) (h : Nat) : Later 1 s (wrapped g s f h) :=
  (((Grown.newCell s f).trans (.newCell _ (.fn h))).later 0).trans (later_newFunction ..)

/-- `xpcall` calls its function, with the message handler wrapped. -/
theorem leads_xpcall (hi : Installed g s)
    (hx : s.function? x = some (.closure chunk Protect.xpcall g.cells))
    (hn : e.depth.natives ≠ maxNatives) (hs : e.depth.slots + rest.length + 30 ≤ maxSlots)
    (hm : s.exhausted (slotBytes * (e.depth.slots + rest.length + 10) + 8) = false) :
    Leads b (.apply (.fn x) (f :: .fn h :: rest) s) e (.apply f rest (wrapped g s f h))
      (inCall e (some (wrapperOf s f h)) xpcallSite 21 g
        (e.inside Protect.xpcall (f :: .fn h :: rest)).depth) := by
  let e₁ : Exec := e.inside Protect.xpcall (f :: .fn h :: rest)
  have hslots : e₁.depth.slots = e.depth.slots + rest.length + 10 := by
    show e.depth.slots + 7 + (rest.length + 1 + 1 + 1) = _
    omega
  have hroom : e₁.depth.slots + nativeSlots ≤ maxSlots := by rw [hslots, nativeSlots]; omega
  have hhanded : (handed s f (.fn h)).exhausted (slotBytes * e₁.depth.slots) = false := by
    refine Bool.eq_false_iff.mpr fun ht => ?_
    have hle := exhausted_le (Nat.le_add_right _ 8) (hslots ▸ ht)
    exact Bool.false_ne_true (hm.symm.trans hle)
  have hmade : (wrapped g s f h).exhausted (slotBytes * e₁.depth.slots) = false :=
    (later_wrapped g s f h).memory _ (hslots ▸ hm)
  have hi' := hi.grown ((Grown.newCell s f).trans (.newCell _ (.fn h)))
  have hmadeInstalled : Installed g (wrapped g s f h) := hi.later (later_wrapped g s f h)
  have hf : (handed s f (.fn h)).cell s.cells.size = f := by
    have hlt : s.cells.size ≠ (s.newCell f).2.cells.size := by
      show s.cells.size ≠ (s.cells.push f).size
      rw [Array.size_push]
      omega
    rw [handed, Store.cell_newCell, if_neg hlt, s.cell_newCell, if_pos rfl]
  obtain ⟨next, hcall, hnext⟩ := xpcall_eq hi f h rest
  obtain ⟨next', htype, hselect⟩ := hnext _ (.refl _)
  have happly : Leads b (.apply (.fn x) (f :: .fn h :: rest) s) e
      (.act (.call (.fn g.type) [.fn h] typeSite next (handed s f (.fn h)))) e₁ :=
    hcall ▸ .of_apply hx hn (Nat.le_trans (Nat.le_add_right _ nativeSlots) hroom)
  -- the handler is a function, so it is wrapped and the arguments behind it are selected
  have htested := ((happly.trans (.of_call rfl hhanded)).trans
    (.of_native (r := .ok (.ret [.str ("function" : Bytes)])) hi'.type (by exact hn) (by exact hroom)
      (fun _ => rfl) rfl)).trans (.of_ret rfl)
  rw [htype] at htested
  have hselected := ((htested.trans (.of_call rfl (by exact hmade))).trans
    (.of_native (r := .ok (.ret rest)) hmadeInstalled.select (by exact hn) (by exact hroom)
      (fun ctx => run_select f (.fn h) rest ctx _) rfl)).trans (.of_ret rfl)
  rw [hselect, hf] at hselected
  exact (hselected.trans (.of_call rfl (by exact hmade))).trans
    (.of_native (r := .ok (.protect (some (wrapperOf s f h)) f rest)) hmadeInstalled.xpcall (by exact hn)
      (by exact hroom) (fun _ => rfl) rfl)

/-! ## Nests -/

theorem Offered.later {n : Nat} (ho : Offered g p x s) (h : Later n s s') : Offered g p x s' where
  installed := ho.installed.later h
  pcall := h.functions _ _ ho.pcall
  xpcall := h.functions _ _ ho.xpcall

/-- A protected call of a nest: one of `xpcall` has a message handler. -/
inductive Layer where
  | pcall
  | xpcall (handler : Nat)

/-- What is called, and with which arguments, to make a call in one of these. -/
def Layer.around (p x : Nat) : Layer → Value × List Value → Value × List Value
  | .pcall, c => (.fn p, c.1 :: c.2)
  | .xpcall h, c => (.fn x, c.1 :: .fn h :: c.2)

/-- The call of a nest of protected calls around a call of a function. -/
def nest (p x : Nat) (layers : List Layer) (f : Value) (args : List Value) : Value × List Value :=
  layers.foldr (Layer.around p x) (f, args)

theorem length_nest (p x : Nat) (layers : List Layer) (f : Value) (args : List Value) :
    (nest p x layers f args).2.length ≤ args.length + 2 * layers.length := by
  induction layers with
  | nil => exact Nat.le_refl _
  | cons layer layers ih =>
    cases layer with
    | pcall =>
      show (nest p x layers f args).2.length + 1 ≤ args.length + 2 * (layers.length + 1)
      omega
    | xpcall h =>
      show (nest p x layers f args).2.length + 1 + 1 ≤ args.length + 2 * (layers.length + 1)
      omega

theorem leads_layer (ho : Offered g p x s) (layer : Layer) (c : Value × List Value)
    (hn : e.depth.natives ≠ maxNatives) (hs : e.depth.slots + c.2.length + 30 ≤ maxSlots)
    (hm : s.exhausted (slotBytes * (e.depth.slots + c.2.length + 10) + 8) = false) :
    ∃ s' handler site line d, Leads b (.apply (layer.around p x c).1 (layer.around p x c).2 s) e
        (.apply c.1 c.2 s') (inCall e handler site line g d) ∧
      Later 1 s s' ∧ Passing g s' handler ∧ d.slots ≤ e.depth.slots + c.2.length + 10 ∧
      d.natives = e.depth.natives := by
  cases layer with
  | pcall =>
    refine ⟨_, _, _, _, _, leads_pcall ho.installed ho.pcall hn (by omega) ?_,
      (Grown.newCell s c.1).later 1, .none, ?_, rfl⟩
    · refine Bool.eq_false_iff.mpr fun hx => ?_
      rw [exhausted_le (by rw [slotBytes]; omega) hx] at hm
      cases hm
    · show e.depth.slots + 5 + (c.2.length + 1 + 1) ≤ _
      omega
  | xpcall h =>
    refine ⟨_, _, _, _, _, leads_xpcall ho.installed ho.xpcall hn hs hm, later_wrapped .., ?_, ?_, rfl⟩
    · exact .wrapped (Store.function?_newFunction ..)
    · show e.depth.slots + 7 + (c.2.length + 1 + 1 + 1) ≤ _
      omega

/-- The frames are those of a nest on top of others, with room for what follows each call. -/
def Within (g : Guard) (s : Store) (m : Nat) (base : List Frame) (n : Nat) (frames : List Frame) :
    Prop :=
  ∀ outermost, Room m (giveWay outermost base).2 →
    Nested g s m outermost (innerGuard? base) n frames ∧ Room m (giveWay outermost frames).2

/-- A nest comes to the call of its function, with its frames on those that there were. -/
theorem leads_nest {m n : Nat} {base : List Frame} (ho : Offered g p x s) (layers : List Layer)
    (f : Value) (args : List Value) (hf : Within g s m base n e.frames)
    (hs : e.depth.slots + layers.length * (args.length + 2 * layers.length + 10) ≤ m)
    (hn : e.depth.natives + layers.length + 2 ≤ maxNatives) (hmax : m + 64 ≤ maxSlots)
    (hm : s.exhausted (slotBytes * m + 8 * layers.length) = false) :
    ∃ s' e', Leads b (.apply (nest p x layers f args).1 (nest p x layers f args).2 s) e
        (.apply f args s') e' ∧
      Later layers.length s s' ∧ Within g s' m base (n + layers.length) e'.frames ∧
      e'.depth.slots ≤ m ∧ e'.depth.natives = e.depth.natives + layers.length ∧
      e'.resumers = e.resumers ∧ e'.thread = e.thread ∧ e'.threads = e.threads := by
  induction layers generalizing s e n with
  | nil => exact ⟨s, e, .refl .., .refl s, hf, by simpa using hs, rfl, rfl, rfl, rfl⟩
  | cons layer layers ih =>
    have hlen := length_nest p x layers f args
    simp only [List.length_cons] at hs hn hm
    -- the slots of the outermost call come off those of all
    have hslots : e.depth.slots + (args.length + 2 * layers.length + 10) +
        layers.length * (args.length + 2 * layers.length + 10) ≤ m := by
      have := Nat.mul_le_mul_left layers.length
        (show args.length + 2 * layers.length + 10 ≤ args.length + 2 * (layers.length + 1) + 10 by omega)
      rw [Nat.succ_mul] at hs
      omega
    obtain ⟨s₁, handler, site, line, d, hleads, hlater, hp, hd, hdn⟩ :=
      leads_layer (b := b) (e := e) ho layer (nest p x layers f args) (by omega) (by omega)
        (Bool.eq_false_iff.mpr fun hx => by
          rw [exhausted_le (by rw [slotBytes]; omega) hx] at hm
          cases hm)
    -- its frame has room behind it as long as the frames that there were have
    have hf₁ : Within g s₁ m base (n + 1) (inCall e handler site line g d).frames := fun o hr => by
      obtain ⟨hnested, hroom⟩ := hf o hr
      exact ⟨.guard hp hroom (hnested.kept hlater.functions), by show d.slots ≤ m; omega,
        by show d.natives + 1 + 2 ≤ maxNatives; omega⟩
    obtain ⟨s', e', hleads', hlater', hf', hs', hn', hr, ht, hts⟩ := ih (ho.later hlater) hf₁
      (by show d.slots + _ ≤ m; omega) (by show d.natives + 1 + _ + 2 ≤ maxNatives; omega)
      (hlater.memory _ (by rwa [Nat.add_assoc, ← Nat.mul_add]))
    refine ⟨s', e', hleads.trans hleads', hlater.trans hlater', ?_, hs', ?_, hr, ht, hts⟩
    · rw [List.length_cons, Nat.add_comm layers.length, ← Nat.add_assoc]
      exact hf'
    · rw [hn', List.length_cons]
      show d.natives + 1 + _ = _
      omega

end

end Cordon.Lua.Protect
