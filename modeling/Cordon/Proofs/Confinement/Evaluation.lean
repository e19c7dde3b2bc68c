import Cordon.Proofs.Confinement.Actions

/-!
# Evaluation is tame

By recursion on the program: what it does next is tame if what follows it is.
-/

namespace Cordon.Lua.Eval

variable {w : Ward} {env : Env}

theorem newClosure (he : env.Clear w) {s : Store} (hs : s.Confined w) (f : Func) :
    (s.newFunction (.closure env.chunk f env.cells)).2.Confined w ∧
      (Value.fn (s.newFunction (.closure env.chunk f env.cells)).1).Clear w :=
  ⟨hs.newFunction (.inl he.cells), hs.fresh_function⟩

/-! ## Expressions -/

variable {T : Action → Prop}

mutual

theorem expr_in (hT : w.Admits T) (he : env.Clear w) :
    ∀ (e : Expr) {k : Cont} {s : Store}, s.Confined w → Cont.In w T k →
      T (expr env e k s)
  | .nil, _, _, hs, hk => by
    unfold expr
    exact hk _ _ hs trivial
  | .bool _, _, _, hs, hk => by
    unfold expr
    exact hk _ _ hs trivial
  | .int _, _, _, hs, hk => by
    unfold expr
    exact hk _ _ hs trivial
  | .float _, _, _, hs, hk => by
    unfold expr
    exact hk _ _ hs trivial
  | .str _, _, _, hs, hk => by
    unfold expr
    exact hk _ _ hs trivial
  | .vararg, _, _, hs, hk => by
    unfold expr
    exact hk _ _ hs he.varargs.first
  | .var x, _, _, hs, hk => by
    unfold expr
    exact hk _ _ hs (readVar_clear hs x)
  | .index object key line, _, _, hs, hk => by
    unfold expr
    refine expr_in hT he object hs fun o s hs ho => ?_
    refine expr_in hT he key hs fun i s hs hi => ?_
    exact index_in hT hs ho hi hk _
  | .call fn args line, _, _, hs, hk => by
    unfold expr
    refine expr_in hT he fn hs fun f s hs hf => ?_
    refine exprs_in hT he args hs fun vs s hs hvs => ?_
    exact hT.call hs hf hvs hk.first
  | .method object name args line, _, _, hs, hk => by
    unfold expr
    refine expr_in hT he object hs fun o s hs ho => ?_
    refine index_in hT hs ho (Value.clear_str name) (fun f s hs hf => ?_) _
    refine exprs_in hT he args hs fun vs s hs hvs => ?_
    exact hT.call hs hf (.cons ho hvs) hk.first
  | .func f, _, _, hs, hk => by
    unfold expr
    obtain ⟨hs, hf⟩ := newClosure he hs f
    exact hk _ _ hs hf
  | .arith op left right line, _, _, hs, hk => by
    unfold expr
    refine expr_in hT he left hs fun a s hs ha => ?_
    refine expr_in hT he right hs fun b s hs hb => ?_
    exact arith_in hT hs ha hb hk ..
  | .compare op left right line, _, _, hs, hk => by
    unfold expr
    refine expr_in hT he left hs fun a s hs ha => ?_
    refine expr_in hT he right hs fun b s hs hb => ?_
    exact compare_in hT hs ha hb hk op
  | .concat left right line, _, _, hs, hk => by
    unfold expr
    refine expr_in hT he left hs fun a s hs ha => ?_
    refine expr_in hT he right hs fun b s hs hb => ?_
    exact concat_in hT hs ha hb hk ..
  | .unary op operand line, _, _, hs, hk => by
    unfold expr
    refine expr_in hT he operand hs fun a s hs ha => ?_
    exact unary_in hT hs ha hk op _
  | .and left right, _, _, hs, hk => by
    unfold expr
    refine expr_in hT he left hs fun a s hs ha => ?_
    split
    · exact expr_in hT he right hs hk
    · exact hk a s hs ha
  | .or left right, _, _, hs, hk => by
    unfold expr
    refine expr_in hT he left hs fun a s hs ha => ?_
    split
    · exact hk a s hs ha
    · exact expr_in hT he right hs hk
  | .paren e, _, _, hs, hk => by
    unfold expr
    exact expr_in hT he e hs hk
  | .table fs line, _, _, hs, hk => by
    unfold expr
    have hid := hs.fresh_table
    exact fields_in hT he line hid fs .nil hs.newTable_empty fun s hs => hk _ s hs hid

theorem results_in (hT : w.Admits T) (he : env.Clear w) :
    ∀ (e : Expr) {k : Conts} {s : Store}, s.Confined w → Conts.In w T k →
      T (results env e k s)
  | .nil, _, _, hs, hk => by
    unfold results
    exact hk _ _ hs (.one trivial)
  | .bool _, _, _, hs, hk => by
    unfold results
    exact hk _ _ hs (.one trivial)
  | .int _, _, _, hs, hk => by
    unfold results
    exact hk _ _ hs (.one trivial)
  | .float _, _, _, hs, hk => by
    unfold results
    exact hk _ _ hs (.one trivial)
  | .str _, _, _, hs, hk => by
    unfold results
    exact hk _ _ hs (.one trivial)
  | .vararg, _, _, hs, hk => by
    unfold results
    exact hk _ _ hs he.varargs
  | .var x, _, _, hs, hk => by
    unfold results
    exact hk _ _ hs (.one (readVar_clear hs x))
  | .index object key line, _, _, hs, hk => by
    unfold results
    refine expr_in hT he object hs fun o s hs ho => ?_
    refine expr_in hT he key hs fun i s hs hi => ?_
    exact index_in hT hs ho hi hk.single _
  | .call fn args line, _, _, hs, hk => by
    unfold results
    refine expr_in hT he fn hs fun f s hs hf => ?_
    refine exprs_in hT he args hs fun vs s hs hvs => ?_
    exact hT.call hs hf hvs hk
  | .method object name args line, _, _, hs, hk => by
    unfold results
    refine expr_in hT he object hs fun o s hs ho => ?_
    refine index_in hT hs ho (Value.clear_str name) (fun f s hs hf => ?_) _
    refine exprs_in hT he args hs fun vs s hs hvs => ?_
    exact hT.call hs hf (.cons ho hvs) hk
  | .func f, _, _, hs, hk => by
    unfold results
    obtain ⟨hs, hf⟩ := newClosure he hs f
    exact hk _ _ hs (.one hf)
  | .arith op left right line, _, _, hs, hk => by
    unfold results
    refine expr_in hT he left hs fun a s hs ha => ?_
    refine expr_in hT he right hs fun b s hs hb => ?_
    exact arith_in hT hs ha hb hk.single ..
  | .compare op left right line, _, _, hs, hk => by
    unfold results
    refine expr_in hT he left hs fun a s hs ha => ?_
    refine expr_in hT he right hs fun b s hs hb => ?_
    exact compare_in hT hs ha hb hk.single op
  | .concat left right line, _, _, hs, hk => by
    unfold results
    refine expr_in hT he left hs fun a s hs ha => ?_
    refine expr_in hT he right hs fun b s hs hb => ?_
    exact concat_in hT hs ha hb hk.single ..
  | .unary op operand line, _, _, hs, hk => by
    unfold results
    refine expr_in hT he operand hs fun a s hs ha => ?_
    exact unary_in hT hs ha hk.single op _
  | .and left right, _, _, hs, hk => by
    unfold results
    refine expr_in hT he left hs fun a s hs ha => ?_
    split
    · exact expr_in hT he right hs hk.single
    · exact hk _ s hs (.one ha)
  | .or left right, _, _, hs, hk => by
    unfold results
    refine expr_in hT he left hs fun a s hs ha => ?_
    split
    · exact hk _ s hs (.one ha)
    · exact expr_in hT he right hs hk.single
  | .paren e, _, _, hs, hk => by
    unfold results
    exact expr_in hT he e hs hk.single
  | .table fs line, _, _, hs, hk => by
    unfold results
    have hid := hs.fresh_table
    exact fields_in hT he line hid fs .nil hs.newTable_empty fun s hs => hk _ s hs (.one hid)

theorem exprs_in (hT : w.Admits T) (he : env.Clear w) :
    ∀ (es : List Expr) {k : Conts} {s : Store}, s.Confined w → Conts.In w T k →
      T (exprs env es k s)
  | [], _, _, hs, hk => by
    unfold exprs
    exact hk _ _ hs .nil
  | [e], _, _, hs, hk => by
    unfold exprs
    exact results_in hT he e hs hk
  | e :: e' :: es, _, _, hs, hk => by
    unfold exprs
    refine expr_in hT he e hs fun v s hs hv => ?_
    refine exprs_in hT he (e' :: es) hs fun vs s hs hvs => ?_
    exact hk _ s hs (.cons hv hvs)

theorem fields_in (hT : w.Admits T) (he : env.Clear w) (line : Nat) {id : Nat} (hid : ¬ w.table id) :
    ∀ (fs : List Field) {items : List Value} {k : Store → Action} {s : Store}, Clears w items →
    s.Confined w → (∀ s, s.Confined w → T (k s)) → T (fields env line id fs items k s)
  | [], _, _, _, hi, hs, hk => by
    unfold fields
    exact hk _ (hs.setItems hid hi.reverse)
  | [.item e], _, _, _, hi, hs, hk => by
    unfold fields
    refine results_in hT he e hs fun vs s hs hvs => ?_
    exact hk _ (hs.setItems hid (hi.reverse.append hvs))
  | .item e :: f :: fs, _, _, _, hi, hs, hk => by
    unfold fields
    refine expr_in hT he e hs fun v s hs hv => ?_
    exact fields_in hT he line hid (f :: fs) (.cons hv hi) hs hk
  | .pair key value :: fs, _, _, _, hi, hs, hk => by
    unfold fields
    refine expr_in hT he key hs fun i s hs hi' => ?_
    refine expr_in hT he value hs fun v s hs hv => ?_
    split
    · next hkey => exact fields_in hT he line hid fs hi (hs.rawSet hid (hi'.key hkey) hv) hk
    · exact fail_in hT hs ..

end

/-! ## Statements -/

theorem clears_adjust {vs : List Value} (hv : Clears w vs) : ∀ (n : Nat), Clears w (adjust n vs)
  | 0 => by
    unfold adjust
    exact .nil
  | n + 1 => by
    cases vs with
    | nil =>
      unfold adjust
      exact .cons trivial (clears_adjust hv n)
    | cons v vs =>
      unfold adjust
      exact .cons hv.head (clears_adjust hv.tail n)

def Next.Tame (w : Ward) (n : Nat) (k : Next) : Prop :=
  ∀ env s, s.Confined w → env.Clear w → (k env s).Tame w n

variable {n : Nat}

theorem declare_tame (he : env.Clear w) {s : Store} (hs : s.Confined w) {vs : List Value}
    (hv : Clears w vs) {k : Next} (hk : Next.Tame w n k) : (declare env vs k s).Tame w n :=
  hk _ _ (hs.newCells _ hv) ⟨hs.fresh_newCells hv he.cells, he.varargs⟩

/-- An assignment goes to nothing that the ward keeps. -/
def Slot.Clear (w : Ward) : Slot → Prop
  | .cell id => ¬ w.cell id
  | .entry o i _ => o.Clear w ∧ i.Clear w
  | .nowhere => True

theorem cellSlot_clear (he : env.Clear w) (x : Var) : (cellSlot env x).Clear w := by
  unfold cellSlot
  split
  · next h => exact he.cells _ (List.mem_of_getElem? h)
  · trivial

theorem slots_tame (he : env.Clear w) : ∀ (ts : List Target) {k : List Slot → Store → Action}
    {s : Store}, s.Confined w → (∀ l s, s.Confined w → (∀ x ∈ l, x.Clear w) → (k l s).Tame w n) →
    (slots env ts k s).Tame w n
  | [], _, _, hs, hk => by
    unfold slots
    exact hk _ _ hs fun _ h => absurd h List.not_mem_nil
  | .var x :: ts, _, _, hs, hk => by
    unfold slots
    refine slots_tame he ts hs fun l s hs hl => ?_
    exact hk _ s hs (List.forall_mem_cons.mpr ⟨cellSlot_clear he x, hl⟩)
  | .index object key :: ts, _, _, hs, hk => by
    unfold slots
    refine expr_in w.admits_tame he object hs fun o s hs ho => ?_
    refine expr_in w.admits_tame he key hs fun i s hs hi => ?_
    refine slots_tame he ts hs fun l s hs hl => ?_
    exact hk _ s hs (List.forall_mem_cons.mpr ⟨⟨ho, hi⟩, hl⟩)

theorem store_tame (env : Env) (line : Nat) : ∀ (l : List (Slot × Value)) {k : Store → Action}
    {s : Store}, s.Confined w → (∀ x ∈ l, x.1.Clear w ∧ x.2.Clear w) →
    (∀ s, s.Confined w → (k s).Tame w n) → (store env line l k s).Tame w n
  | [], _, _, hs, _, hk => by
    unfold store
    exact hk _ hs
  | (slot, v) :: rest, _, _, hs, hl, hk => by
    unfold store
    obtain ⟨⟨hslot, hv⟩, hrest⟩ := List.forall_mem_cons.mp hl
    refine store_tame env line rest hs hrest fun s hs => ?_
    cases slot with
    | cell id => exact hk _ (hs.setCell hslot hv)
    | entry o i name => exact assignIndex_in w.admits_tame hs hslot.1 hslot.2 hv hk name
    | nowhere => exact hk s hs

theorem zip_clear {l : List Slot} {vs : List Value} (hl : ∀ x ∈ l, x.Clear w) (hv : Clears w vs) :
    ∀ x ∈ l.zip vs, x.1.Clear w ∧ x.2.Clear w := fun x hx =>
  ⟨hl x.1 (List.of_mem_zip hx).1, hv x.2 (List.of_mem_zip hx).2⟩

theorem round?_clear {state : List Value} {v : Value} {state' : List Value}
    (h : round? state = some (v, state')) : v.Clear w ∧ Clears w state' := by
  unfold round? at h
  split at h
  · split at h
    · cases h
    · cases h
      exact ⟨trivial, .cons trivial (.cons trivial (.one trivial))⟩
  · split at h <;> split at h <;> cases h <;>
      exact ⟨trivial, .cons trivial (.cons trivial (.one trivial))⟩
  · cases h

theorem ret_tame (he : env.Clear w) {s : Store} (hs : s.Confined w) (values : List Expr)
    (k : Next) :
    (stat env (.ret values) k s).Tame w n := by
  unfold stat
  split
  any_goals contradiction
  · refine expr_in w.admits_tame he _ hs fun f s hs hf => ?_
    exact exprs_in w.admits_tame he _ hs fun vs s hs hvs => .tail hs hf hvs
  · refine expr_in w.admits_tame he _ hs fun o s hs ho => ?_
    refine index_in w.admits_tame hs ho (Value.clear_str _) (fun f s hs hf => ?_) _
    exact exprs_in w.admits_tame he _ hs fun vs s hs hvs => .tail hs hf (.cons ho hvs)
  · exact exprs_in w.admits_tame he _ hs fun vs s hs hvs => .ret hs hvs

theorem Next.Tame.after {k : Next} (hk : Next.Tame w n k) (he : env.Clear w) :
    ∀ s, s.Confined w → (k env s).Tame w n := fun s hs => hk env s hs he

mutual

theorem stat_tame : ∀ (st : Stat) {n : Nat} {env : Env} {k : Next} {s : Store}, env.Clear w → s.Confined w →
    Next.Tame w n k → (stat env st k s).Tame w n
  | .locals names values, _, env, _, _, he, hs, hk => by
    unfold stat
    refine exprs_in w.admits_tame he values hs fun vs s hs hvs => ?_
    exact declare_tame he hs (clears_adjust hvs _) hk
  | .localFunc f, _, env, _, s, he, hs, hk => by
    unfold stat
    have he' : Env.Clear w { env with cells := (s.newCell .nil).1 :: env.cells } :=
      ⟨List.forall_mem_cons.mpr ⟨hs.fresh_cell, he.cells⟩, he.varargs⟩
    have hs' : (s.newCell .nil).2.Confined w := hs.newCell trivial
    obtain ⟨hs', hf⟩ := newClosure he' hs' f
    exact hk _ _ (hs'.setCell hs.fresh_cell hf) he'
  | .assign targets values line, _, env, _, _, he, hs, hk => by
    unfold stat
    refine slots_tame he targets hs fun l s hs hl => ?_
    refine exprs_in w.admits_tame he values hs fun vs s hs hvs => ?_
    exact store_tame env line _ hs (zip_clear hl (clears_adjust hvs _)) (hk.after he)
  | .call e, _, env, _, _, he, hs, hk => by
    unfold stat
    exact results_in w.admits_tame he e hs fun _ s hs _ => hk _ s hs he
  | .block body, _, env, _, _, he, hs, hk => by
    unfold stat
    exact block_tame body he hs fun _ s hs _ => hk _ s hs he
  | .whileLoop condition body, _, env, _, _, he, hs, hk => by
    unfold stat
    refine .loop hs .nil (fun _ s hs _ => ?_) (hk.after he)
    refine expr_in w.admits_tame he condition hs fun v s hs _ => ?_
    split
    · exact block_tame body he hs fun _ s hs _ => .again hs .nil
    · exact .leave hs
  | .repeatLoop body condition, _, env, _, _, he, hs, hk => by
    unfold stat
    refine .loop hs .nil (fun _ s hs _ => ?_) (hk.after he)
    refine block_tame body he hs fun env' s hs he' => ?_
    refine expr_in w.admits_tame he' condition hs fun v s hs _ => ?_
    split
    · exact .leave hs
    · exact .again hs .nil
  | .cond condition yes no, _, env, _, _, he, hs, hk => by
    unfold stat
    refine expr_in w.admits_tame he condition hs fun v s hs _ => ?_
    split
    · exact block_tame yes he hs fun _ s hs _ => hk _ s hs he
    · exact block_tame no he hs fun _ s hs _ => hk _ s hs he
  | .countLoop start limit step body line, n, env, k, _, he, hs, hk => by
    unfold stat
    refine expr_in w.admits_tame he start hs fun a s hs _ => ?_
    refine expr_in w.admits_tame he limit hs fun l s hs _ => ?_
    refine expr_in w.admits_tame he step hs fun d s hs _ => ?_
    have hrounds {state : List Value} (hstate : Clears w state) : (Action.loop state
        (fun state s => match round? state with
          | none => .leave s
          | some (v, state) =>
            declare env [v] (fun env s => block env body (fun _ s => .again state s) s) s)
        (k env) s).Tame w n := by
      refine .loop hs hstate (fun state s hs _ => ?_) (hk.after he)
      split
      · exact .leave hs
      · next hr =>
        obtain ⟨hv, hstate'⟩ := round?_clear hr
        refine declare_tame he hs (.one hv) fun env' s hs he' => ?_
        exact block_tame body he' hs fun _ s hs _ => .again hs hstate'
    simp only
    split
    · exact fail_in w.admits_tame hs ..
    · exact hrounds (.cons trivial (.cons trivial (.one trivial)))
    · exact hrounds (.cons trivial (.cons trivial (.one trivial)))
  | .eachLoop names values body line, _, env, _, _, he, hs, hk => by
    unfold stat
    refine exprs_in w.admits_tame he values hs fun vs s hs hvs => ?_
    refine .loop hs (clears_adjust hvs 3) (fun state s hs hstate => ?_) (hk.after he)
    split
    · next f object control =>
      have hf := hstate.head
      have ho := hstate.tail.head
      refine .call hs hf hstate.tail fun rs s hs hrs => ?_
      split
      · exact .leave hs
      · refine declare_tame he hs (clears_adjust hrs _) fun env' s hs he' => ?_
        refine block_tame body he' hs fun _ s hs _ => ?_
        exact .again hs (.cons hf (.cons ho (.one hrs.first)))
    · exact .leave hs
  | .ret values, _, _, k, _, he, hs, _ => ret_tame he hs values k
  | .breakLoop, _, _, _, _, _, hs, _ => by
    unfold stat
    exact .leave hs
  | .goto label, _, _, _, _, he, hs, _ => by
    unfold stat
    exact .jump hs he.cells
  | .noop, _, _, _, _, he, hs, hk => by
    unfold stat
    exact hk _ _ hs he

theorem stats_tame : ∀ (sts : List Stat) {n : Nat} {env : Env} {k : Next} {s : Store}, env.Clear w →
    s.Confined w → Next.Tame w n k → (stats env sts k s).Tame w n
  | [], _, _, _, _, he, hs, hk => by
    unfold stats
    exact hk _ _ hs he
  | st :: rest, _, _, _, _, he, hs, hk => by
    unfold stats
    exact stat_tame st he hs fun _ _ hs he => stats_tame rest he hs hk

theorem statsFrom_tame : ∀ (i : Nat) (sts : List Stat) {n : Nat} {env : Env} {k : Next} {s : Store},
    env.Clear w → s.Confined w → Next.Tame w n k → (statsFrom env i sts k s).Tame w n
  | _, [], _, _, _, _, he, hs, hk => by
    unfold statsFrom
    exact hk _ _ hs he
  | 0, st :: rest, _, _, _, _, he, hs, hk => by
    unfold statsFrom
    exact stat_tame st he hs fun _ _ hs he => statsFrom_tame 0 rest he hs hk
  | i + 1, _ :: rest, _, _, _, _, he, hs, hk => by
    unfold statsFrom
    exact statsFrom_tame i rest he hs hk

theorem block_tame : ∀ (b : Block) {n : Nat} {env : Env} {k : Next} {s : Store}, env.Clear w → s.Confined w →
    Next.Tame w n k → (block env b k s).Tame w n
  | .mk body [], _, _, _, _, he, hs, hk => by
    unfold block
    exact stats_tame body he hs hk
  | .mk body (l :: ls), _, env, _, _, he, hs, hk => by
    unfold block
    refine .scope hs he.cells fun i cells s hs hc => ?_
    refine statsFrom_tame i body ⟨hc, he.varargs⟩ hs fun env' s hs he' => ?_
    exact .endScope hs fun s hs => hk _ s hs he'

end

theorem call_tame {s : Store} (hs : s.Confined w) (chunk : Bytes) (f : Func) {cells : List Nat}
    (hc : ∀ id ∈ cells, ¬ w.cell id) {args : List Value} (ha : Clears w args) :
    (call chunk f cells args s).Tame w n := by
  have hv := clears_adjust ha f.params
  unfold call
  refine block_tame f.body ⟨hs.fresh_newCells hv hc, ?_⟩ (hs.newCells _ hv) fun _ s hs _ =>
    .ret hs .nil
  show Clears w (if f.isVararg then args.drop f.params else [])
  split
  · exact ha.drop _
  · exact .nil

end Cordon.Lua.Eval
