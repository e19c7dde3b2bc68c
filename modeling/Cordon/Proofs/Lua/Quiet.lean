import Cordon.Lua.Eval
import Cordon.Proofs.Lua.Laws

/-!
# Programs are quiet

By itself a program prints nothing: between two calls it only changes tables and variables, and makes
tables, variables and functions. By recursion on the program, what it does next is quiet if what follows
it is.
-/

namespace Cordon.Lua

/-- What a program does next comes from a store without printing, whatever the calls in it come to. -/
inductive Action.Quiet : Store → Action → Prop where
  | ret {s s' : Store} {vs : List Value} (hs : s.Still s') : Quiet s (.ret vs s')
  | call {s s' : Store} {fn : Value} {args : List Value} {site : Site}
    {next : List Value → Store → Action} (hs : s.Still s') (hn : ∀ vs s, Quiet s (next vs s)) :
    Quiet s (.call fn args site next s')
  | tail {s s' : Store} {fn : Value} {args : List Value} {site : Site} (hs : s.Still s') :
    Quiet s (.tail fn args site s')
  | raise {s s' : Store} {v : Value} (hs : s.Still s') : Quiet s (.raise v s')
  | loop {s s' : Store} {state : List Value} {body : List Value → Store → Action}
    {done : Store → Action} (hs : s.Still s') (hb : ∀ vs s, Quiet s (body vs s))
    (hd : ∀ s, Quiet s (done s)) : Quiet s (.loop state body done s')
  | again {s s' : Store} {state : List Value} (hs : s.Still s') : Quiet s (.again state s')
  | leave {s s' : Store} (hs : s.Still s') : Quiet s (.leave s')
  | scope {s s' : Store} {labels : List Label} {entry : Nat → List Nat → Store → Action}
    {cells : List Nat} (hs : s.Still s') (he : ∀ i cells s, Quiet s (entry i cells s)) :
    Quiet s (.scope labels entry cells s')
  | endScope {s s' : Store} {next : Store → Action} (hs : s.Still s') (hn : ∀ s, Quiet s (next s)) :
    Quiet s (.endScope next s')
  | jump {s s' : Store} {label : Bytes} {cells : List Nat} (hs : s.Still s') :
    Quiet s (.jump label cells s')

theorem Action.Quiet.after {s s' : Store} {a : Action} (h : a.Quiet s') (hs : s.Still s') :
    a.Quiet s := by
  cases h with
  | ret h => exact .ret (hs.trans h)
  | call h hn => exact .call (hs.trans h) hn
  | tail h => exact .tail (hs.trans h)
  | raise h => exact .raise (hs.trans h)
  | loop h hb hd => exact .loop (hs.trans h) hb hd
  | again h => exact .again (hs.trans h)
  | leave h => exact .leave (hs.trans h)
  | scope h he => exact .scope (hs.trans h) he
  | endScope h hn => exact .endScope (hs.trans h) hn
  | jump h => exact .jump (hs.trans h)

namespace Eval

def Cont.Quiet (k : Cont) : Prop := ∀ v s, (k v s).Quiet s

def Conts.Quiet (k : Conts) : Prop := ∀ vs s, (k vs s).Quiet s

variable {k : Cont} {env : Env} {line : Nat} {s : Store}

theorem Cont.Quiet.first (hk : k.Quiet) : Conts.Quiet fun vs s => k (.first vs) s :=
  fun _ s => hk _ s

theorem Conts.Quiet.single {k : Conts} (hk : k.Quiet) : Cont.Quiet fun v s => k [v] s :=
  fun _ s => hk _ s

/-! ## Operations -/

theorem fail_quiet (env : Env) (line : Nat) (message : Bytes) : (fail env line message s).Quiet s :=
  .raise (.refl s)

theorem failType_quiet (env : Env) (line : Nat) (activity : String) (v : Value) (name : Name?) :
    (failType env line activity v name s).Quiet s := fail_quiet ..

theorem outOfMemory_quiet : (outOfMemory s).Quiet s := .raise (.of_eq rfl rfl)

theorem callMeta_quiet (hk : k.Quiet) (name : Bytes) (h a b : Value) :
    (callMeta env line name h a b k s).Quiet s := .call (.refl s) hk.first

theorem index_quiet (hk : k.Quiet) (object key : Value) (name : Name?) :
    (index env line object key name k s).Quiet s := by
  unfold index
  split
  · exact hk _ s
  · exact .call (.refl s) hk.first
  · exact failType_quiet ..
  · exact fail_quiet ..

theorem assignIndex_quiet {k : Store → Action} (hk : ∀ s, (k s).Quiet s) (object key value : Value)
    (name : Name?) : (assignIndex env line object key value name k s).Quiet s := by
  unfold assignIndex
  split
  · next h => exact (hk _).after (.place h)
  · exact .call (.refl s) fun _ s => hk s
  · exact failType_quiet ..
  · exact fail_quiet ..
  · exact fail_quiet ..

theorem arith_quiet (hk : k.Quiet) (op : ArithOp) (a b : Value) (nameA nameB : Name?) :
    (arith env line op a b nameA nameB k s).Quiet s := by
  unfold arith
  split
  · exact hk _ s
  · exact fail_quiet ..
  · split
    · split
      · exact fail_quiet ..
      · exact failType_quiet ..
    · exact callMeta_quiet hk ..

theorem concat_quiet (hk : k.Quiet) (a b : Value) (nameA nameB : Name?) :
    (concat env line a b nameA nameB k s).Quiet s := by
  unfold concat
  split
  · split
    · exact outOfMemory_quiet
    · exact hk _ s
  · split
    · split <;> exact failType_quiet ..
    · exact callMeta_quiet hk ..

theorem less_quiet (hk : k.Quiet) (orEqual : Bool) (a b : Value) :
    (less env line orEqual a b k s).Quiet s := by
  unfold less
  split
  · exact hk _ s
  · dsimp only
    split
    · exact fail_quiet ..
    · exact callMeta_quiet (fun _ s => hk _ s) ..

theorem equal_quiet (hk : k.Quiet) (negated : Bool) (a b : Value) :
    (equal env line negated a b k s).Quiet s := by
  unfold equal
  split
  · exact hk _ s
  · split
    · split
      · exact hk _ s
      · exact callMeta_quiet (fun _ s => hk _ s) ..
    · exact hk _ s

theorem compare_quiet (hk : k.Quiet) (op : CompareOp) (a b : Value) :
    (compare env line op a b k s).Quiet s := by
  cases op with
  | eq | ne => exact equal_quiet hk ..
  | lt | le | gt | ge => exact less_quiet hk ..

theorem neg_quiet (hk : k.Quiet) (a : Value) (name : Name?) : (neg env line a name k s).Quiet s := by
  unfold neg
  split
  · exact hk _ s
  · split
    · exact failType_quiet ..
    · exact callMeta_quiet hk ..

theorem bnot_quiet (hk : k.Quiet) (a : Value) (name : Name?) :
    (bnot env line a name k s).Quiet s := by
  unfold bnot
  split
  · exact hk _ s
  · split
    · split
      · exact fail_quiet ..
      · exact failType_quiet ..
    · exact callMeta_quiet hk ..

theorem len_quiet (hk : k.Quiet) (a : Value) (name : Name?) : (len env line a name k s).Quiet s := by
  unfold len
  split
  · exact hk _ s
  · split
    · exact hk _ s
    · exact failType_quiet ..
    · exact callMeta_quiet hk ..

theorem unary_quiet (hk : k.Quiet) (op : UnaryOp) (a : Value) (name : Name?) :
    (unary env line op a name k s).Quiet s := by
  cases op with
  | not => exact hk _ s
  | neg => exact neg_quiet hk a name
  | len => exact len_quiet hk a name
  | bnot => exact bnot_quiet hk a name

/-! ## Expressions -/

mutual

theorem expr_quiet (env : Env) : ∀ (e : Expr) {k : Cont}, k.Quiet → ∀ s, (expr env e k s).Quiet s
  | .nil, _, hk, s | .bool _, _, hk, s | .int _, _, hk, s | .float _, _, hk, s | .str _, _, hk, s
  | .vararg, _, hk, s | .var _, _, hk, s => by
    unfold expr
    exact hk _ s
  | .index object key line, _, hk, s => by
    unfold expr
    exact expr_quiet env object (fun o s => expr_quiet env key (fun i s => index_quiet hk ..) s) s
  | .call fn args line, _, hk, s => by
    unfold expr
    exact expr_quiet env fn (fun f s => exprs_quiet env args (fun vs s => .call (.refl s) hk.first) s) s
  | .method object name args line, _, hk, s => by
    unfold expr
    refine expr_quiet env object (fun o s => index_quiet (fun f s => ?_) ..) s
    exact exprs_quiet env args (fun vs s => .call (.refl s) hk.first) s
  | .func f, _, hk, s => by
    unfold expr
    exact (hk _ _).after (.newFunction ..)
  | .arith op left right line, _, hk, s => by
    unfold expr
    exact expr_quiet env left (fun a s => expr_quiet env right (fun b s => arith_quiet hk ..) s) s
  | .compare op left right line, _, hk, s => by
    unfold expr
    exact expr_quiet env left (fun a s => expr_quiet env right (fun b s => compare_quiet hk ..) s) s
  | .concat left right line, _, hk, s => by
    unfold expr
    exact expr_quiet env left (fun a s => expr_quiet env right (fun b s => concat_quiet hk ..) s) s
  | .unary op operand line, _, hk, s => by
    unfold expr
    exact expr_quiet env operand (fun a s => unary_quiet hk ..) s
  | .and left right, _, hk, s => by
    unfold expr
    refine expr_quiet env left (fun a s => ?_) s
    split
    · exact expr_quiet env right hk s
    · exact hk a s
  | .or left right, _, hk, s => by
    unfold expr
    refine expr_quiet env left (fun a s => ?_) s
    split
    · exact hk a s
    · exact expr_quiet env right hk s
  | .paren e, _, hk, s => by
    unfold expr
    exact expr_quiet env e hk s
  | .table fs line, _, hk, s => by
    unfold expr
    exact (fields_quiet env line _ fs _ (fun s => hk _ s) _).after (.newTable ..)

theorem results_quiet (env : Env) : ∀ (e : Expr) {k : Conts}, k.Quiet → ∀ s, (results env e k s).Quiet s
  | .nil, _, hk, s | .bool _, _, hk, s | .int _, _, hk, s | .float _, _, hk, s | .str _, _, hk, s
  | .vararg, _, hk, s | .var _, _, hk, s => by
    unfold results
    exact hk _ s
  | .index object key line, _, hk, s => by
    unfold results
    exact expr_quiet env object
      (fun o s => expr_quiet env key (fun i s => index_quiet hk.single ..) s) s
  | .call fn args line, _, hk, s => by
    unfold results
    exact expr_quiet env fn (fun f s => exprs_quiet env args (fun vs s => .call (.refl s) hk) s) s
  | .method object name args line, _, hk, s => by
    unfold results
    refine expr_quiet env object (fun o s => index_quiet (fun f s => ?_) ..) s
    exact exprs_quiet env args (fun vs s => .call (.refl s) hk) s
  | .func f, _, hk, s => by
    unfold results
    exact (hk _ _).after (.newFunction ..)
  | .arith op left right line, _, hk, s => by
    unfold results
    exact expr_quiet env left
      (fun a s => expr_quiet env right (fun b s => arith_quiet hk.single ..) s) s
  | .compare op left right line, _, hk, s => by
    unfold results
    exact expr_quiet env left
      (fun a s => expr_quiet env right (fun b s => compare_quiet hk.single ..) s) s
  | .concat left right line, _, hk, s => by
    unfold results
    exact expr_quiet env left
      (fun a s => expr_quiet env right (fun b s => concat_quiet hk.single ..) s) s
  | .unary op operand line, _, hk, s => by
    unfold results
    exact expr_quiet env operand (fun a s => unary_quiet hk.single ..) s
  | .and left right, _, hk, s => by
    unfold results
    refine expr_quiet env left (fun a s => ?_) s
    split
    · exact expr_quiet env right hk.single s
    · exact hk _ s
  | .or left right, _, hk, s => by
    unfold results
    refine expr_quiet env left (fun a s => ?_) s
    split
    · exact hk _ s
    · exact expr_quiet env right hk.single s
  | .paren e, _, hk, s => by
    unfold results
    exact expr_quiet env e hk.single s
  | .table fs line, _, hk, s => by
    unfold results
    exact (fields_quiet env line _ fs _ (fun s => hk _ s) _).after (.newTable ..)

theorem exprs_quiet (env : Env) : ∀ (es : List Expr) {k : Conts}, k.Quiet →
    ∀ s, (exprs env es k s).Quiet s
  | [], _, hk, s => by
    unfold exprs
    exact hk _ s
  | [e], _, hk, s => by
    unfold exprs
    exact results_quiet env e hk s
  | e :: e' :: es, _, hk, s => by
    unfold exprs
    exact expr_quiet env e (fun v s => exprs_quiet env (e' :: es) (fun vs s => hk _ s) s) s

theorem fields_quiet (env : Env) (line id : Nat) : ∀ (fs : List Field) (items : List Value)
    {k : Store → Action}, (∀ s, (k s).Quiet s) → ∀ s, (fields env line id fs items k s).Quiet s
  | [], _, _, hk, s => by
    unfold fields
    exact (hk _).after (.setItems ..)
  | [.item e], _, _, hk, s => by
    unfold fields
    exact results_quiet env e (fun vs s => (hk _).after (.setItems ..)) s
  | .item e :: f :: fs, _, _, hk, s => by
    unfold fields
    exact expr_quiet env e (fun v s => fields_quiet env line id (f :: fs) _ hk s) s
  | .pair key value :: fs, _, _, hk, s => by
    unfold fields
    refine expr_quiet env key (fun i s => expr_quiet env value (fun v s => ?_) s) s
    split
    · exact (fields_quiet env line id fs _ hk _).after (.rawSet ..)
    · exact fail_quiet ..

end

/-! ## Statements -/

def Next.Quiet (k : Next) : Prop := ∀ env s, (k env s).Quiet s

theorem declare_quiet (env : Env) (vs : List Value) {k : Next} (hk : k.Quiet) (s : Store) :
    (declare env vs k s).Quiet s := (hk _ _).after (.newCells ..)

theorem slots_quiet (env : Env) : ∀ (ts : List Target) {k : List Slot → Store → Action},
    (∀ l s, (k l s).Quiet s) → ∀ s, (slots env ts k s).Quiet s
  | [], _, hk, s => by
    unfold slots
    exact hk _ s
  | .var x :: ts, _, hk, s => by
    unfold slots
    exact slots_quiet env ts (fun l s => hk _ s) s
  | .index object key :: ts, _, hk, s => by
    unfold slots
    refine expr_quiet env object (fun o s => expr_quiet env key (fun i s => ?_) s) s
    exact slots_quiet env ts (fun l s => hk _ s) s

theorem store_quiet (env : Env) (line : Nat) : ∀ (l : List (Slot × Value)) {k : Store → Action},
    (∀ s, (k s).Quiet s) → ∀ s, (store env line l k s).Quiet s
  | [], _, hk, s => by
    unfold store
    exact hk s
  | (slot, v) :: rest, _, hk, s => by
    unfold store
    refine store_quiet env line rest (fun s => ?_) s
    cases slot with
    | cell id => exact (hk _).after (.setCell ..)
    | entry o i name => exact assignIndex_quiet hk ..
    | nowhere => exact hk s

theorem ret_quiet (env : Env) (values : List Expr) (k : Next) (s : Store) :
    (stat env (.ret values) k s).Quiet s := by
  unfold stat
  split
  any_goals contradiction
  · exact expr_quiet env _ (fun f s => exprs_quiet env _ (fun vs s => .tail (.refl s)) s) _
  · refine expr_quiet env _ (fun o s => index_quiet (fun f s => ?_) ..) _
    exact exprs_quiet env _ (fun vs s => .tail (.refl s)) s
  · exact exprs_quiet env _ (fun vs s => .ret (.refl s)) _

mutual

theorem stat_quiet : ∀ (st : Stat) (env : Env) {k : Next}, k.Quiet → ∀ s, (stat env st k s).Quiet s
  | .locals names values, env, _, hk, s => by
    unfold stat
    exact exprs_quiet env values (fun vs s => declare_quiet env _ hk s) s
  | .localFunc f, env, _, hk, s => by
    unfold stat
    have hcell := Store.Still.newCell s .nil
    exact (hk _ _).after ((hcell.trans (.newFunction ..)).trans (.setCell ..))
  | .assign targets values line, env, _, hk, s => by
    unfold stat
    refine slots_quiet env targets (fun l s => exprs_quiet env values (fun vs s => ?_) s) s
    exact store_quiet env line _ (hk env) s
  | .call e, env, _, hk, s => by
    unfold stat
    exact results_quiet env e (fun _ s => hk env s) s
  | .block body, env, _, hk, s => by
    unfold stat
    exact block_quiet body env (fun _ s => hk env s) s
  | .whileLoop condition body, env, _, hk, s => by
    unfold stat
    refine .loop (.refl s) (fun _ s => expr_quiet env condition (fun v s => ?_) s) (hk env)
    split
    · exact block_quiet body env (fun _ s => .again (.refl s)) s
    · exact .leave (.refl s)
  | .repeatLoop body condition, env, _, hk, s => by
    unfold stat
    refine .loop (.refl s) (fun _ s => block_quiet body env (fun env' s => ?_) s) (hk env)
    refine expr_quiet env' condition (fun v s => ?_) s
    split
    · exact .leave (.refl s)
    · exact .again (.refl s)
  | .cond condition yes no, env, _, hk, s => by
    unfold stat
    refine expr_quiet env condition (fun v s => ?_) s
    split
    · exact block_quiet yes env (fun _ s => hk env s) s
    · exact block_quiet no env (fun _ s => hk env s) s
  | .countLoop start limit step body line, env, k, hk, s => by
    unfold stat
    refine expr_quiet env start (fun a s => expr_quiet env limit (fun l s =>
      expr_quiet env step (fun d s => ?_) s) s) s
    have hrounds (state : List Value) : (Action.loop state
        (fun state s => match round? state with
          | none => .leave s
          | some (v, state) =>
            declare env [v] (fun env s => block env body (fun _ s => .again state s) s) s)
        (k env) s).Quiet s := by
      refine .loop (.refl s) (fun state s => ?_) (hk env)
      split
      · exact .leave (.refl s)
      · exact declare_quiet env _
          (fun env' s => block_quiet body env' (fun _ s => .again (.refl s)) s) s
    dsimp only
    split
    · exact fail_quiet ..
    · exact hrounds _
    · exact hrounds _
  | .eachLoop names values body line, env, _, hk, s => by
    unfold stat
    refine exprs_quiet env values (fun vs s => .loop (.refl s) (fun state s => ?_) (hk env)) s
    split
    · refine .call (.refl s) fun rs s => ?_
      split
      · exact .leave (.refl s)
      · exact declare_quiet env _
          (fun env' s => block_quiet body env' (fun _ s => .again (.refl s)) s) s
    · exact .leave (.refl s)
  | .ret values, env, k, _, s => ret_quiet env values k s
  | .breakLoop, _, _, _, s => by
    unfold stat
    exact .leave (.refl s)
  | .goto label, _, _, _, s => by
    unfold stat
    exact .jump (.refl s)
  | .noop, env, _, hk, s => by
    unfold stat
    exact hk env s

theorem stats_quiet : ∀ (sts : List Stat) (env : Env) {k : Next}, k.Quiet →
    ∀ s, (stats env sts k s).Quiet s
  | [], env, _, hk, s => by
    unfold stats
    exact hk env s
  | st :: rest, env, _, hk, s => by
    unfold stats
    exact stat_quiet st env (fun env s => stats_quiet rest env hk s) s

theorem statsFrom_quiet : ∀ (i : Nat) (sts : List Stat) (env : Env) {k : Next}, k.Quiet →
    ∀ s, (statsFrom env i sts k s).Quiet s
  | _, [], env, _, hk, s => by
    unfold statsFrom
    exact hk env s
  | 0, st :: rest, env, _, hk, s => by
    unfold statsFrom
    exact stat_quiet st env (fun env s => statsFrom_quiet 0 rest env hk s) s
  | i + 1, _ :: rest, env, _, hk, s => by
    unfold statsFrom
    exact statsFrom_quiet i rest env hk s

theorem block_quiet : ∀ (b : Block) (env : Env) {k : Next}, k.Quiet → ∀ s, (block env b k s).Quiet s
  | .mk body [], env, _, hk, s => by
    unfold block
    exact stats_quiet body env hk s
  | .mk body (l :: ls), env, _, hk, s => by
    unfold block
    refine .scope (.refl s) fun i cells s => statsFrom_quiet i body _ (fun env' s => ?_) s
    exact .endScope (.refl s) (hk env')

end

theorem call_quiet (chunk : Bytes) (f : Func) (cells : List Nat) (args : List Value) (s : Store) :
    (call chunk f cells args s).Quiet s :=
  (block_quiet f.body _ (fun _ s => .ret (.refl s)) _).after (.newCells ..)

end Eval

end Cordon.Lua
