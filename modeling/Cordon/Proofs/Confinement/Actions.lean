import Cordon.Lua.Eval
import Cordon.Proofs.Confinement.Confined

/-!
# Tame actions

An action is tame if it hands on what is clear, and stays tame whatever confined store it is gone on
with. What a single operation does next is so if what follows it is, and this holds of every set of
actions that is closed under raising and calling.
-/

namespace Cordon.Lua

variable {w : Ward}

/-- What a program does next, in so many blocks with labels within its function or innermost loop. -/
inductive Action.Tame (w : Ward) : Nat → Action → Prop where
  | ret {n : Nat} {s : Store} {vs : List Value} (hs : s.Confined w) (hv : Clears w vs) :
    Tame w n (.ret vs s)
  | call {n : Nat} {s : Store} {fn : Value} {args : List Value} {site : Site}
    {next : List Value → Store → Action} (hs : s.Confined w) (hf : fn.Clear w) (ha : Clears w args)
    (hn : ∀ vs s', s'.Confined w → Clears w vs → Tame w n (next vs s')) :
    Tame w n (.call fn args site next s)
  | tail {n : Nat} {s : Store} {fn : Value} {args : List Value} {site : Site} (hs : s.Confined w)
    (hf : fn.Clear w) (ha : Clears w args) : Tame w n (.tail fn args site s)
  | raise {n : Nat} {s : Store} {v : Value} (hs : s.Confined w) (hv : v.Clear w) :
    Tame w n (.raise v s)
  | loop {n : Nat} {s : Store} {state : List Value} {body : List Value → Store → Action}
    {done : Store → Action} (hs : s.Confined w) (hv : Clears w state)
    (hb : ∀ vs s', s'.Confined w → Clears w vs → Tame w 0 (body vs s'))
    (hd : ∀ s', s'.Confined w → Tame w n (done s')) : Tame w n (.loop state body done s)
  | again {n : Nat} {s : Store} {state : List Value} (hs : s.Confined w) (hv : Clears w state) :
    Tame w n (.again state s)
  | leave {n : Nat} {s : Store} (hs : s.Confined w) : Tame w n (.leave s)
  | scope {n : Nat} {s : Store} {labels : List Label} {entry : Nat → List Nat → Store → Action}
    {cells : List Nat} (hs : s.Confined w) (hc : ∀ id ∈ cells, ¬ w.cell id)
    (he : ∀ i cells s', s'.Confined w → (∀ id ∈ cells, ¬ w.cell id) →
      Tame w (n + 1) (entry i cells s')) :
    Tame w n (.scope labels entry cells s)
  | endScope {n : Nat} {s : Store} {next : Store → Action} (hs : s.Confined w)
    (hn : ∀ s', s'.Confined w → Tame w n (next s')) : Tame w (n + 1) (.endScope next s)
  | jump {n : Nat} {s : Store} {label : Bytes} {cells : List Nat} (hs : s.Confined w)
    (hc : ∀ id ∈ cells, ¬ w.cell id) : Tame w n (.jump label cells s)

/-- The set of actions is closed under raising and calling. -/
structure Ward.Admits (w : Ward) (T : Action → Prop) : Prop where
  raise : ∀ {s : Store} {v : Value}, s.Confined w → v.Clear w → T (.raise v s)
  call : ∀ {s : Store} {fn : Value} {args : List Value} {site : Site}
    {next : List Value → Store → Action}, s.Confined w → fn.Clear w → Clears w args →
    (∀ vs s', s'.Confined w → Clears w vs → T (next vs s')) → T (.call fn args site next s)

theorem Ward.admits_tame (w : Ward) {n : Nat} : w.Admits (Action.Tame w n) := ⟨.raise, .call⟩

/-- A function's code may use what is out of the ward. -/
structure Env.Clear (w : Ward) (env : Env) : Prop where
  cells : ∀ id ∈ env.cells, ¬ w.cell id
  varargs : Clears w env.varargs

namespace Eval

variable {T : Action → Prop} {k : Cont} {ks : Conts}

/-! ## Continuations -/

def Cont.In (w : Ward) (T : Action → Prop) (k : Cont) : Prop :=
  ∀ v s, s.Confined w → v.Clear w → T (k v s)

def Conts.In (w : Ward) (T : Action → Prop) (k : Conts) : Prop :=
  ∀ vs s, s.Confined w → Clears w vs → T (k vs s)

theorem Cont.In.first (hk : Cont.In w T k) : Conts.In w T fun vs s => k (.first vs) s :=
  fun _ s hs hv => hk _ s hs hv.first

theorem Conts.In.single (hk : Conts.In w T ks) : Cont.In w T fun v s => ks [v] s :=
  fun _ s hs hv => hk _ s hs (.one hv)

/-! ## Operations -/

variable {s : Store} {env : Env} {line : Nat} {v a b : Value}

theorem readVar_clear (hs : s.Confined w) (x : Var) : (readVar env x s).Clear w := by
  unfold readVar
  split
  · exact hs.held _
  · trivial

theorem apply_clear {op : ArithOp} (h : Arith.apply op a b = .value v) : v.Clear w := by
  have hints {i j : Int64} (h : Arith.onInts op i j = .value v) : v.Clear w := by
    cases op <;> simp only [Arith.onInts] at h <;> first
      | (split at h <;> cases h <;> trivial)
      | (cases h; trivial)
  unfold Arith.apply at h
  split at h
  · exact hints h
  · split at h
    · split at h
      · exact hints h
      · cases h
    · split at h
      · cases op <;> simp only [Arith.onFloats] at h <;> cases h <;> trivial
      · cases h

theorem neg_clear (h : Arith.neg a = some v) : v.Clear w := by
  cases a <;> cases h <;> trivial

section

variable (hT : w.Admits T) (hs : s.Confined w)

include hT hs

theorem fail_in (env : Env) (line : Nat) (message : Bytes) : T (fail env line message s) :=
  hT.raise hs trivial

theorem failType_in (env : Env) (line : Nat) (activity : String) (v : Value) (name : Name?) :
    T (failType env line activity v name s) := fail_in hT hs ..

theorem outOfMemory_in : T (outOfMemory s) := hT.raise (hs.flagged true) trivial

theorem index_in {object key : Value} (ho : object.Clear w) (hi : key.Clear w) (hk : Cont.In w T k)
    (name : Name?) : T (index env line object key name k s) := by
  have hr : Store.Reads (Value.Clear w) (s.access object key) :=
    Store.accessFrom_reads hs.toClosed key maxChain true ho
  unfold index
  split
  · next h =>
    rw [h] at hr
    cases hr with
    | value hv => exact hk _ s hs hv
  · next h =>
    rw [h] at hr
    cases hr with
    | call hf ho => exact hT.call hs hf (.cons ho (.one hi)) hk.first
  · exact failType_in hT hs ..
  · exact fail_in hT hs ..

theorem assignIndex_in {object key value : Value} (ho : object.Clear w) (hi : key.Clear w)
    (hv : value.Clear w) {k : Store → Action} (hk : ∀ s, s.Confined w → T (k s)) (name : Name?) :
    T (assignIndex env line object key value name k s) := by
  have hp : Store.Places (Value.Clear w) s key value (s.place object key value) :=
    Store.placeFrom_places hs.toClosed key value maxChain true ho
  unfold assignIndex
  split
  · next h =>
    rw [h] at hp
    cases hp with
    | done hid hkey => exact hk _ (hs.rawSet hid (hi.key hkey) hv)
  · next h =>
    rw [h] at hp
    cases hp with
    | call hf ho => exact hT.call hs hf (.cons ho (.cons hi (.one hv))) fun _ s hs _ => hk s hs
  · exact failType_in hT hs ..
  · exact fail_in hT hs ..
  · exact fail_in hT hs ..

theorem callMeta_in {h : Value} (hh : h.Clear w) (ha : a.Clear w) (hb : b.Clear w)
    (hk : Cont.In w T k) (name : Bytes) : T (callMeta env line name h a b k s) :=
  hT.call hs hh (.cons ha (.one hb)) hk.first

theorem arith_in (ha : a.Clear w) (hb : b.Clear w) (hk : Cont.In w T k) (op : ArithOp)
    (nameA nameB : Name?) : T (arith env line op a b nameA nameB k s) := by
  unfold arith
  split
  · next h => exact hk _ s hs (apply_clear h)
  · exact fail_in hT hs ..
  · split
    · split
      · exact fail_in hT hs ..
      · exact failType_in hT hs ..
    · exact callMeta_in hT hs (hs.clear_binaryMeta ha hb _) ha hb hk _

theorem neg_in (ha : a.Clear w) (hk : Cont.In w T k) (name : Name?) :
    T (neg env line a name k s) := by
  unfold neg
  split
  · next h => exact hk _ s hs (neg_clear h)
  · split
    · exact failType_in hT hs ..
    · exact callMeta_in hT hs (hs.metafield ha _) ha ha hk _

theorem bnot_in (ha : a.Clear w) (hk : Cont.In w T k) (name : Name?) :
    T (bnot env line a name k s) := by
  unfold bnot
  split
  · exact hk _ s hs trivial
  · split
    · split
      · exact fail_in hT hs ..
      · exact failType_in hT hs ..
    · exact callMeta_in hT hs (hs.metafield ha _) ha ha hk _

theorem len_in (ha : a.Clear w) (hk : Cont.In w T k) (name : Name?) :
    T (len env line a name k s) := by
  unfold len
  split
  · exact hk _ s hs trivial
  · split
    · exact hk _ s hs trivial
    · exact failType_in hT hs ..
    · exact callMeta_in hT hs (hs.metafield ha _) ha ha hk _

theorem concat_in (ha : a.Clear w) (hb : b.Clear w) (hk : Cont.In w T k) (nameA nameB : Name?) :
    T (concat env line a b nameA nameB k s) := by
  unfold concat
  split
  · split
    · exact outOfMemory_in hT hs
    · exact hk _ s hs trivial
  · split
    · split
      · exact failType_in hT hs ..
      · exact failType_in hT hs ..
    · exact callMeta_in hT hs (hs.clear_binaryMeta ha hb _) ha hb hk _

theorem less_in (ha : a.Clear w) (hb : b.Clear w) (hk : Cont.In w T k) (orEqual : Bool) :
    T (less env line orEqual a b k s) := by
  unfold less
  split
  · exact hk _ s hs trivial
  · simp only
    split
    · exact fail_in hT hs ..
    · have hk : Cont.In w T fun v s => k (.bool v.truthy) s := fun v s hs _ => hk _ s hs trivial
      exact callMeta_in hT hs (hs.clear_binaryMeta ha hb _) ha hb hk _

theorem equal_in (ha : a.Clear w) (hb : b.Clear w) (hk : Cont.In w T k) (negated : Bool) :
    T (equal env line negated a b k s) := by
  unfold equal
  split
  · exact hk _ s hs trivial
  · split
    · split
      · exact hk _ s hs trivial
      · have hk : Cont.In w T fun v s => k (.bool (v.truthy != negated)) s :=
          fun v s hs _ => hk _ s hs trivial
        exact callMeta_in hT hs (hs.clear_binaryMeta ha hb _) ha hb hk _
    · exact hk _ s hs trivial

theorem compare_in (ha : a.Clear w) (hb : b.Clear w) (hk : Cont.In w T k) (op : CompareOp) :
    T (compare env line op a b k s) := by
  cases op with
  | eq => exact equal_in hT hs ha hb hk _
  | ne => exact equal_in hT hs ha hb hk _
  | lt => exact less_in hT hs ha hb hk _
  | le => exact less_in hT hs ha hb hk _
  | gt => exact less_in hT hs hb ha hk _
  | ge => exact less_in hT hs hb ha hk _

theorem unary_in (ha : a.Clear w) (hk : Cont.In w T k) (op : UnaryOp) (name : Name?) :
    T (unary env line op a name k s) := by
  cases op with
  | not => exact hk _ s hs trivial
  | neg => exact neg_in hT hs ha hk name
  | len => exact len_in hT hs ha hk name
  | bnot => exact bnot_in hT hs ha hk name

end

end Eval

end Cordon.Lua
