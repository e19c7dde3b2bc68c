import Cordon.Proofs.Lua.Answers
import Cordon.Proofs.Lua.Writes
import Cordon.Proofs.Modules.History
import Mathlib.Data.Finset.Card
import Mathlib.Logic.Relation

/-!
# Functions that require modules

A preloaded function may require other modules before it returns a new table. `Asks` says so of a run,
whatever code does it. What it relies on is what it keeps itself: of what there was, nothing changes but the
table of loaded modules.
-/

namespace Cordon

open Lua

variable {p : Parts} {s s' s'' : Store}

/-! ## What the loading of modules keeps -/

/-- Of what there was, only the table of loaded modules may have changed. -/
structure OnlyLoads (p : Parts) (s s' : Store) : Prop where
  tables_size : s.tables.size ≤ s'.tables.size
  tables : ∀ id, id < s.tables.size → id ≠ p.modules.loaded → s'.table id = s.table id
  cells_size : s.cells.size ≤ s'.cells.size
  cells : ∀ id, id < s.cells.size → s'.cell id = s.cell id
  functions : ∀ id f, s.function? id = some f → s'.function? id = some f
  permits : s.permits.size ≤ s'.permits.size
  memoryLimit : s'.memoryLimit = s.memoryLimit

namespace OnlyLoads

theorem refl (p : Parts) (s : Store) : OnlyLoads p s s :=
  ⟨Nat.le_refl _, fun _ _ _ => rfl, Nat.le_refl _, fun _ _ => rfl, fun _ _ h => h, Nat.le_refl _, rfl⟩

theorem trans (h : OnlyLoads p s s') (h' : OnlyLoads p s' s'') : OnlyLoads p s s'' where
  tables_size := Nat.le_trans h.tables_size h'.tables_size
  tables id hid hne := (h'.tables id (Nat.lt_of_lt_of_le hid h.tables_size) hne).trans (h.tables id hid hne)
  cells_size := Nat.le_trans h.cells_size h'.cells_size
  cells id hid := (h'.cells id (Nat.lt_of_lt_of_le hid h.cells_size)).trans (h.cells id hid)
  functions id f hf := h'.functions id f (h.functions id f hf)
  permits := Nat.le_trans h.permits h'.permits
  memoryLimit := h'.memoryLimit.trans h.memoryLimit

theorem report (p : Parts) (s : Store) (e : Event) : OnlyLoads p s (s.report e) := { refl p s with }

theorem declared (p : Parts) (s : Store) (n : Bytes) (ready : Bool) (v extra : Value) :
    OnlyLoads p s (Require.declared s n ready v extra) := { refl p s with
  cells_size := by
    simp only [Require.declared, Store.newCells, Store.newCell, Array.size_push]
    omega
  cells := by
    intro id hid
    rw [Require.cell_declared, if_neg (by omega), if_neg (by omega), if_neg (by omega), if_neg (by omega)] }

theorem newTable (p : Parts) (s : Store) : OnlyLoads p s s.newTable.2 := { refl p s with
  tables_size := by
    rw [s.tables_newTable_size]
    exact Nat.le_succ _
  tables := by
    intro id hid _
    rw [s.table_newTable, if_neg (Nat.ne_of_lt hid)] }

theorem stored (p : Parts) (s : Store) (n : Bytes) (v : Value) :
    OnlyLoads p s (p.modules.stored s n v) := { refl p s with
  tables_size := Nat.le_of_eq (s.tables_rawSet_size p.modules.loaded (.str n) v).symm
  tables := fun _ _ hne => s.table_rawSet_of_ne (Ne.symm hne) (.str n) v }

theorem rawGet (h : OnlyLoads p s s') {id : Nat} (hid : id ≠ p.modules.loaded) {k : Key}
    (hk : s.rawGet id k ≠ .nil) : s'.rawGet id k = s.rawGet id k := by
  have hlt : id < s.tables.size := by
    rcases Nat.lt_or_ge id s.tables.size with hlt | hge
    · exact hlt
    · rw [Store.rawGet, s.table_of_le hge] at hk
      exact absurd (Table.get_empty k) hk
  rw [Store.rawGet, h.tables id hlt hid, Store.rawGet]

theorem intact (h : OnlyLoads p s s') (hi : Intact p s) : Intact p s' where
  apart := hi.apart
  ready := {
    loaded_lt := Nat.lt_of_lt_of_le hi.ready.loaded_lt h.tables_size
    preload_lt := Nat.lt_of_lt_of_le hi.ready.preload_lt h.tables_size
    permit_lt := Nat.lt_of_lt_of_le hi.ready.permit_lt h.permits
    held := (h.rawGet hi.apart.package_loaded (by rw [hi.ready.held]; nofun)).trans hi.ready.held
    plain := (congrArg Table.metatable
      (h.tables _ hi.ready.preload_lt hi.apart.loaded_preload.symm)).trans hi.ready.plain }
  serves := {
    program := h.functions _ _ hi.serves.program
    resolveCell := (h.cells _ (s.lt_of_cell (by rw [hi.serves.resolveCell]; nofun))).trans
      hi.serves.resolveCell
    finishCell := (h.cells _ (s.lt_of_cell (by rw [hi.serves.finishCell]; nofun))).trans
      hi.serves.finishCell
    resolve := h.functions _ _ hi.serves.resolve
    finish := h.functions _ _ hi.serves.finish }

end OnlyLoads

/-! ## Dependency graphs -/

/-- Names, with what is called for each of them and which others that requires. No name depends on
itself. -/
structure Graph where
  names : Finset Bytes
  loader : Bytes → Nat
  deps : Bytes → List Bytes
  /-- What a function and a `require` in it take of the stack. -/
  room : Nat
  deps_mem : ∀ n ∈ names, ∀ d ∈ deps n, d ∈ names
  acyclic : ∀ n ∈ names, ¬ Relation.TransGen (fun n d => d ∈ deps n) n n

namespace Graph

variable {g : Graph} {n d : Bytes}

def Dep (g : Graph) (n d : Bytes) : Prop := d ∈ g.deps n

/-- The name is the other one or one that this depends on. -/
def Needs (g : Graph) : Bytes → Bytes → Prop := Relation.ReflTransGen g.Dep

theorem needs_iff : g.Needs n d ↔ d = n ∨ ∃ m ∈ g.deps n, g.Needs m d := by
  rw [Needs, Relation.ReflTransGen.cases_head_iff]
  exact or_congr_left eq_comm

theorem Needs.mem (h : g.Needs n d) (hn : n ∈ g.names) : d ∈ g.names := by
  induction h with
  | refl => exact hn
  | tail _ hd ih => exact g.deps_mem _ ih _ hd

theorem acyclic_of_rank {deps : Bytes → List Bytes} (rank : Bytes → Nat)
    (h : ∀ n, ∀ d ∈ deps n, rank d < rank n) (n : Bytes) :
    ¬ Relation.TransGen (fun n d => d ∈ deps n) n n := by
  have hlt {a b : Bytes} (hab : Relation.TransGen (fun n d => d ∈ deps n) a b) : rank b < rank a := by
    induction hab with
    | single hd => exact h _ _ hd
    | tail _ hd ih => exact Nat.lt_trans (h _ _ hd) ih
  exact fun hn => Nat.lt_irrefl _ (hlt hn)

/-! ## Runs that ask -/

/-- A call of neither `require` nor a function of the graph. -/
structure Foreign (g : Graph) (p : Parts) (x : Call) : Prop where
  require : x.fn ≠ .fn p.require
  loader : ∀ n ∈ g.names, x.fn ≠ .fn (g.loader n)

end Graph

/-- The values are about to be returned. -/
inductive Lua.Control.Returns : Control → List Value → Store → Prop where
  | values (vs : List Value) (s : Store) : Returns (.ret vs s) vs s
  | action (vs : List Value) (s : Store) : Returns (.act (.ret vs s)) vs s

theorem Lua.Control.Returns.calls {b : Surroundings} {c : Control} {e : Exec} {vs : List Value} {site : Site}
    {next : List Value → Store → Action} {d : Depth} {frames : List Frame} (h : c.Returns vs s)
    (he : e.frames = .call site next d :: frames) :
    Exec.Calls b c e [] (.act (next vs s)) { e with frames, depth := d } := by
  cases h with
  | values => exact .single fun _ => congrArg some (Exec.ret_call he)
  | action => exact .single fun _ => congrArg some (Exec.ret_call he)

namespace Graph

open Exec Require

variable {g : Graph} {b : Surroundings} {c c' : Control} {e e' e₀ : Exec} {s₀ : Store} {ds : List Bytes}
variable {log : List Call}

/-- From here the run asks for these modules, one after the other, and then returns a new table. The call
that it belongs to was made in `e₀` with store `s₀`. -/
inductive Asks (g : Graph) (p : Parts) (b : Surroundings) (e₀ : Exec) (s₀ : Store) :
    List Bytes → Store → Control → Exec → Prop where
  | answer {s s' : Store} {c c' : Control} {e : Exec} {log : List Call} {depth : Depth} {vs : List Value}
      {id : Nat} (run : Calls b c e log c' { e₀ with depth }) (foreign : ∀ x ∈ log, g.Foreign p x)
      (only : OnlyLoads p s₀ s') (loaded : s'.table p.modules.loaded = s.table p.modules.loaded)
      (returns : c'.Returns vs s') (first : Value.first vs = .table id) (fresh : s₀.tables.size ≤ id) :
      Asks g p b e₀ s₀ [] s c e
  | ask {d : Bytes} {ds : List Bytes} {s s' : Store} {c : Control} {e e' : Exec} {log : List Call}
      {rest : List Value} (run : Calls b c e log (.apply (.fn p.require) (.str d :: rest) s') e')
      (foreign : ∀ x ∈ log, g.Foreign p x) (only : OnlyLoads p s₀ s')
      (loaded : s'.table p.modules.loaded = s.table p.modules.loaded)
      (natives : e'.depth.natives = e₀.depth.natives)
      (slots : (within e' (.str d :: rest)).depth.slots ≤ e₀.depth.slots + g.room)
      (next : ∀ id s'', OnlyLoads p s' s'' →
        Asks g p b e₀ s₀ ds s'' (.act (.ret [.table id] s'')) (within e' (.str d :: rest))) :
      Asks g p b e₀ s₀ (d :: ds) s c e

/-- The function for a name asks for those that the name depends on. -/
def Asking (g : Graph) (p : Parts) (n : Bytes) (s : Store) : Prop :=
  ∀ b e, e.depth.natives ≠ maxNatives → e.depth.slots + g.room ≤ maxSlots → ∃ c e',
    (∀ caller, e.step caller b (.apply (.fn (g.loader n)) [.str n, .nil] s) = some (.next c e')) ∧
    g.Asks p b e s (g.deps n) s c e'

theorem Asks.before (h : g.Asks p b e₀ s₀ ds s c' e') (run : Calls b c e [] c' e') :
    g.Asks p b e₀ s₀ ds s c e := by
  cases h with
  | answer run' foreign only loaded returns first fresh =>
    exact .answer (run.trans run') foreign only loaded returns first fresh
  | ask run' foreign only loaded natives slots next =>
    exact .ask (run.trans run') foreign only loaded natives slots next

/-! ## Functions written in the obvious way -/

def requiring (line : Nat) (d : Bytes) : Stat :=
  .call (.call (.index (.var ⟨0, "_ENV", true⟩) (.str "require") line) [.str d] line)

/-- `function() require 'a' require 'b' return {} end` -/
def importer (line slots : Nat) (ds : List Bytes) : Func :=
  .mk 0 false (.mk (ds.map (requiring line) ++ [.ret [.table [] line]]) []) line slots

theorem stats_requiring {env : Env} {v : Value} {s : Store}
    (h : s.access (Eval.readVar env ⟨0, "_ENV", true⟩ s) (.str ("require" : Bytes)) = .value v)
    (line : Nat) (d : Bytes) (rest : List Stat) (k : Eval.Next) :
    Eval.stats env (requiring line d :: rest) k s =
      .call v [.str d] ⟨some (env.chunk, line), some (.global, "require")⟩
        (fun _ s => Eval.stats env rest k s) s := by
  simp only [requiring, Eval.stats, Eval.stat, Eval.exprs, Eval.results, Eval.expr, Eval.index]
  rw [h]
  rfl

theorem stats_returning (env : Env) (line : Nat) (k : Eval.Next) (s : Store) :
    Eval.stats env [.ret [.table [] line]] k s = .ret [.table s.tables.size] s.newTable.2 := by
  simp only [Eval.stats, Eval.stat, Eval.exprs, Eval.results, Eval.fields]
  rfl

/-- The global variables hold `require`, under the variable that a function refers to them by. -/
structure Sees (p : Parts) (cell : Nat) (s : Store) : Prop where
  environment : s.cell cell = .table p.box.globals
  require : s.rawGet p.box.globals (.str "require") = .fn p.require
  apart : p.box.globals ≠ p.modules.loaded
  memory : s.memoryLimit = none

theorem Sees.only {cell : Nat} (h : Sees p cell s) (ho : OnlyLoads p s s') : Sees p cell s' where
  environment := (ho.cells _ (s.lt_of_cell (by rw [h.environment]; nofun))).trans h.environment
  require := (ho.rawGet h.apart (by rw [h.require]; nofun)).trans h.require
  apart := h.apart
  memory := ho.memoryLimit.trans h.memory

theorem asks_stats {chunk : Bytes} {line cell : Nat} {k : Eval.Next} (b : Surroundings) (e₀ : Exec)
    (d : Depth) (hn : d.natives = e₀.depth.natives) (hs : d.slots + 10 ≤ e₀.depth.slots + g.room) :
    ∀ (ds : List Bytes) {s : Store}, Sees p cell s → OnlyLoads p s₀ s →
      g.Asks p b e₀ s₀ ds s
        (.act (Eval.stats ⟨chunk, [cell], []⟩ (ds.map (requiring line) ++ [.ret [.table [] line]]) k s))
        { e₀ with depth := d }
  | [], s, _, only => by
    have hnew : s.newTable.2.table p.modules.loaded = s.table p.modules.loaded := by
      rw [s.table_newTable]
      split
      · next h => rw [s.table_of_le (Nat.le_of_eq h.symm)]
      · rfl
    rw [List.map_nil, List.nil_append, stats_returning]
    exact .answer (.refl ..) (List.forall_mem_nil _) (only.trans (.newTable p s)) hnew (.action ..) rfl
      only.tables_size
  | m :: ds, s, sees, only => by
    -- After each `require` the function finds `require` where it was: only modules have been recorded.
    have haccess : s.access (Eval.readVar ⟨chunk, [cell], []⟩ ⟨0, "_ENV", true⟩ s)
        (.str ("require" : Bytes)) = .value (.fn p.require) := by
      show s.access (s.cell cell) _ = _
      rw [sees.environment, Store.access_of_raw (by rw [sees.require]; rfl), sees.require]
    have hmemory : s.exhausted (slotBytes * d.slots) = false := by
      rw [Store.exhausted, sees.memory]
    rw [List.map_cons, List.cons_append, stats_requiring haccess]
    refine .ask (.single (step_call rfl hmemory)) (List.forall_mem_nil _) only rfl hn hs fun id s'' ho => ?_
    have hrest : g.Asks p b e₀ s₀ ds s''
        (.act (Eval.stats ⟨chunk, [cell], []⟩ (ds.map (requiring line) ++ [.ret [.table [] line]]) k s''))
        { e₀ with depth := d } := asks_stats b e₀ d hn hs ds (sees.only ho) (only.trans ho)
    exact hrest.before (.single fun _ => rfl)

/-- A function written like this asks for the modules that it names. -/
theorem asking_importer {n chunk : Bytes} {line slots cell : Nat} (sees : Sees p cell s)
    (hf : s.function? (g.loader n) = some (.closure chunk (importer line slots (g.deps n)) [cell]))
    (hroom : slots + 10 ≤ g.room) : g.Asking p n s := by
  intro b e hn hs
  have hslots : (e.inside (importer line slots (g.deps n)) [.str n, .nil]).depth.slots =
      e.depth.slots + slots := rfl
  refine ⟨_, _, step_apply hf hn (by omega), ?_⟩
  have hs' : (e.inside (importer line slots (g.deps n)) [.str n, .nil]).depth.slots + 10 ≤
      e.depth.slots + g.room := by omega
  exact asks_stats b e (e.inside (importer line slots (g.deps n)) [.str n, .nil]).depth rfl hs' (g.deps n)
    sees (.refl p s)

end Graph

end Cordon
