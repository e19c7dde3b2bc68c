import Cordon.Proofs.Lua.Leads
import Cordon.Proofs.Sandbox.Administration

/-!
# Calls of the admin module

Privileged programs give the functions of the admin module any arguments. `require`, `allow` and `remove`
first make names of them, with a complaint about the first one of which none is made, and are then the
methods of the host. `permitted` lists the allow-list in the order in which it is kept.
-/

namespace Cordon

open Lua

/-! ## Arguments as names -/

namespace Lua.Value

/-- The argument is taken for this name: it is its text, or a number with this text. -/
inductive Named : Option Value → String → Prop where
  | text {b : Bytes} {name : String} (h : b = Bytes.ofString name) : Named (some (.str b)) name
  | int (i : Int64) : Named (some (.int i)) (intText i)
  | float (x : Double) : Named (some (.float x)) (Decimal.text x)

/-- The argument is taken for no name, with this complaint. -/
inductive Nameless : Option Value → String → Prop where
  | absent : Nameless none "string expected, got no value"
  | type {v : Value} (string : v.typeName ≠ "string") (number : v.typeName ≠ "number") :
      Nameless (some v) ("string expected, got " ++ v.hostTypeName)
  | illFormed {b : Bytes} (h : ∀ name, b ≠ Bytes.ofString name) :
      Nameless (some (.str b)) "name is not valid UTF-8"

variable {v : Option Value} {name name' message message' : String}

theorem named_or_nameless (v : Option Value) : (∃ name, Named v name) ∨ ∃ message, Nameless v message := by
  cases v with
  | none => exact .inr ⟨_, .absent⟩
  | some v =>
    cases v with
    | str b =>
      by_cases h : ∃ name, b = Bytes.ofString name
      · exact .inl (h.imp fun _ => .text)
      · exact .inr ⟨_, .illFormed (not_exists.mp h)⟩
    | int i => exact .inl ⟨_, .int i⟩
    | float x => exact .inl ⟨_, .float x⟩
    | _ => exact .inr ⟨_, .type (by simp [typeName]) (by simp [typeName])⟩

theorem Named.unique (h : Named v name) (h' : Named v name') : name = name' := by
  cases h with
  | text h =>
    cases h' with
    | text h' => exact Bytes.ofString_inj.mp (h.symm.trans h')
  | int i =>
    cases h'
    rfl
  | float x =>
    cases h'
    rfl

theorem Named.not_nameless (h : Named v name) : ¬ Nameless v message := by
  intro h'
  cases h with
  | text h =>
    cases h' with
    | type string => exact string rfl
    | illFormed h' => exact h' _ h
  | int i | float x =>
    cases h' with
    | type _ number => exact number rfl

theorem Nameless.unique (h : Nameless v message) (h' : Nameless v message') : message = message' := by
  cases h with
  | absent =>
    cases h'
    rfl
  | type string =>
    cases h' with
    | type => rfl
    | illFormed => exact absurd rfl string
  | illFormed =>
    cases h' with
    | type string => exact absurd rfl string
    | illFormed => rfl

end Lua.Value

namespace Lua.GateFn

variable {function name message : String} {args : List Value} {n : Nat}

theorem checkName_of_named (h : Value.Named args[n - 1]? name) :
    checkName function args n = pure name := by
  have htext (name : String) : (Bytes.ofString name).text? = some name := Bytes.text?_eq_some.mpr rfl
  rw [checkName, checkString]
  generalize args[n - 1]? = v at h
  cases h with
  | text h => simp only [Value.text?, pure_bind, h, htext]
  | int i => simp only [Value.text?, pure_bind, htext]
  | float x => simp only [Value.text?, pure_bind, htext]

theorem checkName_of_nameless (h : Value.Nameless args[n - 1]? message) :
    checkName function args n = Host.fail (.argument function n message) := by
  rw [checkName, checkString]
  generalize args[n - 1]? = v at h
  cases h with
  | absent => rfl
  | @type v string number =>
    have hnone : v.text? = none := by
      cases v with
      | str b => exact absurd rfl string
      | int i => exact absurd rfl number
      | float x => exact absurd rfl number
      | _ => rfl
    simp only [hnone]
    rfl
  | @illFormed b h =>
    have hnone : b.text? = none :=
      Option.eq_none_iff_forall_ne_some.mpr fun name hb => h name (Bytes.text?_eq_some.mp hb)
    simp only [Value.text?, pure_bind, hnone]

end Lua.GateFn

/-! ## The functions -/

/-- The functions of the admin module that do what a method does. -/
inductive AdminFunction where
  | require | allow | remove

namespace AdminFunction

def name : AdminFunction → String
  | require => "require"
  | allow => "allow"
  | remove => "remove"

def gate (b : Sandbox) : AdminFunction → GateFn
  | require => .adminRequire b
  | allow => .adminAllow b
  | remove => .adminRemove b

/-- Whether the sandbox may know the module by a name of its own, the second argument. -/
def renames : AdminFunction → Bool
  | remove => false
  | _ => true

def method (b : Sandbox) (module : String) (exposed : Option String) : AdminFunction → Host Unit
  | require => b.require module exposed
  | allow => b.allow module exposed
  | remove => b.remove module

/-- The names that the arguments are taken for, or the position of the first one that is taken for none
and the complaint about it. Arguments that follow are of no account. -/
inductive Decodes (f : AdminFunction) (args : List Value) :
    Except (Nat × String) (String × Option String) → Prop where
  | first {message : String} (module : Value.Nameless args[0]? message) :
      Decodes f args (.error (1, message))
  | second {name message : String} (module : Value.Named args[0]? name) (renames : f.renames = true)
      (given : args.getD 1 .nil ≠ .nil) (other : Value.Nameless args[1]? message) :
      Decodes f args (.error (2, message))
  | own {name : String} (module : Value.Named args[0]? name)
      (own : f.renames = true → args.getD 1 .nil = .nil) : Decodes f args (.ok (name, none))
  | renamed {name exposed : String} (module : Value.Named args[0]? name) (renames : f.renames = true)
      (other : Value.Named args[1]? exposed) : Decodes f args (.ok (name, some exposed))

variable {f : AdminFunction} {b : Sandbox} {args : List Value}
  {d d' : Except (Nat × String) (String × Option String)}

theorem named_given {exposed : String} (h : Value.Named args[1]? exposed) :
    args.getD 1 .nil ≠ .nil := by
  rw [List.getD_eq_getElem?_getD]
  generalize args[1]? = v at h
  cases h <;> exact nofun

theorem exists_decodes (f : AdminFunction) (args : List Value) : ∃ d, f.Decodes args d := by
  obtain ⟨name, hmodule⟩ | ⟨message, hmodule⟩ := Value.named_or_nameless args[0]?
  · by_cases hown : f.renames = true → args.getD 1 .nil = .nil
    · exact ⟨_, .own hmodule hown⟩
    · obtain ⟨hrenames, hgiven⟩ := Classical.not_imp.mp hown
      obtain ⟨exposed, h⟩ | ⟨message, h⟩ := Value.named_or_nameless args[1]?
      · exact ⟨_, .renamed hmodule hrenames h⟩
      · exact ⟨_, .second hmodule hrenames hgiven h⟩
  · exact ⟨_, .first hmodule⟩

theorem Decodes.unique (h : f.Decodes args d) (h' : f.Decodes args d') : d = d' := by
  cases h with
  | first hmodule =>
    cases h' with
    | first hmodule' => rw [hmodule.unique hmodule']
    | second hmodule' | own hmodule' | renamed hmodule' => exact absurd hmodule hmodule'.not_nameless
  | second hmodule hrenames hgiven hexposed =>
    cases h' with
    | first hmodule' => exact absurd hmodule' hmodule.not_nameless
    | second _ _ _ hexposed' => rw [hexposed.unique hexposed']
    | own _ hown => exact absurd (hown hrenames) hgiven
    | renamed _ _ hexposed' => exact absurd hexposed hexposed'.not_nameless
  | own hmodule hown =>
    cases h' with
    | first hmodule' => exact absurd hmodule' hmodule.not_nameless
    | second _ hrenames hgiven => exact absurd (hown hrenames) hgiven
    | own hmodule' => rw [hmodule.unique hmodule']
    | renamed _ hrenames hexposed => exact absurd (hown hrenames) (named_given hexposed)
  | renamed hmodule hrenames hexposed =>
    cases h' with
    | first hmodule' => exact absurd hmodule' hmodule.not_nameless
    | second _ _ _ hexposed' => exact absurd hexposed' hexposed.not_nameless
    | own _ hown => exact absurd (hown hrenames) (named_given hexposed)
    | renamed hmodule' _ hexposed' => rw [hmodule.unique hmodule', hexposed.unique hexposed']

/-! ## Reading the arguments -/

def readOther (f : AdminFunction) (args : List Value) : Host (Option String) :=
  if f.renames then GateFn.optName f.name args 2 else pure none

def read (f : AdminFunction) (args : List Value) : Host (String × Option String) := do
  let module ← GateFn.checkName f.name args 1
  let exposed ← f.readOther args
  return (module, exposed)

theorem run_gate (f : AdminFunction) (b : Sandbox) (args : List Value) : (f.gate b).run args = (do
    let (module, exposed) ← f.read args
    f.method b module exposed
    return []) := by
  cases f <;>
    simp only [gate, GateFn.run, GateFn.runAdminRequire, GateFn.runAdminAllow, GateFn.runAdminRemove,
      read, readOther, name, renames, method, bind_assoc, pure_bind, if_true, Bool.false_eq_true,
      if_false]

theorem readOther_own (hown : f.renames = true → args.getD 1 .nil = .nil) :
    f.readOther args = pure none := by
  rw [readOther]
  split
  · next hrenames =>
    have hnil := hown hrenames
    rw [List.getD_eq_getElem?_getD] at hnil
    -- An argument that is there and one that is absent are told apart here only.
    cases hv : args[1]? with
    | none => rw [GateFn.optName, hv]
    | some v =>
      rw [hv] at hnil
      cases hnil
      rw [GateFn.optName, hv]
  · rfl

theorem readOther_given (hrenames : f.renames = true) (hgiven : args.getD 1 .nil ≠ .nil) :
    f.readOther args = (do return some (← GateFn.checkName f.name args 2)) := by
  rw [List.getD_eq_getElem?_getD] at hgiven
  rw [readOther, if_pos hrenames]
  cases hv : args[1]? with
  | none => exact absurd (by rw [hv]; rfl) hgiven
  | some v =>
    rw [hv] at hgiven
    rw [GateFn.optName, hv]
    cases v with
    | nil => exact absurd rfl hgiven
    | _ => rfl

theorem Decodes.read_ok {names : String × Option String} (h : f.Decodes args (.ok names)) :
    f.read args = pure names := by
  rw [read]
  cases h with
  | own hmodule hown =>
    rw [GateFn.checkName_of_named (n := 1) hmodule, pure_bind, readOther_own hown, pure_bind]
  | renamed hmodule hrenames hother =>
    rw [GateFn.checkName_of_named (n := 1) hmodule, pure_bind,
      readOther_given hrenames (named_given hother), GateFn.checkName_of_named (n := 2) hother, pure_bind,
      pure_bind]

theorem Decodes.read_error {n : Nat} {message : String} (h : f.Decodes args (.error (n, message))) :
    f.read args = Host.fail (.argument f.name n message) := by
  rw [read]
  cases h with
  | first hmodule =>
    rw [GateFn.checkName_of_nameless (n := 1) hmodule]
    rfl
  | second hmodule hrenames hgiven hother =>
    rw [GateFn.checkName_of_named (n := 1) hmodule, pure_bind, readOther_given hrenames hgiven,
      GateFn.checkName_of_nameless (n := 2) hother]
    rfl

/-! ## The methods -/

/-- A failure that is none of the code's own: it comes from the engine. -/
def FromEngine {α : Type} : Except Failure α → Prop
  | .ok _ => True
  | .error e => e.kind = .script

theorem privilegedRequire_fromEngine (module : String) : (privilegedRequire module).Ends FromEngine := by
  have hfield (object : Value) (name : String) : (Host.functionField object name).Ends FromEngine := by
    refine .bind (.ofScript (fun v => ?_) fun _ => rfl)
    cases v with
    | fn id => exact .pure trivial
    | _ => exact .fail rfl
  refine .bind (.read fun g => .bind ?_)
  intro ctx m r m' h
  have hr := hfield g "require" ctx m r m' h
  cases r with
  | ok require => exact .bind (.call (fun _ => .pure trivial) fun _ => rfl)
  | error e => exact hr

theorem method_fromEngine (f : AdminFunction) (b : Sandbox) (module : String) (exposed : Option String) :
    (f.method b module exposed).Ends FromEngine := by
  have hafter {p : Value → Host Unit} (hp : ∀ v, (p v).Ends FromEngine) :
      (privilegedRequire module >>= p).Ends FromEngine := by
    refine .bind fun ctx m r m' h => ?_
    have hr := privilegedRequire_fromEngine module ctx m r m' h
    cases r with
    | ok v => exact hp v
    | error e => exact hr
  cases f with
  | require => exact hafter fun _ => .bind (.update _ (.update _ trivial))
  | allow => exact hafter fun _ => .update _ trivial
  | remove => exact .update _ trivial

/-! ## Calls -/

theorem Decodes.refused {n : Nat} {message : String} (h : f.Decodes args (.error (n, message)))
    (b : Sandbox) : (f.gate b).run args = Host.fail (.argument f.name n message) := by
  rw [run_gate, h.read_error]
  rfl

theorem Decodes.carriedOut {module : String} {exposed : Option String}
    (h : f.Decodes args (.ok (module, exposed))) (b : Sandbox) :
    (f.gate b).run args = (do
      f.method b module exposed
      return []) := by
  rw [run_gate, h.read_ok, pure_bind]

theorem complains_iff {ctx : Ctx} {m m' : Machine} {function message : String} {n : Nat} :
    ((f.gate b).run args).run ctx m = some (.error (.argument function n message), m') ↔
      function = f.name ∧ m' = m ∧ f.Decodes args (.error (n, message)) := by
  constructor
  · intro hrun
    obtain ⟨d, hd⟩ := f.exists_decodes args
    cases d with
    | error e =>
      rw [hd.refused b] at hrun
      cases hrun
      exact ⟨rfl, rfl, hd⟩
    | ok names =>
      -- What the method fails with is a failure of the engine, so it is no complaint.
      rw [hd.carriedOut b] at hrun
      rcases Host.of_bind hrun with ⟨_, m₁, _, hnothing⟩ | ⟨e, hmethod, he⟩
      · cases hnothing
      · cases he
        cases f.method_fromEngine b names.1 names.2 _ _ _ _ hmethod
  · rintro ⟨rfl, rfl, hd⟩
    rw [hd.refused b]
    rfl

/-- What a function of the admin module is to the method of the host, with these arguments. -/
structure Wraps (f : AdminFunction) (b : Sandbox) (args : List Value) : Prop where
  /-- The arguments are taken for names in one way, or refused in one way. -/
  decodes : ∃ d, f.Decodes args d ∧ ∀ d', f.Decodes args d' → d' = d
  complains (ctx : Ctx) (m : Machine) (function : String) (n : Nat) (message : String) (m' : Machine) :
    ((f.gate b).run args).run ctx m = some (.error (.argument function n message), m') ↔
      function = f.name ∧ m' = m ∧ f.Decodes args (.error (n, message))
  /-- The complaint is raised as an error object, and nothing else has happened. -/
  raises (n : Nat) (message : String) (refused : f.Decodes args (.error (n, message))) (ctx : Ctx)
    (m : Machine) :
    ((Native.gate (f.gate b)).run args).run ctx m = some (.error (.fault m.store.faults.size),
        { m with store := (m.store.newFault
          (.callback tracebackText (.host (.argument f.name n message)))).2 })
  carriesOut (module : String) (exposed : Option String) (taken : f.Decodes args (.ok (module, exposed))) :
    (f.gate b).run args = (do
      f.method b module exposed
      return [])
  /-- Without a name for the sandbox the module has its own there. -/
  ownName (module : String) : f.method b module none = f.method b module (some module)

theorem wraps (f : AdminFunction) (b : Sandbox) (args : List Value) : f.Wraps b args where
  decodes := (f.exists_decodes args).imp fun _ hd => ⟨hd, fun _ hd' => hd'.unique hd⟩
  complains _ _ _ _ _ _ := complains_iff
  raises _ _ refused ctx m := Native.run_gate_error ctx m (by rw [refused.refused b]; rfl)
  carriesOut _ _ taken := taken.carriedOut b
  ownName _ := by cases f <;> rfl

end AdminFunction

/-! ## The list of names -/

/-- The names that are allowed are listed in a new table, ascending by their bytes. -/
structure Sandbox.Lists (b : Sandbox) (m : Machine) (names : List String)
    (r : Option (Except Failure (List Value) × Machine)) : Prop where
  listed : r = some (.ok [.table m.store.tables.size],
    { m with store := (m.store.newTable (.ofItems (names.map Value.ofString))).2 })
  ascending : names.Pairwise fun x y => (Bytes.ofString x).toList < (Bytes.ofString y).toList
  allowed (name : String) : name ∈ names ↔ (m.store.permit b.modules.permit).contains name = true

theorem Sandbox.permitted_lists (b : Sandbox) (args : List Value) (ctx : Ctx) (m : Machine) :
    b.Lists m (m.store.permit b.modules.permit).names
      (((GateFn.adminPermitted b).run args).run ctx m) where
  listed := rfl
  ascending := AllowList.names_ascending _
  allowed _ := AllowList.mem_names

/-! ## The module -/

/-- The host gets a module with these functions. `require`, `allow` and `remove` are the methods of the host
behind a decoder: any arguments are refused, and then nothing was done, or are taken for names with which the
method is called. Whatever was done before by functions and methods, `permitted` lists the names that are
allowed then, ascending by their bytes. -/
theorem Sandbox.admin_functions_wrap_methods (b : Sandbox) (f : AdminFunction) (args : List Value) :
    (∀ ctx m name, ∃ s : Store,
      (b.installAdmin name).run ctx m = (do
          registerModule name (.table m.store.tables.size)
          return m.store.tables.size : Host Nat).run ctx ⟨s, m.threads⟩ ∧
        s.Offers m.store.tables.size f.name (f.gate b) ∧
        s.Offers m.store.tables.size "permitted" (.adminPermitted b)) ∧
      f.Wraps b args ∧
      ∀ ctx m, ∃ names, b.Lists m names (((GateFn.adminPermitted b).run args).run ctx m) := by
  refine ⟨fun ctx m name => ?_, f.wraps b args, fun ctx m => ⟨_, b.permitted_lists args ctx m⟩⟩
  refine ⟨b.administered m.store, b.installAdmin_eq ctx m name, ?_, ?_⟩
  · have hmem : (f.name, f.gate b) ∈ b.adminFunctions := by
      cases f <;> simp [Sandbox.adminFunctions, AdminFunction.name, AdminFunction.gate]
    exact b.administered_offers m.store hmem
  · have hmem : ("permitted", .adminPermitted b) ∈ b.adminFunctions := by
      simp [Sandbox.adminFunctions]
    exact b.administered_offers m.store hmem

/-- The number 5 is the name of a module, and `false` is the name of none. -/
theorem Sandbox.admin_functions_wrap_methods_number :
    (AdminFunction.allow.gate default).run [.int 5, .nil, .bool true] = (do
      (default : Sandbox).allow "5" none
      return []) ∧
    ((AdminFunction.allow.gate default).run [.int 5, .bool false]).run (lookingUp 3) ⟨{}, #[]⟩ =
      some (.error (.argument "allow" 2 "string expected, got boolean"), ⟨{}, #[]⟩) := by
  have hwraps (args : List Value) := (admin_functions_wrap_methods default .allow args).2.1
  have hfive : Value.Named (some (.int 5)) "5" := .int 5
  have hfalse : Value.Nameless (some (.bool false)) "string expected, got boolean" :=
    .type (by decide) (by decide)
  exact ⟨(hwraps _).carriesOut "5" none (.own hfive fun _ => rfl),
    ((hwraps _).complains _ _ _ _ _ _).mpr ⟨rfl, rfl, .second hfive rfl nofun hfalse⟩⟩

end Cordon
