import Cordon.Proofs.AllowList
import Cordon.Proofs.Lua.Running
import Cordon.Sandbox.Modules

/-!
# How a module is found

`Ready` says that the tables of a module system are in order. Then the outcome of looking for a module
is decided by three entries: the record, the preloaded function, and the permit. None of the
accesses calls a program, so the outcome is the same whatever the code around it.
-/

namespace Cordon

open Lua

/-- True stands for the value of a module that gave none. -/
def settled (v : Value) : Value := if v.isNil then .bool true else v

theorem settled_ne_nil (v : Value) : settled v ≠ .nil := by
  cases v <;> exact nofun

theorem cached?_eq (s : Store) (loaded : Nat) (n : Bytes) : s.cached? loaded (.str n) =
    if (s.rawGet loaded (.str n)).truthy then some (s.rawGet loaded (.str n)) else none := rfl

namespace ModuleSystem

/-- The tables of a module system are in order: `preload` is the table of preloaded functions, and it
has no metatable. -/
structure Ready (m : ModuleSystem) (preload : Nat) (s : Store) : Prop where
  loaded_lt : m.loaded < s.tables.size
  preload_lt : preload < s.tables.size
  permit_lt : m.permit < s.permits.size
  held : s.rawGet m.package (.str ("preload" : Bytes)) = .table preload
  plain : (s.table preload).metatable = none

variable {m : ModuleSystem} {preload : Nat} {s : Store} {n : Bytes}
variable (ctx : Ctx) (threads : Array Thread)

theorem searchPreload_run (h : m.Ready preload s) :
    (m.searchPreload n).run ctx ⟨s, threads⟩ =
      match s.rawGet preload (.str n) with
      | .nil => some (.ok (.notFound ("\n\tno field package.preload['" ++ n.lossy ++ "']")), ⟨s, threads⟩)
      | .fn id => some (.ok (.found (.pending (.fn id) .nil)), ⟨s, threads⟩)
      | v => some (.error (.searcherContract ("package.preload['" ++ n.lossy ++ "'] is a " ++
          v.hostTypeName ++ ", not a loader function")), ⟨s, threads⟩) := by
  have hp : s.access (.table m.package) (.str ("preload" : Bytes)) = .value (.table preload) := by
    rw [Store.access_of_raw (by rw [h.held]; rfl), h.held]
  rw [searchPreload, Host.run_bind, Host.field_of_value ctx ⟨s, threads⟩ hp]
  simp only
  rw [Host.run_bind, Host.ofScript_of_ok ctx _
    (Script.index_of_value _ ⟨s, threads⟩ (Store.access_of_plain n h.plain))]
  simp only
  generalize s.rawGet preload (.str n) = v
  cases v <;> rfl

theorem searchList_of_get? {l : AllowList Value} {name : String} {v : Value}
    (h : l.get? name = some v) : searchList l (Bytes.ofString name) = .found (.resolved v) := by
  rw [searchList, Bytes.text?_eq_some.mpr rfl, Option.bind_some, h]

theorem searchList_missing {l : AllowList Value}
    (h : ∀ name, n = Bytes.ofString name → l.get? name = none) :
    searchList l n = .notFound ("\n\tno module '" ++ n.lossy ++ "' in list of allowed modules") := by
  rw [searchList]
  cases hn : n.text? with
  | none => rfl
  | some name => rw [Option.bind_some, h name (Bytes.text?_eq_some.mp hn)]

/-! ## The search as a whole -/

theorem find_run (h : m.Ready preload s) :
    (m.find n).run ctx ⟨s, threads⟩ =
      match s.rawGet preload (.str n) with
      | .nil =>
        match searchList (s.permit m.permit) n with
        | .found l => some (.ok l, ⟨s, threads⟩)
        | .notFound why => some (.error (.moduleNotFound n.lossy
            ("\n\tno field package.preload['" ++ n.lossy ++ "']" ++ why)), ⟨s, threads⟩)
      | .fn id => some (.ok (.pending (.fn id) .nil), ⟨s, threads⟩)
      | v => some (.error (.searcherContract ("package.preload['" ++ n.lossy ++ "'] is a " ++
          v.hostTypeName ++ ", not a loader function")), ⟨s, threads⟩) := by
  rw [find, Host.run_bind, searchPreload_run ctx threads h]
  generalize s.rawGet preload (.str n) = v
  cases v
  case nil =>
    simp only [searchAllowed, Host.run_bind, Host.run_read]
    cases searchList (s.permit m.permit) n <;> rfl
  all_goals rfl

/-- The store once a module's value was recorded. -/
def stored (m : ModuleSystem) (s : Store) (n : Bytes) (v : Value) : Store :=
  (s.record m.loaded (.str n) v).report (.resolved n.lossy)

theorem rawGet_stored (hl : m.loaded < s.tables.size) (v : Value) :
    (m.stored s n v).rawGet m.loaded (.str n) = v := by
  show (s.rawSetStr m.loaded n v).rawGet m.loaded (.str n) = v
  rw [s.rawGet_rawSetStr_self hl, if_pos rfl]

theorem rawGet_stored_of_ne (hl : m.loaded < s.tables.size) {k : Key} (hk : k ≠ .str n) (v : Value) :
    (m.stored s n v).rawGet m.loaded k = s.rawGet m.loaded k := by
  show ((s.rawSet m.loaded (.str n) v).table m.loaded).get k = _
  rw [s.table_rawSet, if_pos ⟨rfl, hl⟩, Table.get_set_str, if_neg hk.symm, Store.rawGet]

/-! ## The four outcomes -/

theorem resolve_cached {v : Value} (hc : s.cached? m.loaded (.str n) = some v) :
    (m.resolve n).run ctx ⟨s, threads⟩ =
      some (.ok (.ready v), ⟨s.report (.cacheHit n.lossy), threads⟩) := by
  rw [resolve, Host.run_bind, Host.run_read]
  simp only [hc]
  rfl

theorem resolve_uncached (hc : s.cached? m.loaded (.str n) = none) :
    (m.resolve n).run ctx ⟨s, threads⟩ =
      match (m.find n).run ctx ⟨s, threads⟩ with
      | some (.ok (.resolved v), m') =>
        some (.ok (.ready (settled v)), ⟨m.stored m'.store n (settled v), m'.threads⟩)
      | some (.ok (.pending fn extra), m') => some (.ok (.pending fn extra), m')
      | some (.error e, m') => some (.error e, m')
      | none => none := by
  rw [resolve, Host.run_bind, Host.run_read]
  simp only [hc, Host.run_bind]
  cases (m.find n).run ctx ⟨s, threads⟩ with
  | none => rfl
  | some r =>
    obtain ⟨r, m'⟩ := r
    cases r with
    | error e => rfl
    | ok l => cases l <;> rfl

theorem resolve_preload (h : m.Ready preload s) (hc : s.cached? m.loaded (.str n) = none)
    {f : Nat} (hp : s.rawGet preload (.str n) = .fn f) :
    (m.resolve n).run ctx ⟨s, threads⟩ = some (.ok (.pending (.fn f) .nil), ⟨s, threads⟩) := by
  rw [resolve_uncached ctx threads hc, find_run ctx threads h, hp]

theorem resolve_allowed (h : m.Ready preload s) (hc : s.cached? m.loaded (.str n) = none)
    (hp : s.rawGet preload (.str n) = .nil) {name : String} (hn : n = Bytes.ofString name)
    {v : Value} (ha : (s.permit m.permit).get? name = some v) :
    (m.resolve n).run ctx ⟨s, threads⟩ =
      some (.ok (.ready (settled v)), ⟨m.stored s n (settled v), threads⟩) := by
  rw [resolve_uncached ctx threads hc, find_run ctx threads h, hp]
  simp only [hn, searchList_of_get? ha]

/-- The complaint that no searcher found a name. -/
def notFound (n : Bytes) : Failure :=
  .moduleNotFound n.lossy ("\n\tno field package.preload['" ++ n.lossy ++ "']" ++
    ("\n\tno module '" ++ n.lossy ++ "' in list of allowed modules"))

theorem resolve_missing (h : m.Ready preload s) (hc : s.cached? m.loaded (.str n) = none)
    (hp : s.rawGet preload (.str n) = .nil)
    (ha : ∀ name, n = Bytes.ofString name → (s.permit m.permit).get? name = none) :
    (m.resolve n).run ctx ⟨s, threads⟩ = some (.error (notFound n), ⟨s, threads⟩) := by
  rw [resolve_uncached ctx threads hc, find_run ctx threads h, hp]
  simp only [searchList_missing ha]
  rfl

end ModuleSystem

end Cordon
