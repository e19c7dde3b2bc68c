import Cordon.Failure.Message
import Cordon.Lua.Interpreter
import Cordon.Proofs.Modules.Search

/-!
# What decides a search

Where no metatable takes part, the outcome of a search is decided by the value of `package.preload`, by
what that holds under the name, and by the allow-list. A name is allowed by its bytes alone; the text
shown for it, in which ill-formed parts are replaced, appears in messages only.
-/

namespace Cordon

open Lua

theorem Failure.message_moduleNotFound (name diagnostics : String) :
    (moduleNotFound name diagnostics).message = "module '" ++ name ++ "' not found:" ++ diagnostics :=
  rfl

namespace ModuleSystem

/-- Neither `package` nor the table of preloaded functions has a metatable. -/
structure Plain (m : ModuleSystem) (s : Store) : Prop where
  package : (s.table m.package).metatable = none
  preload : ∀ id, s.rawGet m.package (.str ("preload" : Bytes)) = .table id →
    (s.table id).metatable = none

/-- All that a search for a name looks at. -/
structure Contents where
  preload : Value
  /-- What `preload` holds under the name. -/
  entry : Value
  permits : AllowList Value

def contents (m : ModuleSystem) (s : Store) (n : Bytes) : Contents where
  preload := s.rawGet m.package (.str ("preload" : Bytes))
  entry :=
    match s.rawGet m.package (.str ("preload" : Bytes)) with
    | .table id => s.rawGet id (.str n)
    | _ => .nil
  permits := s.permit m.permit

/-- Which answer belongs to which contents. -/
inductive Decision (c : Contents) (n : Bytes) : Except Failure Loader → Prop where
  | noTable (h : ∀ id, c.preload ≠ .table id) : Decision c n (.error (.searcherContract
      ("package.preload must be a table, got " ++ c.preload.hostTypeName)))
  | noFunction {id : Nat} (h : c.preload = .table id) (hnil : c.entry ≠ .nil)
      (hfn : ∀ f, c.entry ≠ .fn f) : Decision c n (.error (.searcherContract
        ("package.preload['" ++ n.lossy ++ "'] is a " ++ c.entry.hostTypeName ++
          ", not a loader function")))
  | preloaded {id f : Nat} (h : c.preload = .table id) (hfn : c.entry = .fn f) :
      Decision c n (.ok (.pending (.fn f) .nil))
  | allowed {id : Nat} {name : String} {v : Value} (h : c.preload = .table id)
      (hnil : c.entry = .nil) (hname : n = Bytes.ofString name) (hv : c.permits.get? name = some v) :
      Decision c n (.ok (.resolved v))
  | missing {id : Nat} (h : c.preload = .table id) (hnil : c.entry = .nil)
      (hno : ∀ name, n = Bytes.ofString name → c.permits.get? name = none) :
      Decision c n (.error (notFound n))

variable {m m' : ModuleSystem} {s s' : Store} {n : Bytes} {c : Contents}

theorem Decision.unique {r r' : Except Failure Loader} (h : Decision c n r) (h' : Decision c n r') :
    r = r' := by
  cases h <;> cases h' <;> simp_all [Bytes.ofString_inj]

theorem searchList_cases (l : AllowList Value) (n : Bytes) :
    (∃ name v, n = Bytes.ofString name ∧ l.get? name = some v ∧
      searchList l n = .found (.resolved v)) ∨
    (∀ name, n = Bytes.ofString name → l.get? name = none) ∧
      searchList l n = .notFound ("\n\tno module '" ++ n.lossy ++ "' in list of allowed modules") := by
  by_cases h : ∃ name v, n = Bytes.ofString name ∧ l.get? name = some v
  · obtain ⟨name, v, rfl, hv⟩ := h
    exact .inl ⟨name, v, rfl, hv, searchList_of_get? hv⟩
  · have hno (name : String) (hn : n = Bytes.ofString name) : l.get? name = none := by
      cases hv : l.get? name with
      | none => rfl
      | some v => exact absurd ⟨name, v, hn, hv⟩ h
    exact .inr ⟨hno, searchList_missing hno⟩

/-- The searchers answer as the contents say, and do nothing else. -/
theorem find_decision (h : m.Plain s) (ctx : Ctx) (threads : Array Thread) :
    ∃ r, Decision (m.contents s n) n r ∧
      (m.find n).run ctx ⟨s, threads⟩ = some (r, ⟨s, threads⟩) := by
  rw [find, Host.run_bind, searchPreload, Host.run_bind,
    Host.field_of_value ctx ⟨s, threads⟩ (Store.access_of_plain _ h.package)]
  simp only
  cases hv : s.rawGet m.package (.str (Bytes.ofString "preload")) with
  | table id =>
    simp only [Host.run_bind]
    rw [Host.ofScript_of_ok ctx _ (Script.index_of_value _ ⟨s, threads⟩
      (Store.access_of_plain n (h.preload id hv)))]
    simp only
    have hc : m.contents s n = ⟨.table id, s.rawGet id (.str n), s.permit m.permit⟩ := by
      simp only [contents, hv]
    rw [hc]
    cases he : s.rawGet id (.str n) with
    | nil =>
      simp only [Host.run_pure, Host.run_bind, searchAllowed, Host.run_read]
      obtain ⟨name, v, hname, hget, hs⟩ | ⟨hno, hs⟩ := searchList_cases (s.permit m.permit) n
      · exact ⟨_, .allowed rfl rfl hname hget, by rw [hs]; rfl⟩
      · exact ⟨_, .missing rfl rfl hno, by rw [hs]; rfl⟩
    | fn f => exact ⟨_, .preloaded rfl rfl, rfl⟩
    | _ => exact ⟨_, .noFunction rfl (by simp) (by simp), rfl⟩
  | _ =>
    have hc : (m.contents s n).preload = _ := hv
    exact ⟨_, .noTable (by simp [hc]), by rw [hc]; rfl⟩

/-- A search is decided by its contents: it gives the answer that belongs to them, the same one wherever
they are the same, and changes nothing. -/
theorem find_decided (h : m.Plain s) (ctx : Ctx) (threads : Array Thread) :
    (∀ r, (m.find n).run ctx ⟨s, threads⟩ = some (r, ⟨s, threads⟩) ↔
      Decision (m.contents s n) n r) ∧
    (∀ (m' : ModuleSystem) (s' : Store) (ctx' : Ctx) (threads' : Array Thread), m'.Plain s' →
      m'.contents s' n = m.contents s n →
        ∃ r, (m.find n).run ctx ⟨s, threads⟩ = some (r, ⟨s, threads⟩) ∧
          (m'.find n).run ctx' ⟨s', threads'⟩ = some (r, ⟨s', threads'⟩)) ∧
    (notFound n).message = "module '" ++ n.lossy ++ "' not found:" ++
      ("\n\tno field package.preload['" ++ n.lossy ++ "']" ++
        ("\n\tno module '" ++ n.lossy ++ "' in list of allowed modules")) := by
  obtain ⟨r, hd, hr⟩ := find_decision (n := n) h ctx threads
  refine ⟨fun r' => ⟨fun hr' => ?_, fun hd' => ?_⟩, fun m' s' ctx' threads' h' hc => ?_, ?_⟩
  · obtain rfl : r = r' := congrArg Prod.fst (Option.some.inj (hr.symm.trans hr'))
    exact hd
  · rw [hd'.unique hd, hr]
  · obtain ⟨r', hd', hr'⟩ := find_decision (n := n) h' ctx' threads'
    rw [hc] at hd'
    exact ⟨r, hr, by rw [hr', hd'.unique hd]⟩
  · exact Failure.message_moduleNotFound ..

/-- The bytes FF and `mod`, which are shown as U+FFFD and `mod`. -/
def illFormed : Bytes := .ofList [0xFF, 0x6D, 0x6F, 0x64]

/-- A module system with no preloaded function that is allowed the shown form of that name. -/
def allowingShown : Store :=
  ((({} : Store).newPermit.2.newTable.2.newTable.2).rawSetStr 0 "preload" (.table 1)).setPermit 0
    (AllowList.insert {} illFormed.lossy (.int 1)).2

theorem find_decided_ill_formed : (⟨0, 0, 0⟩ : ModuleSystem).Plain allowingShown ∧
    (allowingShown.permit 0).get? illFormed.lossy = some (.int 1) ∧
    (find ⟨0, 0, 0⟩ illFormed).run (Machine.outside 0) ⟨allowingShown, #[]⟩ =
      some (.error (notFound illFormed), ⟨allowingShown, #[]⟩) := by
  have hpreload : allowingShown.rawGet 0 (.str (Bytes.ofString "preload")) = .table 1 := by decide +kernel
  have hplain : (⟨0, 0, 0⟩ : ModuleSystem).Plain allowingShown := by
    refine ⟨by decide +kernel, fun id h => ?_⟩
    cases hpreload.symm.trans h
    decide +kernel
  have hc : contents ⟨0, 0, 0⟩ allowingShown illFormed = ⟨.table 1, .nil, allowingShown.permit 0⟩ := by
    simp only [contents, hpreload]
    rw [show allowingShown.rawGet 1 (.str illFormed) = .nil by decide +kernel]
  have hno (name : String) (hn : illFormed = Bytes.ofString name) :
      (allowingShown.permit 0).get? name = none := by
    have htext := Bytes.text?_eq_some.mpr hn
    rw [show illFormed.text? = none by decide +kernel] at htext
    cases htext
  refine ⟨hplain, by decide +kernel, ?_⟩
  rw [(find_decided hplain _ _).1, hc]
  exact .missing rfl rfl hno

end ModuleSystem

end Cordon
