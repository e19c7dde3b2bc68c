import Cordon.Proofs.Lua.Closed

/-!
# Tables that nothing refers to

A store is unaware of some tables if no other table refers to one of them. Then no access that
starts elsewhere comes to one of them, and no write through metatables changes one.
-/

namespace Cordon.Lua

/-- The value is no table of these. -/
def Value.Outside (own : Nat → Prop) (v : Value) : Prop := ∀ id, v = .table id → ¬ own id

theorem Value.outside_fn (own : Nat → Prop) (id : Nat) : (Value.fn id).Outside own := nofun

theorem Value.outside_nil (own : Nat → Prop) : Value.nil.Outside own := nofun

theorem Value.outside_str (own : Nat → Prop) (b : Bytes) : (Value.str b).Outside own := nofun

theorem Value.outside_table {own : Nat → Prop} {id : Nat} (h : ¬ own id) :
    (Value.table id).Outside own := fun _ e => by
  cases e
  exact h

/-- No other table refers to a table of these, and nor does the store by itself. -/
structure Store.Unaware (own : Nat → Prop) (s : Store) : Prop
    extends s.Closed (Value.Outside own) where
  globals : ¬ own s.globals

namespace Store.Unaware

variable {own : Nat → Prop} {s s' : Store} {id : Nat} {v : Value}

theorem of_tables (hu : s.Unaware own) (ht : s'.tables = s.tables)
    (hs : s'.stringMeta = s.stringMeta) (hf : s'.faultMeta = s.faultMeta)
    (hg : s'.globals = s.globals) : s'.Unaware own :=
  ⟨hu.toClosed.of_tables ht hs hf, hg ▸ hu.globals⟩

theorem rawSet (hu : s.Unaware own) (k : Key) (hv : ¬ own id → v.Outside own) :
    (s.rawSet id k v).Unaware own :=
  ⟨hu.toClosed.rawSet k fun h => hv (h id rfl), hu.globals⟩

theorem newTable (hu : s.Unaware own) : s.newTable.2.Unaware own :=
  ⟨hu.toClosed.newTable (fun _ h => absurd h Table.not_has_empty) (fun _ h => by cases h),
    hu.globals⟩

end Store.Unaware

end Cordon.Lua
