import Cordon.Lua.Access
import Cordon.Proofs.Lua.Lookup

/-!
# Closed sets of values

A set of values is closed in a store if the tables in it have only values of the set. Then no access
that starts there leaves it, and what is written through metatables goes to a table of the set.
-/

namespace Cordon.Lua

open Std

namespace Table

/-- The value is somewhere in the table, also in an entry that was replaced by the array. -/
inductive Has (t : Table) (v : Value) : Prop where
  | item (h : v ∈ t.items)
  | field {k : Key} {place : Nat} (h : t.fields[k]? = some (place, v))

variable {t : Table} {k : Key} {v w : Value}

theorem has_of_field (h : t.field k = v) (hv : v ≠ .nil) : t.Has v := by
  unfold field at h
  split at h
  · next place u hu =>
    subst h
    exact .field hu
  · exact absurd h.symm hv

theorem has_of_get (h : t.get k = v) (hv : v ≠ .nil) : t.Has v := by
  unfold get at h
  split at h
  · next n _ =>
    rw [Array.getD_eq_getD_getElem?] at h
    cases hn : t.items[n]? with
    | none =>
      rw [hn] at h
      exact absurd h.symm hv
    | some u =>
      rw [hn] at h
      exact .item (h ▸ Array.mem_of_getElem? hn)
  · exact has_of_field h hv

theorem has_insert {place : Nat} {keys : Array Key}
    (h : ({ t with fields := t.fields.insert k (place, v), keys } : Table).Has w) :
    t.Has w ∨ w = v := by
  rcases h with h | h
  · exact .inl (.item h)
  · simp only [TreeMap.getElem?_insert] at h
    split at h
    · cases h
      exact .inr rfl
    · exact .inl (.field h)

theorem has_setField (h : (t.setField k v).Has w) : t.Has w ∨ w = v := by
  unfold setField at h
  split at h
  · exact has_insert h
  · split at h
    · exact .inl h
    · exact has_insert h

theorem has_push (h : ({ t with items := t.items.push v } : Table).Has w) : t.Has w ∨ w = v := by
  rcases h with h | h
  · rcases Array.mem_push.mp h with h | h
    · exact .inl (.item h)
    · exact .inr h
  · exact .inl (.field h)

theorem has_absorb : ∀ (n : Nat) {t : Table}, (t.absorb n).Has w → t.Has w ∨ w = .nil
  | 0, _, h => .inl h
  | n + 1, t, h => by
    unfold absorb at h
    simp only at h
    split at h
    · next place v hf =>
      split at h
      · exact .inl h
      · rcases has_absorb n h with h | h
        · rcases has_insert (t := { t with items := t.items.push v }) h with h | h
          · rcases has_push h with h | rfl
            · exact .inl h
            · exact .inl (.field hf)
          · exact .inr h
        · exact .inr h
    · exact .inl h

theorem has_set (h : (t.set k v).Has w) : t.Has w ∨ w = v ∨ w = .nil := by
  unfold set at h
  split at h
  · rcases h with h | h
    · rcases Array.mem_or_eq_of_mem_setIfInBounds h with h | h
      · exact .inl (.item h)
      · exact .inr (.inl h)
    · exact .inl (.field h)
  · split at h
    · rcases has_absorb _ h with h | h
      · rcases has_push h with h | h
        · split at h
          · exact .inl h
          · rcases has_setField h with h | h
            · exact .inl h
            · exact .inr (.inr h)
        · exact .inr (.inl h)
      · exact .inr (.inr h)
    · rcases has_setField h with h | h
      · exact .inl h
      · exact .inr (.inl h)

theorem not_has_empty : ¬ ({} : Table).Has v := by
  rintro (h | h)
  · exact absurd h (Array.not_mem_empty v)
  · simp at h

end Table

/-- The tables of the set have entries and metatables of the set, and so do strings and error
objects. -/
structure Store.Closed (P : Value → Prop) (s : Store) : Prop where
  nil : P .nil
  entry : ∀ {id : Nat} {v : Value}, P (.table id) → (s.table id).Has v → P v
  metatable : ∀ {id mt : Nat}, P (.table id) → (s.table id).metatable = some mt → P (.table mt)
  stringMeta : ∀ {mt : Nat}, s.stringMeta = some mt → P (.table mt)
  faultMeta : ∀ {mt : Nat}, s.faultMeta = some mt → P (.table mt)

namespace Store

variable {P : Value → Prop} {s s' : Store} {id : Nat} {v object key value : Value}

namespace Closed

theorem rawGet (hc : s.Closed P) (hid : P (.table id)) (k : Key) : P (s.rawGet id k) := by
  by_cases h : s.rawGet id k = .nil
  · rw [h]
    exact hc.nil
  · exact hc.entry hid (Table.has_of_get rfl h)

theorem rawIndex (hc : s.Closed P) (hid : P (.table id)) (k : Value) : P (s.rawIndex id k) := by
  unfold Store.rawIndex
  split
  · exact hc.rawGet hid _
  · exact hc.nil

theorem getStr (hc : s.Closed P) (hid : P (.table id)) (name : Bytes) :
    P ((s.table id).getStr name) := by
  by_cases h : (s.table id).getStr name = .nil
  · rw [h]
    exact hc.nil
  · exact hc.entry hid (Table.has_of_field rfl h)

theorem metatable? (hc : s.Closed P) (hv : P v) {mt : Nat} (h : s.metatable? v = some mt) :
    P (.table mt) := by
  cases v with
  | table id => exact hc.metatable hv h
  | str b => exact hc.stringMeta h
  | fault id => exact hc.faultMeta h
  | _ => cases h

theorem metafield (hc : s.Closed P) (hv : P v) (name : Bytes) : P (s.metafield v name) := by
  unfold Store.metafield
  split
  · next mt h => exact hc.getStr (hc.metatable? hv h) name
  · exact hc.nil

end Closed

/-- Reading an entry comes to something of the set. -/
inductive Reads (P : Value → Prop) : Access → Prop where
  | value {v : Value} (hv : P v) : Reads P (.value v)
  | call {fn o : Value} (hf : P fn) (ho : P o) : Reads P (.call fn o)
  | missing (o : Value) (first : Bool) : Reads P (.missing o first)
  | endless : Reads P .endless

theorem accessFrom_reads (hc : s.Closed P) (key : Value) : ∀ (n : Nat) (first : Bool)
    {object : Value}, P object → Reads P (s.accessFrom key n first object)
  | 0, _, _, _ => .endless
  | n + 1, first, object, ho => by
    have hm := hc.metafield ho Meta.index
    have ih := accessFrom_reads hc key n false hm
    cases object with
    | table id =>
      simp only [accessFrom]
      split
      · exact .value (hc.rawIndex ho key)
      · split
        · exact .value hc.nil
        · exact .value hc.nil
        · next f hf => exact .call (hf ▸ hm) ho
        · exact ih
    | _ =>
      simp only [accessFrom]
      split
      · exact .value hc.nil
      · split
        · exact .value hc.nil
        · exact .missing ..
        · next f hf => exact .call (hf ▸ hm) ho
        · exact ih

/-- A write through metatables changes a table of the set, or calls a function of it. -/
inductive Places (P : Value → Prop) (s : Store) (key value : Value) : Placing → Prop where
  | done {id : Nat} {k : Key} (hid : P (.table id)) (hk : key.key? = some k) :
    Places P s key value (.done (s.rawSet id k value))
  | call {fn o : Value} (hf : P fn) (ho : P o) : Places P s key value (.call fn o)
  | missing (o : Value) (first : Bool) : Places P s key value (.missing o first)
  | badKey (message : String) : Places P s key value (.badKey message)
  | endless : Places P s key value .endless

/-- A write to the table itself. -/
def placeRaw (s : Store) (id : Nat) (key value : Value) : Placing :=
  match key.key? with
  | some k => .done (s.rawSet id k value)
  | none => .badKey (if key.isNil then "table index is nil" else "table index is NaN")

theorem placeFrom_places (hc : s.Closed P) (key value : Value) : ∀ (n : Nat) (first : Bool)
    {object : Value}, P object → Places P s key value (s.placeFrom key value n first object)
  | 0, _, _, _ => .endless
  | n + 1, first, object, ho => by
    have hm := hc.metafield ho Meta.newindex
    have ih := placeFrom_places hc key value n false hm
    cases object with
    | table id =>
      have here : Places P s key value (s.placeRaw id key value) := by
        unfold placeRaw
        split
        · next hk => exact .done ho hk
        · exact .badKey _
      simp only [placeFrom]
      split
      · exact here
      · split
        · exact here
        · split
          · exact here
          · next f hf => exact .call (hf ▸ hm) ho
          · exact ih
    | _ =>
      simp only [placeFrom]
      split
      · exact .missing ..
      · next f hf => exact .call (hf ▸ hm) ho
      · exact ih

/-! ## Changes of the store -/

namespace Closed

theorem of_tables (hc : s.Closed P) (ht : s'.tables = s.tables) (hs : s'.stringMeta = s.stringMeta)
    (hf : s'.faultMeta = s.faultMeta) : s'.Closed P := by
  have ht (id : Nat) : s'.table id = s.table id := by rw [Store.table, ht]; rfl
  constructor
  · exact hc.nil
  · intro id v hid h
    rw [ht] at h
    exact hc.entry hid h
  · intro id mt hid h
    rw [ht] at h
    exact hc.metatable hid h
  · rw [hs]
    exact hc.stringMeta
  · rw [hf]
    exact hc.faultMeta

theorem rawSet (hc : s.Closed P) (k : Key) (hv : P (.table id) → P v) : (s.rawSet id k v).Closed P where
  nil := hc.nil
  entry {id' w} hid h := by
    rw [table_rawSet] at h
    split at h
    · next e =>
      rcases Table.has_set h with h | rfl | rfl
      · exact hc.entry hid h
      · exact hv (e.1 ▸ hid)
      · exact hc.nil
    · exact hc.entry hid h
  metatable {id' mt} hid h := by
    rw [table_rawSet] at h
    split at h
    · rw [Table.metatable_set] at h
      exact hc.metatable hid h
    · exact hc.metatable hid h
  stringMeta := hc.stringMeta
  faultMeta := hc.faultMeta

theorem newTable (hc : s.Closed P) {t : Table} (he : ∀ v, t.Has v → P v)
    (hm : ∀ mt, t.metatable = some mt → P (.table mt)) : (s.newTable t).2.Closed P where
  nil := hc.nil
  entry {id v} hid h := by
    rw [table_newTable] at h
    split at h
    · exact he v h
    · exact hc.entry hid h
  metatable {id mt} hid h := by
    rw [table_newTable] at h
    split at h
    · exact hm mt h
    · exact hc.metatable hid h
  stringMeta := hc.stringMeta
  faultMeta := hc.faultMeta

end Closed

end Store

end Cordon.Lua
