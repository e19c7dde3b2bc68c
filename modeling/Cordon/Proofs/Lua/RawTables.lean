import Cordon.Proofs.Lua.Lookup
import Cordon.Proofs.Lua.RawEquality

/-!
# Raw tables

A table is a map, whichever of its keys are in its array. What was set under a key is found under it, and
the entries are those that are found, each key having one.
-/

namespace Cordon.Lua

/-! ## Keys of values -/

namespace Key

variable {k k' : Key} {v : Value}

/-- A key that a value stands for, which a double that is an integer is not. -/
def Canonical (k : Key) : Prop := k.toValue.key? = some k

theorem canonical_of_key? (h : v.key? = some k) : k.Canonical := by
  cases v with
  | nil => cases h
  | float x =>
    cases hx : x.isNaN with
    | true =>
      rw [Value.key?_float, hx] at h
      cases h
    | false =>
      rw [Value.key?_defined hx] at h
      cases hi : Value.floatToInt? x with
      | some i =>
        rw [hi] at h
        cases h
        rfl
      | none =>
        rw [hi] at h
        cases h
        exact (Value.key?_defined hx).trans (by rw [hi])
  | _ =>
    cases h
    rfl

/-- The key of an index of an array. -/
def index (n : Nat) : Key := .int (Int64.ofNat (n + 1))

theorem eq_index_iff {i : Int64} {n : Nat} (hn : n + 1 < 0x8000000000000000) :
    .int i = index n ↔ i.toNatClampNeg = n + 1 := by
  have hofNat := Int64.toNatClampNeg_ofNat_of_lt hn
  rw [index, int.injEq]
  constructor
  · rintro rfl
    exact hofNat
  · intro h
    have hpos : i.toInt = (n + 1 : Nat) := by
      have := i.toNat_toInt
      omega
    exact Int64.toInt_inj.mp (hpos.trans (Int64.toInt_ofNat_of_lt hn).symm)

theorem index_inj {n n' : Nat} (hn : n + 1 < 0x8000000000000000) (hn' : n' + 1 < 0x8000000000000000)
    (h : index n = index n') : n = n' := by
  have := (eq_index_iff hn').mp h
  rw [Int64.toNatClampNeg_ofNat_of_lt hn] at this
  exact Nat.succ.inj this

end Key

namespace Table

variable {t : Table} {k k' : Key} {v : Value} {n : Nat}

/-! ## The array -/

theorem slot?_int (t : Table) (i : Int64) : t.slot? (.int i) =
    if 1 ≤ i.toNatClampNeg ∧ i.toNatClampNeg ≤ t.items.size then some (i.toNatClampNeg - 1) else none := rfl

theorem slot?_eq_some_iff (hs : t.items.size < 0x8000000000000000) :
    t.slot? k = some n ↔ n < t.items.size ∧ k = .index n := by
  cases k with
  | int i =>
    have hplace : t.slot? (.int i) = some n ↔ n < t.items.size ∧ i.toNatClampNeg = n + 1 := by
      rw [slot?_int]
      split
      · rw [Option.some_inj]
        omega
      · exact iff_of_false nofun (by omega)
    rw [hplace]
    exact and_congr_right fun hn => (Key.eq_index_iff (by omega)).symm
  | _ => simp [slot?, Key.index]

theorem isNext_int_iff {i : Int64} : t.isNext (.int i) = true ↔ i.toNatClampNeg = t.items.size + 1 :=
  decide_eq_true_iff

theorem isNext_iff : t.isNext k = true ↔
    t.items.size + 1 < 0x8000000000000000 ∧ k = .index t.items.size := by
  cases k with
  | int i =>
    have hi := Int64.toNatClampNeg_lt i
    rw [isNext_int_iff]
    constructor
    · intro h
      have hs : t.items.size + 1 < 0x8000000000000000 := by omega
      exact ⟨hs, (Key.eq_index_iff hs).mpr h⟩
    · rintro ⟨hs, h⟩
      exact (Key.eq_index_iff hs).mp h
  | _ => simp [isNext, Key.index]

def push (t : Table) (v : Value) : Table := { t with items := t.items.push v }

theorem slot?_push (t : Table) (v : Value) (k : Key) :
    (t.push v).slot? k = if t.isNext k then some t.items.size else t.slot? k := by
  cases k with
  | int i =>
    have hsize : (t.push v).items.size = t.items.size + 1 := Array.size_push ..
    rw [slot?_int, slot?_int, hsize]
    by_cases hnext : i.toNatClampNeg = t.items.size + 1
    · rw [if_pos (isNext_int_iff.mpr hnext), if_pos (by omega), hnext]
      rfl
    · have hbound : i.toNatClampNeg ≤ t.items.size + 1 ↔ i.toNatClampNeg ≤ t.items.size := by omega
      rw [if_neg (mt isNext_int_iff.mp hnext)]
      simp only [hbound]
  | _ => rfl

theorem get_of_slot? (h : t.slot? k = none) : t.get k = t.field k := by rw [get, h]

theorem slot?_setField (t : Table) (k : Key) (v : Value) (k' : Key) :
    (t.setField k v).slot? k' = t.slot? k' := by
  unfold slot?
  rw [items_setField]

theorem get_setField (h : t.slot? k = none) (v : Value) (k' : Key) :
    (t.setField k v).get k' = if k = k' then v else t.get k' := by
  rw [get, get, slot?_setField, items_setField, field_setField]
  cases hk : t.slot? k' with
  | none => rfl
  | some n =>
    have hne : k ≠ k' := by
      rintro rfl
      rw [h] at hk
      cases hk
    exact (if_neg hne).symm

/-! ## What keeps a table a map -/

/-- No key is both in the array and among the others, and each of the others has one place. -/
structure Sound (t : Table) : Prop where
  size : t.items.size < 0x8000000000000000
  apart : ∀ {k n}, t.slot? k = some n → t.field k = .nil
  canonical : ∀ {k}, k ∈ t.keys.toList → k.Canonical
  listed : ∀ k, k ∈ t.fields ↔ k ∈ t.keys.toList
  nodup : t.keys.toList.Nodup

theorem sound_empty : ({} : Table).Sound where
  size := by decide
  apart {k n} h := absurd ((slot?_eq_some_iff (by decide)).mp h).1 (Nat.not_lt_zero n)
  canonical h := nomatch h
  listed k := iff_of_false Std.TreeMap.not_mem_emptyc nofun
  nodup := List.nodup_nil

/-- A key that has a place keeps it, and one that has none gets the next unless it is to have no value. -/
theorem setField_cases (t : Table) (k : Key) (v : Value) :
    (k ∈ t.fields ∧ ∃ place, t.setField k v = { t with fields := t.fields.insert k (place, v) }) ∨
    (k ∉ t.fields ∧ t.setField k v =
      { t with fields := t.fields.insert k (t.keys.size, v), keys := t.keys.push k }) ∨
    t.setField k v = t := by
  have hmem : k ∈ t.fields ↔ t.fields[k]?.isSome = true := Std.TreeMap.mem_iff_isSome_getElem?
  unfold setField
  split
  · next place _ hfound => exact .inl ⟨hmem.mpr (by rw [hfound]; rfl), place, rfl⟩
  · next hfound =>
    split
    · exact .inr (.inr rfl)
    · exact .inr (.inl ⟨by rw [hmem, hfound]; exact Bool.false_ne_true, rfl⟩)

namespace Sound

theorem setField (h : t.Sound) (hk : k.Canonical) (hv : t.slot? k = none ∨ v = .nil) :
    (t.setField k v).Sound := by
  have hsize : (t.setField k v).items.size < 0x8000000000000000 := by
    rw [items_setField]
    exact h.size
  have hapart {k' n} (hslot : (t.setField k v).slot? k' = some n) : (t.setField k v).field k' = .nil := by
    rw [slot?_setField] at hslot
    rw [field_setField]
    split
    · next heq =>
      subst heq
      rcases hv with hnone | hv
      · rw [hnone] at hslot
        cases hslot
      · exact hv
    · exact h.apart hslot
  have hinsert (k' : Key) (place : Nat) : k' ∈ t.fields.insert k (place, v) ↔ k = k' ∨ k' ∈ t.keys.toList := by
    rw [Std.TreeMap.mem_insert, Std.LawfulEqCmp.compare_eq_iff_eq, h.listed]
  rcases t.setField_cases k v with ⟨hmem, place, heq⟩ | ⟨hnew, heq⟩ | heq
  · rw [heq] at hsize hapart ⊢
    refine ⟨hsize, hapart, h.canonical, fun k' => (hinsert k' place).trans ?_, h.nodup⟩
    exact ⟨fun hk' => hk'.elim (fun heq => heq ▸ (h.listed k).mp hmem) id, .inr⟩
  · rw [heq] at hsize hapart ⊢
    have hkeys (k' : Key) : k' ∈ (t.keys.push k).toList ↔ k = k' ∨ k' ∈ t.keys.toList := by
      rw [Array.toList_push, List.mem_append, List.mem_singleton, or_comm, eq_comm]
    refine ⟨hsize, hapart, fun {k'} hk' => ?_, fun k' => (hinsert k' _).trans (hkeys k').symm, ?_⟩
    · rcases (hkeys k').mp hk' with rfl | hk'
      · exact hk
      · exact h.canonical hk'
    · show (t.keys.push k).toList.Nodup
      rw [Array.toList_push, List.nodup_append]
      refine ⟨h.nodup, List.pairwise_singleton .., fun k' hk' k'' hk'' heq => ?_⟩
      rw [heq, List.mem_singleton.mp hk'', ← h.listed] at hk'
      exact hnew hk'
  · rw [heq]
    exact h

theorem push (h : t.Sound) (hk : t.isNext k = true) (hfield : t.field k = .nil) (v : Value) :
    (t.push v).Sound where
  size := by
    show (t.items.push v).size < _
    rw [Array.size_push]
    exact (isNext_iff.mp hk).1
  apart {k' n} hslot := by
    show t.field k' = .nil
    rw [slot?_push] at hslot
    split at hslot
    · next hk' => rw [(isNext_iff.mp hk').2, ← (isNext_iff.mp hk).2, hfield]
    · exact h.apart hslot
  canonical := h.canonical
  listed := h.listed
  nodup := h.nodup

end Sound

theorem slot?_of_isNext (hk : t.isNext k = true) : t.slot? k = none := by
  cases k with
  | int i =>
    have hi := isNext_int_iff.mp hk
    exact if_neg (by omega)
  | _ => rfl

theorem isNext_iff_eq (hk : t.isNext k = true) : t.isNext k' = true ↔ k = k' := by
  obtain ⟨hs, rfl⟩ := isNext_iff.mp hk
  rw [isNext_iff, eq_comm (a := Key.index _)]
  exact and_iff_right hs

theorem get_push (hk : t.isNext k = true) (v : Value) (k' : Key) :
    (t.push v).get k' = if k = k' then v else t.get k' := by
  rw [get, slot?_push]
  by_cases heq : k = k'
  · rw [if_pos ((isNext_iff_eq hk).mpr heq), if_pos heq]
    show (t.items.push v).getD t.items.size .nil = v
    rw [Array.getD_eq_getD_getElem?, Array.getElem?_push_size]
    rfl
  · rw [if_neg (mt (isNext_iff_eq hk).mp heq), if_neg heq, get]
    cases hslot : t.slot? k' with
    | none => rfl
    | some n =>
      have hs : t.items.size < 0x8000000000000000 := Nat.lt_of_succ_lt (isNext_iff.mp hk).1
      have hn := ((slot?_eq_some_iff hs).mp hslot).1
      show (t.items.push v).getD n .nil = t.items.getD n .nil
      rw [Array.getD_eq_getD_getElem?, Array.getD_eq_getD_getElem?, Array.getElem?_push_lt hn,
        Array.getElem?_eq_getElem hn]

/-! ## Writes -/

theorem isNext_setField (t : Table) (k : Key) (v : Value) (k' : Key) :
    (t.setField k v).isNext k' = t.isNext k' := by
  unfold isNext
  rw [items_setField]

/-- The key that follows the array is taken from the others and put at its end. -/
theorem Sound.append (h : t.Sound) (hk : t.isNext k = true) (v : Value) :
    ((t.setField k .nil).push v).Sound ∧
      ∀ k', ((t.setField k .nil).push v).get k' = if k = k' then v else t.get k' := by
  have hcanonical : k.Canonical := by
    rw [(isNext_iff.mp hk).2]
    rfl
  have hk' : (t.setField k .nil).isNext k = true := (isNext_setField ..).trans hk
  refine ⟨(h.setField hcanonical (.inr rfl)).push hk' (by rw [field_setField, if_pos rfl]) v,
    fun k' => ?_⟩
  rw [get_push hk', get_setField (slot?_of_isNext hk)]
  split <;> rfl

theorem absorb_succ (n : Nat) (t : Table) : t.absorb (n + 1) =
    if (t.field (.index t.items.size)).isNil || !t.isNext (.index t.items.size) then t
    else ((t.setField (.index t.items.size) .nil).push (t.field (.index t.items.size))).absorb n := by
  rw [absorb, ← Key.index, field, setField]
  split <;> rfl

/-- Moving keys into the array changes no look-up. -/
theorem Sound.absorb : ∀ (n : Nat) {t : Table}, t.Sound →
    (t.absorb n).Sound ∧ ∀ k, (t.absorb n).get k = t.get k
  | 0, _, h => ⟨h, fun _ => rfl⟩
  | n + 1, t, h => by
    rw [absorb_succ]
    split
    · exact ⟨h, fun _ => rfl⟩
    · next hv =>
      simp only [Bool.or_eq_true, Bool.not_eq_true', not_or, Bool.not_eq_false] at hv
      obtain ⟨hsound, hget⟩ := h.append hv.2 (t.field (.index t.items.size))
      obtain ⟨hsound', hget'⟩ := hsound.absorb n
      refine ⟨hsound', fun k => ?_⟩
      rw [hget', hget]
      split
      · next heq => rw [← heq, get_of_slot? (slot?_of_isNext hv.2)]
      · rfl

theorem Sound.setItem (h : t.Sound) (hslot : t.slot? k = some n) (v : Value) :
    Sound { t with items := t.items.setIfInBounds n v } ∧
      ∀ k', get { t with items := t.items.setIfInBounds n v } k' = if k = k' then v else t.get k' := by
  obtain ⟨hn, rfl⟩ := (slot?_eq_some_iff h.size).mp hslot
  have hsize : (t.items.setIfInBounds n v).size = t.items.size := Array.size_setIfInBounds
  have hslots k' : slot? { t with items := t.items.setIfInBounds n v } k' = t.slot? k' := by
    unfold slot?
    rw [hsize]
  refine ⟨⟨by rw [hsize]; exact h.size, fun hk => h.apart (by rw [← hslots, hk]), h.canonical, h.listed,
    h.nodup⟩, fun k' => ?_⟩
  rw [get, get, hslots]
  cases hslot' : t.slot? k' with
  | none =>
    have hne : Key.index n ≠ k' := by
      rintro rfl
      rw [hslot] at hslot'
      cases hslot'
    exact (if_neg hne).symm
  | some n' =>
    obtain ⟨hn', rfl⟩ := (slot?_eq_some_iff h.size).mp hslot'
    have hs := h.size
    have hindex : Key.index n = .index n' ↔ n = n' := ⟨Key.index_inj (by omega) (by omega), congrArg _⟩
    simp only [hindex]
    rw [Array.getD_eq_getD_getElem?, Array.getD_eq_getD_getElem?, Array.getElem?_setIfInBounds]
    split <;> rfl

/-- What was set under a key is found under it, and under all other keys what was found before. -/
theorem Sound.set (h : t.Sound) (hk : k.Canonical) (v : Value) :
    (t.set k v).Sound ∧ ∀ k', (t.set k v).get k' = if k = k' then v else t.get k' := by
  unfold Table.set
  split
  · next n hslot => exact h.setItem hslot v
  · next hslot =>
    split
    · next hnext =>
      rw [Bool.and_eq_true] at hnext
      have hcleared : (if t.fields.isEmpty then t else t.setField k .nil) = t.setField k .nil := by
        split
        · next hempty =>
          rw [Table.setField, Std.TreeMap.getElem?_of_isEmpty hempty]
          rfl
        · rfl
      obtain ⟨hsound, hget⟩ := h.append hnext.1 v
      rw [hcleared]
      obtain ⟨hsound', hget'⟩ := hsound.absorb (t.setField k .nil).fields.size
      exact ⟨hsound', fun k' => (hget' k').trans (hget k')⟩
    · exact ⟨h.setField hk (.inl hslot), get_setField hslot v⟩

/-! ## Entries -/

end Table

end Cordon.Lua
