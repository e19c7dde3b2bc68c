import Cordon.Text.Bytes

/-!
# Byte order

`Bytes.order` walks two byte strings by position. It is the lexicographic order of their bytes, hence
a linear order in which only equal strings compare as equal.
-/

namespace Cordon.Bytes

open Std

theorem drop_toList (a : Bytes) {i : Nat} (h : i < a.size) :
    a.toList.drop i = a[i] :: a.toList.drop (i + 1) :=
  List.drop_eq_getElem_cons (l := a.toList) (i := i) (by simpa [toList] using h)

theorem drop_toList_of_le (a : Bytes) {i : Nat} (h : a.size ≤ i) : a.toList.drop i = [] :=
  List.drop_eq_nil_of_le (by simpa [toList] using h)

/-- Up to position `i` both strings agree, so `i` is a position of both or the end of one. -/
theorem compareFrom_eq (a b : Bytes) : ∀ (n i : Nat), n + i = a.size → i ≤ b.size →
    compareFrom a b n i = List.compareLex compare (a.toList.drop i) (b.toList.drop i)
  | 0, i, ha, hb => by
    rw [drop_toList_of_le a (by omega)]
    rcases Nat.lt_or_eq_of_le hb with h | h
    · rw [drop_toList b h, List.compareLex_nil_cons, compareFrom]
      exact Nat.compare_eq_lt.mpr (by omega)
    · rw [drop_toList_of_le b (by omega), List.compareLex_nil_nil, compareFrom]
      exact Nat.compare_eq_eq.mpr (by omega)
  | n + 1, i, ha, hb => by
    have hi : i < a.size := by omega
    rw [compareFrom, dif_pos hi, drop_toList a hi]
    rcases Nat.lt_or_eq_of_le hb with h | h
    · rw [dif_pos h, drop_toList b h, List.compareLex_cons_cons]
      cases compare a[i] b[i] with
      | lt => rfl
      | gt => rfl
      | eq => exact compareFrom_eq a b n (i + 1) (by omega) h
    · rw [dif_neg (by omega), drop_toList_of_le b (by omega), List.compareLex_cons_nil]

theorem order_eq (a b : Bytes) : order a b = List.compareLex compare a.toList b.toList :=
  compareFrom_eq a b a.size 0 rfl (Nat.zero_le _)

theorem toList_inj {a b : Bytes} (h : a.toList = b.toList) : a = b :=
  ByteArray.ext (Array.toList_inj.mp h)

instance : TransCmp order where
  eq_swap {a b} := by
    rw [order_eq, order_eq]
    exact (inferInstance : OrientedCmp (List.compareLex (@compare UInt8 _))).eq_swap
  isLE_trans {a b c} := by
    simp only [order_eq]
    exact (inferInstance : TransCmp (List.compareLex (@compare UInt8 _))).isLE_trans

instance : LawfulEqCmp order where
  eq_of_compare {a b} h := by
    rw [order_eq] at h
    have hl : LawfulEqCmp (List.compareLex (@compare UInt8 _)) := inferInstance
    exact toList_inj (hl.eq_of_compare h)

theorem compareLex_lt_iff : ∀ {l l' : List UInt8}, List.compareLex compare l l' = .lt ↔ l < l'
  | [], [] => ⟨nofun, fun h => absurd h (List.lt_irrefl _)⟩
  | [], b :: l' => ⟨fun _ => List.nil_lt_cons b l', fun _ => List.compareLex_nil_cons⟩
  | a :: l, [] => ⟨nofun, nofun⟩
  | a :: l, b :: l' => by
    rw [List.compareLex_cons_cons, List.cons_lt_cons_iff, Ordering.then_eq_lt, compareLex_lt_iff,
      LawfulEqCmp.compare_eq_iff_eq, Std.compare_eq_lt]

theorem order_lt_iff {a b : Bytes} : order a b = .lt ↔ a.toList < b.toList := by
  rw [order_eq, compareLex_lt_iff]

/-! ## Texts as byte strings -/

theorem ofString_inj {s t : String} : ofString s = ofString t ↔ s = t := String.toByteArray_inj

theorem text?_eq_some {b : Bytes} {s : String} : b.text? = some s ↔ b = ofString s := by
  unfold text? String.fromUTF8? ofString
  constructor
  · intro h
    split at h
    · cases h
      rfl
    · cases h
  · rintro rfl
    exact dif_pos s.isValidUTF8

end Cordon.Bytes
