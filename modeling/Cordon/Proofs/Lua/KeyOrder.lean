import Cordon.Lua.Value
import Cordon.Proofs.ByteOrder

/-!
# The order of table keys

Keys are ordered by type first. The order is linear, and only equal keys compare as equal.
-/

namespace Cordon.Lua.Key

open Std

theorem order_swap (a b : Key) : order a b = (order b a).swap := by
  cases a <;> cases b <;> simp only [order]
  case int.int => exact OrientedOrd.eq_swap
  case str.str => exact (inferInstance : OrientedCmp Bytes.order).eq_swap
  case float.float => exact OrientedOrd.eq_swap
  case bool.bool => exact OrientedOrd.eq_swap
  case object.object t i u j =>
    rw [Ordering.swap_then, ← OrientedOrd.eq_swap, ← OrientedOrd.eq_swap]
  all_goals rfl

theorem order_eq {a b : Key} (h : order a b = .eq) : a = b := by
  cases a <;> cases b <;> simp only [order, rank] at h
  case int.int => exact congrArg int (Int64.toInt_inj.mp (LawfulEqCmp.eq_of_compare h))
  case str.str => exact congrArg str ((inferInstance : LawfulEqCmp Bytes.order).eq_of_compare h)
  case float.float x y =>
    cases x; cases y
    exact congrArg (fun b => float ⟨b⟩) (LawfulEqCmp.eq_of_compare h)
  case bool.bool x y => cases x <;> cases y <;> first | rfl | cases h
  case object.object =>
    rw [Ordering.then_eq_eq] at h
    rw [LawfulEqCmp.eq_of_compare h.1, LawfulEqCmp.eq_of_compare h.2]
  all_goals cases h

theorem order_of_rank_ne {a b : Key} (h : a.rank ≠ b.rank) : order a b = compare a.rank b.rank := by
  cases a <;> cases b <;> first | rfl | exact absurd rfl h

theorem rank_le {a b : Key} (h : (order a b).isLE) : a.rank ≤ b.rank := by
  by_cases hr : a.rank = b.rank
  · exact Nat.le_of_eq hr
  · rw [order_of_rank_ne hr] at h
    exact Nat.isLE_compare.mp h

theorem order_trans {a b c : Key} (h : (order a b).isLE) (h' : (order b c).isLE) :
    (order a c).isLE := by
  have hab := rank_le h
  have hbc := rank_le h'
  by_cases hr : a.rank = c.rank
  · have hr' : a.rank = b.rank := Nat.le_antisymm hab (hr ▸ hbc)
    cases a <;> cases b <;> cases hr' <;> cases c <;> cases hr
    · exact (inferInstance : TransCmp (compareOn Bool.toNat)).isLE_trans h h'
    · exact (inferInstance : TransCmp (compareOn Int64.toInt)).isLE_trans h h'
    · exact (inferInstance : TransCmp (compareOn Double.bits)).isLE_trans h h'
    · exact (inferInstance : TransCmp Bytes.order).isLE_trans h h'
    · rename_i t i u j v k
      have hp : TransCmp (compareLex (compareOn Prod.fst) (compareOn Prod.snd) :
          Nat × Nat → Nat × Nat → Ordering) := inferInstance
      exact hp.isLE_trans (a := (t, i)) (b := (u, j)) (c := (v, k)) h h'
  · rw [order_of_rank_ne hr]
    exact Nat.isLE_compare.mpr (Nat.le_trans hab hbc)

instance : TransCmp order where
  eq_swap := order_swap _ _
  isLE_trans := order_trans

instance : LawfulEqCmp order where
  eq_of_compare := order_eq

end Cordon.Lua.Key
