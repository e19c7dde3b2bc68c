import Cordon.Proofs.ByteOrder

/-!
# Allow-lists

A finite map from module names to the values they stand for, kept in ascending byte order of the
names.
-/

namespace Cordon

namespace AllowList

def order (a b : String) : Ordering := Bytes.order (.ofString a) (.ofString b)

/-- The names ascend, so that none is there twice. -/
def Ascending {α : Type} (l : List (String × α)) : Prop := l.Pairwise fun x y => order x.1 y.1 = .lt

theorem ascending_nil {α : Type} : Ascending ([] : List (String × α)) := .nil

end AllowList

/-- The modules a sandbox may have, by name. -/
structure AllowList (α : Type) where
  entries : List (String × α) := []
  ascending : AllowList.Ascending entries := by exact AllowList.ascending_nil

namespace AllowList

open Std

variable {α : Type}

instance : Inhabited (AllowList α) := ⟨{}⟩

def lookup (name : String) : List (String × α) → Option α
  | [] => none
  | (n, v) :: rest => if n = name then some v else lookup name rest

/-- Puts the entry where its name belongs, in place of one of the same name. -/
def put (name : String) (value : α) : List (String × α) → List (String × α)
  | [] => [(name, value)]
  | (n, v) :: rest =>
    match order name n with
    | .lt => (name, value) :: (n, v) :: rest
    | .eq => (name, value) :: rest
    | .gt => (n, v) :: put name value rest

/-! ## Order -/

theorem order_eq_iff {a b : String} : order a b = .eq ↔ a = b := by
  rw [order, LawfulEqCmp.compare_eq_iff_eq, Bytes.ofString_inj]

instance : TransCmp order where
  eq_swap := (inferInstance : OrientedCmp Bytes.order).eq_swap
  isLE_trans := (inferInstance : TransCmp Bytes.order).isLE_trans

theorem mem_put {name : String} {value : α} {x : String × α} : ∀ {l : List (String × α)},
    x ∈ put name value l → x = (name, value) ∨ x ∈ l
  | [], h => .inl (List.mem_singleton.mp h)
  | (n, v) :: rest, h => by
    unfold put at h
    split at h
    · exact List.mem_cons.mp h
    · exact (List.mem_cons.mp h).imp_right (.tail _)
    · rcases List.mem_cons.mp h with h | h
      · exact .inr (h ▸ .head _)
      · exact (mem_put h).imp_right (.tail _)

theorem ascending_put (name : String) (value : α) : ∀ {l : List (String × α)},
    Ascending l → Ascending (put name value l)
  | [], _ => List.pairwise_singleton ..
  | (n, v) :: rest, h => by
    obtain ⟨hn, hrest⟩ := List.pairwise_cons.mp h
    unfold put
    cases ho : order name n with
    | lt =>
      refine List.pairwise_cons.mpr ⟨fun x hx => ?_, h⟩
      rcases List.mem_cons.mp hx with rfl | hx
      · exact ho
      · exact TransCmp.lt_trans ho (hn x hx)
    | eq =>
      obtain rfl := order_eq_iff.mp ho
      exact List.pairwise_cons.mpr ⟨hn, hrest⟩
    | gt =>
      refine List.pairwise_cons.mpr ⟨fun x hx => ?_, ascending_put name value hrest⟩
      rcases mem_put hx with rfl | hx
      · exact OrientedCmp.lt_of_gt ho
      · exact hn x hx

/-! ## Operations -/

def get? (l : AllowList α) (name : String) : Option α := lookup name l.entries

def contains (l : AllowList α) (name : String) : Bool := (l.get? name).isSome

/-- Allows `name`; the first component is what it stood for before. -/
def insert (l : AllowList α) (name : String) (value : α) : Option α × AllowList α :=
  (l.get? name, ⟨put name value l.entries, ascending_put name value l.ascending⟩)

/-- Withdraws `name`; the first component is what it stood for before. -/
def erase (l : AllowList α) (name : String) : Option α × AllowList α :=
  (l.get? name, ⟨l.entries.filter (·.1 ≠ name), l.ascending.filter _⟩)

def names (l : AllowList α) : List String := l.entries.map (·.1)

def size (l : AllowList α) : Nat := l.entries.length

def isEmpty (l : AllowList α) : Bool := l.entries.isEmpty

end AllowList

end Cordon
