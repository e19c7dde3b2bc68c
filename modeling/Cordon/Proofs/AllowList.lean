import Cordon.AllowList

/-!
# Allow-lists as finite maps

Looking a name up after an entry was put in or taken out, and the list of the names.
-/

namespace Cordon.AllowList

open Std

variable {α : Type}

theorem lookup_put (name : String) (value : α) (name' : String) : ∀ l : List (String × α),
    lookup name' (put name value l) = if name = name' then some value else lookup name' l
  | [] => rfl
  | (n, v) :: rest => by
    unfold put
    cases h : order name n with
    | lt => rfl
    | eq =>
      obtain rfl := order_eq_iff.mp h
      simp only [lookup]
      split <;> rfl
    | gt =>
      have hn : n ≠ name := fun e => by
        rw [order_eq_iff.mpr e.symm] at h
        cases h
      simp only [lookup, lookup_put name value name' rest]
      by_cases e : n = name'
      · rw [if_pos e, if_neg (fun e' => hn (e.trans e'.symm)), if_pos e]
      · rw [if_neg e, if_neg e]

theorem lookup_filter (name name' : String) : ∀ l : List (String × α),
    lookup name' (l.filter (·.1 ≠ name)) = if name = name' then none else lookup name' l
  | [] => by
    split <;> rfl
  | (n, v) :: rest => by
    have ih := lookup_filter name name' rest
    by_cases h : n = name
    · subst h
      rw [List.filter_cons_of_neg (by simp), ih]
      by_cases e : n = name'
      · rw [if_pos e, if_pos e]
      · rw [if_neg e, if_neg e, lookup, if_neg e]
    · rw [List.filter_cons_of_pos (by simpa using h), lookup, ih, lookup]
      by_cases e : n = name'
      · rw [if_pos e, if_pos e, if_neg (fun e' => h (e.trans e'.symm))]
      · rw [if_neg e, if_neg e]

theorem get?_insert (l : AllowList α) (name : String) (value : α) (name' : String) :
    (l.insert name value).2.get? name' = if name = name' then some value else l.get? name' :=
  lookup_put name value name' l.entries

theorem get?_erase (l : AllowList α) (name name' : String) :
    (l.erase name).2.get? name' = if name = name' then none else l.get? name' :=
  lookup_filter name name' l.entries

theorem isSome_lookup (name : String) : ∀ l : List (String × α),
    (lookup name l).isSome ↔ name ∈ l.map Prod.fst
  | [] => ⟨nofun, nofun⟩
  | (n, v) :: rest => by
    rw [lookup, List.map_cons, List.mem_cons]
    split
    · next e => simp [e]
    · next e =>
      rw [isSome_lookup name rest]
      exact ⟨.inr, Or.rec (fun e' => absurd e'.symm e) id⟩

theorem mem_names {l : AllowList α} {name : String} : name ∈ l.names ↔ (l.get? name).isSome :=
  (isSome_lookup name l.entries).symm

theorem names_ascending (l : AllowList α) :
    l.names.Pairwise fun x y => (Bytes.ofString x).toList < (Bytes.ofString y).toList :=
  List.pairwise_map.mpr (l.ascending.imp Bytes.order_lt_iff.mp)

theorem nodup_names (l : AllowList α) : l.names.Nodup := by
  refine l.names_ascending.imp ?_
  rintro name _ h rfl
  exact List.lt_irrefl _ h

theorem length_names (l : AllowList α) : l.names.length = l.size := List.length_map _

theorem isEmpty_iff {l : AllowList α} : l.isEmpty = true ↔ l.size = 0 := by
  rw [isEmpty, size, List.isEmpty_iff, List.length_eq_zero_iff]

end Cordon.AllowList
