import Cordon.Proofs.AllowList
import Cordon.Proofs.Lua.Lookup

/-!
# Allow-lists and their holders

An allow-list has any number of holders, who change it in turns. Main statement: whoever changes it and
whoever looks, it is the map that the changes so far describe, and every change is answered with what the
name stood for before it.
-/

namespace Cordon

open Lua

namespace AllowList

/-- A change to a list. -/
inductive Deed (α : Type) where
  | insert (name : String) (value : α)
  | erase (name : String)

variable {α : Type}

namespace Deed

def name : Deed α → String
  | insert name _ => name
  | erase name => name

/-- What the changed name stands for afterwards. -/
def value? : Deed α → Option α
  | insert _ value => some value
  | erase _ => none

/-- The first component is the answer. -/
def run (l : AllowList α) : Deed α → Option α × AllowList α
  | insert name value => l.insert name value
  | erase name => l.erase name

end Deed

/-! ## What the changes say -/

/-- What the name was put in with last, unless it was taken out since; the latest change stands first. -/
def latest (name : String) : List (Deed α) → Option α
  | [] => none
  | deed :: past => if deed.name = name then deed.value? else latest name past

/-- The answers to changes that follow such a past: what each name stood for until then. -/
def told (past : List (Deed α)) : List (Deed α) → List (Option α)
  | [] => []
  | deed :: rest => latest deed.name past :: told (deed :: past) rest

/-- The list holds what the changes say. -/
def Tells (l : AllowList α) (past : List (Deed α)) : Prop := ∀ name, l.get? name = latest name past

theorem tells_empty : Tells ({} : AllowList α) [] := fun _ => rfl

theorem run_fst (l : AllowList α) (deed : Deed α) : (deed.run l).1 = l.get? deed.name := by
  cases deed <;> rfl

theorem get?_run (l : AllowList α) (deed : Deed α) (name : String) :
    (deed.run l).2.get? name = if deed.name = name then deed.value? else l.get? name := by
  cases deed with
  | insert name' value => exact get?_insert l name' value name
  | erase name' => exact get?_erase l name' name

theorem Tells.run {l : AllowList α} {past : List (Deed α)} (h : Tells l past) (deed : Deed α) :
    Tells (deed.run l).2 (deed :: past) := by
  intro name
  rw [get?_run, latest, h name]

end AllowList

/-! ## Lists in the store -/

/-- Changes an allow-list where it is; the first component is the answer. -/
def Lua.Store.changePermit (s : Store) (id : Nat) (deed : AllowList.Deed Value) : Option Value × Store :=
  let (old, l) := deed.run (s.permit id)
  (old, s.setPermit id l)

namespace AllowList

/-- The holders, each by the place of what it holds, change it in turns and get these answers. Who clones
what it holds makes one more holder. -/
inductive Course : Store → List Nat → List (Deed Value) → List (Option Value) → Store → List Nat → Prop where
  | nil (s : Store) (holders : List Nat) : Course s holders [] [] s holders
  | clone {s s' : Store} {holders holders' : List Nat} {deeds : List (Deed Value)}
      {answers : List (Option Value)} {holder : Nat} (h : holder ∈ holders)
      (rest : Course s (holder :: holders) deeds answers s' holders') :
      Course s holders deeds answers s' holders'
  | change {s s' : Store} {holders holders' : List Nat} {deed : Deed Value} {deeds : List (Deed Value)}
      {answers : List (Option Value)} {holder : Nat} (h : holder ∈ holders)
      (rest : Course (s.changePermit holder deed).2 holders deeds answers s' holders') :
      Course s holders (deed :: deeds) ((s.changePermit holder deed).1 :: answers) s' holders'

namespace Course

variable {s s' : Store} {holders holders' : List Nat} {deeds : List (Deed Value)}
  {answers : List (Option Value)} {id : Nat}

/-- Cloning is the only way to become a holder, so all hold the same list. -/
theorem one_list (h : Course s holders deeds answers s' holders') (hs : ∀ holder ∈ holders, holder = id) :
    ∀ holder ∈ holders', holder = id := by
  induction h with
  | nil => exact hs
  | clone h _ ih => exact ih (List.forall_mem_cons.mpr ⟨hs _ h, hs⟩)
  | change _ _ ih => exact ih hs

/-- From a list that holds what the past says, the answers and the list follow the changes. -/
theorem tells (h : Course s holders deeds answers s' holders') (hs : ∀ holder ∈ holders, holder = id)
    (hlt : id < s.permits.size) {past : List (Deed Value)} (hpast : Tells (s.permit id) past) :
    answers = told past deeds ∧ Tells (s'.permit id) (deeds.reverse ++ past) := by
  induction h generalizing past with
  | nil => exact ⟨rfl, hpast⟩
  | clone h _ ih => exact ih (List.forall_mem_cons.mpr ⟨hs _ h, hs⟩) hlt hpast
  | @change s _ _ _ deed deeds _ holder h _ ih =>
    -- whoever acts, it is at the one place, so the past is that of this list
    obtain rfl := hs holder h
    have hanswer : (s.changePermit holder deed).1 = latest deed.name past :=
      (run_fst _ deed).trans (hpast deed.name)
    have hchanged : Tells ((s.changePermit holder deed).2.permit holder) (deed :: past) := by
      show Tells ((s.setPermit holder (deed.run (s.permit holder)).2).permit holder) _
      rw [s.permit_setPermit _ hlt]
      exact hpast.run deed
    have hlt' : holder < (s.changePermit holder deed).2.permits.size :=
      Nat.lt_of_lt_of_eq hlt (s.permits_setPermit_size holder _).symm
    obtain ⟨hanswers, htells⟩ := ih hs hlt' hchanged
    refine ⟨by rw [hanswer, hanswers, told], ?_⟩
    rw [List.reverse_cons, List.append_assoc]
    exact htells

end Course

/-- Of a list that was new, whichever holders changed it and whichever looks: every change was answered with
what the name stood for before, a name stands for what it was put in with last unless it was taken out
since, and the names that are held are listed once each in ascending byte order. -/
theorem shared_list_is_map {s s' : Store} {holders : List Nat} {deeds : List (Deed Value)}
    {answers : List (Option Value)} {viewer : Nat}
    (h : Course s.newPermit.2 [s.newPermit.1] deeds answers s' holders) (hviewer : viewer ∈ holders) :
    answers = told [] deeds ∧
      (∀ name, (s'.permit viewer).get? name = latest name deeds.reverse) ∧
      (∀ name, (s'.permit viewer).contains name = (latest name deeds.reverse).isSome) ∧
      ((s'.permit viewer).names.Pairwise fun x y =>
        (Bytes.ofString x).toList < (Bytes.ofString y).toList) ∧
      (s'.permit viewer).names.Nodup ∧
      (∀ name, name ∈ (s'.permit viewer).names ↔ (s'.permit viewer).contains name = true) ∧
      (s'.permit viewer).size = (s'.permit viewer).names.length ∧
      ((s'.permit viewer).isEmpty = true ↔ (s'.permit viewer).size = 0) := by
  have hs : ∀ holder ∈ [s.newPermit.1], holder = s.newPermit.1 := fun _ h => List.mem_singleton.mp h
  have hlt : s.newPermit.1 < s.newPermit.2.permits.size :=
    Nat.lt_of_lt_of_eq (Nat.lt_succ_self _) s.permits_newPermit_size.symm
  have hnew : Tells (s.newPermit.2.permit s.newPermit.1) [] := by
    rw [show s.newPermit.2.permit s.newPermit.1 = {} from s.permit_newPermit_self]
    exact tells_empty
  obtain ⟨hanswers, htells⟩ := h.tells hs hlt hnew
  rw [List.append_nil] at htells
  obtain rfl := h.one_list hs viewer hviewer
  refine ⟨hanswers, htells, fun name => ?_, names_ascending _, nodup_names _, fun name => mem_names,
    (length_names _).symm, isEmpty_iff⟩
  rw [contains, htells name]

/-- Names put in out of order, one of them again, and one taken out twice. -/
def unicodeDeeds : List (Deed Value) :=
  [.insert "😀" (.int 1), .insert "z" (.int 2), .insert "é" (.bool false), .insert "é" (.int 3),
    .erase "z", .erase "z", .insert "ｚ" (.int 4)]

def unicodeStore : Store :=
  unicodeDeeds.foldl (fun s deed => (s.changePermit 0 deed).2) ({} : Store).newPermit.2

theorem shared_list_is_map_unicode :
    Course ({} : Store).newPermit.2 [0] unicodeDeeds
      [none, none, none, some (.bool false), some (.int 2), none, none] unicodeStore [0, 0] ∧
    (unicodeStore.permit 0).get? "é" = some (.int 3) ∧
    (unicodeStore.permit 0).contains "z" = false ∧
    (unicodeStore.permit 0).names = ["é", "ｚ", "😀"] ∧
    (unicodeStore.permit 0).size = 3 ∧
    (unicodeStore.permit 0).isEmpty = false := by
  have h : Course ({} : Store).newPermit.2 [0] unicodeDeeds _ unicodeStore [0, 0] :=
    .change (.head _) (.clone (.head _) (.change (.head _) (.change (.tail _ (.head _)) (.change (.head _)
      (.change (.tail _ (.head _)) (.change (.head _) (.change (.head _) (.nil _ _))))))))
  obtain ⟨hanswers, hget, hcontains, -, -, -, hsize, hempty⟩ := shared_list_is_map h (.head _)
  have htold : told [] unicodeDeeds =
      [none, none, none, some (.bool false), some (.int 2), none, none] := by decide +kernel
  have hnames : (unicodeStore.permit 0).names = ["é", "ｚ", "😀"] := by decide +kernel
  have hthree : (unicodeStore.permit 0).size = 3 := hsize.trans (congrArg List.length hnames)
  refine ⟨?_, (hget _).trans (by decide +kernel), (hcontains _).trans (by decide +kernel), hnames, hthree, ?_⟩
  · rw [← htold, ← hanswers]
    exact h
  · rw [Bool.eq_false_iff, Ne, hempty, hthree]
    decide

end AllowList

end Cordon
