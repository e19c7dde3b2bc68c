import Cordon.Lua.Lib.Table
import Cordon.Proofs.Confinement.Keeping

/-!
# The table library keeps the ward

Every function of it reads and writes by `getAt` and `setAt`, so what it reads from a clear table is clear
and what it writes goes to nothing that is kept.
-/

namespace Cordon.Lua.TableFn

open Script

variable {w : Ward} {args : List Value} {t v order pivot : Value}

/-! ## Access -/

theorem getAt_keeps (ht : t.Clear w) (i : Int64) : Keeps w (getAt t i) (Value.Clear w) :=
  .index ht trivial

theorem setAt_keeps (ht : t.Clear w) (i : Int64) (hv : v.Clear w) :
    Keeps w (setAt t i v) fun _ => True := .assign ht trivial hv

theorem checkTableLike_keeps (ha : Clears w args) (n : Nat) (methods : List Bytes) :
    Keeps w (checkTableLike args n methods) (Value.Clear w) := by
  unfold checkTableLike
  extract_lets v
  have hv : v.Clear w := ha.arg n
  clear_value v
  split
  · exact .pure hv
  · refine .bind .look fun _ _ => ?_
    split
    · exact .pure hv
    · exact .bind (.checkTable ha n) fun _ _ => .pure hv

theorem checkLength_keeps (ha : Clears w args) (methods : List Bytes) :
    Keeps w (checkLength args methods) fun r => r.1.Clear w :=
  .bind (checkTableLike_keeps ha ..) fun _ ht => .bind (.length ht) fun _ _ => .pure ht

theorem copy_keeps {source goal : Value} (hs : source.Clear w) (hg : goal.Clear w) (i j : Int64) :
    Keeps w (do
      setAt goal j (← getAt source i)
      return ForInStep.yield PUnit.unit) fun r => r = .yield ⟨⟩ :=
  .bind (getAt_keeps hs i) fun _ hv => .bind (setAt_keeps hg j hv) fun _ _ => .pure rfl

section

variable (ha : Clears w args)

include ha

theorem runConcat_keeps : Keeps w (runConcat args) (Clears w) := by
  refine .bind (checkLength_keeps ha _) fun r ht => ?_
  obtain ⟨t, n⟩ := r
  have hgo : ∀ (sep : Bytes) (k : Nat) (i : Int64) (acc : Bytes),
      Keeps w (runConcat.go t sep k i acc) fun _ => True := by
    intro sep k
    induction k with
    | zero => exact fun _ _ => .pure trivial
    | succ k ih =>
      intro i acc
      refine .bind (getAt_keeps ht i) fun v _ => ?_
      split
      · refine .bind (.reserve _) fun _ _ => ?_
        split
        · exact .pure trivial
        · exact ih ..
      · exact .complain _
  refine .bind (.optText ..) fun sep _ => ?_
  refine .bind (.optInt ..) fun i _ => ?_
  refine .bind (.optInt ..) fun j _ => ?_
  exact .bind (hgo ..) fun _ _ => .pure (.one trivial)

theorem runInsert_keeps : Keeps w (runInsert args) (Clears w) := by
  refine .bind (checkLength_keeps ha _) fun r ht => ?_
  obtain ⟨t, n⟩ := r
  dsimp -zeta only
  extract_lets e rest
  split
  · exact .bind (setAt_keeps ht _ ha.tail.head) fun _ _ => .pure .nil
  · refine .bind (.checkInt ..) fun i _ => ?_
    extract_lets rest
    have hrest : Keeps w (rest ()) (Clears w) := by
      refine .bind (.forIn fun k _ => copy_keeps ht ht (k - 1) k) fun _ _ => ?_
      exact .bind (setAt_keeps ht _ ha.tail.tail.head) fun _ _ => .pure .nil
    split
    · exact hrest
    · exact .ended (.badArgument ..)
  · exact .ended (.complain _)

theorem runRemove_keeps : Keeps w (runRemove args) (Clears w) := by
  refine .bind (checkLength_keeps ha _) fun r ht => ?_
  obtain ⟨t, n⟩ := r
  refine .bind (.optInt ..) fun i _ => ?_
  extract_lets rest
  have hrest : Keeps w (rest ()) (Clears w) := by
    refine .bind (getAt_keeps ht i) fun v hv => ?_
    refine .bind (.forIn fun k _ => copy_keeps ht ht (k + 1) k) fun _ _ => ?_
    exact .bind (setAt_keeps ht _ trivial) fun _ _ => .pure (.one hv)
  split
  · split
    · exact hrest
    · exact .ended (.badArgument ..)
  · exact hrest

theorem runMove_keeps : Keeps w (runMove args) (Clears w) := by
  refine .bind (.checkInt ..) fun first _ => ?_
  refine .bind (.checkInt ..) fun last _ => ?_
  refine .bind (.checkInt ..) fun target _ => ?_
  refine .bind (checkTableLike_keeps ha ..) fun source hs => ?_
  refine .bind (checkTableLike_keeps ha ..) fun goal hg => ?_
  split
  · extract_lets answer count offsets forward rest checked
    have hrest : Keeps w (rest ()) (Clears w) :=
      .bind (.forIn fun k _ => copy_keeps hs hg (first + k) (target + k)) fun _ _ =>
        .pure (.one hg)
    have hchecked : Keeps w (checked ()) (Clears w) := by
      simp only [checked]
      split
      · exact hrest
      · exact .ended (.badArgument ..)
    split
    · exact hchecked
    · exact .ended (.badArgument ..)
  · exact .pure (.one hg)

theorem runPack_keeps : Keeps w (runPack args) (Clears w) := by
  refine .bind (Q := fun id => ¬ w.table id) (.updateGet fun s hs => ?_) fun id hid => ?_
  · exact ⟨hs.fresh_table, hs.newTable_ofItems ha⟩
  · exact .bind (.update (Q := fun _ => True) trivial fun s hs => hs.rawSetStr hid _ trivial)
      fun _ _ => .pure (.one hid)

theorem runUnpack_keeps : Keeps w (runUnpack args) (Clears w) := by
  unfold runUnpack
  extract_lets t
  have ht : t.Clear w := ha.arg 1
  clear_value t
  refine .bind (.optInt ..) fun i _ => ?_
  extract_lets rest
  have hrest (j : Int64) : Keeps w (rest j) (Clears w) := by
    simp only [rest]
    split
    · exact .pure .nil
    · split
      · exact .ended (.complain _)
      · exact .mapM (getAt_keeps ht) _
  split
  · exact .bind (.length ht) fun j _ => hrest j
  · exact .bind (.checkInt ..) fun j _ => hrest j

end

/-! ## Sorting -/

section

variable (ht : t.Clear w) (ho : order.Clear w)

include ht

theorem setTwo_keeps (i j : Int64) {a b : Value} (ha : a.Clear w) (hb : b.Clear w) :
    Keeps w (setTwo t i j a b) fun _ => True :=
  .bind (setAt_keeps ht i ha) fun _ _ => setAt_keeps ht j hb

omit ht

include ho

theorem before_keeps {a b : Value} (ha : a.Clear w) (hb : b.Clear w) :
    Keeps w (before order a b) fun _ => True := by
  unfold before
  split
  · exact .less ha hb
  · exact .bind (.call (.clear ho) (.cons ha (.one hb))) fun _ _ => .pure trivial

include ht

theorem scanUp_keeps (hp : pivot.Clear w) (last : Int64) : ∀ (n : Nat) (i : Int64),
    Keeps w (scanUp t order pivot last n i) fun r => r.2.Clear w
  | 0, _ => .complain _
  | n + 1, i => by
    refine .bind (getAt_keeps ht _) fun v hv => ?_
    refine .bind (before_keeps ho hv hp) fun _ _ => ?_
    split
    · split
      · exact .ended (.complain _)
      · exact scanUp_keeps hp last n _
    · exact .pure hv

theorem scanDown_keeps (hp : pivot.Clear w) (first : Int64) : ∀ (n : Nat) (j : Int64),
    Keeps w (scanDown t order pivot first n j) fun r => r.2.Clear w
  | 0, _ => .complain _
  | n + 1, j => by
    refine .bind (getAt_keeps ht _) fun v hv => ?_
    refine .bind (before_keeps ho hp hv) fun _ _ => ?_
    split
    · split
      · exact .ended (.complain _)
      · exact scanDown_keeps hp first n _
    · exact .pure hv

theorem partition_keeps (hp : pivot.Clear w) (up : Int64) : ∀ (n : Nat) (i j : Int64),
    Keeps w (partition t order pivot up n i j) fun _ => True
  | 0, _, _ => .complain _
  | n + 1, i, j => by
    refine .bind (scanUp_keeps ht ho hp ..) fun r ha => ?_
    obtain ⟨i, a⟩ := r
    refine .bind (scanDown_keeps ht ho hp ..) fun r hb => ?_
    obtain ⟨j, b⟩ := r
    dsimp -zeta only
    split
    · exact .bind (setTwo_keeps ht _ _ ha hp) fun _ _ => .pure trivial
    · exact .bind (setTwo_keeps ht _ _ hb ha) fun _ _ => partition_keeps hp up n i j

theorem orderTwo_keeps (i j : Int64) : Keeps w (orderTwo t order i j) fun _ => True := by
  refine .bind (getAt_keeps ht i) fun a ha => ?_
  refine .bind (getAt_keeps ht j) fun b hb => ?_
  refine .bind (before_keeps ho hb ha) fun _ _ => ?_
  split
  · exact .bind (setTwo_keeps ht i j hb ha) fun _ _ => .pure trivial
  · exact .pure trivial

theorem sortRange_keeps : ∀ (n : Nat) (lo up : Int64),
    Keeps w (sortRange t order n lo up) fun _ => True
  | 0, _, _ => .pure trivial
  | n + 1, lo, up => by
    unfold sortRange
    split
    · exact .pure trivial
    refine .bind (orderTwo_keeps ht ho lo up) fun _ _ => ?_
    split
    · exact .pure trivial
    extract_lets p rest
    have hrest : Keeps w (rest ()) fun _ => True := by
      simp only [rest]
      split
      · exact .pure trivial
      refine .bind (getAt_keeps ht p) fun pivot hp => ?_
      refine .bind (getAt_keeps ht _) fun v hv => ?_
      refine .bind (setTwo_keeps ht _ _ hv hp) fun _ _ => ?_
      refine .bind (partition_keeps ht ho hp ..) fun q _ => ?_
      split
      · exact .bind (sortRange_keeps n ..) fun _ _ => sortRange_keeps n ..
      · exact .bind (sortRange_keeps n ..) fun _ _ => sortRange_keeps n ..
    refine .bind (getAt_keeps ht p) fun a ha => ?_
    refine .bind (getAt_keeps ht lo) fun b hb => ?_
    refine .bind (before_keeps ho ha hb) fun _ _ => ?_
    split
    · exact .bind (setTwo_keeps ht _ _ hb ha) fun _ _ => hrest
    · refine .bind (getAt_keeps ht up) fun b hb => ?_
      refine .bind (before_keeps ho hb ha) fun _ _ => ?_
      split
      · exact .bind (setTwo_keeps ht _ _ hb ha) fun _ _ => hrest
      · exact hrest

end

theorem runSort_keeps (ha : Clears w args) : Keeps w (runSort args) (Clears w) := by
  refine .bind (checkLength_keeps ha _) fun r ht => ?_
  obtain ⟨t, n⟩ := r
  dsimp -zeta only
  extract_lets answer sort checked
  have hanswer : Keeps w (answer ()) (Clears w) := .pure .nil
  have hsort : Keeps w (sort ()) (Clears w) :=
    .bind (sortRange_keeps ht (ha.arg 2) ..) fun _ _ => hanswer
  have hchecked : Keeps w (checked ()) (Clears w) := by
    simp only [checked]
    split
    · exact hsort
    · exact .bind (.checkFunction ha 2) fun _ _ => hsort
  split
  · split
    · exact hchecked
    · exact .ended (.badArgument ..)
  · exact hanswer

theorem run_keeps (f : TableFn) (ha : Clears w args) : Keeps w (f.run args) (Clears w) := by
  cases f with
  | concat => exact runConcat_keeps ha
  | insert => exact runInsert_keeps ha
  | move => exact runMove_keeps ha
  | pack => exact runPack_keeps ha
  | remove => exact runRemove_keeps ha
  | sort => exact runSort_keeps ha
  | unpack => exact runUnpack_keeps ha

end Cordon.Lua.TableFn
