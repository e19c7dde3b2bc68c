import Cordon.Lua.Lib.Format
import Cordon.Lua.Lib.String
import Cordon.Proofs.Confinement.Keeping

/-!
# The string library keeps the ward

It hands out texts and numbers, and what a replacement comes to is made a text before it is used. The
iterator over matches has two variables of its own.
-/

namespace Cordon.Lua

open Script

variable {w : Ward} {args : List Value}

/-! ## Formatting -/

namespace Format

theorem literal_keeps (args : List Value) (n : Nat) : Keeps w (literal args n) fun _ => True := by
  unfold literal
  split
  · exact .pure trivial
  · exact .pure trivial
  · exact .pure trivial
  · exact .ite (.pure trivial) (.ite (.pure trivial) (.pure trivial))
  · exact .pure trivial
  · exact .badArgument ..

theorem checkSpec_keeps (modifiers : List Char) (letter : Char) :
    Keeps w (checkSpec modifiers letter) fun _ => True := by
  unfold checkSpec
  split
  · exact .pure trivial
  · exact .complain _

theorem convert_keeps (modifiers : List Char) (letter : Char) (ha : Clears w args) (n : Nat) :
    Keeps w (convert modifiers letter args n) fun _ => True := by
  have hspec : Keeps w (checkSpec modifiers letter) fun _ => True := checkSpec_keeps ..
  unfold convert
  split
  · exact .bind hspec fun _ _ => .bind (.checkInt ..) fun _ _ => .pure trivial
  iterate 6 exact .bind (.checkInt ..) fun _ _ => .bind hspec fun _ _ => .pure trivial
  iterate 2 exact .bind hspec fun _ _ => .bind (.checkDouble ..) fun _ _ => .pure trivial
  iterate 5 exact .bind (.checkDouble ..) fun _ _ => .bind hspec fun _ _ => .pure trivial
  · exact .bind hspec fun _ _ => .pure trivial
  · refine .bind (.text (ha.arg n)) fun b _ => ?_
    refine .ite (.pure trivial) (.ite (.ended (.badArgument ..)) ?_)
    exact .bind hspec fun _ _ => .pure trivial
  · exact .ite (literal_keeps ..) (.complain _)
  · exact .complain _

theorem run_keeps (ha : Clears w args) : ∀ (fuel : Nat) (cs : List Char) (n : Nat) (acc : Bytes),
    Keeps w (run args fuel cs n acc) fun _ => True
  | 0, _, _, _ => .pure trivial
  | fuel + 1, cs, n, acc => by
    unfold run
    extract_lets plain acc n
    split
    · exact .pure trivial
    · exact run_keeps ha fuel ..
    · extract_lets modifiers rest checked
      have hrest : Keeps w (rest ()) fun _ => True := by
        simp only [rest]
        split
        · exact .bind (convert_keeps _ _ ha n) fun _ _ => run_keeps ha fuel ..
        · exact .complain _
      exact .ite (.ended (.badArgument ..)) (.ite (.ended (.complain _)) hrest)

end Format

namespace StringFn

theorem ofPattern_keeps {α : Type} (r : Except String α) : Keeps w (ofPattern r) fun _ => True := by
  unfold ofPattern
  split
  · exact .pure trivial
  · exact .complain _

theorem captureValue_keeps (src : Bytes) (c : Pattern.Capture) :
    Keeps w (captureValue src c) (Value.Clear w) := by
  unfold captureValue
  split
  · exact .complain _
  · exact .pure trivial
  · exact .pure trivial

theorem captures_keeps (src : Bytes) (whole : Bool) (start stop : Nat)
    (caps : Array Pattern.Capture) : Keeps w (captures src whole start stop caps) (Clears w) := by
  unfold captures
  split
  · refine .pure ?_
    split
    · exact .one trivial
    · exact .nil
  · exact .mapM (captureValue_keeps src) _

theorem capture_keeps (src : Bytes) (start stop : Nat) (caps : Array Pattern.Capture) (n : Nat) :
    Keeps w (capture src start stop caps n) (Value.Clear w) := by
  unfold capture
  split
  · exact captureValue_keeps ..
  · exact .ite (.pure trivial) (.complain _)

theorem fillIn_keeps (src : Bytes) (start stop : Nat) (caps : Array Pattern.Capture)
    (cs : List UInt8) (acc : Bytes) : Keeps w (fillIn src start stop caps cs acc) fun _ => True := by
  fun_induction fillIn src start stop caps cs acc with
  | case1 => exact .pure trivial
  | case2 _ _ ih => exact ih
  | case3 _ _ _ ih => exact ih
  | case4 _ _ _ _ _ _ ih => exact .bind (capture_keeps ..) fun v _ => ih v
  | case5 => exact .complain _
  | case6 => exact .complain _
  | case7 _ _ _ _ _ ih => exact ih

theorem replacement_keeps (src : Bytes) {repl : Value} (hr : repl.Clear w) (start stop : Nat)
    (caps : Array Pattern.Capture) :
    Keeps w (replacement src repl start stop caps) fun _ => True := by
  unfold replacement
  extract_lets whole checked
  have hchecked (v : Value) : Keeps w (checked v) fun _ => True := by
    simp only [checked]
    split
    · exact .pure trivial
    · exact .pure trivial
    · split
      · exact .pure trivial
      · exact .bind .look fun _ _ => .complain _
  split
  · refine .bind (capture_keeps ..) fun k hk => ?_
    exact .bind (.index hr hk) fun v _ => hchecked v
  · refine .bind (captures_keeps ..) fun vs hvs => ?_
    exact .bind (.call (.clear hr) hvs) fun rs _ => hchecked _
  · exact fillIn_keeps ..

theorem substitute_keeps (src pat : Bytes) {repl : Value} (hr : repl.Clear w) (anchored : Bool)
    (limit : Nat) : ∀ (n s : Nat) (last : Int) (acc : Bytes) (count : Nat),
    Keeps w (substitute src pat repl anchored limit n s last acc count) fun _ => True
  | 0, _, _, _, _ => .pure trivial
  | n + 1, s, last, acc, count => by
    unfold substitute
    refine .ite (.pure trivial) ?_
    refine .bind (ofPattern_keeps _) fun found _ => ?_
    extract_lets hit longer
    clear_value hit
    split
    · refine .bind (replacement_keeps src hr ..) fun _ _ => ?_
      exact .ite (.pure trivial) (substitute_keeps src pat hr anchored limit n ..)
    · refine .ite ?_ (.pure trivial)
      exact .ite (.pure trivial) (substitute_keeps src pat hr anchored limit n ..)

/-! ## Positions and copies -/

section

variable (args : List Value)

theorem runSub_keeps : Keeps w (runSub args) (Clears w) := by
  refine .bind (.checkText ..) fun b _ => ?_
  refine .bind (.checkInt ..) fun i _ => ?_
  exact .bind (.optInt ..) fun j _ => .pure (.one trivial)

theorem clears_bytes (b : Bytes) : Clears w (b.toList.map fun c => .ofNat c.toNat) := fun v hv => by
  obtain ⟨c, -, rfl⟩ := List.mem_map.mp hv
  trivial

theorem runByte_keeps : Keeps w (runByte args) (Clears w) := by
  refine .bind (.checkText ..) fun b _ => ?_
  refine .bind (.optInt ..) fun i _ => ?_
  refine .bind (.optInt ..) fun j _ => ?_
  exact .ite (.pure .nil) (.pure (clears_bytes _))

theorem runChar_keeps : Keeps w (runChar args) (Clears w) := by
  refine .bind (.mapM (R := fun _ => True) (fun n => ?_) _) fun _ _ => .pure (.one trivial)
  exact .bind (.checkInt ..) fun _ _ => .ite (.ended (.badArgument ..)) (.pure trivial)

theorem runRep_keeps : Keeps w (runRep args) (Clears w) := by
  refine .bind (.checkText ..) fun b _ => ?_
  refine .bind (.checkInt ..) fun n _ => ?_
  refine .bind (.optText ..) fun sep _ => ?_
  refine .ite (.pure (.one trivial)) (.ite (.ended (.complain _)) ?_)
  refine .bind (.reserve _) fun _ _ => ?_
  exact .ite (.ended .outOfMemory) (.pure (.one trivial))

theorem runDump_keeps (ha : Clears w args) : Keeps w (runDump args) (Clears w) := by
  refine .bind (.checkFunction ha 1) fun f _ => ?_
  split
  · refine .bind .look fun _ _ => ?_
    split
    · exact .pure (.one trivial)
    · exact .complain _
  · exact .complain _

/-! ## Matching -/

theorem runFind_keeps (isFind : Bool) : Keeps w (runFind isFind args) (Clears w) := by
  refine .bind (.checkText ..) fun src _ => ?_
  refine .bind (.checkText ..) fun pat _ => ?_
  refine .bind (.optInt ..) fun i _ => ?_
  refine .ite (.pure (.one trivial)) (.ite ?_ ?_)
  · split
    · exact .pure (.cons trivial (.one trivial))
    · exact .pure (.one trivial)
  · refine .bind (ofPattern_keeps _) fun r _ => ?_
    split
    · exact .pure (.one trivial)
    · refine .ite ?_ (captures_keeps ..)
      exact .bind (captures_keeps ..) fun vs hvs => .pure (.cons trivial (.cons trivial hvs))

theorem runGmatch_keeps : Keeps w (runGmatch args) (Clears w) := by
  refine .bind (.checkText ..) fun src _ => ?_
  refine .bind (.checkText ..) fun pat _ => ?_
  refine .bind (.optInt ..) fun i _ => ?_
  extract_lets start place
  -- all variables from a new one on are out of the ward
  refine .bind (Q := fun cell => ∀ n, cell ≤ n → ¬ w.cell n) (.updateGet fun s hs => ?_)
    fun cell hc => ?_
  · exact ⟨fun n hn h => Nat.not_lt.mpr hn (hs.cells h), hs.newCell (v := .ofNat _) trivial⟩
  refine .bind (Q := fun _ => True) (.updateGet fun s hs => ?_) fun _ _ => ?_
  · exact ⟨trivial, hs.newCell (v := .int _) trivial⟩
  refine .bind (Q := Value.Clear w) (.updateGet fun s hs => ?_) fun v hv => .pure (.one hv)
  exact ⟨hs.clear_newNative _, hs.newNative ⟨hc _ (Nat.le_refl _), hc _ (Nat.le_succ _)⟩⟩

theorem runGmatchStep_keeps (src pat : Bytes) {cell : Nat} (hc : ¬ w.cell cell)
    (hc' : ¬ w.cell (cell + 1)) : Keeps w (runGmatchStep src pat cell) (Clears w) := by
  refine .bind .look fun start _ => ?_
  refine .bind .look fun last _ => ?_
  refine .bind (ofPattern_keeps _) fun r _ => ?_
  split
  · exact .pure (.one trivial)
  · refine .bind (.update (Q := fun _ => True) trivial fun s hs => ?_) fun _ _ => captures_keeps ..
    exact (hs.setCell (v := .ofNat _) hc trivial).setCell (v := .ofNat _) hc' trivial

theorem runGsub_keeps (ha : Clears w args) : Keeps w (runGsub args) (Clears w) := by
  refine .bind (.checkText ..) fun src _ => ?_
  refine .bind (.checkText ..) fun pat _ => ?_
  extract_lets repl rest
  have hr : repl.Clear w := ha.arg 3
  have hrest : Keeps w (rest ()) (Clears w) := by
    refine .bind (.optInt ..) fun limit _ => ?_
    exact .bind (substitute_keeps src pat hr ..) fun r _ => .pure (.cons trivial (.one trivial))
  clear_value rest repl
  split
  iterate 5 exact hrest
  exact .ended (.badType ..)

/-! ## Arithmetic -/

theorem otherArith_keeps (name : Bytes) {a b : Value} (ha : a.Clear w) (hb : b.Clear w) :
    Keeps w (otherArith name a b) (Clears w) := by
  unfold otherArith
  extract_lets rest
  have hrest (h : Value) (hh : h.Clear w) : Keeps w (rest h) (Clears w) := by
    simp only [rest]
    split
    · exact .bind .look fun _ _ => .complain _
    · exact .bind (.call (.clear hh) (.cons ha (.one hb))) fun vs hvs => .pure (.one hvs.first)
  split
  · exact .bind (.pure (Q := Value.Clear w) trivial) hrest
  · exact .bind (.read fun s hs => hs.metafield hb name) hrest

theorem runArith_keeps (op : ArithOp) (ha : Clears w args) :
    Keeps w (runArith op args) (Clears w) := by
  have hother : Keeps w (otherArith (Meta.ofArith op) (arg args 1) (arg args 2)) (Clears w) :=
    otherArith_keeps _ (ha.arg 1) (ha.arg 2)
  unfold runArith
  extract_lets a b
  split
  · split
    · next h => exact .pure (.one (Eval.apply_clear h))
    · exact .raise trivial
    · exact hother
  · exact hother

theorem runNeg_keeps (ha : Clears w args) : Keeps w (runNeg args) (Clears w) := by
  unfold runNeg
  extract_lets a
  split
  · next h =>
    obtain ⟨x, -, hx⟩ := Option.bind_eq_some_iff.mp h
    exact .pure (.one (Eval.neg_clear hx))
  · exact otherArith_keeps _ (ha.arg 1) (ha.arg 2)

/-! ## Packed values -/

theorem packAll_keeps : ∀ (items : List (Packed × Bool)) (n : Nat) (acc : Bytes),
    Keeps w (packAll args items n acc) fun _ => True
  | [], _, _ => .pure trivial
  | (.padding, _) :: rest, n, acc => packAll_keeps rest n _
  | (.double, little) :: rest, n, acc => .bind (.checkDouble ..) fun _ _ => packAll_keeps rest _ _
  | (.int size signed, little) :: rest, n, acc => by
    refine .bind (.checkInt ..) fun i _ => ?_
    have hrest (acc : Bytes) : Keeps w (packAll args rest (n + 1) acc) fun _ => True :=
      packAll_keeps rest _ _
    refine .ite (.ite ?_ ?_) (hrest _)
    · exact .ite (hrest _) (.ended (.badArgument ..))
    · exact .ite (hrest _) (.ended (.badArgument ..))
  | (.counted size, little) :: rest, n, acc =>
    .bind (.checkText ..) fun b _ => .ite (packAll_keeps rest _ _) (.ended (.badArgument ..))
  | (.terminated, _) :: rest, n, acc =>
    .bind (.checkText ..) fun b _ => .ite (.ended (.badArgument ..)) (packAll_keeps rest _ _)

theorem unpackAll_keeps (b : Bytes) : ∀ (items : List (Packed × Bool)) (i : Nat)
    {acc : List Value}, Clears w acc → Keeps w (unpackAll b items i acc) (Clears w)
  | [], _, _, ha => .pure (ha.reverse.append (.one trivial))
  | (item, little) :: rest, i, acc, ha => by
    have hneed (n : Nat) : Keeps w (do
        if i + n > b.size then badArgument 2 "data string too short" : Script Unit) fun _ => True :=
      .ite (.badArgument ..) (.pure trivial)
    unfold unpackAll
    extract_lets need
    cases item with
    | padding => exact .bind (hneed 1) fun _ _ => unpackAll_keeps b rest _ ha
    | double => exact .bind (hneed 8) fun _ _ => unpackAll_keeps b rest _ (.cons trivial ha)
    | int size signed =>
      exact .bind (hneed size) fun _ _ => unpackAll_keeps b rest _ (.cons trivial ha)
    | counted size =>
      refine .bind (hneed size) fun _ _ => ?_
      exact .bind (hneed _) fun _ _ => unpackAll_keeps b rest _ (.cons trivial ha)
    | terminated =>
      simp only
      split
      · exact unpackAll_keeps b rest _ (.cons trivial ha)
      · exact .badArgument ..

theorem formatItems_keeps : Keeps w (formatItems args) fun _ => True :=
  .bind (.checkText ..) fun _ _ => ofPattern_keeps _

theorem runPacksize_keeps : Keeps w (runPacksize args) (Clears w) := by
  refine .bind (formatItems_keeps args) fun items _ => ?_
  refine .bind (.mapM (R := fun _ => True) (fun x => ?_) _) fun _ _ => .pure (.one trivial)
  obtain ⟨item, little⟩ := x
  cases item with
  | int | double | padding => exact .pure trivial
  | counted | terminated => exact .badArgument ..

theorem runUnpack_keeps : Keeps w (runUnpack args) (Clears w) := by
  refine .bind (formatItems_keeps args) fun items _ => ?_
  refine .bind (.checkText ..) fun b _ => ?_
  refine .bind (.optInt ..) fun i _ => ?_
  exact .ite (.ended (.badArgument ..)) (unpackAll_keeps b _ _ .nil)

end

theorem run_keeps (f : StringFn) (ha : Clears w args) : Keeps w (f.run args) (Clears w) := by
  cases f with
  | byte => exact runByte_keeps args
  | char => exact runChar_keeps args
  | dump => exact runDump_keeps args ha
  | find => exact runFind_keeps args true
  | format =>
    refine .bind (.checkText ..) fun b _ => ?_
    exact .bind (Format.run_keeps ha ..) fun _ _ => .pure (.one trivial)
  | gmatch => exact runGmatch_keeps args
  | gsub => exact runGsub_keeps args ha
  | len | lower | reverse | upper => exact .bind (.checkText ..) fun _ _ => .pure (.one trivial)
  | «match» => exact runFind_keeps args false
  | pack =>
    refine .bind (formatItems_keeps args) fun items _ => ?_
    exact .bind (packAll_keeps args ..) fun _ _ => .pure (.one trivial)
  | packsize => exact runPacksize_keeps args
  | rep => exact runRep_keeps args
  | sub => exact runSub_keeps args
  | unpack => exact runUnpack_keeps args

end StringFn

end Cordon.Lua
