import Cordon.Lua.Lib.Io
import Cordon.Lua.Lib.Math
import Cordon.Lua.Lib.Os
import Cordon.Lua.Lib.Package
import Cordon.Lua.Lib.Utf8
import Cordon.Proofs.Confinement.Base

/-!
# The small libraries keep the ward

Their functions hand out numbers, texts, and tables that they have just made.
-/

namespace Cordon.Lua

open Script

variable {w : Ward} {args : List Value}

namespace MathFn

theorem onFloat_keeps (args : List Value) (f : Float → Float) :
    Keeps w (onFloat args f) (Clears w) := .bind (.checkDouble ..) fun _ _ => .pure (.one trivial)

theorem whole_clear (x : Double) : (whole x).Clear w := by
  unfold whole
  split <;> trivial

theorem rounded_keeps (args : List Value) (f : Double → Double) :
    Keeps w (rounded args f) (Clears w) := by
  unfold rounded
  split
  · exact .pure (.one trivial)
  · exact .bind (.checkDouble ..) fun _ _ => .pure (.one (whole_clear _))

theorem extreme_keeps (ha : Clears w args) {precedes : Value → Value → Script Bool}
    (hp : ∀ a b : Value, a.Clear w → b.Clear w → Keeps w (precedes a b) fun _ => True) :
    Keeps w (extreme args precedes) (Clears w) := by
  unfold extreme
  split
  · exact .badArgument ..
  · refine .bind (.foldlM (R := Value.Clear w) (fun best v hv hbest => ?_) ha.head) fun best hb =>
      .pure (.one hb)
    refine .bind (hp v best (ha.tail v hv) hbest) fun r _ => .pure ?_
    split
    · exact ha.tail v hv
    · exact hbest

theorem draw_keeps : Keeps w draw fun _ => True :=
  .bind (.update (Q := fun _ => True) trivial fun s hs => hs.of_alike (by constructor <;> rfl))
    fun _ _ => .bind .look fun _ _ => .pure trivial

theorem runAbs_keeps (args : List Value) : Keeps w (runAbs args) (Clears w) := by
  unfold runAbs
  split
  · exact .pure (.one trivial)
  · exact .bind (.checkDouble ..) fun _ _ => .pure (.one trivial)

theorem runFmod_keeps (args : List Value) : Keeps w (runFmod args) (Clears w) := by
  unfold runFmod
  split
  · exact .ite (.ended (.badArgument ..)) (.pure (.one trivial))
  · refine .bind (.checkDouble ..) fun _ _ => ?_
    exact .bind (.checkDouble ..) fun _ _ => .pure (.one trivial)

theorem runModf_keeps (args : List Value) : Keeps w (runModf args) (Clears w) := by
  unfold runModf
  split
  · exact .pure (.cons trivial (.one trivial))
  · exact .bind (.checkDouble ..) fun _ _ => .pure (.cons trivial (.one trivial))

theorem runLog_keeps (args : List Value) : Keeps w (runLog args) (Clears w) := by
  refine .bind (.checkDouble ..) fun x _ => ?_
  split
  · exact .pure (.one trivial)
  · refine .bind (.checkDouble ..) fun base _ => ?_
    split
    · exact .pure (.one trivial)
    · split
      · exact .pure (.one trivial)
      · exact .pure (.one trivial)

theorem runRandom_keeps (args : List Value) : Keeps w (runRandom args) (Clears w) := by
  refine .bind draw_keeps fun bits _ => ?_
  extract_lets between
  have hbetween (lo hi : Int64) (n : Nat) : Keeps w (between lo hi n) (Clears w) := by
    simp only [between]
    split
    · exact .pure (.one trivial)
    · exact .ended (.badArgument ..)
  split
  · exact .pure (.one trivial)
  · refine .bind (.checkInt ..) fun hi _ => ?_
    split
    · exact .pure (.one trivial)
    · exact hbetween ..
  · refine .bind (.checkInt ..) fun lo _ => ?_
    exact .bind (.checkInt ..) fun hi _ => hbetween ..
  · exact .complain _

theorem runRandomseed_keeps (args : List Value) : Keeps w (runRandomseed args) (Clears w) := by
  have hrest (seed : Int64) : Keeps w (do
      let other ← optInt args 2 0
      Script.update fun s => { s with seed := seed.toUInt64 ^^^ (other.toUInt64 <<< 1) }
      return [.int seed, .int other]) (Clears w) := by
    refine .bind (.optInt ..) fun other _ => ?_
    refine .bind (.update (Q := fun _ => True) trivial fun s hs => ?_) fun _ _ => ?_
    · exact hs.of_alike (by constructor <;> rfl)
    · exact .pure (.cons trivial (.one trivial))
  unfold runRandomseed
  split
  · exact .bind (Q := fun _ => True) (.pure trivial) fun seed _ => hrest seed
  · split
    · exact .bind (Q := fun _ => True) (.pure trivial) fun seed _ => hrest seed
    · refine .bind (.checkDouble ..) fun x _ => ?_
      exact .bind (Q := fun _ => True) (.pure trivial) fun seed _ => hrest seed

theorem runTointeger_keeps (ha : Clears w args) : Keeps w (runTointeger args) (Clears w) := by
  unfold runTointeger
  split
  · exact .pure (.one trivial)
  · exact .bind (.checkAny ha 1) fun _ _ => .pure (.one trivial)

theorem runType_keeps (ha : Clears w args) : Keeps w (runType args) (Clears w) := by
  refine .bind (.checkAny ha 1) fun v _ => ?_
  split
  · exact .pure (.one trivial)
  · exact .pure (.one trivial)
  · exact .pure (.one trivial)

theorem run_keeps (f : MathFn) (ha : Clears w args) : Keeps w (f.run args) (Clears w) := by
  cases f with
  | abs => exact runAbs_keeps args
  | acos | asin | cos | exp | sin | sqrt | tan => exact onFloat_keeps ..
  | atan =>
    have hrest (x y : Double) : Keeps w (return [.float (.lift Float.atan2 y x)]) (Clears w) :=
      .pure (.one trivial)
    refine .bind (.checkDouble ..) fun y _ => ?_
    split
    · exact .bind (Q := fun _ => True) (.pure trivial) fun x _ => hrest x y
    · exact .bind (.checkDouble ..) fun x _ => hrest x y
  | ceil | floor => exact rounded_keeps ..
  | deg | rad => exact .bind (.checkDouble ..) fun _ _ => .pure (.one trivial)
  | fmod => exact runFmod_keeps args
  | log => exact runLog_keeps args
  | max => exact extreme_keeps ha fun _ _ ha hb => .less hb ha
  | min => exact extreme_keeps ha fun _ _ ha hb => .less ha hb
  | modf => exact runModf_keeps args
  | random => exact runRandom_keeps args
  | randomseed => exact runRandomseed_keeps args
  | tointeger => exact runTointeger_keeps ha
  | type => exact runType_keeps ha
  | ult =>
    refine .bind (.checkInt ..) fun _ _ => ?_
    exact .bind (.checkInt ..) fun _ _ => .pure (.one trivial)

end MathFn

namespace OsFn

theorem dateFields_clear {c : Calendar} {x : String × Value} (h : x ∈ dateFields c) :
    x.2.Clear w := by
  simp only [dateFields, List.mem_cons, List.not_mem_nil, or_false] at h
  rcases h with rfl | rfl | rfl | rfl | rfl | rfl | rfl | rfl | rfl <;> trivial

theorem setFields {id : Nat} (hid : ¬ w.table id) (l : List (String × Value)) {s : Store}
    (hs : s.Confined w) (hl : ∀ x ∈ l, x.2.Clear w) :
    (l.foldl (fun s (k, v) => s.rawSetStr id k v) s).Confined w := by
  induction l generalizing s with
  | nil => exact hs
  | cons x l ih =>
    obtain ⟨hx, hl⟩ := List.forall_mem_cons.mp hl
    exact ih (hs.rawSetStr hid _ hx) hl

theorem runDate_keeps (args : List Value) : Keeps w (runDate args) (Clears w) := by
  refine .bind (.optText ..) fun format _ => ?_
  extract_lets shown rest
  have hrest (t : Int) : Keeps w (rest t) (Clears w) := by
    simp only [rest]
    refine .ite ?_ (.ended (.complain _))
    split
    · refine .bind (Q := fun id => ¬ w.table id) (.updateGet fun s hs => ?_) fun id hid => ?_
      · exact ⟨hs.fresh_table, hs.newTable_empty⟩
      · refine .bind (.update (Q := fun _ => True) trivial fun s hs => ?_) fun _ _ => .pure (.one hid)
        exact setFields hid _ hs fun _ => dateFields_clear
    · split
      · exact .pure (.one trivial)
      · exact .badArgument ..
  split
  · exact .bind .look fun t _ => hrest t
  · refine .bind (.checkInt ..) fun _ _ => ?_
    exact .bind (Q := fun _ => True) (.pure trivial) fun t _ => hrest t

theorem dateField_keeps {t : Value} (ht : t.Clear w) (name : String) (default : Option Int)
    (delta : Int) : Keeps w (dateField t name default delta) fun _ => True := by
  refine .bind (.index ht trivial) fun v _ => ?_
  split
  · split
    · exact .pure trivial
    · exact .complain _
  · split
    · exact .ite (.pure trivial) (.ended (.complain _))
    · exact .complain _

theorem runTime_keeps (ha : Clears w args) : Keeps w (runTime args) (Clears w) := by
  unfold runTime
  split
  · exact .bind .look fun _ _ => .pure (.one trivial)
  · refine .bind (.checkTable ha 1) fun id hid => ?_
    extract_lets t
    have ht : t.Clear w := hid
    refine .bind (dateField_keeps ht ..) fun year _ => ?_
    refine .bind (dateField_keeps ht ..) fun month _ => ?_
    refine .bind (dateField_keeps ht ..) fun day _ => ?_
    refine .bind (dateField_keeps ht ..) fun hour _ => ?_
    refine .bind (dateField_keeps ht ..) fun minute _ => ?_
    refine .bind (dateField_keeps ht ..) fun second _ => ?_
    refine .bind (.index ht trivial) fun _ _ => ?_
    extract_lets seconds c rest
    refine .bind (.forIn fun x hx => ?_) fun _ _ => ?_
    · exact .bind (.assign ht trivial (dateFields_clear hx)) fun _ _ => .pure rfl
    · exact .ite (.ended (.complain _)) (.pure (.one trivial))

theorem run_keeps (f : OsFn) (ha : Clears w args) : Keeps w (f.run args) (Clears w) := by
  cases f with
  | clock => exact .pure (.one trivial)
  | date => exact runDate_keeps args
  | difftime =>
    refine .bind (.checkInt ..) fun _ _ => ?_
    exact .bind (.checkInt ..) fun _ _ => .pure (.one trivial)
  | execute =>
    unfold run
    simp only
    split
    · exact .pure (.one trivial)
    · exact .bind (.checkText ..) fun _ _ => .pure (.cons trivial (.cons trivial (.one trivial)))
  | exit => exact .complain _
  | getenv => exact .bind (.checkText ..) fun _ _ => .pure (.one trivial)
  | remove =>
    exact .bind (.checkText ..) fun _ _ => .pure (.cons trivial (.cons trivial (.one trivial)))
  | rename =>
    refine .bind (.checkText ..) fun _ _ => ?_
    exact .bind (.checkText ..) fun _ _ => .pure (.cons trivial (.cons trivial (.one trivial)))
  | setlocale =>
    refine .bind (.optText ..) fun _ _ => .pure (.one ?_)
    split <;> trivial
  | time => exact runTime_keeps ha
  | tmpname => exact .pure (.one trivial)

end OsFn

theorem IoFn.run_keeps (f : IoFn) (ha : Clears w args) : Keeps w (f.run args) (Clears w) := by
  cases f with
  | «open» =>
    exact .bind (.checkText ..) fun _ _ => .pure (.cons trivial (.cons trivial (.one trivial)))
  | lines => exact .bind (.optText ..) fun _ _ => .complain _
  | type => exact .bind (.checkAny ha 1) fun _ _ => .pure (.one trivial)
  | _ => exact .pure (.one trivial)

theorem PackageFn.run_keeps (f : PackageFn) (ho : w.Open) (args : List Value) :
    Keeps w (f.run args) (Clears w) := by
  cases f with
  | loadlib => exact .ofHost (.fail _)
  | searchpath =>
    refine .bind (.checkText ..) fun _ _ => ?_
    refine .bind (.checkText ..) fun _ _ => ?_
    refine .bind (.optText ..) fun _ _ => ?_
    exact .bind (.optText ..) fun _ _ => .pure (.cons trivial (.one trivial))
  | preloadSearcher => exact .bind (.checkText ..) fun name _ => BaseFn.preloadSearch_keeps ho name
  | fileSearcher => exact .bind (.checkText ..) fun name _ => BaseFn.fileSearch_keeps ho name
  | nativeSearcher => exact .pure (.one trivial)

namespace Utf8Fn

theorem runChar_keeps (args : List Value) : Keeps w (runChar args) (Clears w) := by
  refine .bind (.mapM (R := fun _ => True) (fun n => ?_) _) fun _ _ => .pure (.one trivial)
  exact .bind (.checkInt ..) fun _ _ => .ite (.pure trivial) (.ended (.badArgument ..))

theorem codesFrom_keeps (lax : Bool) (b : Bytes) (stop : Nat) : ∀ (n i : Nat),
    Keeps w (codesFrom lax b stop n i) (Clears w)
  | 0, _ => .pure .nil
  | n + 1, i => by
    unfold codesFrom
    split
    · exact .pure .nil
    · split
      · exact .bind (codesFrom_keeps lax b stop n _) fun _ hvs => .pure (.cons trivial hvs)
      · exact .complain _

theorem runCodepoint_keeps (args : List Value) : Keeps w (runCodepoint args) (Clears w) := by
  refine .bind (.checkText ..) fun b _ => ?_
  refine .bind (.optInt ..) fun i _ => ?_
  extract_lets start
  refine .bind (.optInt ..) fun j _ => ?_
  refine .ite ?_ (.ended (.badArgument ..))
  exact .ite (codesFrom_keeps ..) (.ended (.badArgument ..))

theorem runLen_keeps (args : List Value) : Keeps w (runLen args) (Clears w) := by
  refine .bind (.checkText ..) fun b _ => ?_
  refine .bind (.optInt ..) fun i _ => ?_
  extract_lets start
  refine .bind (.optInt ..) fun j _ => ?_
  refine .ite (.ite ?_ (.ended (.badArgument ..))) (.ended (.badArgument ..))
  split
  · exact .pure (.one trivial)
  · exact .pure (.cons trivial (.one trivial))

theorem runOffset_keeps (args : List Value) : Keeps w (runOffset args) (Clears w) := by
  refine .bind (.checkText ..) fun b _ => ?_
  refine .bind (.checkInt ..) fun n _ => ?_
  refine .bind (.optInt ..) fun j _ => ?_
  extract_lets i place answer rest
  have hanswer (r : Option Nat) : Keeps w (answer r) (Clears w) := by
    cases r <;> exact .pure (.one trivial)
  clear_value answer
  refine .ite (.ite (hanswer _) (.ite (.complain _) ?_)) (.ended (.badArgument ..))
  exact .ite (hanswer _) (hanswer _)

theorem runCodes_keeps (args : List Value) : Keeps w (runCodes args) (Clears w) := by
  refine .bind (.checkText ..) fun b _ => ?_
  refine .ite (.ended (.badArgument ..)) ?_
  refine .bind (Q := Value.Clear w) (.updateGet fun s hs => ?_) fun v hv => ?_
  · exact ⟨hs.clear_newNative _, hs.newNative trivial⟩
  · exact .pure (.cons hv (.cons trivial (.one trivial)))

theorem runCodesStep_keeps (lax : Bool) (args : List Value) :
    Keeps w (runCodesStep lax args) (Clears w) := by
  refine .bind (.checkText ..) fun b _ => ?_
  refine .ite (.pure .nil) (.ite (.pure .nil) ?_)
  split
  · exact .ite (.ended (.complain _)) (.pure (.cons trivial (.one trivial)))
  · exact .complain _

theorem run_keeps (f : Utf8Fn) (args : List Value) : Keeps w (f.run args) (Clears w) := by
  cases f with
  | char => exact runChar_keeps args
  | codepoint => exact runCodepoint_keeps args
  | codes => exact runCodes_keeps args
  | len => exact runLen_keeps args
  | offset => exact runOffset_keeps args

end Utf8Fn

end Cordon.Lua
