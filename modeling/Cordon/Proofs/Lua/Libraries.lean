import Cordon.Proofs.Lua.Laws

/-!
# The libraries keep laws

Library functions change nothing by themselves but tables, variables and the like.
-/

namespace Cordon.Lua

open Script

variable {R : Machine → Machine → Prop} {ctx : Ctx} (h : ctx.Lawful R)

include h

/-! ## Base -/

namespace BaseFn

@[grind ←]
theorem raiseAt_obeys {α : Type} (v : Value) (level : Int64) :
    Obeys R ctx (raiseAt v level : Script α) := by
  unfold raiseAt
  grind

@[grind ←]
theorem runAssert_obeys (args : List Value) : Obeys R ctx (runAssert args) := by
  unfold runAssert
  grind

@[grind ←]
theorem runCollect_obeys (args : List Value) : Obeys R ctx (runCollect args) := by
  unfold runCollect
  grind

@[grind ←]
theorem runGetmetatable_obeys (args : List Value) : Obeys R ctx (runGetmetatable args) := by
  unfold runGetmetatable
  grind

@[grind ←]
theorem runSetmetatable_obeys (args : List Value) : Obeys R ctx (runSetmetatable args) := by
  unfold runSetmetatable
  refine .bind h (checkTable_obeys h _ _) fun id => ?_
  split <;> grind

@[grind ←]
theorem runNext_obeys (args : List Value) : Obeys R ctx (runNext args) := by
  unfold runNext
  grind

@[grind ←]
theorem runPairs_obeys (args : List Value) : Obeys R ctx (runPairs args) := by
  unfold runPairs
  grind

@[grind ←]
theorem runIpairs_obeys (args : List Value) : Obeys R ctx (runIpairs args) := by
  unfold runIpairs
  grind

@[grind ←]
theorem runIpairsStep_obeys (args : List Value) : Obeys R ctx (runIpairsStep args) := by
  unfold runIpairsStep
  grind

@[grind ←]
theorem runRawget_obeys (args : List Value) : Obeys R ctx (runRawget args) := by
  unfold runRawget
  grind

@[grind ←]
theorem runRawset_obeys (args : List Value) : Obeys R ctx (runRawset args) := by
  unfold runRawset
  refine .bind h (checkTable_obeys h _ _) fun id => .bind h (checkAny_obeys h _ _) fun k =>
    .bind h (checkAny_obeys h _ _) fun v => ?_
  grind

@[grind ←]
theorem runRawlen_obeys (args : List Value) : Obeys R ctx (runRawlen args) := by
  unfold runRawlen
  grind

@[grind ←]
theorem runSelect_obeys (args : List Value) : Obeys R ctx (runSelect args) := by
  unfold runSelect
  grind

@[grind ←]
theorem runTonumber_obeys (args : List Value) : Obeys R ctx (runTonumber args) := by
  unfold runTonumber
  grind

@[grind ←]
theorem readPieces_obeys (reader : Value) : ∀ (n : Nat) (acc : Bytes),
    Obeys R ctx (readPieces reader n acc)
  | 0, _ => .pure h _
  | n + 1, acc => by
    have ih := readPieces_obeys reader n
    unfold readPieces
    grind

omit h in
@[grind .]
theorem instantiate_still (s : Store) (chunk : Bytes) (f : Func) (environment : Value) :
    s.Still (s.instantiate chunk f environment).2 := by
  have hcell : s.Still (s.newCell environment).2 := .of_eq rfl rfl
  exact hcell.trans (.newFunction ..)

@[grind ←]
theorem runLoad_obeys (args : List Value) : Obeys R ctx (runLoad args) := by
  refine .bind h (optText_obeys h _ _ _) fun mode => ?_
  extract_lets finish
  have hfinish (source chunk : Bytes) : Obeys R ctx (finish source chunk) := by
    refine .bind h (read_obeys h _) fun r => ?_
    split
    · exact .pure h _
    · split <;> exact .bind h (by grind) fun _ =>
        .bind h (.updateGet h fun s => instantiate_still s ..) fun _ => .pure h _
  split
  · exact .bind h (optText_obeys h _ _ _) fun _ => hfinish _ _
  · refine .bind h (optText_obeys h _ _ _) fun chunk => .bind h (checkFunction_obeys h _ _) fun reader =>
      .bind h (readPieces_obeys h _ _ _) fun r => ?_
    split
    · exact hfinish _ _
    · grind

@[grind ←]
theorem preloadSearch_obeys (name : Bytes) : Obeys R ctx (preloadSearch name) := by
  unfold preloadSearch
  grind

@[grind ←]
theorem fileSearch_obeys (name : Bytes) : Obeys R ctx (fileSearch name) := by
  unfold fileSearch
  grind

@[grind ←]
theorem findLoader_obeys (searchers : Value) (name : Bytes) : ∀ (n : Nat) (i : Int64) (message : Bytes),
    Obeys R ctx (findLoader searchers name n i message)
  | 0, _, _ => complain_obeys h _
  | n + 1, i, message => by
    have ih := findLoader_obeys searchers name n
    unfold findLoader
    grind

@[grind ←]
theorem runRequire_obeys (args : List Value) : Obeys R ctx (runRequire args) := by
  unfold runRequire
  refine .bind h (checkText_obeys h _ _) fun name => .bind h (read_obeys h _) fun loaded =>
    .bind h (index_obeys h _ _) fun found => ?_
  split
  · exact .pure h _
  · refine .bind h (read_obeys h _) fun package => .bind h (index_obeys h _ _) fun searchers => ?_
    split
    · refine .bind h (findLoader_obeys h _ _ _ _ _) fun p => .bind h (checkText_obeys h _ _) fun _ =>
        .bind h (call_obeys h _ _) fun rs => ?_
      grind
    · refine .bind h (complain_obeys h _) fun _ => .bind h (findLoader_obeys h _ _ _ _ _) fun p =>
        .bind h (checkText_obeys h _ _) fun _ => .bind h (call_obeys h _ _) fun rs => ?_
      grind

@[grind ←]
theorem run_obeys (f : BaseFn) (args : List Value) : Obeys R ctx (f.run args) := by
  unfold run
  grind

end BaseFn

/-! ## Threads -/

namespace CoroutineFn

@[grind ←]
theorem threadState_obeys (id : Nat) : Obeys R ctx (threadState id) := .lift h (.thread h id)

@[grind ←]
theorem newThread_obeys (args : List Value) : Obeys R ctx (newThread args) :=
  .bind h (checkFunction_obeys h _ _) fun _ => .lift h (.newThread h trivial)

@[grind ←]
theorem runClose_obeys (args : List Value) : Obeys R ctx (runClose args) := by
  have hdead (id : Nat) : Obeys R ctx (setThreadState id (.dead none)) :=
    .lift h (.setThread h id trivial)
  unfold runClose
  grind

@[grind ←]
theorem run_obeys (f : CoroutineFn) (args : List Value) : Obeys R ctx (f.run args) := by
  unfold run
  grind

end CoroutineFn

/-! ## Files, dates and modules -/

@[grind ←]
theorem IoFn.run_obeys (f : IoFn) (args : List Value) : Obeys R ctx (f.run args) := by
  unfold IoFn.run
  grind

@[grind ←]
theorem PackageFn.run_obeys (f : PackageFn) (args : List Value) : Obeys R ctx (f.run args) := by
  unfold PackageFn.run
  grind

namespace OsFn

@[grind ←]
theorem runDate_obeys (args : List Value) : Obeys R ctx (runDate args) := by
  have hfill (l : List (String × Value)) (id : Nat) :
      Obeys R ctx (update fun s => l.foldl (fun s x => s.rawSetStr id x.1 x.2) s) :=
    .update h fun s => Store.Still.foldl (fun s x => .rawSetStr s id _ _) l s
  unfold runDate
  refine .bind h (optText_obeys h _ _ _) fun format => ?_
  extract_lets shown write
  have hwrite (t : Int) : Obeys R ctx (write t) := by
    simp only [write]
    split
    · split
      · exact .bind h (.updateGet h fun s => .newTable s _) fun id => .bind h (hfill _ _) fun _ => .pure h _
      · split
        · exact .pure h _
        · exact badArgument_obeys h _ _
    · refine .bind h (complain_obeys h _) fun _ => ?_
      split
      · exact .bind h (.updateGet h fun s => .newTable s _) fun id => .bind h (hfill _ _) fun _ => .pure h _
      · split
        · exact .pure h _
        · exact badArgument_obeys h _ _
  split
  · exact .bind h (read_obeys h _) hwrite
  · exact .bind h (checkInt_obeys h _ _) fun _ => .bind h (.pure h _) hwrite

@[grind ←]
theorem dateField_obeys (t : Value) (name : String) (default : Option Int) (delta : Int) :
    Obeys R ctx (dateField t name default delta) := by
  unfold dateField
  grind

@[grind ←]
theorem runTime_obeys (args : List Value) : Obeys R ctx (runTime args) := by
  unfold runTime
  split
  · grind
  · refine .bind h (checkTable_obeys h _ _) fun id => ?_
    iterate 6 refine .bind h (dateField_obeys h _ _ _ _) fun _ => ?_
    refine .bind h (index_obeys h _ _) fun _ => ?_
    grind

@[grind ←]
theorem run_obeys (f : OsFn) (args : List Value) : Obeys R ctx (f.run args) := by
  unfold run
  grind

end OsFn

/-! ## Numbers -/

namespace MathFn


@[grind ←]
theorem runAbs_obeys (args : List Value) : Obeys R ctx (runAbs args) := by
  unfold runAbs
  grind

@[grind ←]
theorem runFmod_obeys (args : List Value) : Obeys R ctx (runFmod args) := by
  unfold runFmod
  grind

@[grind ←]
theorem runModf_obeys (args : List Value) : Obeys R ctx (runModf args) := by
  unfold runModf
  grind

@[grind ←]
theorem runLog_obeys (args : List Value) : Obeys R ctx (runLog args) := by
  unfold runLog
  grind

@[grind ←]
theorem onFloat_obeys (args : List Value) (f : Float → Float) : Obeys R ctx (onFloat args f) := by
  unfold onFloat
  grind

@[grind ←]
theorem rounded_obeys (args : List Value) (f : Double → Double) : Obeys R ctx (rounded args f) := by
  unfold rounded
  grind

@[grind ←]
theorem extreme_obeys (args : List Value) {precedes : Value → Value → Script Bool}
    (hp : ∀ v best, Obeys R ctx (precedes v best)) : Obeys R ctx (extreme args precedes) := by
  unfold extreme
  grind

@[grind ←]
theorem draw_obeys : Obeys R ctx (draw) := by
  unfold draw
  grind

@[grind ←]
theorem runRandom_obeys (args : List Value) : Obeys R ctx (runRandom args) := by
  unfold runRandom
  grind

@[grind ←]
theorem runRandomseed_obeys (args : List Value) : Obeys R ctx (runRandomseed args) := by
  unfold runRandomseed
  split
  · grind
  · split <;> grind

@[grind ←]
theorem runTointeger_obeys (args : List Value) : Obeys R ctx (runTointeger args) := by
  unfold runTointeger
  grind

@[grind ←]
theorem runType_obeys (args : List Value) : Obeys R ctx (runType args) := by
  unfold runType
  grind

@[grind ←]
theorem run_obeys (f : MathFn) (args : List Value) : Obeys R ctx (f.run args) := by
  unfold run
  grind

end MathFn

/-! ## Encodings -/

namespace Utf8Fn

@[grind ←]
theorem runChar_obeys (args : List Value) : Obeys R ctx (runChar args) := by
  unfold runChar
  grind

@[grind ←]
theorem codesFrom_obeys (lax : Bool) (b : Bytes) (stop : Nat) : ∀ n i : Nat,
    Obeys R ctx (codesFrom lax b stop n i)
  | 0, _ => .pure h _
  | n + 1, i => by
    have ih := codesFrom_obeys lax b stop n
    unfold codesFrom
    grind

@[grind ←]
theorem runCodepoint_obeys (args : List Value) : Obeys R ctx (runCodepoint args) := by
  unfold runCodepoint
  grind

@[grind ←]
theorem runLen_obeys (args : List Value) : Obeys R ctx (runLen args) := by
  unfold runLen
  grind

@[grind ←]
theorem runOffset_obeys (args : List Value) : Obeys R ctx (runOffset args) := by
  unfold runOffset
  grind

@[grind ←]
theorem runCodes_obeys (args : List Value) : Obeys R ctx (runCodes args) := by
  unfold runCodes
  grind

@[grind ←]
theorem runCodesStep_obeys (lax : Bool) (args : List Value) : Obeys R ctx (runCodesStep lax args) := by
  unfold runCodesStep
  grind

@[grind ←]
theorem run_obeys (f : Utf8Fn) (args : List Value) : Obeys R ctx (f.run args) := by
  unfold run
  grind

end Utf8Fn

/-! ## Tables -/

namespace TableFn

@[grind ←]
theorem checkTableLike_obeys (args : List Value) (n : Nat) (methods : List Bytes) :
    Obeys R ctx (checkTableLike args n methods) := by
  unfold checkTableLike
  grind

@[grind ←]
theorem getAt_obeys (t : Value) (i : Int64) : Obeys R ctx (getAt t i) := by
  unfold getAt
  grind

@[grind ←]
theorem setAt_obeys (t : Value) (i : Int64) (v : Value) : Obeys R ctx (setAt t i v) := by
  unfold setAt
  grind

@[grind ←]
theorem checkLength_obeys (args : List Value) (methods : List Bytes) :
    Obeys R ctx (checkLength args methods) := by
  unfold checkLength
  grind

theorem runConcat_go_obeys (t : Value) (sep : Bytes) : ∀ (k : Nat) (i : Int64) (acc : Bytes),
    Obeys R ctx (runConcat.go t sep k i acc)
  | 0, _, _ => .pure h _
  | k + 1, i, acc => by
    have ih := runConcat_go_obeys t sep k
    unfold runConcat.go
    grind

@[grind ←]
theorem runConcat_obeys (args : List Value) : Obeys R ctx (runConcat args) := by
  have hgo := runConcat_go_obeys h
  unfold runConcat
  grind

@[grind ←]
theorem runInsert_obeys (args : List Value) : Obeys R ctx (runInsert args) := by
  unfold runInsert
  refine .bind h (checkLength_obeys h _ _) fun p => ?_
  split
  split
  · grind
  · refine .bind h (checkInt_obeys h _ _) fun i => ?_
    grind
  · grind

@[grind ←]
theorem runRemove_obeys (args : List Value) : Obeys R ctx (runRemove args) := by
  unfold runRemove
  refine .bind h (checkLength_obeys h _ _) fun p => .bind h (optInt_obeys h _ _ _) fun i => ?_
  grind

@[grind ←]
theorem runMove_obeys (args : List Value) : Obeys R ctx (runMove args) := by
  unfold runMove
  iterate 3 refine .bind h (checkInt_obeys h _ _) fun _ => ?_
  iterate 2 refine .bind h (checkTableLike_obeys h _ _ _) fun _ => ?_
  grind

@[grind ←]
theorem runPack_obeys (args : List Value) : Obeys R ctx (runPack args) := by
  unfold runPack
  grind

@[grind ←]
theorem runUnpack_obeys (args : List Value) : Obeys R ctx (runUnpack args) := by
  unfold runUnpack
  grind

@[grind ←]
theorem setTwo_obeys (t : Value) (i j : Int64) (a b : Value) : Obeys R ctx (setTwo t i j a b) := by
  unfold setTwo
  grind

@[grind ←]
theorem before_obeys (order a b : Value) : Obeys R ctx (before order a b) := by
  unfold before
  grind

@[grind ←]
theorem invalidOrder_obeys {α : Type} : Obeys R ctx (invalidOrder : Script α) := by
  unfold invalidOrder
  grind

@[grind ←]
theorem scanUp_obeys (t order pivot : Value) (last : Int64) : ∀ (n : Nat) (i : Int64),
    Obeys R ctx (scanUp t order pivot last n i)
  | 0, _ => invalidOrder_obeys h
  | n + 1, i => by
    have ih := scanUp_obeys t order pivot last n
    unfold scanUp
    grind

@[grind ←]
theorem scanDown_obeys (t order pivot : Value) (first : Int64) : ∀ (n : Nat) (j : Int64),
    Obeys R ctx (scanDown t order pivot first n j)
  | 0, _ => invalidOrder_obeys h
  | n + 1, j => by
    have ih := scanDown_obeys t order pivot first n
    unfold scanDown
    grind

@[grind ←]
theorem partition_obeys (t order pivot : Value) (up : Int64) : ∀ (n : Nat) (i j : Int64),
    Obeys R ctx (partition t order pivot up n i j)
  | 0, _, _ => invalidOrder_obeys h
  | n + 1, i, j => by
    have ih := partition_obeys t order pivot up n
    unfold partition
    grind

@[grind ←]
theorem orderTwo_obeys (t order : Value) (i j : Int64) : Obeys R ctx (orderTwo t order i j) := by
  unfold orderTwo
  grind

@[grind ←]
theorem sortRange_obeys (t order : Value) : ∀ (n : Nat) (lo up : Int64),
    Obeys R ctx (sortRange t order n lo up)
  | 0, _, _ => .pure h _
  | n + 1, lo, up => by
    have ih := sortRange_obeys t order n
    unfold sortRange
    split
    · exact .pure h _
    · refine .bind h (orderTwo_obeys h _ _ _ _) fun _ => ?_
      split
      · exact .pure h _
      · refine .bind h (getAt_obeys h _ _) fun a => .bind h (getAt_obeys h _ _) fun b =>
          .bind h (before_obeys h _ _ _) fun r => ?_
        extract_lets rest
        have hrest (u : PUnit) : Obeys R ctx (rest u) := by
          simp only [rest]
          split
          · exact .pure h _
          · refine .bind h (getAt_obeys h _ _) fun pivot => .bind h (getAt_obeys h _ _) fun v =>
              .bind h (setTwo_obeys h _ _ _ _ _) fun _ =>
              .bind h (partition_obeys h _ _ _ _ _ _ _) fun q => ?_
            grind
        split
        · exact .bind h (setTwo_obeys h _ _ _ _ _) hrest
        · refine .bind h (getAt_obeys h _ _) fun b => .bind h (before_obeys h _ _ _) fun r => ?_
          split
          · exact .bind h (setTwo_obeys h _ _ _ _ _) hrest
          · exact hrest ()

@[grind ←]
theorem runSort_obeys (args : List Value) : Obeys R ctx (runSort args) := by
  unfold runSort
  grind

@[grind ←]
theorem run_obeys (f : TableFn) (args : List Value) : Obeys R ctx (f.run args) := by
  unfold run
  grind

end TableFn

/-! ## Texts -/

namespace Format

@[grind ←]
theorem literal_obeys (args : List Value) (n : Nat) : Obeys R ctx (literal args n) := by
  unfold literal
  grind

@[grind ←]
theorem refuse_obeys {α : Type} (modifiers : List Char) (letter : Char) :
    Obeys R ctx (refuse modifiers letter : Script α) := by
  unfold refuse
  grind

@[grind ←]
theorem checkSpec_obeys (modifiers : List Char) (letter : Char) :
    Obeys R ctx (checkSpec modifiers letter) := by
  unfold checkSpec
  grind

@[grind ←]
theorem convert_obeys (modifiers : List Char) (letter : Char) (args : List Value) (n : Nat) :
    Obeys R ctx (convert modifiers letter args n) := by
  unfold convert
  grind

@[grind ←]
theorem run_obeys (args : List Value) : ∀ (fuel : Nat) (cs : List Char) (n : Nat) (acc : Bytes),
    Obeys R ctx (run args fuel cs n acc)
  | 0, _, _, _ => .pure h _
  | fuel + 1, cs, n, acc => by
    have ih := run_obeys args fuel
    unfold run
    grind

end Format

namespace StringFn

@[grind ←]
theorem runSub_obeys (args : List Value) : Obeys R ctx (runSub args) := by
  unfold runSub
  grind

@[grind ←]
theorem runByte_obeys (args : List Value) : Obeys R ctx (runByte args) := by
  unfold runByte
  grind

@[grind ←]
theorem runChar_obeys (args : List Value) : Obeys R ctx (runChar args) := by
  unfold runChar
  grind

@[grind ←]
theorem runRep_obeys (args : List Value) : Obeys R ctx (runRep args) := by
  unfold runRep
  grind

@[grind ←]
theorem runDump_obeys (args : List Value) : Obeys R ctx (runDump args) := by
  unfold runDump
  grind

@[grind ←]
theorem ofPattern_obeys {α : Type} (r : Except String α) : Obeys R ctx (ofPattern r) := by
  unfold ofPattern
  grind

@[grind ←]
theorem captureValue_obeys (src : Bytes) (c : Pattern.Capture) : Obeys R ctx (captureValue src c) := by
  unfold captureValue
  grind

@[grind ←]
theorem captures_obeys (src : Bytes) (whole : Bool) (start stop : Nat) (caps : Array Pattern.Capture) :
    Obeys R ctx (captures src whole start stop caps) := by
  unfold captures
  grind

@[grind ←]
theorem runFind_obeys (isFind : Bool) (args : List Value) : Obeys R ctx (runFind isFind args) := by
  unfold runFind
  iterate 2 refine .bind h (checkText_obeys h _ _) fun _ => ?_
  refine .bind h (optInt_obeys h _ _ _) fun start => ?_
  grind

@[grind ←]
theorem runGmatch_obeys (args : List Value) : Obeys R ctx (runGmatch args) := by
  unfold runGmatch
  iterate 2 refine .bind h (checkText_obeys h _ _) fun _ => ?_
  refine .bind h (optInt_obeys h _ _ _) fun start => ?_
  grind

@[grind ←]
theorem runGmatchStep_obeys (src pat : Bytes) (cell : Nat) :
    Obeys R ctx (runGmatchStep src pat cell) := by
  unfold runGmatchStep
  iterate 2 refine .bind h (read_obeys h _) fun _ => ?_
  refine .bind h (ofPattern_obeys h _) fun found => ?_
  split
  · exact .pure h _
  · exact .bind h (.update h fun s => .of_eq rfl rfl) fun _ => captures_obeys h _ _ _ _ _

@[grind ←]
theorem capture_obeys (src : Bytes) (start stop : Nat) (caps : Array Pattern.Capture) (n : Nat) :
    Obeys R ctx (capture src start stop caps n) := by
  unfold capture
  grind

@[grind ←]
theorem fillIn_obeys (src : Bytes) (start stop : Nat) (caps : Array Pattern.Capture) (cs : List UInt8)
    (acc : Bytes) : Obeys R ctx (fillIn src start stop caps cs acc) := by
  fun_induction fillIn src start stop caps cs acc <;> grind

@[grind ←]
theorem replacement_obeys (src : Bytes) (repl : Value) (start stop : Nat)
    (caps : Array Pattern.Capture) : Obeys R ctx (replacement src repl start stop caps) := by
  unfold replacement
  grind

@[grind ←]
theorem substitute_obeys (src pat : Bytes) (repl : Value) (anchored : Bool) (limit : Nat) :
    ∀ (n s : Nat) (last : Int) (acc : Bytes) (count : Nat),
    Obeys R ctx (substitute src pat repl anchored limit n s last acc count)
  | 0, _, _, _, _ => .pure h _
  | n + 1, s, last, acc, count => by
    have ih := substitute_obeys src pat repl anchored limit n
    unfold substitute
    grind

@[grind ←]
theorem runGsub_obeys (args : List Value) : Obeys R ctx (runGsub args) := by
  unfold runGsub
  grind

@[grind ←]
theorem otherArith_obeys (name : Bytes) (a b : Value) : Obeys R ctx (otherArith name a b) := by
  unfold otherArith
  grind

@[grind ←]
theorem runArith_obeys (op : ArithOp) (args : List Value) : Obeys R ctx (runArith op args) := by
  unfold runArith
  grind

@[grind ←]
theorem runNeg_obeys (args : List Value) : Obeys R ctx (runNeg args) := by
  unfold runNeg
  grind

@[grind ←]
theorem packAll_obeys (args : List Value) (items : List (Packed × Bool)) (n : Nat) (acc : Bytes) :
    Obeys R ctx (packAll args items n acc) := by
  fun_induction packAll args items n acc <;> grind

@[grind ←]
theorem unpackAll_obeys (b : Bytes) : ∀ (items : List (Packed × Bool)) (i : Nat) (acc : List Value),
    Obeys R ctx (unpackAll b items i acc)
  | [], _, _ => .pure h _
  | (item, little) :: rest, i, acc => by
    have ih := unpackAll_obeys b rest
    unfold unpackAll
    grind

@[grind ←]
theorem formatItems_obeys (args : List Value) : Obeys R ctx (formatItems args) := by
  unfold formatItems
  grind

@[grind ←]
theorem runPacksize_obeys (args : List Value) : Obeys R ctx (runPacksize args) := by
  unfold runPacksize
  grind

@[grind ←]
theorem runUnpack_obeys (args : List Value) : Obeys R ctx (runUnpack args) := by
  unfold runUnpack
  grind

@[grind ←]
theorem run_obeys (f : StringFn) (args : List Value) : Obeys R ctx (f.run args) := by
  unfold run
  grind

end StringFn

/-! ## The sandbox's own functions -/

@[grind ←]
theorem StubFn.run_obeys (f : StubFn) (args : List Value) : Obeys R ctx (f.run args) := by
  unfold StubFn.run
  grind

end Cordon.Lua

namespace Cordon

open Lua

variable {R : Machine → Machine → Prop} {ctx : Ctx} (h : ctx.Lawful R)

include h

namespace ModuleSystem

@[grind ←]
theorem searchPreload_obeys (m : ModuleSystem) (name : Bytes) : Obeys R ctx (m.searchPreload name) := by
  have hentry (preload : Nat) : Obeys R ctx (Host.ofScript (Script.index (.table preload) (.str name))) :=
    Host.ofScript_obeys h fun _ h => Script.index_obeys h _ _
  unfold searchPreload
  grind

@[grind ←]
theorem searchAllowed_obeys (m : ModuleSystem) (name : Bytes) : Obeys R ctx (m.searchAllowed name) :=
  Host.read_obeys h _

@[grind ←]
theorem find_obeys (m : ModuleSystem) (name : Bytes) : Obeys R ctx (m.find name) := by
  unfold find
  grind

omit h in
@[grind .]
theorem record_still (s : Store) (loaded : Nat) (name value : Value) :
    s.Still (s.record loaded name value) := by
  unfold Store.record
  split
  · exact .rawSet ..
  · exact .refl s

@[grind ←]
theorem finish_obeys (m : ModuleSystem) (name : Bytes) (value : Value) :
    Obeys R ctx (m.finish name value) :=
  .bind h (.update h fun s => (record_still s ..).trans (.report ..)) fun _ => .pure h _

@[grind ←]
theorem resolve_obeys (m : ModuleSystem) (name : Bytes) : Obeys R ctx (m.resolve name) := by
  unfold resolve
  grind

@[grind ←]
theorem require_obeys (m : ModuleSystem) (name : String) : Obeys R ctx (m.require name) := by
  unfold require
  grind

end ModuleSystem

@[grind ←]
theorem privilegedRequire_obeys (module : String) : Obeys R ctx (privilegedRequire module) := by
  unfold privilegedRequire Host.globals
  grind

namespace Sandbox

@[grind ←]
theorem require_obeys (b : Sandbox) (module : String) (exposed : Option String) :
    Obeys R ctx (b.require module exposed) := by
  unfold require Sandbox.bind
  grind

@[grind ←]
theorem allow_obeys (b : Sandbox) (module : String) (exposed : Option String) :
    Obeys R ctx (b.allow module exposed) :=
  .bind h (privilegedRequire_obeys h module) fun _ => .update h fun _ => .of_eq rfl rfl

@[grind ←]
theorem remove_obeys (b : Sandbox) (exposed : String) : Obeys R ctx (b.remove exposed) :=
  .update h fun _ => .of_eq rfl rfl

end Sandbox

end Cordon

namespace Cordon.Lua

variable {R : Machine → Machine → Prop} {ctx : Ctx} (h : ctx.Lawful R)

include h

namespace GateFn

@[grind ←]
theorem texts_obeys (tostring : Value) : ∀ args : List Value, Obeys R ctx (texts tostring args)
  | [] => .pure h _
  | v :: vs => by
    have ih := texts_obeys tostring vs
    unfold texts
    grind

@[grind ←]
theorem checkString_obeys (function : String) (args : List Value) (n : Nat) :
    Obeys R ctx (checkString function args n) := by
  unfold checkString
  grind

@[grind ←]
theorem checkName_obeys (function : String) (args : List Value) (n : Nat) :
    Obeys R ctx (checkName function args n) := by
  unfold checkName
  grind

@[grind ←]
theorem optName_obeys (function : String) (args : List Value) (n : Nat) :
    Obeys R ctx (optName function args n) := by
  unfold optName
  grind

theorem run_obeys {f : GateFn} (hf : ∀ tostring output echo, f ≠ .print tostring output echo)
    (args : List Value) : Obeys R ctx (f.run args) := by
  cases f with
  | print tostring output echo => exact absurd rfl (hf tostring output echo)
  | load => exact Host.call_obeys h _ _
  | isFatal => exact .bind h (Host.read_obeys h _) fun _ => .pure h _
  | resolve m =>
    simp only [run, runResolve]
    grind
  | finish m =>
    simp only [run, runFinish]
    grind
  | adminRequire b =>
    simp only [run, runAdminRequire]
    grind
  | adminAllow b =>
    simp only [run, runAdminAllow]
    grind
  | adminRemove b =>
    simp only [run, runAdminRemove]
    grind
  | adminPermitted b =>
    simp only [run, runAdminPermitted]
    grind

end GateFn

@[grind ←]
theorem runFaultText_obeys (args : List Value) : Obeys R ctx (runFaultText args) := by
  unfold runFaultText
  grind

theorem Native.run_obeys {f : Native}
    (hf : ∀ tostring output echo, f ≠ .gate (.print tostring output echo)) (args : List Value) :
    Obeys R ctx (f.run args) := by
  cases f with
  | gate f =>
    have hgate := GateFn.run_obeys h (fun _ _ _ e => hf _ _ _ (congrArg Native.gate e)) args
    exact .bind h (Script.ofHost_obeys h hgate) fun _ => .pure h _
  | _ =>
    simp only [run]
    grind

end Cordon.Lua
