import Cordon.Proofs.Lua.Calm
import Cordon.Proofs.Lua.Running
import Cordon.Proofs.Output
import Cordon.Proofs.Sandbox.LawfulOpening

/-!
# Printing

What a sandbox has captured is changed by its `print` alone, which appends a line. So the text that a run
reports is made of the lines that were printed in it, and the whole text of all lines since it was
cleared.
-/

namespace Cordon

open Lua

namespace Lua.Store

/-- From one store to another these lines were printed to an output: each by a call of `print` whose
conversions may have printed before it. -/
inductive Prints (out : Nat) : Store → List String → Store → Prop where
  | quiet {s s' : Store} (h : s.Still s') : Prints out s [] s'
  | line {ctx : Ctx} {tostring : Value} {echo : Bool} {args : List Value} {texts lines : List String}
      {m m' m'' : Machine} (ht : (GateFn.texts tostring args).run ctx m = some (.ok texts, m'))
      (h : Prints out m.store lines m'.store)
      (hp : (GateFn.runPrint tostring out echo args).run ctx m = some (.ok [], m'')) :
      Prints out m.store (lines ++ [String.intercalate "\t" texts]) m''.store
  | elsewhere {ctx : Ctx} {tostring : Value} {output : Nat} {echo : Bool} {args : List Value}
      {texts lines : List String} {m m' m'' : Machine} (ho : output ≠ out)
      (ht : (GateFn.texts tostring args).run ctx m = some (.ok texts, m'))
      (h : Prints out m.store lines m'.store)
      (hp : (GateFn.runPrint tostring output echo args).run ctx m = some (.ok [], m'')) :
      Prints out m.store lines m''.store
  | trans {s s' s'' : Store} {lines lines' : List String} (h : Prints out s lines s')
      (h' : Prints out s' lines' s'') : Prints out s (lines ++ lines') s''

theorem Still.output {s s' : Store} (h : s.Still s') (id : Nat) : s'.output id = s.output id := by
  rw [Store.output, h.outputs, Store.output]

theorem output_of_pushed {s s' : Store} {id id' : Nat} {line : String}
    (h : s'.outputs = s.outputs.modify id (·.push line)) (hlt : id' < s.outputs.size) :
    id' < s'.outputs.size ∧
      s'.output id' = if id = id' then (s.output id').push line else s.output id' :=
  s.output_of_modified h hlt

end Lua.Store

namespace Lua.GateFn

variable {ctx : Ctx} {tostring : Value} {output : Nat} {echo : Bool} {args : List Value}
  {m m' m'' : Machine}

theorem run_runPrint {texts : List String}
    (ht : (GateFn.texts tostring args).run ctx m = some (.ok texts, m')) :
    (runPrint tostring output echo args).run ctx m =
      some (.ok [], ⟨(if echo then m'.store.report (.printed (String.intercalate "\t" texts))
        else m'.store).printLine output (String.intercalate "\t" texts), m'.threads⟩) := by
  rw [runPrint, Host.run_bind, ht]
  cases echo <;> rfl

theorem runPrint_of_error {e : Failure}
    (ht : (GateFn.texts tostring args).run ctx m = some (.error e, m')) :
    (runPrint tostring output echo args).run ctx m = some (.error e, m') := by
  rw [runPrint, Host.run_bind, ht]

/-- All that is captured by a call of `print` that succeeds is one line. -/
theorem outputs_runPrint {texts : List String} {vs : List Value}
    (ht : (GateFn.texts tostring args).run ctx m = some (.ok texts, m'))
    (hp : (runPrint tostring output echo args).run ctx m = some (.ok vs, m'')) :
    m''.store.outputs = m'.store.outputs.modify output (·.push (String.intercalate "\t" texts)) ∧
      m''.threads = m'.threads := by
  rw [run_runPrint ht] at hp
  cases hp
  cases echo <;> exact ⟨rfl, rfl⟩

end Lua.GateFn

namespace Lua.Store

theorem Prints.law (out : Nat) : Store.Law fun s s' => ∃ lines, Prints out s lines s' where
  still h := ⟨_, .quiet h⟩
  trans := fun ⟨_, h⟩ ⟨_, h'⟩ => ⟨_, .trans h h'⟩
  print := by
    intro ctx hc tostring output echo args m r m'' hr hm
    cases ht : (GateFn.texts tostring args).run ctx m with
    | none =>
      rw [GateFn.runPrint, Host.run_bind, ht] at hr
      cases hr
    | some p =>
      obtain ⟨t, m'⟩ := p
      obtain ⟨hm', lines, h⟩ := GateFn.texts_obeys hc tostring args _ _ _ ht hm
      cases t with
      | error e =>
        rw [GateFn.runPrint_of_error ht] at hr
        cases hr
        exact ⟨hm', lines, h⟩
      | ok texts =>
        obtain rfl : r = .ok [] := by
          rw [GateFn.run_runPrint ht] at hr
          cases hr
          rfl
        have hcalm : Calm m''.threads := (GateFn.outputs_runPrint ht hr).2 ▸ hm'
        by_cases ho : output = out
        · subst ho
          exact ⟨hcalm, _, .line ht h hr⟩
        · exact ⟨hcalm, _, .elsewhere ho ht h hr⟩

theorem Prints.text {out : Nat} {s s' : Store} {lines : List String} (h : Prints out s lines s')
    (ho : out < s.outputs.size) : out < s'.outputs.size ∧
      (s'.output out).text = (s.output out).text ++ Output.printed lines := by
  induction h with
  | quiet h =>
    rw [h.outputs, h.output, Output.printed, String.append_empty]
    exact ⟨ho, rfl⟩
  | line ht _ hp ih =>
    obtain ⟨hlt, htext⟩ := ih ho
    obtain ⟨hlt', hpushed⟩ := output_of_pushed (GateFn.outputs_runPrint ht hp).1 hlt
    refine ⟨hlt', ?_⟩
    rw [hpushed, if_pos rfl, Output.push, htext, Output.printed_append, Output.printed_one,
      String.append_assoc, String.append_assoc]
  | elsewhere hne ht _ hp ih =>
    obtain ⟨hlt, htext⟩ := ih ho
    obtain ⟨hlt', hpushed⟩ := output_of_pushed (GateFn.outputs_runPrint ht hp).1 hlt
    rw [hpushed, if_neg hne]
    exact ⟨hlt', htext⟩
  | trans _ _ ih ih' =>
    obtain ⟨hlt, htext⟩ := ih ho
    obtain ⟨hlt', htext'⟩ := ih' hlt
    refine ⟨hlt', ?_⟩
    rw [htext', htext, Output.printed_append, String.append_assoc]

theorem kept_law : Store.Law fun s s' => s.outputs.size ≤ s'.outputs.size where
  still h := Nat.le_of_eq (congrArg Array.size h.outputs).symm
  trans := Nat.le_trans
  print := by
    intro ctx hc tostring output echo args
    refine .bind hc (GateFn.texts_obeys hc tostring args) fun texts => ?_
    have hprint (line : String) : Obeys (Within fun s s' => s.outputs.size ≤ s'.outputs.size) ctx
        (Host.update fun s => s.printLine output line) := by
      intro m r m' hr hm
      cases hr
      exact ⟨hm, Nat.le_of_eq (Array.size_modify ..).symm⟩
    cases echo with
    | false => exact .bind hc (hprint _) fun _ => .pure hc _
    | true =>
      exact .bind hc (.update hc fun s => .report s _) fun _ => .bind hc (hprint _) fun _ => .pure hc _

end Lua.Store

/-! ## Sandboxes that can print -/

/-- The sandbox is one of an interpreter at rest, and has a place for its output. -/
structure Sandbox.Live (b : Sandbox) (m : Machine) : Prop where
  calm : m.Calm
  output : b.output < m.store.outputs.size

theorem Machine.fresh_calm : Machine.fresh.Calm := fun t ht => by
  obtain rfl : t = .running := List.mem_singleton.mp (Array.mem_def.mp ht)
  trivial

variable {m m' : Machine} {b : Sandbox} {fuel : Nat}

theorem Sandbox.found_live {ctx : Ctx} {c : Config} {permit output g : Nat}
    (hc : ctx.Lawful (Within fun s s' => s.outputs.size ≤ s'.outputs.size)) (hm : m.Calm)
    (h : (found c).run ctx m = some (.ok (permit, output, g), m')) :
    m'.Calm ∧ output < m'.store.outputs.size := by
  unfold found at h
  split at h
  · obtain ⟨_, _, hfail, -⟩ := Host.ok_bind h
    cases hfail
  · obtain ⟨_, m₁, hpermit, h⟩ := Host.ok_bind h
    obtain ⟨_, m₂, houtput, h⟩ := Host.ok_bind h
    obtain ⟨_, m₃, hbuild, h⟩ := Host.ok_bind h
    cases h
    have hnew : m₂.Calm ∧ output < m₂.store.outputs.size := by
      cases hpermit
      cases houtput
      exact ⟨hm, by rw [Array.size_push]; exact Nat.lt_succ_self _⟩
    obtain ⟨hm', hsize⟩ := Environment.build_obeys hc c output _ _ _ hbuild hnew.1
    exact ⟨hm', Nat.lt_of_lt_of_le hnew.2 hsize⟩

theorem Sandbox.open_live {c : Config} (hm : m.Calm)
    (h : m.perform fuel (Sandbox.open c) = some (.ok b, m')) : b.Live m' := by
  have hc := Machine.outside_lawful Store.kept_law fuel
  rw [Machine.perform, open_stages] at h
  obtain ⟨⟨permit, output, g⟩, m₁, hfound, h⟩ := Host.ok_bind h
  obtain ⟨⟨b', os⟩, m₂, hfurnish, h⟩ := Host.ok_bind h
  obtain ⟨_, m₃, hregister, h⟩ := Host.ok_bind h
  obtain ⟨_, m₄, hgrant, h⟩ := Host.ok_bind h
  cases h
  have hb : b.output = output := congrArg Sandbox.output (furnish_value hfurnish)
  obtain ⟨hm₁, hlt⟩ := found_live hc hm hfound
  obtain ⟨hm₂, hfurnished⟩ := furnish_obeys hc c permit output g _ _ _ hfurnish hm₁
  obtain ⟨hm₃, hregistered⟩ := registerModule_obeys hc _ _ _ _ _ hregister hm₂
  obtain ⟨hm₄, hgranted⟩ := grant_obeys hc c b permit _ _ _ hgrant hm₃
  exact ⟨hm₄, by rw [hb]; omega⟩

end Cordon
