import Cordon.Proofs.Fresh
import Cordon.Proofs.Sandbox.Printing

/-!
# What runs report

A run reports the lines that were printed in it, whether it succeeds or fails, and the captured output is
made of the lines of all turns that the host has taken since it was cleared.
-/

namespace Cordon

open Lua

variable {m m' : Machine} {b : Sandbox} {fuel : Nat}

namespace Sandbox

/-- What the host does with a sandbox or a clone of it: run a source under a name, which `execute` does
under the default one, clear the captured output, or call a function. -/
inductive Turn where
  | run (source chunk : String)
  | clear
  | call (fn : Value) (args : List Value)

inductive Report where
  | ran (r : Except Failure Run)
  | cleared
  | called (r : Except Failure (List Value))

def clearOutput (b : Sandbox) (s : Store) : Store :=
  { s with outputs := s.outputs.modify b.output Output.clear }

def Turn.perform (b : Sandbox) : Turn → Host Report
  | .run source chunk => return .ran (← ExceptT.lift (b.executeNamed source chunk).run)
  | .clear => do
    Host.update b.clearOutput
    return .cleared
  | .call fn args => return .called (← ExceptT.lift (Host.call fn args).run)

/-- What a turn comes to, with the lines that were printed in it. -/
inductive Turn.Comes (b : Sandbox) (fuel : Nat) (m : Machine) :
    Turn → List String → Report → Machine → Prop where
  /-- Nothing runs, and the failure is none of a run. -/
  | uncompiled {source chunk : String} {e : Failure}
      (hc : m.perform fuel (b.load source chunk none) = some (.error e, m))
      (he : ∀ e' output, e ≠ .execution e' output) :
      Comes b fuel m (.run source chunk) [] (.ran (.error e)) m
  | returned {source chunk : String} {f : Value} {values : List Value} {lines : List String}
      {m₁ m' : Machine} (hc : m.perform fuel (b.load source chunk none) = some (.ok f, m₁))
      (hr : m₁.perform fuel (Host.call f []) = some (.ok values, m'))
      (hp : Store.Prints b.output m₁.store lines m'.store) :
      Comes b fuel m (.run source chunk) lines (.ran (.ok ⟨values, Output.printed lines⟩)) m'
  | failed {source chunk : String} {f : Value} {e : Failure} {lines : List String}
      {m₁ m' : Machine} (hc : m.perform fuel (b.load source chunk none) = some (.ok f, m₁))
      (hr : m₁.perform fuel (Host.call f []) = some (.error e, m'))
      (hp : Store.Prints b.output m₁.store lines m'.store) :
      Comes b fuel m (.run source chunk) lines
        (.ran (.error (.execution e.normalizeMemory (Output.printed lines)))) m'
  | cleared : Comes b fuel m .clear [] .cleared { m with store := b.clearOutput m.store }
  | called {fn : Value} {args : List Value} {r : Except Failure (List Value)} {lines : List String}
      {m' : Machine} (hr : m.perform fuel (Host.call fn args) = some (r, m'))
      (hp : Store.Prints b.output m.store lines m'.store) :
      Comes b fuel m (.call fn args) lines (.called r) m'

theorem compile_cases {ctx : Ctx} {source chunk : String} {env : Value} {r : Except Failure Value}
    (h : (compileSource source chunk env).run ctx m = some (r, m')) :
    (∃ f, r = .ok f ∧ m.store.Still m'.store ∧ m'.threads = m.threads) ∨
      ∃ e, r = .error (.script e) ∧ m' = m := by
  unfold compileSource at h
  split at h
  · cases h
    exact .inr ⟨_, rfl, rfl⟩
  · rw [Host.run_bind, Host.run_read] at h
    dsimp only at h
    split at h
    · cases h
      exact .inr ⟨_, rfl, rfl⟩
    · cases h
      exact .inl ⟨_, rfl, BaseFn.instantiate_still m.store .., rfl⟩

theorem run_comes (hb : b.Live m) {source chunk : String} {r : Except Failure Run}
    (h : m.perform fuel (b.executeNamed source chunk) = some (r, m')) :
    ∃ lines, Turn.Comes b fuel m (.run source chunk) lines (.ran r) m' ∧ m'.Calm := by
  have hc := Machine.outside_lawful (Store.Prints.law b.output) fuel
  rw [Machine.perform, executeNamed, Host.run_bind, Host.run_read] at h
  dsimp only at h
  rw [Host.run_bind] at h
  cases hload : (b.load source chunk none).run (Machine.outside fuel) m with
  | none =>
    rw [hload] at h
    cases h
  | some p =>
    obtain ⟨f, m₁⟩ := p
    rw [hload] at h
    obtain ⟨f, rfl, hs, hthreads⟩ | ⟨e, rfl, rfl⟩ := compile_cases hload
    · dsimp only at h
      rw [Host.run_bind, Host.run_attempt] at h
      cases hcall : (Host.call f []).run (Machine.outside fuel) m₁ with
      | none =>
        rw [hcall] at h
        cases h
      | some p =>
        obtain ⟨result, m₂⟩ := p
        have hm₁ : m₁.Calm := by
          rw [Machine.Calm, hthreads]
          exact hb.calm
        obtain ⟨hm₂, lines, hp⟩ := Host.call_obeys hc f [] _ _ _ hcall hm₁
        have htext := (hp.text (by rw [hs.outputs]; exact hb.output)).2
        have hsince : (m₂.store.output b.output).since (m.store.output b.output).size =
            Output.printed lines := by
          rw [← hs.output]
          show (⟨(m₂.store.output b.output).text⟩ : Output).since _ = _
          rw [htext]
          exact Output.since_append _ _
        rw [hcall] at h
        dsimp only [Option.map_some] at h
        rw [Host.run_bind, Host.run_read] at h
        dsimp only at h
        rw [hsince] at h
        cases result with
        | ok values =>
          cases h
          exact ⟨lines, .returned hload hcall hp, hm₂⟩
        | error e =>
          cases h
          exact ⟨lines, .failed hload hcall hp, hm₂⟩
    · cases h
      exact ⟨[], .uncompiled hload (fun _ _ he => by cases he), hb.calm⟩

def Turn.after (t : Turn) (lines : List String) (text : String) : String :=
  match t with
  | .clear => ""
  | _ => text ++ Output.printed lines

theorem Turn.Comes.text {t : Turn} {lines : List String} {r : Report} (h : t.Comes b fuel m lines r m')
    (hb : b.output < m.store.outputs.size) : b.output < m'.store.outputs.size ∧
      (m'.store.output b.output).text = t.after lines (m.store.output b.output).text := by
  have hcompiled {source chunk : String} {f : Value} {m₁ : Machine}
      (hc : m.perform fuel (b.load source chunk none) = some (.ok f, m₁))
      (hp : Store.Prints b.output m₁.store lines m'.store) : b.output < m'.store.outputs.size ∧
        (m'.store.output b.output).text = (m.store.output b.output).text ++ Output.printed lines := by
    obtain ⟨_, -, hs, -⟩ | ⟨_, he, -⟩ := compile_cases hc
    · have htext := hp.text (by rw [hs.outputs]; exact hb)
      rwa [hs.output] at htext
    · cases he
  cases h with
  | uncompiled => exact ⟨hb, (String.append_empty).symm⟩
  | returned hc _ hp => exact hcompiled hc hp
  | failed hc _ hp => exact hcompiled hc hp
  | cleared =>
    refine ⟨by rw [clearOutput, Array.size_modify]; exact hb, ?_⟩
    rw [clearOutput, Store.output, Array.getD_eq_getD_getElem?, Array.getElem?_modify, if_pos rfl,
      Array.getElem?_eq_getElem hb]
    rfl
  | called _ hp => exact hp.text hb

/-! ## Sequences of turns -/

def captured (log : List (Turn × List String × Report)) (text : String) : String :=
  log.foldl (fun text x => x.1.after x.2.1 text) text

end Sandbox

end Cordon
