import Cordon.Proofs.Lua.Lookup
import Cordon.Proofs.Output

/-!
# Captured output and its holders

Captured output has any number of holders, who use it in turns. Main statement: whoever takes a mark, until
the output is cleared the text at the mark stays in front of all later text, and behind the mark stand
exactly the lines that came later, for every holder alike.
-/

namespace Cordon

open Lua

def Lua.Store.clearOutput (s : Store) (id : Nat) : Store :=
  { s with outputs := s.outputs.modify id Output.clear }

namespace Output

/-- What a holder does. -/
inductive Deed where
  | clone
  | push (line : String)
  | clear
  deriving DecidableEq

def Deed.line? : Deed → Option String
  | push line => some line
  | _ => none

/-- The lines that were pushed, in order. -/
def pushed (deeds : List Deed) : List String := deeds.filterMap Deed.line?

/-- The holders, each by the place of what it holds, do these deeds in turns. Who clones what it holds
makes one more holder. -/
inductive Course : Store → List Nat → List Deed → Store → List Nat → Prop where
  | nil (s : Store) (holders : List Nat) : Course s holders [] s holders
  | clone {s s' : Store} {holders holders' : List Nat} {deeds : List Deed} {holder : Nat}
      (h : holder ∈ holders) (rest : Course s (holder :: holders) deeds s' holders') :
      Course s holders (.clone :: deeds) s' holders'
  | push {s s' : Store} {holders holders' : List Nat} {deeds : List Deed} {holder : Nat} {line : String}
      (h : holder ∈ holders) (rest : Course (s.printLine holder line) holders deeds s' holders') :
      Course s holders (.push line :: deeds) s' holders'
  | clear {s s' : Store} {holders holders' : List Nat} {deeds : List Deed} {holder : Nat}
      (h : holder ∈ holders) (rest : Course (s.clearOutput holder) holders deeds s' holders') :
      Course s holders (.clear :: deeds) s' holders'

namespace Course

variable {s s' : Store} {holders holders' : List Nat}
  {deeds : List Deed} {id : Nat}

/-- Cloning is the only way to become a holder, so all hold the same output. -/
theorem same (h : Course s holders deeds s' holders') (hs : ∀ holder ∈ holders, holder = id) :
    ∀ holder ∈ holders', holder = id := by
  induction h with
  | nil => exact hs
  | clone h _ ih => exact ih (List.forall_mem_cons.mpr ⟨hs _ h, hs⟩)
  | push _ _ ih => exact ih hs
  | clear _ _ ih => exact ih hs

theorem size (h : Course s holders deeds s' holders') : s'.outputs.size = s.outputs.size := by
  induction h with
  | nil => rfl
  | clone _ _ ih => exact ih
  | push _ _ ih => exact ih.trans Array.size_modify
  | clear _ _ ih => exact ih.trans Array.size_modify

/-- Text is only put behind what is there, as long as nobody clears the output. -/
theorem text (h : Course s holders deeds s' holders') (hs : ∀ holder ∈ holders, holder = id)
    (hlt : id < s.outputs.size) (hclear : .clear ∉ deeds) :
    (s'.output id).text = (s.output id).text ++ printed (pushed deeds) := by
  induction h with
  | nil => exact (String.append_empty).symm
  | clone h _ ih =>
    exact ih (List.forall_mem_cons.mpr ⟨hs _ h, hs⟩) hlt fun hmem => hclear (.tail _ hmem)
  | @push s _ _ _ deeds holder line h _ ih =>
    have hpushed : (s.printLine holder line).outputs = s.outputs.modify holder (·.push line) := rfl
    obtain ⟨hlt', hout⟩ := s.output_of_modified hpushed hlt
    rw [ih hs hlt' fun hmem => hclear (.tail _ hmem), hout, if_pos (hs _ h)]
    show (s.output id).text ++ line ++ "\n" ++ printed (pushed deeds) =
      (s.output id).text ++ (line ++ "\n" ++ printed (pushed deeds))
    simp only [String.append_assoc]
  | clear => exact absurd (.head _) hclear

end Course

/-- Of an output that was new, whichever holder takes the mark and whichever looks: until the output is
cleared, the text is that at the mark and then the lines that were pushed since, which is what stands
behind the mark. All holders see the same. An arbitrary offset gives the rest of the text if it is a
character boundary, and nothing otherwise. -/
theorem marks_cut {s s₁ s₂ : Store} {holders₁ holders₂ : List Nat} {before after : List Deed}
    {holder viewer : Nat} (h₁ : Course s.newOutput.2 [s.newOutput.1] before s₁ holders₁)
    (h₂ : Course s₁ holders₁ after s₂ holders₂) (hclear : .clear ∉ after) (hholder : holder ∈ holders₁)
    (hviewer : viewer ∈ holders₂) :
    (s₂.output viewer).text =
        (s₁.output holder).text ++ (s₂.output viewer).since (s₁.output holder).size ∧
      (s₂.output viewer).since (s₁.output holder).size = printed (pushed after) ∧
      (∀ other ∈ holders₂, s₂.output other = s₂.output viewer) ∧
      ∀ k, (String.Pos.Raw.IsValid (s₂.output viewer).text ⟨k⟩ →
          ∃ front, (s₂.output viewer).text = front ++ (s₂.output viewer).since k ∧
            front.utf8ByteSize = k) ∧
        (¬ String.Pos.Raw.IsValid (s₂.output viewer).text ⟨k⟩ → (s₂.output viewer).since k = "") := by
  have hs₁ : ∀ holder ∈ holders₁, holder = s.newOutput.1 :=
    h₁.same fun _ h => List.mem_singleton.mp h
  have hs₂ := h₂.same hs₁
  have hlt : s.newOutput.1 < s₁.outputs.size := by
    rw [h₁.size]
    show s.outputs.size < (s.outputs.push {}).size
    rw [Array.size_push]
    exact Nat.lt_succ_self _
  have htext := h₂.text hs₁ hlt hclear
  have hsince : (s₂.output s.newOutput.1).since (s₁.output s.newOutput.1).size =
      printed (pushed after) := by
    show (⟨(s₂.output s.newOutput.1).text⟩ : Output).since _ = _
    rw [htext]
    exact since_append _ _
  rw [hs₁ _ hholder, hs₂ _ hviewer]
  refine ⟨by rw [hsince, htext], hsince, fun other hother => by rw [hs₂ _ hother], fun k => ?_⟩
  exact ⟨since_of_isValid, since_of_not_isValid⟩

/-- A new output after a line, clearing, and a text of wide characters with a newline in it. -/
def wideStore : Store :=
  ((({} : Store).newOutput.2.printLine 0 "é").clearOutput 0).printLine 0 "日\n本"

/-- A mark behind wide characters, after which a clone prints. -/
theorem marks_cut_wide :
    Course ({} : Store).newOutput.2 [0] [.push "é", .clear, .clone, .push "日\n本"] wideStore [0, 0] ∧
    Course wideStore [0, 0] [.clone, .push "ü"] (wideStore.printLine 0 "ü") [0, 0, 0] ∧
    Deed.clear ∉ [Deed.clone, .push "ü"] ∧
    ((wideStore.printLine 0 "ü").output 0).text =
      (wideStore.output 0).text ++ ((wideStore.printLine 0 "ü").output 0).since
        (wideStore.output 0).size ∧
    ((wideStore.printLine 0 "ü").output 0).since (wideStore.output 0).size = "ü\n" ∧
    ((wideStore.printLine 0 "ü").output 0).since 1 = "" := by
  have h₁ : Course ({} : Store).newOutput.2 [0] [.push "é", .clear, .clone, .push "日\n本"]
      wideStore [0, 0] :=
    .push (.head _) (.clear (.head _) (.clone (.head _) (.push (.head _) (.nil _ _))))
  have h₂ : Course wideStore [0, 0] [.clone, .push "ü"] (wideStore.printLine 0 "ü") [0, 0, 0] :=
    .clone (.head _) (.push (.head _) (.nil _ _))
  have hclear : Deed.clear ∉ [Deed.clone, .push "ü"] := by decide
  obtain ⟨htext, hsince, -, hoffset⟩ := marks_cut h₁ h₂ hclear (.head _) (.head _)
  exact ⟨h₁, h₂, hclear, htext, hsince, (hoffset 1).2 (by decide +kernel)⟩

end Output

end Cordon
