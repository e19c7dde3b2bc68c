import Cordon.Output

/-!
# Marks in captured output

Text only ever comes after what was there, so the number of bytes at one moment marks where the text
begins that comes later, whatever its characters are. An offset inside a character marks nothing.
-/

namespace Cordon.Output

/-- Lines as they are captured, each ended by a newline. -/
def printed : List String → String
  | [] => ""
  | line :: lines => line ++ "\n" ++ printed lines

theorem printed_append (l : List String) : ∀ l' : List String,
    printed (l' ++ l) = printed l' ++ printed l
  | [] => (String.empty_append).symm
  | line :: l' => by
    rw [List.cons_append, printed, printed, printed_append l l', ← String.append_assoc]

theorem printed_one (line : String) : printed [line] = line ++ "\n" := by
  rw [printed, printed, String.append_empty]

theorem size_cons (c : Char) (cs : List Char) :
    (String.ofList (c :: cs)).utf8ByteSize = c.utf8Size + (String.ofList cs).utf8ByteSize := by
  have h : String.ofList ([c] ++ cs) = String.singleton c ++ String.ofList cs := String.ofList_append
  rw [← List.singleton_append, h, String.utf8ByteSize_append, String.utf8ByteSize_singleton]

theorem dropBytes_append (r : List Char) : ∀ l : List Char,
    dropBytes (String.ofList l).utf8ByteSize (l ++ r) = r
  | [] => by
    show dropBytes 0 r = r
    cases r <;> rfl
  | c :: l => by
    have hc := c.utf8Size_pos
    obtain ⟨n, hn⟩ : ∃ n, (String.ofList (c :: l)).utf8ByteSize = n + 1 :=
      ⟨_, (Nat.succ_pred (by rw [size_cons]; omega)).symm⟩
    have hl : n + 1 - c.utf8Size = (String.ofList l).utf8ByteSize := by
      rw [← hn, size_cons]
      omega
    rw [hn, List.cons_append, dropBytes, if_pos (by rw [← hn, size_cons]; omega), hl]
    exact dropBytes_append r l

/-- Where something is left after so many bytes, these are the bytes of the characters before it. -/
theorem exists_of_dropBytes : ∀ (n : Nat) (cs : List Char), dropBytes n cs = [] ∨
    ∃ l, cs = l ++ dropBytes n cs ∧ (String.ofList l).utf8ByteSize = n
  | 0, cs => .inr ⟨[], by cases cs <;> rfl, rfl⟩
  | n + 1, [] => .inl rfl
  | n + 1, c :: cs => by
    rw [dropBytes]
    split
    · rcases exists_of_dropBytes (n + 1 - c.utf8Size) cs with h | ⟨l, hl, hsize⟩
      · exact .inl h
      · refine .inr ⟨c :: l, by rw [List.cons_append, ← hl], ?_⟩
        rw [size_cons, hsize]
        omega
    · exact .inl rfl

theorem since_append (t u : String) : (⟨t ++ u⟩ : Output).since (⟨t⟩ : Output).size = u := by
  have h := dropBytes_append u.toList t.toList
  rw [String.ofList_toList] at h
  rw [since, size, String.toList_append, h, String.ofList_toList]

/-! ## Arbitrary offsets -/

variable {o : Output} {k : Nat}

/-- From a character boundary on, the output is what follows the first `k` bytes. -/
theorem since_of_isValid (h : String.Pos.Raw.IsValid o.text ⟨k⟩) :
    ∃ before, o.text = before ++ o.since k ∧ before.utf8ByteSize = k := by
  obtain ⟨before, rest, htext, hk⟩ := String.Pos.Raw.isValid_iff_exists_append.mp h
  obtain rfl : k = before.utf8ByteSize := congrArg String.Pos.Raw.byteIdx hk
  refine ⟨before, ?_, rfl⟩
  have hsince : o.since before.utf8ByteSize = rest := by
    obtain ⟨text⟩ := o
    subst htext
    exact since_append before rest
  rw [hsince, htext]

theorem since_of_not_isValid (h : ¬ String.Pos.Raw.IsValid o.text ⟨k⟩) : o.since k = "" := by
  rcases exists_of_dropBytes k o.text.toList with hd | ⟨before, hd, hk⟩
  · rw [since, hd]
  · refine absurd (String.Pos.Raw.isValid_iff_exists_append.mpr
      ⟨.ofList before, .ofList (dropBytes k o.text.toList), ?_, ?_⟩) h
    · rw [← String.ofList_append, ← hd, String.ofList_toList]
    · rw [← hk]
      rfl

end Cordon.Output
