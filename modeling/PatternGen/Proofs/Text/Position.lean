import Mathlib.Data.List.DropRight
import PatternGen.Proofs.Parser.Within
import PatternGen.Text.Basic

namespace PatternGen.Text

/-- The characters of a text, each with the offset of its first byte; that of the text is `n`. -/
def starts (n : Nat) : List Char → List (Nat × Char)
  | [] => []
  | c :: cs => (n, c) :: starts (n + c.utf8Size) cs

/-- The characters of a text that start before its byte `offset`. -/
def startingBefore (text : List Char) (offset : Nat) : List Char :=
  ((starts 0 text).filter (·.1 < offset)).map Prod.snd

theorem le_of_mem_starts {x : Nat × Char} (h : x ∈ starts n cs) : n ≤ x.1 := by
  induction cs generalizing n with
  | nil => cases h
  | cons c cs ih =>
    rcases List.mem_cons.1 h with rfl | h
    · exact Nat.le_refl n
    · exact Nat.le_of_add_right_le (ih h)

theorem lt_of_mem_starts {x : Nat × Char} (h : x ∈ starts n cs) : x.1 < n + byteSize cs := by
  induction cs generalizing n with
  | nil => cases h
  | cons c cs ih =>
    have hpos := c.utf8Size_pos
    rw [byteSize_cons]
    rcases List.mem_cons.1 h with rfl | h
    · dsimp only
      omega
    · have hlt := ih h
      omega

theorem map_snd_starts (n : Nat) (cs : List Char) : (starts n cs).map Prod.snd = cs := by
  induction cs generalizing n with
  | nil => rfl
  | cons c cs ih => rw [starts, List.map_cons, ih]

theorem starts_append (n : Nat) (s t : List Char) :
    starts n (s ++ t) = starts n s ++ starts (n + byteSize s) t := by
  induction s generalizing n with
  | nil => rfl
  | cons c s ih =>
    rw [List.cons_append, starts, starts, ih, List.cons_append, byteSize_cons, Nat.add_assoc]

theorem filter_starts_eq_self (h : n + byteSize cs ≤ offset) :
    (starts n cs).filter (·.1 < offset) = starts n cs := by
  apply List.filter_eq_self.2
  intro x hx
  have hlt := lt_of_mem_starts hx
  exact decide_eq_true (by omega)

theorem filter_starts_eq_nil (h : offset ≤ n) : (starts n cs).filter (·.1 < offset) = [] := by
  apply List.filter_eq_nil_iff.2
  intro x hx
  have hle := le_of_mem_starts hx
  rw [decide_eq_true_iff]
  omega

theorem startingBefore_of_le (h : byteSize text ≤ offset) : startingBefore text offset = text := by
  rw [startingBefore, filter_starts_eq_self (by omega), map_snd_starts]

/-- A cut between two characters leaves those before it. -/
theorem startingBefore_byteSize (s t : List Char) : startingBefore (s ++ t) (byteSize s) = s := by
  rw [startingBefore, starts_append, List.filter_append, filter_starts_eq_self (by omega),
    filter_starts_eq_nil (by omega), List.append_nil, map_snd_starts]

namespace Position

def Before (p q : Position) : Prop := p.line < q.line ∨ p.line = q.line ∧ p.column < q.column

theorem Before.trans {p q r : Position} (h : p.Before q) (h' : q.Before r) : p.Before r := by
  unfold Before at *
  omega

theorem before_step (p : Position) (c : Char) : p.Before (p.step c) := by
  rw [step]
  split
  · exact .inl (Nat.lt_succ_self _)
  · exact .inr ⟨rfl, Nat.lt_succ_self _⟩

/-- Each character leads to a later position. -/
theorem before_foldl_step (p : Position) (hs : s ≠ []) : p.Before (s.foldl step p) := by
  induction s generalizing p with
  | nil => exact (hs rfl).elim
  | cons c s ih =>
    cases s with
    | nil => exact before_step p c
    | cons d s => exact (before_step p c).trans (ih _ (List.cons_ne_nil d s))

theorem scan_eq_foldl (p : Position) (cs : List Char) (n offset : Nat) :
    p.scan cs (offset - n) = (((starts n cs).filter (·.1 < offset)).map Prod.snd).foldl step p := by
  induction cs generalizing p n with
  | nil => rfl
  | cons c cs ih =>
    rw [scan]
    split
    · next h =>
      rw [filter_starts_eq_nil (by omega)]
      rfl
    · next h =>
      have hcons : (starts n (c :: cs)).filter (·.1 < offset) =
          (n, c) :: (starts (n + c.utf8Size) cs).filter (·.1 < offset) :=
        List.filter_cons_of_pos (decide_eq_true (by omega))
      rw [Nat.sub_sub, ih, hcons]
      rfl

theorem ofOffset_eq_foldl (text : List Char) (offset : Nat) :
    ofOffset text offset = (startingBefore text offset).foldl step start :=
  scan_eq_foldl start text 0 offset

/-- The characters after the last line feed, or all if there is none. -/
def lastLine (cs : List Char) : List Char := cs.rtakeWhile (· ≠ '\n')

theorem lastLine_append (cs : List Char) (c : Char) :
    lastLine (cs ++ [c]) = if c = '\n' then [] else lastLine cs ++ [c] := by
  rw [lastLine, List.rtakeWhile_concat]
  simp [lastLine]

theorem foldl_step_start (cs : List Char) :
    cs.foldl step start = ⟨1 + cs.count '\n', 1 + (lastLine cs).length⟩ := by
  induction cs using List.reverseRecOn with
  | nil => rfl
  | append_singleton cs c ih =>
    rw [List.foldl_append, ih, List.foldl_cons, List.foldl_nil, step, lastLine_append]
    split
    · next h => simp [h, newline, Nat.add_assoc]
    · next h => simp [h, advance, Nat.add_assoc]

/-- The line counts the line feeds before an offset and the column the characters since the last of
them, both from one. So positions grow from one character to the next, and no further at the end. -/
theorem ofOffset_counts (text : List Char) :
    (∀ offset, ofOffset text offset =
      ⟨1 + (startingBefore text offset).count '\n',
        1 + (lastLine (startingBefore text offset)).length⟩) ∧
    (∀ a b, IsBoundary text a → IsBoundary text b → a < b →
      (ofOffset text a).Before (ofOffset text b)) ∧
    ∀ offset, byteSize text ≤ offset → ofOffset text offset = ofOffset text (byteSize text) := by
  refine ⟨?_, ?_, ?_⟩
  · intro offset
    rw [ofOffset_eq_foldl, foldl_step_start]
  · intro a b ha hb hlt
    obtain ⟨s, rest, rfl, rfl⟩ := ha
    obtain ⟨t, rest', htext, rfl⟩ := hb
    rcases List.append_eq_append_iff.1 htext with ⟨v, rfl, rfl⟩ | ⟨v, rfl, rfl⟩
    · have hv : v ≠ [] := by
        rintro rfl
        simp at hlt
      rw [ofOffset_eq_foldl, ofOffset_eq_foldl, startingBefore_byteSize, htext,
        startingBefore_byteSize, List.foldl_append]
      exact before_foldl_step _ hv
    · rw [byteSize_append] at hlt
      omega
  · intro offset h
    rw [ofOffset_eq_foldl, ofOffset_eq_foldl, startingBefore_of_le h,
      startingBefore_of_le (Nat.le_refl _)]

/-- The line feed is on the first line, and what follows it on the second. -/
theorem ofOffset_counts_two_lines :
    let text := ['é', '\n', 'x']
    ofOffset text 3 = ⟨2, 1⟩ ∧ IsBoundary text 2 ∧ IsBoundary text 3 ∧
      (ofOffset text 2).Before (ofOffset text 3) ∧
        byteSize text ≤ 9 ∧ ofOffset text 9 = ofOffset text (byteSize text) := by
  intro text
  obtain ⟨hcounts, hbefore, hpast⟩ := ofOffset_counts text
  have h2 : IsBoundary text 2 := ⟨['é'], ['\n', 'x'], rfl, rfl⟩
  have h3 : IsBoundary text 3 := ⟨['é', '\n'], ['x'], rfl, rfl⟩
  have h9 : byteSize text ≤ 9 := by decide
  exact ⟨hcounts 3, h2, h3, hbefore 2 3 h2 h3 (by decide), h9, hpast 9 h9⟩

end Position

end PatternGen.Text
