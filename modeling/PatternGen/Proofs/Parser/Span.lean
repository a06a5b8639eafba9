import PatternGen.Parser.Basic

namespace PatternGen.Cursor

open Text

/-- The text from `c` on begins with `s`, and `d` is the place after it. -/
def Spans (c : Cursor) (s : List Char) (d : Cursor) : Prop :=
  ∃ rest, c.rest? = some (s ++ rest) ∧ d = ⟨c.offset + byteSize s, some rest⟩

variable {c d e : Cursor} {s t rest : List Char}

theorem Spans.rest?_eq (h : c.Spans s d) (hd : d.rest? = some rest) :
    c.rest? = some (s ++ rest) := by
  obtain ⟨_, hc, rfl⟩ := h
  cases hd
  exact hc

theorem Spans.exists_rest (h : c.Spans s d) : ∃ rest, d.rest? = some rest := by
  obtain ⟨rest, -, rfl⟩ := h
  exact ⟨rest, rfl⟩

theorem Spans.offset_eq (h : c.Spans s d) : d.offset = c.offset + byteSize s := by
  obtain ⟨rest, -, rfl⟩ := h
  rfl

theorem Spans.trans (h : c.Spans s d) (h' : d.Spans t e) : c.Spans (s ++ t) e := by
  obtain ⟨r, hc, rfl⟩ := h
  obtain ⟨rest, hd, rfl⟩ := h'
  cases hd
  refine ⟨rest, ?_, ?_⟩
  · rw [hc, List.append_assoc]
  · rw [byteSize_append, Nat.add_assoc]

theorem Spans.cut (h : c.Spans (s ++ t) e) : ∃ d, c.Spans s d ∧ d.Spans t e := by
  obtain ⟨rest, hc, rfl⟩ := h
  refine ⟨⟨c.offset + byteSize s, some (t ++ rest)⟩, ⟨t ++ rest, ?_, rfl⟩, rest, rfl, ?_⟩
  · rw [hc, List.append_assoc]
  · rw [byteSize_append, Nat.add_assoc]

theorem Spans.uncons (h : c.Spans (x :: s) e) : ∃ d, c.Spans [x] d ∧ d.Spans s e :=
  cut (s := [x]) h

theorem Spans.unique (h : c.Spans s d) (h' : c.Spans s e) : d = e := by
  obtain ⟨_, hc, rfl⟩ := h
  obtain ⟨_, hc', rfl⟩ := h'
  cases List.append_cancel_left (Option.some.inj (hc.symm.trans hc'))
  rfl

theorem Spans.eq_of_nil (h : c.Spans [] d) : d = c := by
  obtain ⟨o, r⟩ := c
  obtain ⟨_, rfl, rfl⟩ := h
  rfl

theorem spans_nil (h : c.rest? = some rest) : c.Spans [] c := by
  obtain ⟨o, r⟩ := c
  cases h
  exact ⟨rest, rfl, rfl⟩

theorem Spans.size_eq (h : c.Spans s d) : c.size = s.length + d.size := by
  obtain ⟨rest, hc, rfl⟩ := h
  rw [size, size, hc]
  exact List.length_append

theorem Spans.size_le (h : c.Spans s d) : d.size ≤ c.size := by
  rw [h.size_eq]
  exact Nat.le_add_left _ _

theorem Spans.size_lt (h : c.Spans s d) (hs : s ≠ []) : d.size < c.size := by
  rw [h.size_eq]
  have hpos := List.length_pos_iff.2 hs
  omega

theorem spans_advance (h : c.rest? = some (s ++ rest)) : c.Spans s (c.advance s.length) := by
  refine ⟨rest, h, ?_⟩
  simp [advance, h]

theorem Spans.eq_advance (h : c.Spans s d) : d = c.advance s.length := by
  obtain ⟨rest, hc, -⟩ := id h
  exact h.unique (spans_advance hc)

/-- All that is left, up to the end of the text. -/
theorem exists_spans_end (h : c.rest? = some s) : ∃ d, c.Spans s d ∧ d.rest? = some [] :=
  ⟨_, ⟨[], h.trans (congrArg some (List.append_nil s).symm), rfl⟩, rfl⟩

theorem exists_spans_start (text : List Char) :
    ∃ d, (start text).Spans text d ∧ d.rest? = some [] :=
  exists_spans_end rfl

theorem Spans.eq_of_start (h : (start text).Spans s d) (hd : d.rest? = some []) : s = text := by
  have htext := h.rest?_eq hd
  rw [List.append_nil] at htext
  exact (Option.some.inj htext).symm

end PatternGen.Cursor
