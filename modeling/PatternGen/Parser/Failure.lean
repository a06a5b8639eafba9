import PatternGen.Parser.Expectations

namespace PatternGen

structure Failure where
  /-- In bytes from the beginning of the text. -/
  offset : Nat
  expected : Expectations
  deriving DecidableEq

namespace Failure

/-- A failure that names nothing it would have accepted. -/
def unexplained (offset : Nat) : Failure := ⟨offset, .empty⟩

def expecting (offset : Nat) (what : String) : Failure := ⟨offset, .singleton what⟩

def merge (a b : Failure) : Failure :=
  if b.offset < a.offset then a
  else if a.offset < b.offset then b
  else ⟨a.offset, a.expected.union b.expected⟩

theorem eq_of_mem_iff {a b : Failure} (ho : a.offset = b.offset)
    (he : ∀ s, s ∈ a.expected ↔ s ∈ b.expected) : a = b := by
  obtain ⟨o, d⟩ := a
  obtain ⟨p, e⟩ := b
  cases ho
  cases Expectations.eq_of_mem_iff he
  rfl

theorem offset_merge (a b : Failure) : (a.merge b).offset = max a.offset b.offset := by
  rw [merge]
  split
  · omega
  · split
    · omega
    · change a.offset = _
      omega

/-- A failure counts in a merge if it is at the offset of the merge. -/
theorem mem_expected_merge {a b : Failure} {s : String} :
    s ∈ (a.merge b).expected ↔
      (a.merge b).offset = a.offset ∧ s ∈ a.expected ∨
        (a.merge b).offset = b.offset ∧ s ∈ b.expected := by
  rw [merge]
  split
  · next h => simp [Nat.ne_of_gt h]
  · split
    · next h => simp [Nat.ne_of_gt h]
    · next hb ha =>
      have he : a.offset = b.offset := by omega
      simp [he, Expectations.mem_union]

theorem merge_comm (a b : Failure) : a.merge b = b.merge a := by
  apply eq_of_mem_iff
  · rw [offset_merge, offset_merge, Nat.max_comm]
  · intro s
    rw [mem_expected_merge, mem_expected_merge, offset_merge, offset_merge, Nat.max_comm, or_comm]

theorem merge_assoc (a b c : Failure) : (a.merge b).merge c = a.merge (b.merge c) := by
  apply eq_of_mem_iff
  · simp only [offset_merge, Nat.max_assoc]
  · intro s
    simp only [mem_expected_merge, offset_merge]
    grind

theorem merge_self (a : Failure) : a.merge a = a := by
  apply eq_of_mem_iff
  · rw [offset_merge, Nat.max_self]
  · intro s
    simp [mem_expected_merge, offset_merge]

/-- The furthest of the failures that are there. -/
def furthest (a b : Option Failure) : Option Failure := Option.merge merge a b

@[simp] theorem furthest_none_left (a : Option Failure) : furthest none a = a := by
  cases a <;> rfl

@[simp] theorem furthest_none_right (a : Option Failure) : furthest a none = a := by
  cases a <;> rfl

@[simp] theorem furthest_some_some (a b : Failure) :
    furthest (some a) (some b) = some (a.merge b) := rfl

theorem furthest_comm (a b : Option Failure) : furthest a b = furthest b a := by
  cases a <;> cases b <;> simp [merge_comm]

theorem furthest_assoc (a b c : Option Failure) :
    furthest (furthest a b) c = furthest a (furthest b c) := by
  cases a <;> cases b <;> cases c <;> simp [merge_assoc]

def message (f : Failure) : String :=
  "parse failed at offset " ++ toString f.offset ++
    if f.expected.items.isEmpty then ""
    else ", expected " ++ " or ".intercalate f.expected.items

end Failure

end PatternGen
