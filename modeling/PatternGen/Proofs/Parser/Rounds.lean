import PatternGen.Proofs.Parser.Rows
import PatternGen.Proofs.Parser.Separators
import PatternGen.Proofs.Parser.Within

namespace PatternGen

open Text

namespace Cursor

variable {text : List Char} {lo : Nat} {c d : Cursor}

theorem Within.here (h : c.Within text lo) : c.Within text c.offset :=
  ⟨h.offset.boundary.within (Nat.le_refl _), h.eq_ofOffset⟩

/-- A place further on in the text has less left. -/
theorem Within.eq_of_not_size_lt (hc : c.Within text lo) (hd : d.Within text c.offset)
    (h : ¬ d.size < c.size) : d = c := by
  obtain ⟨s, rest, rfl, -, rfl⟩ := within_iff.1 hc
  obtain ⟨s', rest', htext, hle, rfl⟩ := within_iff.1 hd
  replace hle : byteSize s ≤ byteSize s' := hle
  replace h : rest.length ≤ rest'.length := Nat.not_lt.1 h
  obtain ⟨t, rfl, rfl⟩ | ⟨t, rfl, rfl⟩ := List.append_eq_append_iff.1 htext
  · rw [List.length_append] at h
    obtain rfl : t = [] := List.eq_nil_of_length_eq_zero (by omega)
    rw [List.append_nil, List.nil_append]
  · have hlen := length_le_byteSize t
    rw [byteSize_append] at hle
    obtain rfl : t = [] := List.eq_nil_of_length_eq_zero (by omega)
    rw [List.append_nil, List.nil_append]

end Cursor

namespace Parser

/-- From each place of the text the parser stops at a place of the text that is not before it. -/
def SucceedsWithin (text : List Char) (p : Parser α) : Prop :=
  ∀ n a d, IsBoundary text n → p.Gives (.ofOffset text n) a d → d.Within text n

/-- Successes in a row that read something, each from where the one before it stopped, with their
values and the furthest failure that they have swept aside. -/
inductive Advances (p : Parser α) : Cursor → List α → Option Failure → Cursor → Prop where
  | refl : Advances p c [] none c
  | step (h : p c = .done a d x) (hd : c.offset < d.offset) (hs : Advances p d as e l) :
    Advances p c (a :: as) (Failure.furthest x e) l

/-- What a repetition gives after successes that read something. -/
inductive Stops (p : Parser α) (as : List α) (e : Option Failure) (c : Cursor) :
    Outcome (List α) → Prop where
  | failed (h : p c = .failed f) : Stops p as e c (.done as c (Failure.furthest e (some f)))
  -- A success that reads nothing is kept once.
  | last (h : p c = .done a c x) : Stops p as e c (.done (as ++ [a]) c (Failure.furthest e x))
  | stuck (h : p c = .stuck fault) : Stops p as e c (.stuck fault)

variable {α : Type} {p : Parser α} {text : List Char} {c d : Cursor}

theorem Stops.cons {as : List α} {o : Outcome (List α)} (h : Stops p as e c o) (a : α)
    (x : Option Failure) :
    Stops p (a :: as) (Failure.furthest x e) c ((o.map (a :: ·)).recalling x) := by
  cases h with
  | failed h =>
    rw [Outcome.map, Outcome.recalling, ← Failure.furthest_assoc]
    exact .failed h
  | last h =>
    rw [Outcome.map, Outcome.recalling, ← Failure.furthest_assoc]
    exact .last h
  | stuck h => exact .stuck h

theorem Stops.length_le {as bs : List α} (h : Stops p as e c (.done bs l x)) :
    bs.length ≤ as.length + 1 := by
  cases h with
  | failed _ => exact Nat.le_succ _
  | last _ => exact Nat.le_of_eq List.length_append

theorem atLeastOne_eq (p : Parser α) :
    atLeastOne p = (p.zip (many p)).map fun x => x.1 :: x.2 := by
  funext c
  rw [atLeastOne, zip, map_bind, bind]
  cases p c with
  | done a d x =>
    dsimp only
    rw [collect_eq, map_map, map_eq_bind]
    rfl
  | failed f => rfl
  | stuck fault => rfl

theorem many_apply (p : Parser α) (c : Cursor) :
    many p c =
      match p c with
      | .done a d x =>
        if d.size < c.size then ((many p d).map (a :: ·)).recalling x else .done [a] d x
      | .failed f => .done [] c (some f)
      | .stuck fault => .stuck fault := by
  rw [many, collect]
  cases p c with
  | done a d x =>
    dsimp only
    rw [Failure.furthest_none_left, collect_eq, ← map_eq_bind]
    rfl
  | failed f => rfl
  | stuck fault => rfl

/-- By induction on what is left. -/
theorem exists_advances (hp : p.SucceedsWithin text) (hc : c.Within text lo) :
    ∃ as e d, Advances p c as e d ∧ as.length ≤ c.size ∧ Stops p as e d (many p c) := by
  induction hn : c.size using Nat.strongRecOn generalizing c lo with
  | _ n ih =>
    rw [many_apply]
    cases h : p c with
    | failed f => exact ⟨[], none, c, .refl, Nat.zero_le _, .failed h⟩
    | stuck fault => exact ⟨[], none, c, .refl, Nat.zero_le _, .stuck h⟩
    | done a d x =>
      have hd : d.Within text c.offset := by
        apply hp c.offset a d hc.offset.boundary
        rw [← hc.eq_ofOffset]
        exact ⟨x, h⟩
      dsimp only
      split
      · next hlt =>
        obtain ⟨as, e, l, hs, hlen, hstops⟩ := ih d.size (hn ▸ hlt) hd rfl
        have hoffset := hc.here.offset_lt_of_size_lt hd hlt
        refine ⟨a :: as, _, l, .step h hoffset hs, ?_, hstops.cons a x⟩
        rw [List.length_cons]
        omega
      · next hlt =>
        obtain rfl := hc.eq_of_not_size_lt hd hlt
        rw [← Failure.furthest_none_left x]
        exact ⟨[], none, d, .refl, Nat.zero_le _, .last h⟩

/-- For a parser that stops within the text and not before it began, a repetition never fails. It
collects successes that read something, as long as there are any, and then one that reads nothing,
if that comes before a failure. A repetition of at least one value is the parser and then the
repetition, whatever the parser does. -/
theorem many_collects (hp : p.SucceedsWithin text) (h : IsBoundary text n) :
    (∀ f, (many p).parseAt text n ≠ .failed f) ∧
    (∃ as e d, Advances p (.ofOffset text n) as e d ∧ as.length ≤ byteSize text - n ∧
      Stops p as e d ((many p).parseAt text n)) ∧
    (∀ as e d, (many p).parseAt text n = .done as d e → as.length ≤ byteSize text - n + 1) ∧
    atLeastOne p = (p.zip (many p)).map fun x => x.1 :: x.2 := by
  obtain ⟨as, e, d, hs, hlen, hstops⟩ := exists_advances hp (Cursor.within_ofOffset h)
  replace hlen := Nat.le_trans hlen (Cursor.size_ofOffset_le h)
  refine ⟨fun f hf => not_fails_many ⟨f, hf⟩, ⟨as, e, d, hs, hlen, hstops⟩, ?_, atLeastOne_eq p⟩
  intro bs x l hl
  rw [parseAt] at hl
  rw [hl] at hstops
  exact Nat.le_trans hstops.length_le (Nat.succ_le_succ hlen)

theorem succeedsWithin_of_closed (q : Peg [] α) (text : List Char) :
    q.parser.SucceedsWithin text := by
  intro n a d h hgives
  obtain ⟨e, hd⟩ := hgives
  have hwithin := q.staysWithin_denote (Handles.stayWithin_none text n) _ (Cursor.within_ofOffset h)
  exact (hd ▸ hwithin : (Outcome.done a d e).Within text n).1

/-- A letter or nothing: nothing is read once, and after nothing was read once more. -/
theorem many_collects_optional :
    let p := (Peg.char 'é').optional.parser
    let text := "ééa".toList
    let told : Option Failure := some (.expecting 4 "'é'")
    p.SucceedsWithin text ∧ IsBoundary text 0 ∧
    (many p).parseAt text 0 = .done [some 'é', some 'é', none] ⟨4, some ['a']⟩ told ∧
    3 ≤ byteSize text - 0 + 1 ∧
    ((p.zip (many p)).map fun x => x.1 :: x.2).parseAt text 4 =
      .done [none, none] ⟨4, some ['a']⟩ told := by
  intro p text told
  have hp : p.SucceedsWithin text := succeedsWithin_of_closed _ text
  have htext : IsBoundary text 0 := ⟨[], text, rfl, rfl⟩
  obtain ⟨-, -, hlen, heq⟩ := many_collects hp htext
  have hmany : (many p).parseAt text 0 =
      .done [some 'é', some 'é', none] ⟨4, some ['a']⟩ told := by decide +kernel
  refine ⟨hp, htext, hmany, hlen _ _ _ hmany, ?_⟩
  rw [← heq]
  decide +kernel

end Parser

end PatternGen
