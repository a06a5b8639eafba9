import Mathlib.Logic.Relation
import PatternGen.Proofs.Parser.Forward
import PatternGen.Proofs.Parser.Rules

namespace PatternGen

namespace Failure

theorem furthest_left_comm (a b c : Option Failure) :
    furthest a (furthest b c) = furthest b (furthest a c) := by
  rw [← furthest_assoc, furthest_comm a b, furthest_assoc]

theorem some_elim_merge (e : Option Failure) (f : Failure) :
    some (e.elim f (·.merge f)) = furthest e (some f) := by
  cases e <;> rfl

/-- Something is told that lies further, or that lies at the same place and expects all that the
failure does. -/
def CoveredBy (f : Failure) (told : Option Failure) : Prop :=
  ∃ g ∈ told, f.offset < g.offset ∨ f.offset = g.offset ∧ ∀ s ∈ f.expected, s ∈ g.expected

theorem merge_eq_right_iff {f g : Failure} :
    f.merge g = g ↔
      f.offset < g.offset ∨ f.offset = g.offset ∧ ∀ s ∈ f.expected, s ∈ g.expected := by
  have ho := offset_merge f g
  constructor
  · intro h
    rw [h] at ho
    rcases Nat.lt_or_eq_of_le (show f.offset ≤ g.offset by omega) with hlt | heq
    · exact .inl hlt
    · refine .inr ⟨heq, fun s hs => ?_⟩
      rw [← h]
      exact mem_expected_merge.2 (.inl ⟨by rw [h, heq], hs⟩)
  · intro h
    apply eq_of_mem_iff
    · omega
    · intro s
      rw [mem_expected_merge, ho]
      constructor
      · intro hs
        rcases hs with ⟨he, hs⟩ | ⟨-, hs⟩
        · rcases h with hlt | ⟨-, hall⟩
          · omega
          · exact hall s hs
        · exact hs
      · intro hs
        exact .inr ⟨by omega, hs⟩

theorem furthest_some_eq_iff {f : Failure} {told : Option Failure} :
    furthest (some f) told = told ↔ f.CoveredBy told := by
  cases told with
  | none => simp [CoveredBy]
  | some g => simp [CoveredBy, merge_eq_right_iff]

end Failure

namespace Parser

variable {α β : Type} {p : Parser α} {q : Parser β} {c d : Cursor}

/-- One value, then as many rounds of a separator and a value as can be read. -/
def inRounds (p : Parser α) (q : Parser β) : Parser (List α) :=
  p.bind fun a => (many (q.bind fun _ => p)).bind fun as => success (a :: as)

def Round (p : Parser α) (q : Parser β) (c d : Cursor) : Prop :=
  ∃ a, (q.bind fun _ => p).Gives c a d

/-- From a place on, each round that is come to reads something. -/
def RoundsAdvance (p : Parser α) (q : Parser β) (c : Cursor) : Prop :=
  ∀ d, Relation.ReflTransGen (Round p q) c d → ∀ e, Round p q d e → e.size < d.size

/-- What was swept aside inside the separator after which rounds end because no value follows. -/
def givenBack (p : Parser α) (q : Parser β) (c : Cursor) : Option Failure :=
  match q c with
  | .done _ between aside =>
    match p between with
    | .done _ next _ => if next.size < c.size then givenBack p q next else none
    | .failed _ => aside
    | .stuck _ => none
  | _ => none
termination_by c.size

/-- What was swept aside inside the separator that a list gives back at its end. -/
def forgotten (p : Parser α) (q : Parser β) (c : Cursor) : Option Failure :=
  match p c with
  | .done _ next _ => givenBack p q next
  | _ => none

theorem RoundsAdvance.next (h : RoundsAdvance p q c) (hcd : Round p q c d) : RoundsAdvance p q d :=
  fun e he => h e (.head hcd he)

theorem roundsAdvance_of_reads (hp : ∀ c a d, p.Gives c a d → d.size < c.size) (hq : q.Forward)
    (c : Cursor) : RoundsAdvance p q c := by
  intro d _ e h
  obtain ⟨a, h⟩ := h
  obtain ⟨b, m, hb, ha⟩ := gives_bind_iff.1 h
  rcases hq d b m hb with rfl | hlt
  · exact hp _ a e ha
  · exact Nat.lt_trans (hp m a e ha) hlt

/-- A repetition that has rounds behind it is one that has none, after what was read before. -/
theorem collect_eq (p : Parser α) (values : List α) (e : Option Failure) (c : Cursor) :
    collect p values e c =
      (((many p).bind fun as => success (values.reverse ++ as)) c).recalling e := by
  induction hs : c.size using Nat.strongRecOn generalizing values e c with
  | _ n ih =>
    rw [bind, many, collect, collect]
    cases p c with
    | done a d x =>
      dsimp only
      split
      · next hlt =>
        rw [ih d.size (hs ▸ hlt) _ _ d rfl, ih d.size (hs ▸ hlt) [a] _ d rfl, bind, bind]
        cases hm : many p d with
        | done as n y => simp [Outcome.recalling, success, Failure.furthest_assoc]
        | failed f => exact (not_fails_many ⟨f, hm⟩).elim
        | stuck y => rfl
      · simp [Outcome.recalling, success]
    | failed f => simp [Outcome.recalling, success]
    | stuck x => rfl

/-- The rounds of a repetition tell what those of a list do, and what the list gives back. -/
theorem collect_round_eq (h : RoundsAdvance p q c) (values : List α) (e : Option Failure) :
    collect (q.bind fun _ => p) values e c =
      (collectSeparated p q values e c).recalling (givenBack p q c) := by
  induction hs : c.size using Nat.strongRecOn generalizing values e c with
  | _ n ih =>
    rw [collect, collectSeparated, givenBack, bind]
    cases hq : q c with
    | done b m x =>
      dsimp only
      cases hp : p m with
      | done a d y =>
        have hround : Round p q c d := ⟨a, gives_bind_iff.2 ⟨b, m, ⟨x, hq⟩, y, hp⟩⟩
        have hlt := h c .refl d hround
        simp only [Outcome.recalling, hlt, if_true]
        exact ih d.size (hs ▸ hlt) (h.next hround) _ _ rfl
      | failed f =>
        simp only [Outcome.recalling, Failure.some_elim_merge]
        rw [Failure.furthest_left_comm]
      | stuck y => rfl
    | failed f => simp [Outcome.recalling]
    | stuck x => rfl

theorem inRounds_eq (h : ∀ a d, p.Gives c a d → RoundsAdvance p q d) :
    inRounds p q c = (separatedBy p q c).recalling (forgotten p q c) := by
  rw [inRounds, bind, separatedBy, forgotten]
  cases hp : p c with
  | done a d e =>
    dsimp only
    rw [← collect_round_eq (h a d ⟨e, hp⟩), collect_eq _ [a]]
    rfl
  | failed f => rfl
  | stuck x => rfl

theorem exists_of_mem_givenBack (h : f ∈ givenBack p q c) (values : List α)
    (told : Option Failure) : ∃ as d e, collectSeparated p q values told c = .done as d e := by
  fun_induction givenBack p q c generalizing values told with
  | case1 c b m x hq a d y hp hlt ih =>
    rw [collectSeparated, hq]
    dsimp only
    rw [hp]
    dsimp only
    rw [if_pos hlt]
    exact ih h _ _
  | case3 c b m x hq g hp =>
    rw [collectSeparated, hq]
    dsimp only
    rw [hp]
    exact ⟨_, _, _, rfl⟩
  | case2 | case4 | case5 => cases h

theorem exists_of_mem_forgotten (h : f ∈ forgotten p q c) :
    ∃ as d e, separatedBy p q c = .done as d e := by
  rw [forgotten] at h
  rw [separatedBy]
  cases hp : p c with
  | done a d e =>
    rw [hp] at h
    exact exists_of_mem_givenBack h _ _
  | failed g =>
    rw [hp] at h
    cases h
  | stuck x =>
    rw [hp] at h
    cases h

/-- Where each round reads something, a list with separators and its rounds succeed and fail alike,
with the same values and the same place, and the rounds tell what the list has forgotten as well. So
they agree in all respects just if the list tells enough without it. -/
theorem separatedBy_eq_inRounds_iff (h : ∀ a d, p.Gives c a d → RoundsAdvance p q d) :
    inRounds p q c = (separatedBy p q c).recalling (forgotten p q c) ∧
      (separatedBy p q c = inRounds p q c ↔
        ∀ f ∈ forgotten p q c, ∀ as d e, separatedBy p q c = .done as d e → f.CoveredBy e) := by
  have heq := inRounds_eq h
  refine ⟨heq, ?_⟩
  rw [heq]
  cases hf : forgotten p q c with
  | none => simp
  | some f =>
    obtain ⟨as, d, e, hdone⟩ := exists_of_mem_forgotten hf
    rw [hdone]
    simp only [Outcome.recalling, Outcome.done.injEq, true_and, Option.mem_some_iff]
    rw [eq_comm, Failure.furthest_some_eq_iff]
    constructor
    · rintro hcovered _ rfl _ _ _ ⟨rfl, rfl, rfl⟩
      exact hcovered
    · intro hall
      exact hall f rfl as d e ⟨rfl, rfl, rfl⟩

theorem reads_char (x : Char) : ∀ c a d, (Peg.char x).parser.Gives c a d → d.size < c.size := by
  intro c a d h
  obtain ⟨-, hspan⟩ := Peg.gives_char_iff.1 h
  exact hspan.size_lt (List.cons_ne_nil x [])

/-- Letters between commas, with a blank after each comma. -/
theorem separatedBy_eq_inRounds_blanks :
    let p := (Peg.char 'a').parser
    let q := ((Peg.char ',').thenIgnore (Peg.char ' ').optional).parser
    let c := Cursor.start "a, b".toList
    (∀ a d, p.Gives c a d → RoundsAdvance p q d) ∧ separatedBy p q c = inRounds p q c := by
  intro p q c
  have hforward : q.Forward := Peg.forward_denote _ nofun
  have h : ∀ a d, p.Gives c a d → RoundsAdvance p q d :=
    fun _ d _ => roundsAdvance_of_reads (reads_char 'a') hforward d
  have hnone : forgotten p q c = none := by decide +kernel
  refine ⟨h, (separatedBy_eq_inRounds_iff h).2.2 ?_⟩
  intro f hf
  rw [hnone] at hf
  cases hf

def told : Outcome α → Option Failure
  | .done _ _ e => e
  | _ => none

/-- Without a blank after the comma that is given back, the blank is not told. -/
theorem separatedBy_ne_inRounds :
    ¬ ∀ (p : Parser Char) (q : Parser Char) (c : Cursor),
      (∀ a d, p.Gives c a d → RoundsAdvance p q d) → separatedBy p q c = inRounds p q c := by
  intro h
  let p := (Peg.char 'a').parser
  let q := ((Peg.char ',').thenIgnore (Peg.char ' ').optional).parser
  let c := Cursor.start "a,b".toList
  have hforward : q.Forward := Peg.forward_denote _ Handles.forward_none
  have heq := h p q c fun _ d _ => roundsAdvance_of_reads (reads_char 'a') hforward d
  have htold : told (separatedBy p q c) ≠ told (inRounds p q c) := by decide +kernel
  exact htold (congrArg told heq)

end Parser

end PatternGen
