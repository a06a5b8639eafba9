import PatternGen.Parser.Basic

namespace PatternGen.Parser

variable {α : Type}

/-- Choices between two parsers, bracketed to the right. -/
def orElseAll (p : Parser α) : List (Parser α) → Parser α
  | [] => p
  | q :: ps => p.orElse (orElseAll q ps)

theorem orElse_self (p : Parser α) : p.orElse p = p := by
  funext c
  rw [orElse]
  cases p c with
  | done a d e => rfl
  | failed f => exact congrArg Outcome.failed (Failure.merge_self f)
  | stuck fault => rfl

/-- Where the first fails, what the others tell is merged with its failure from either side. -/
theorem orElse_assoc (p q r : Parser α) : (p.orElse q).orElse r = p.orElse (q.orElse r) := by
  funext c
  rw [orElse, orElse, orElse]
  cases p c with
  | done a d e => rfl
  | failed f =>
    dsimp only
    rw [orElse]
    cases q c with
    | done a d e => rfl
    | failed g => exact (Outcome.recalling_recalling (some f) (some g) (r c)).symm
    | stuck fault => rfl
  | stuck fault => rfl

/-- Parsers that are tried after others tell their failures as well. -/
theorem firstOf_cons_apply (tried : Option Failure) (p : Parser α) (ps : List (Parser α))
    (c : Cursor) : firstOf tried (p :: ps) c = (firstOf none (p :: ps) c).recalling tried := by
  induction ps generalizing tried p with
  | nil =>
    rw [firstOf, firstOf]
    cases p c with
    | done a d e => simp [Outcome.recalling]
    | failed f => cases tried <;> rfl
    | stuck fault => rfl
  | cons q ps ih =>
    rw [firstOf, firstOf]
    cases p c with
    | done a d e => simp [Outcome.recalling]
    | failed f =>
      dsimp only
      rw [ih, ih (Failure.furthest none (some f)), Outcome.recalling_recalling]
      rw [Failure.furthest_none_left]
    | stuck fault => rfl

theorem oneOf_singleton (p : Parser α) : oneOf [p] = p := by
  funext c
  rw [oneOf, firstOf]
  cases p c with
  | done a d e => simp [Outcome.recalling]
  | failed f => rfl
  | stuck fault => rfl

theorem oneOf_cons_cons (p q : Parser α) (ps : List (Parser α)) :
    oneOf (p :: q :: ps) = p.orElse (oneOf (q :: ps)) := by
  funext c
  rw [oneOf, firstOf, orElse]
  cases p c with
  | done a d e => simp [Outcome.recalling]
  | failed f =>
    dsimp only
    rw [firstOf_cons_apply]
    rfl
  | stuck fault => rfl

theorem oneOf_cons_eq_orElseAll (p : Parser α) (ps : List (Parser α)) :
    oneOf (p :: ps) = orElseAll p ps := by
  induction ps generalizing p with
  | nil => exact oneOf_singleton p
  | cons q ps ih => rw [oneOf_cons_cons, ih, orElseAll]

theorem oneOf_orElse_cons (p q : Parser α) (ps : List (Parser α)) :
    oneOf (p.orElse q :: ps) = oneOf (p :: q :: ps) := by
  cases ps with
  | nil => rw [oneOf_singleton, oneOf_cons_cons, oneOf_singleton]
  | cons r ps => rw [oneOf_cons_cons, oneOf_cons_cons, oneOf_cons_cons, orElse_assoc]

theorem oneOf_cons_eq_foldl (p : Parser α) (ps : List (Parser α)) :
    oneOf (p :: ps) = ps.foldl orElse p := by
  induction ps generalizing p with
  | nil => exact oneOf_singleton p
  | cons q ps ih => rw [← oneOf_orElse_cons, ih, List.foldl_cons]

theorem oneOf_append (p q : Parser α) (ps qs : List (Parser α)) :
    oneOf (p :: ps ++ q :: qs) = (oneOf (p :: ps)).orElse (oneOf (q :: qs)) := by
  induction ps generalizing p with
  | nil => rw [oneOf_singleton, ← oneOf_cons_cons, List.singleton_append]
  | cons r ps ih =>
    rw [oneOf_cons_cons, orElse_assoc, ← ih]
    exact oneOf_cons_cons p r (ps ++ q :: qs)

/-- A choice among some parsers, but not none, is the choices between two that are bracketed to the
left, and those that are bracketed to the right. So the choice between two is associative and tells
nothing twice, and a choice can be cut in two. -/
theorem oneOf_eq_orElse (p q r : Parser α) (ps qs : List (Parser α)) :
    oneOf (p :: ps) = ps.foldl orElse p ∧ oneOf (p :: ps) = orElseAll p ps ∧
    (p.orElse q).orElse r = p.orElse (q.orElse r) ∧
    oneOf (p :: ps ++ q :: qs) = (oneOf (p :: ps)).orElse (oneOf (q :: qs)) ∧
    p.orElse p = p :=
  ⟨oneOf_cons_eq_foldl p ps, oneOf_cons_eq_orElseAll p ps, orElse_assoc p q r,
    oneOf_append p q ps qs, orElse_self p⟩

end PatternGen.Parser
