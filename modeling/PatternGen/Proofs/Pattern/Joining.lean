import PatternGen.Proofs.Pattern.Canonical

namespace PatternGen

open Grammar

namespace Pattern

/-- The piece is a literal without a repetition, and a literal comes next. -/
def RunsOn : Term × Repetition → List (Term × Repetition) → Prop
  | (.literal _, r), (.literal _, _) :: _ => r = .once
  | _, _ => False

def attach : Term × Repetition → List (Term × Repetition) → List (Term × Repetition)
  | (.literal s, q), (.literal t, r) :: ps =>
    if q = .once then (.literal (s ++ t), r) :: ps else (.literal s, q) :: (.literal t, r) :: ps
  | p, ps => p :: ps

mutual

def joinTerm : Term → Term
  | .charClass k => .charClass k
  | .literal text => .literal text
  | .group branches => .group (joinBranches branches)

def joinPieces : List (Term × Repetition) → List (Term × Repetition)
  | [] => []
  | (t, r) :: ps => attach (joinTerm t, r) (joinPieces ps)

def joinBranches : List (List (Term × Repetition)) → List (List (Term × Repetition))
  | [] => []
  | b :: bs => joinPieces b :: joinBranches bs

end

def joined (p : Pattern) : Pattern := joinBranches p

mutual

def SeparateTerm : Term → Prop
  | .charClass _ => True
  | .literal _ => True
  | .group branches => SeparateBranches branches

def SeparatePieces : List (Term × Repetition) → Prop
  | [] => True
  | (t, r) :: ps => SeparateTerm t ∧ ¬ RunsOn (t, r) ps ∧ SeparatePieces ps

def SeparateBranches : List (List (Term × Repetition)) → Prop
  | [] => True
  | b :: bs => SeparatePieces b ∧ SeparateBranches bs

end

/-- No literal runs on into the next piece, at any depth. -/
def Separate (p : Pattern) : Prop := SeparateBranches p

theorem exists_literals_of_runsOn (h : RunsOn p ps) :
    ∃ s t r qs, p = (.literal s, .once) ∧ ps = (.literal t, r) :: qs := by
  unfold RunsOn at h
  split at h
  · next s _ t r qs =>
    cases h
    exact ⟨s, t, r, qs, rfl, rfl⟩
  · exact h.elim

theorem attach_literal (s t : String) (r : Repetition) (ps : List (Term × Repetition)) :
    attach (.literal s, .once) ((.literal t, r) :: ps) = (.literal (s ++ t), r) :: ps := by
  rw [attach, if_pos rfl]

theorem attach_of_not_runsOn (h : ¬ RunsOn p ps) : attach p ps = p :: ps := by
  unfold attach
  split
  · exact if_neg h
  · rfl

theorem attach_ne_nil (p : Term × Repetition) (ps : List (Term × Repetition)) :
    attach p ps ≠ [] := by
  by_cases h : RunsOn p ps
  · obtain ⟨s, t, r, qs, rfl, rfl⟩ := exists_literals_of_runsOn h
    rw [attach_literal]
    exact List.cons_ne_nil _ qs
  · rw [attach_of_not_runsOn h]
    exact List.cons_ne_nil p ps

theorem length_attach_le (p : Term × Repetition) (ps : List (Term × Repetition)) :
    (attach p ps).length ≤ ps.length + 1 := by
  by_cases h : RunsOn p ps
  · obtain ⟨s, t, r, qs, rfl, rfl⟩ := exists_literals_of_runsOn h
    rw [attach_literal]
    exact Nat.le_succ _
  · rw [attach_of_not_runsOn h]
    exact Nat.le_refl _

theorem length_joinPieces_le (ps : List (Term × Repetition)) :
    (joinPieces ps).length ≤ ps.length := by
  induction ps with
  | nil => simp [joinPieces]
  | cons p ps ih =>
    obtain ⟨t, r⟩ := p
    rw [joinPieces]
    exact Nat.le_trans (length_attach_le _ _) (Nat.succ_le_succ ih)

theorem joinPieces_ne_nil {ps : List (Term × Repetition)} (h : ps ≠ []) : joinPieces ps ≠ [] := by
  cases ps with
  | nil => exact (h rfl).elim
  | cons p ps =>
    obtain ⟨t, r⟩ := p
    rw [joinPieces]
    exact attach_ne_nil _ _

/-- What starts with a literal still does so when it is joined. -/
theorem RunsOn.joined (h : RunsOn (t, r) ps) : RunsOn (joinTerm t, r) (joinPieces ps) := by
  obtain ⟨s, u, q, qs, hp, rfl⟩ := exists_literals_of_runsOn h
  cases hp
  rw [joinPieces, joinTerm, joinTerm]
  by_cases h' : RunsOn (.literal u, q) (joinPieces qs)
  · obtain ⟨_, v, r, l, hq, hqs⟩ := exists_literals_of_runsOn h'
    cases hq
    rw [hqs, attach_literal]
    rfl
  · rw [attach_of_not_runsOn h']
    rfl

mutual

theorem joinTerm_eq_self {t : Term} (h : SeparateTerm t) : joinTerm t = t := by
  cases t with
  | charClass k => rw [joinTerm]
  | literal text => rw [joinTerm]
  | group branches =>
    rw [SeparateTerm] at h
    rw [joinTerm, joinBranches_eq_self h]

theorem joinPieces_eq_self {ps : List (Term × Repetition)} (h : SeparatePieces ps) :
    joinPieces ps = ps := by
  cases ps with
  | nil => rw [joinPieces]
  | cons p ps =>
    obtain ⟨t, r⟩ := p
    rw [SeparatePieces] at h
    obtain ⟨ht, hr, hps⟩ := h
    rw [joinPieces, joinTerm_eq_self ht, joinPieces_eq_self hps, attach_of_not_runsOn hr]

theorem joinBranches_eq_self {bs : List (List (Term × Repetition))} (h : SeparateBranches bs) :
    joinBranches bs = bs := by
  cases bs with
  | nil => rw [joinBranches]
  | cons b bs =>
    rw [SeparateBranches] at h
    rw [joinBranches, joinPieces_eq_self h.1, joinBranches_eq_self h.2]

end

theorem joined_eq_self {p : Pattern} (h : p.Separate) : p.joined = p := joinBranches_eq_self h

mutual

theorem sameTerm_refl (t : Term) : sameTerm t t := by
  cases t with
  | charClass k =>
    rw [sameTerm, CharClass.same, Bool.and_eq_true, beq_iff_eq, List.isPerm_iff]
    exact ⟨rfl, .refl k.items⟩
  | literal text =>
    rw [sameTerm]
    exact beq_self_eq_true text
  | group branches =>
    rw [sameTerm]
    exact sameBranches_refl branches

theorem sameBranch_refl (ps : List (Term × Repetition)) : sameBranch ps ps := by
  cases ps with
  | nil => rw [sameBranch]
  | cons p ps =>
    obtain ⟨t, r⟩ := p
    rw [sameBranch, samePiece, sameTerm_refl t, sameBranch_refl ps, beq_self_eq_true]
    rfl

theorem sameBranches_refl (bs : List (List (Term × Repetition))) : sameBranches bs bs := by
  cases bs with
  | nil => rw [sameBranches]
  | cons b bs =>
    rw [sameBranches, sameBranch_refl b, sameBranches_refl bs]
    rfl

end

theorem same_refl (p : Pattern) : p.same p := sameBranches_refl p

theorem length_eq_of_sameBranch {ps qs : List (Term × Repetition)} (h : sameBranch ps qs) :
    ps.length = qs.length := by
  induction ps generalizing qs with
  | nil =>
    cases qs with
    | nil => rfl
    | cons q qs => simp [sameBranch] at h
  | cons p ps ih =>
    cases qs with
    | nil => simp [sameBranch] at h
    | cons q qs =>
      rw [sameBranch, Bool.and_eq_true] at h
      exact congrArg (· + 1) (ih h.2)

mutual

theorem separateTerm_of_same {t : Term} (h : sameTerm (joinTerm t) t) : SeparateTerm t := by
  cases t with
  | charClass k => rw [SeparateTerm]; trivial
  | literal text => rw [SeparateTerm]; trivial
  | group branches =>
    rw [joinTerm, sameTerm] at h
    rw [SeparateTerm]
    exact separateBranches_of_same h

theorem separatePieces_of_same {ps : List (Term × Repetition)}
    (h : sameBranch (joinPieces ps) ps) : SeparatePieces ps := by
  cases ps with
  | nil => rw [SeparatePieces]; trivial
  | cons p ps =>
    obtain ⟨t, r⟩ := p
    rw [joinPieces] at h
    -- a joined literal leaves fewer pieces than there were
    have hr : ¬ RunsOn (joinTerm t, r) (joinPieces ps) := by
      intro hr
      obtain ⟨s, u, q, qs, hp, hqs⟩ := exists_literals_of_runsOn hr
      have hle := length_joinPieces_le ps
      rw [hp, hqs, attach_literal] at h
      have hlength := length_eq_of_sameBranch h
      rw [hqs] at hle
      simp only [List.length_cons] at hle hlength
      omega
    rw [attach_of_not_runsOn hr, sameBranch, samePiece, Bool.and_eq_true, Bool.and_eq_true] at h
    rw [SeparatePieces]
    refine ⟨separateTerm_of_same h.1.1, ?_, separatePieces_of_same h.2⟩
    intro hr'
    exact hr hr'.joined

theorem separateBranches_of_same {bs : List (List (Term × Repetition))}
    (h : sameBranches (joinBranches bs) bs) : SeparateBranches bs := by
  cases bs with
  | nil => rw [SeparateBranches]; trivial
  | cons b bs =>
    rw [joinBranches, sameBranches, Bool.and_eq_true] at h
    rw [SeparateBranches]
    exact ⟨separatePieces_of_same h.1, separateBranches_of_same h.2⟩

end

theorem same_joined_iff {p : Pattern} : p.joined.same p ↔ p.Separate := by
  constructor
  · intro h
    exact separateBranches_of_same h
  · intro h
    rw [joined_eq_self h]
    exact same_refl p

end Pattern

end PatternGen
