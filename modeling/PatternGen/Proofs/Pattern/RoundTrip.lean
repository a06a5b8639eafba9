import PatternGen.Proofs.Pattern.Joining
import PatternGen.Proofs.Pattern.Reading

namespace PatternGen.Pattern

open Grammar

mutual

theorem spells_joinTerm {t : Term} (h : WellFormedTerm t) :
    SpellsTerm (joinTerm t) (printTerm t) := by
  cases t with
  | charClass k =>
    rw [WellFormedTerm] at h
    rw [joinTerm, printTerm, SpellsTerm]
    exact ⟨k.printBody, (CharClass.ofBody_printBody h).symm, fun x hx => h.staysInClass_of_mem hx,
      rfl⟩
  | literal text =>
    rw [WellFormedTerm] at h
    rw [joinTerm, printTerm, SpellsTerm]
    exact ⟨rfl, h⟩
  | group branches =>
    rw [WellFormedTerm] at h
    rw [joinTerm, printTerm, SpellsTerm]
    exact ⟨printBranches branches, spells_joinBranches h.1 h.2, rfl⟩

theorem spells_joinPieces {ps : List (Term × Repetition)} (h : WellFormedPieces ps) :
    SpellsPieces (joinPieces ps) (printBranch ps) := by
  cases ps with
  | nil => rw [joinPieces, printBranch, SpellsPieces]
  | cons p ps =>
    obtain ⟨t, r⟩ := p
    rw [WellFormedPieces] at h
    obtain ⟨ht, hr, hps⟩ := h
    have ht' := spells_joinTerm ht
    have hps' := spells_joinPieces hps
    rw [joinPieces, printBranch, printPiece]
    by_cases hruns : RunsOn (joinTerm t, r) (joinPieces ps)
    · obtain ⟨s, u, q, qs, hp, hqs⟩ := exists_literals_of_runsOn hruns
      obtain ⟨hs, rfl⟩ := Prod.mk.inj hp
      have hprint : Repetition.once.print = [] := by decide
      rw [hs] at ht'
      rw [hqs] at hps'
      rw [hs, hqs, attach_literal, hprint, List.append_nil]
      exact hps'.merge ht'
    · have hp : SpellsPiece (joinTerm t, r) (printTerm t ++ r.print) := by
        rw [SpellsPiece]
        exact ⟨_, _, ht', Repetition.spells_print hr, rfl⟩
      -- only literals can run together in print, and those have been joined
      have hapart : Apart (printTerm t ++ r.print) (printBranch ps) := by
        apply Classical.byContradiction
        intro hapart
        obtain ⟨s, u, q, qs, hs, -, hqs⟩ := exists_literals_of_not_apart hp hps' hapart
        rw [hs, hqs] at hruns
        exact hruns rfl
      rw [attach_of_not_runsOn hruns, SpellsPieces]
      exact ⟨_, _, hp, hps', hapart, rfl⟩

theorem spells_joinBranches {bs : List (List (Term × Repetition))} (hne : bs ≠ [])
    (h : WellFormedBranches bs) : SpellsBranches (joinBranches bs) (printBranches bs) := by
  cases bs with
  | nil => exact (hne rfl).elim
  | cons b bs =>
    rw [WellFormedBranches] at h
    rw [joinBranches, printBranches, SpellsBranches]
    exact ⟨_, _, joinPieces_ne_nil h.1, spells_joinPieces h.2.1, spells_joinRest h.2.2, rfl⟩

theorem spells_joinRest {bs : List (List (Term × Repetition))} (h : WellFormedBranches bs) :
    SpellsRest (joinBranches bs) (printRest bs) := by
  cases bs with
  | nil => rw [joinBranches, printRest, SpellsRest]
  | cons b bs =>
    rw [WellFormedBranches] at h
    rw [joinBranches, printRest, SpellsRest]
    exact ⟨_, _, joinPieces_ne_nil h.1, spells_joinPieces h.2.1, spells_joinRest h.2.2, rfl⟩

end

/-- Printed patterns are read with each run of literals as one. -/
theorem parse_toText_eq_joined {p : Pattern} (h : p.WellFormed) :
    Pattern.parse p.toText = .ok p.joined := by
  rw [parse_eq_ok_iff, toText, String.toList_ofList]
  exact spells_joinBranches h.1 h.2

/-- A pattern that can be written, with no bare literal before a literal, is read from its print. -/
theorem parse_toText_eq_ok {p : Pattern} (h : p.WellFormed) (hs : p.Separate) :
    Pattern.parse p.toText = .ok p := by
  rw [parse_toText_eq_joined h, joined_eq_self hs]

theorem parse_toText_nested_group :
    let p : Pattern := [[(.charClass (.ofBody ['^', 'a', '-', 'c']), .atLeast 2),
      (.group [[(.literal "x", .once)], [(.literal "y", .zeroOrMore)]], .once)],
      [(.literal "z", .once)]]
    p.WellFormed ∧ p.Separate ∧ Pattern.parse p.toText = .ok p := by
  intro p
  have hk : (CharClass.ofBody ['^', 'a', '-', 'c']).Canonical :=
    CharClass.canonical_ofBody (by simp [staysInClass])
  have h : p.WellFormed := by
    simp [p, WellFormed, WellFormedBranches, WellFormedPieces, WellFormedTerm, hk]
    decide
  have hs : p.Separate := by
    simp [p, Separate, SeparateBranches, SeparatePieces, SeparateTerm, RunsOn]
  exact ⟨h, hs, parse_toText_eq_ok h hs⟩

/-- What was read is printed as a text that can be read, and it is then the same pattern unless a
literal runs on into the next piece. -/
theorem parse_toText_same_iff {text : String} {p : Pattern} (h : Pattern.parse text = .ok p) :
    ∃ q, Pattern.parse p.toText = .ok q ∧ (q.same p ↔ p.Separate) := by
  have hp : p.WellFormed := Spells.wellFormed (parse_eq_ok_iff.1 h)
  exact ⟨p.joined, parse_toText_eq_joined hp, same_joined_iff⟩

/-- One round that was written out is not printed, and what it kept apart is read as one literal. -/
theorem parse_toText_one_round :
    let p : Pattern := [[(.literal "a", .once), (.literal "b", .once)]]
    Pattern.parse "a\x7b1\x7db" = .ok p ∧ ∃ q, Pattern.parse p.toText = .ok q ∧ ¬ q.same p := by
  intro p
  have hliteral (x : Char) (hx : isLiteral x) : SpellsTerm (.literal (.ofList [x])) [x] := by
    rw [SpellsTerm, String.toList_ofList]
    exact ⟨rfl, List.cons_ne_nil x [], List.forall_mem_singleton.2 hx⟩
  have ha : SpellsPiece (.literal "a", .once) ['a', '\x7b', '1', '\x7d'] := by
    have hone : Repetition.once.Spells ['\x7b', '1', '\x7d'] :=
      @Repetition.Spells.exactly ['1'] 1 (by decide)
    rw [SpellsPiece]
    exact ⟨['a'], _, hliteral 'a' (by decide), hone, rfl⟩
  have hb : SpellsPieces [(.literal "b", .once)] ['b'] := by
    simp only [SpellsPieces, SpellsPiece]
    exact ⟨['b'], [], ⟨['b'], [], hliteral 'b' (by decide), .omitted, rfl⟩, rfl,
      fun _ _ _ => halts_nil _, rfl⟩
  have hapart : Apart ['a', '\x7b', '1', '\x7d'] ['b'] := apart_of_last rfl (by decide) ['b']
  have h : Pattern.parse "a\x7b1\x7db" = .ok p := by
    rw [parse_eq_ok_iff, Spells, SpellsBranches]
    refine ⟨['a', '\x7b', '1', '\x7d', 'b'], [], List.cons_ne_nil _ _, ?_, ?_, by decide⟩
    · rw [SpellsPieces]
      exact ⟨_, _, ha, hb, hapart, rfl⟩
    · rw [SpellsRest]
  obtain ⟨q, hq, hsame⟩ := parse_toText_same_iff h
  refine ⟨h, q, hq, ?_⟩
  rw [hsame, Separate, SeparateBranches, SeparatePieces]
  intro hs
  exact hs.1.2.1 rfl

end PatternGen.Pattern
