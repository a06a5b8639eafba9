import PatternGen.Proofs.Gen.Flaws
import PatternGen.Proofs.Pattern.Canonical
import PatternGen.Proofs.Pattern.ContextFree

namespace PatternGen

open Grammar

/-- No closing bracket is in the item, and the ends of a range are in order. -/
def ClassItem.Written : ClassItem → Prop
  | single c => c ≠ ']'
  | range first last => first ≠ ']' ∧ last ≠ ']' ∧ first ≤ last

namespace Pattern

def Node.Written : Node → Prop
  | choice branches => branches ≠ [] ∧ ∀ b ∈ branches, b ≠ [] ∧
    ∀ text r, (.literal text, r) ∈ b →
      text ≠ "" ∧ ∀ x ∈ text.toList, x.isAlphanum ∨ x ∈ "$@#%&_-".toList
  | rounds r => ∀ max ∈ r.max, r.min ≤ max
  | charClass k => ∀ e ∈ k.items, e.Written

end Pattern

theorem CharClass.Canonical.written {k : CharClass} (h : k.Canonical) :
    ∀ e ∈ k.items, e.Written := by
  intro e he
  have hprint := h.unbracketed e he
  cases e with
  | single c => exact staysInClass_iff.1 (hprint c (List.mem_cons_self ..))
  | range first last =>
    have hfirst := hprint first (List.mem_cons_self ..)
    have hlast := hprint last (by simp [ClassItem.print])
    exact ⟨staysInClass_iff.1 hfirst, staysInClass_iff.1 hlast, h.ascending first last he⟩

/-- An item that was written lists a character. -/
theorem ClassItem.Written.exists_contains {e : ClassItem} (h : e.Written) :
    ∃ c, e.contains c := by
  cases e with
  | single c => exact ⟨c, beq_self_eq_true c⟩
  | range first last =>
    refine ⟨first, ?_⟩
    rw [contains, Bool.and_eq_true, decide_eq_true_eq, decide_eq_true_eq]
    exact ⟨Char.le_refl first, h.2.2⟩

namespace Pattern

theorem mem_wellFormedPieces {ps : List (Term × Repetition)} (h : WellFormedPieces ps)
    (hp : (t, r) ∈ ps) : WellFormedTerm t ∧ r.isValid := by
  induction ps with
  | nil => cases hp
  | cons p ps ih =>
    rw [WellFormedPieces] at h
    obtain ⟨ht, hr, hps⟩ := h
    cases hp with
    | head => exact ⟨ht, hr⟩
    | tail _ hp => exact ih hps hp

theorem mem_wellFormedBranches {bs : List (List (Term × Repetition))} (h : WellFormedBranches bs)
    (hb : b ∈ bs) : b ≠ [] ∧ WellFormedPieces b := by
  induction bs with
  | nil => cases hb
  | cons c bs ih =>
    rw [WellFormedBranches] at h
    obtain ⟨hne, hc, hbs⟩ := h
    cases hb with
    | head => exact ⟨hne, hc⟩
    | tail _ hb => exact ih hbs hb

theorem written_choice {bs : List (List (Term × Repetition))} (hne : bs ≠ [])
    (h : WellFormedBranches bs) : (Node.choice bs).Written := by
  refine ⟨hne, ?_⟩
  intro b hb
  obtain ⟨hne, hps⟩ := mem_wellFormedBranches h hb
  refine ⟨hne, ?_⟩
  intro text r hp
  obtain ⟨ht, -⟩ := mem_wellFormedPieces hps hp
  rw [WellFormedTerm] at ht
  obtain ⟨htext, hl⟩ := ht
  refine ⟨?_, fun x hx => isLiteral_iff.1 (hl x hx)⟩
  rintro rfl
  exact htext rfl

theorem written_rounds {r : Repetition} (h : r.isValid) : (Node.rounds r).Written := by
  intro max hmax
  rw [Repetition.isValid, Option.mem_def.1 hmax] at h
  exact of_decide_eq_true h

mutual

theorem written_termNodes {t : Term} (h : WellFormedTerm t) : ∀ n ∈ termNodes t, n.Written := by
  cases t with
  | charClass k =>
    rw [WellFormedTerm] at h
    rw [termNodes, List.forall_mem_singleton]
    exact h.written
  | literal text =>
    rw [termNodes]
    exact List.forall_mem_nil _
  | group bs =>
    rw [WellFormedTerm] at h
    rw [termNodes, List.forall_mem_cons]
    exact ⟨written_choice h.1 h.2, written_branchesNodes h.2⟩

theorem written_branchNodes {ps : List (Term × Repetition)} (h : WellFormedPieces ps) :
    ∀ n ∈ branchNodes ps, n.Written := by
  cases ps with
  | nil =>
    rw [branchNodes]
    exact List.forall_mem_nil _
  | cons p ps =>
    obtain ⟨t, r⟩ := p
    rw [WellFormedPieces] at h
    obtain ⟨ht, hr, hps⟩ := h
    rw [branchNodes, pieceNodes, List.forall_mem_append, List.forall_mem_cons]
    exact ⟨⟨written_rounds hr, written_termNodes ht⟩, written_branchNodes hps⟩

theorem written_branchesNodes {bs : List (List (Term × Repetition))} (h : WellFormedBranches bs) :
    ∀ n ∈ branchesNodes bs, n.Written := by
  cases bs with
  | nil =>
    rw [branchesNodes]
    exact List.forall_mem_nil _
  | cons b bs =>
    rw [WellFormedBranches] at h
    obtain ⟨-, hb, hbs⟩ := h
    rw [branchesNodes, List.forall_mem_append]
    exact ⟨written_branchNodes hb, written_branchesNodes hbs⟩

end

theorem written_of_parse_eq_ok {p : Pattern} (h : Pattern.parse text = .ok p) :
    ∀ n ∈ p.nodes, n.Written := by
  obtain ⟨hne, hbs⟩ := Spells.wellFormed (parse_eq_ok_iff.1 h)
  rw [nodes, List.forall_mem_cons]
  exact ⟨written_choice hne hbs, written_branchesNodes hbs⟩

theorem FirstFlaw.exists_mem (h : FirstFlaw o ns e) : ∃ n ∈ ns, n.Flawed o e := by
  induction h with
  | here h => exact ⟨_, List.mem_cons_self .., h⟩
  | later _ _ ih =>
    obtain ⟨n, hn, h⟩ := ih
    exact ⟨n, List.mem_cons_of_mem _ hn, h⟩

theorem Node.Flawed.ne_noAlternatives {n : Node} (h : n.Flawed o e) (hn : n.Written) :
    e ≠ .noAlternatives := by
  rintro rfl
  cases h with
  | noAlternatives => exact hn.1 rfl

theorem Node.Flawed.ne_invalidRepetition {n : Node} (h : n.Flawed o e) (hn : n.Written)
    (lo hi : UInt32) : e ≠ .invalidRepetition lo hi := by
  rintro rfl
  cases h with
  | invalidRepetition h => exact UInt32.not_le.2 h (hn hi rfl)

/-- A class that was written is empty if there is nothing between its brackets, or a caret that does
not count. -/
theorem Node.Flawed.exists_emptyClass {n : Node} (h : n.Flawed o (.emptyClass name))
    (hn : n.Written) :
    n = .charClass ⟨false, []⟩ ∧ name = "[]" ∨
      n = .charClass ⟨true, []⟩ ∧ name = "[^]" ∧ o.negation = .ignore := by
  cases h with
  | @emptyClass k hk h =>
    obtain ⟨negated, items⟩ := k
    cases items with
    | nil =>
      cases negated with
      | false => exact .inl ⟨rfl, rfl⟩
      | true => exact .inr ⟨rfl, rfl, hk rfl⟩
    | cons e items =>
      obtain ⟨c, hc⟩ := (hn e (List.mem_cons_self ..)).exists_contains
      exact (h c (CharClass.contains_iff.2 ⟨e, List.mem_cons_self .., hc⟩)).elim

end Pattern

namespace Gen

open Pattern

theorem eq_error_of_isError {ε α : Type} [DecidableEq ε] {x : Except ε α} {e : ε}
    (h : (match x with
      | .ok _ => false
      | .error e' => decide (e' = e)) = true) : x = .error e := by
  cases x with
  | ok a => cases h
  | error e' => rw [of_decide_eq_true h]

/-- A pattern that is refused after it was read has a bad node, which was written so. -/
theorem exists_flawed_of_ofPattern (h : ofPattern text o = .error (.compile e)) :
    ∃ p, Pattern.parse text = .ok p ∧ ∃ n ∈ p.nodes, n.Flawed o e ∧ n.Written := by
  rw [ofPattern] at h
  cases hp : Pattern.parse text with
  | error e' =>
    rw [hp] at h
    cases h
  | ok p =>
    rw [hp] at h
    have hjudged := judged_generator o p
    change (p.generator o).mapError GenError.compile = _ at h
    cases hg : p.generator o with
    | ok g =>
      rw [hg] at h
      cases h
    | error e' =>
      rw [hg] at h hjudged
      cases h
      obtain ⟨n, hn, hflawed⟩ := FirstFlaw.exists_mem hjudged
      exact ⟨p, rfl, n, hn, hflawed, written_of_parse_eq_ok hp n hn⟩

/-- What is read from a text is sound in all that a text can show. So no text is refused for a
choice without branches or for bounds in the wrong order, and none for an empty class unless that is
how the class was written. -/
theorem ofPattern_refusals (text : String) :
    (∀ p, Pattern.parse text = .ok p → ∀ n ∈ p.nodes, n.Written) ∧
    ∀ o : Options,
      ofPattern text o ≠ .error (.compile .noAlternatives) ∧
      (∀ lo hi, ofPattern text o ≠ .error (.compile (.invalidRepetition lo hi))) ∧
      ∀ name, ofPattern text o = .error (.compile (.emptyClass name)) →
        ∃ p, Pattern.parse text = .ok p ∧
          (.charClass ⟨false, []⟩ ∈ p.nodes ∧ name = "[]" ∨
            .charClass ⟨true, []⟩ ∈ p.nodes ∧ name = "[^]" ∧ o.negation = .ignore) := by
  refine ⟨fun p hp => written_of_parse_eq_ok hp, fun o => ⟨?_, ?_, ?_⟩⟩
  · intro h
    obtain ⟨p, -, n, -, hflawed, hn⟩ := exists_flawed_of_ofPattern h
    exact hflawed.ne_noAlternatives hn rfl
  · intro lo hi h
    obtain ⟨p, -, n, -, hflawed, hn⟩ := exists_flawed_of_ofPattern h
    exact hflawed.ne_invalidRepetition hn lo hi rfl
  · intro name h
    obtain ⟨p, hp, n, hmem, hflawed, hn⟩ := exists_flawed_of_ofPattern h
    refine ⟨p, hp, ?_⟩
    rcases hflawed.exists_emptyClass hn with ⟨rfl, hname⟩ | ⟨rfl, hname⟩
    · exact .inl ⟨hmem, hname⟩
    · exact .inr ⟨hmem, hname⟩

/-- A caret does not make a class of something if carets do not count. -/
theorem ofPattern_refusals_lone_caret :
    let text := "(a[^]|b\x7b2\x7d)*"
    let o : Options := { negation := .ignore }
    ofPattern text o = .error (.compile (.emptyClass "[^]")) ∧
      ∃ p, Pattern.parse text = .ok p ∧ (∀ n ∈ p.nodes, n.Written) ∧
        .charClass ⟨true, []⟩ ∈ p.nodes := by
  intro text o
  have h : ofPattern text o = .error (.compile (.emptyClass "[^]")) :=
    eq_error_of_isError (by decide +kernel)
  obtain ⟨hwritten, hrefused⟩ := ofPattern_refusals text
  obtain ⟨p, hp, ⟨-, hname⟩ | ⟨hmem, -, -⟩⟩ := (hrefused o).2.2 "[^]" h
  · exact absurd hname (by decide)
  · exact ⟨h, p, hp, hwritten p hp, hmem⟩

end Gen

end PatternGen
