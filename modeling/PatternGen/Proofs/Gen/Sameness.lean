import PatternGen.Proofs.Gen.Compile
import PatternGen.Proofs.Gen.Flaws
import PatternGen.Proofs.Pattern.Sameness

namespace PatternGen

/-- The errors differ at most in how a class is printed. -/
inductive CompileError.Alike : CompileError → CompileError → Prop where
  | refl (e : CompileError) : Alike e e
  | emptyClass (k l : String) : Alike (.emptyClass k) (.emptyClass l)
  | emptyComplement (k l alphabet : String) :
    Alike (.emptyComplement k alphabet) (.emptyComplement l alphabet)
  | negatedClass (k l : String) : Alike (.negatedClass k) (.negatedClass l)

namespace CharClass

variable {k l : CharClass}

theorem Alike.contains_eq (h : k.Alike l) (c : Char) : k.contains c = l.contains c :=
  h.2.any_eq

theorem Alike.allows_eq (h : k.Alike l) (n : Negation) : n.Allows k = n.Allows l := by
  funext c
  unfold Negation.Allows
  rw [h.1, h.contains_eq]

end CharClass

namespace Pattern

namespace Node

/-- The nodes differ at most in the order of the items of a class. -/
inductive Alike : Node → Node → Prop where
  | choice (h : bs = [] ↔ cs = []) : Alike (.choice bs) (.choice cs)
  | rounds (r : Repetition) : Alike (.rounds r) (.rounds r)
  | charClass (h : k.Alike l) : Alike (.charClass k) (.charClass l)

variable {o : Options} {n m : Node}

theorem Alike.sound (h : n.Alike m) (hn : n.Sound o) : m.Sound o := by
  cases h with
  | choice h => exact mt h.2 hn
  | rounds r => exact hn
  | charClass h =>
    obtain ⟨c, hc⟩ := hn
    exact ⟨c, h.allows_eq _ ▸ hc⟩

theorem Alike.flawed (h : n.Alike m) (hn : n.Flawed o e) : ∃ e', m.Flawed o e' ∧ e.Alike e' := by
  cases h with
  | choice h =>
    cases hn
    cases h.1 rfl
    exact ⟨_, .noAlternatives, .refl _⟩
  | rounds r => exact ⟨e, hn, .refl e⟩
  | charClass h =>
    cases hn with
    | emptyClass hk hall =>
      refine ⟨_, .emptyClass (h.1 ▸ hk) fun c => ?_, .emptyClass _ _⟩
      rw [← h.contains_eq]
      exact hall c
    | emptyComplement hk hn hall =>
      refine ⟨_, .emptyComplement (h.1 ▸ hk) hn fun c hc => ?_, .emptyComplement _ _ _⟩
      rw [← h.contains_eq]
      exact hall c hc
    | negatedClass hk hn => exact ⟨_, .negatedClass (h.1 ▸ hk) hn, .negatedClass _ _⟩

end Node

variable {o : Options}

theorem FirstFlaw.congr (h : FirstFlaw o ns e) (hm : List.Forall₂ Node.Alike ns ms) :
    ∃ e', FirstFlaw o ms e' ∧ e.Alike e' := by
  induction h generalizing ms with
  | here h =>
    cases hm with
    | cons hn _ =>
      obtain ⟨e', he', halike⟩ := hn.flawed h
      exact ⟨e', .here he', halike⟩
  | later hs _ ih =>
    cases hm with
    | cons hn hm =>
      obtain ⟨e', he', halike⟩ := ih hm
      exact ⟨e', .later (hn.sound hs) he', halike⟩

theorem forall_sound_congr (h : List.Forall₂ Node.Alike ns ms) (hs : ∀ n ∈ ns, n.Sound o) :
    ∀ m ∈ ms, m.Sound o := by
  induction h with
  | nil => exact List.forall_mem_nil _
  | cons hn _ ih =>
    obtain ⟨h, hs⟩ := List.forall_mem_cons.1 hs
    exact List.forall_mem_cons.2 ⟨hn.sound h, ih hs⟩

theorem sameBranches_eq_nil_iff (h : sameBranches bs cs) : bs = [] ↔ cs = [] := by
  cases bs with
  | nil => simp [eq_nil_of_sameBranches h]
  | cons b bs =>
    obtain ⟨c, ds, rfl, -⟩ := exists_of_sameBranches_cons h
    simp

mutual

theorem alike_termNodes : ∀ {t u : Term}, sameTerm t u →
    List.Forall₂ Node.Alike (termNodes t) (termNodes u)
  | .charClass k, _, h => by
    obtain ⟨l, rfl, hkl⟩ := exists_of_sameTerm_charClass h
    rw [termNodes, termNodes]
    exact .cons (.charClass hkl) .nil
  | .literal text, _, h => by
    rw [eq_of_sameTerm_literal h, termNodes]
    exact .nil
  | .group bs, _, h => by
    obtain ⟨cs, rfl, hbs⟩ := exists_of_sameTerm_group h
    rw [termNodes, termNodes]
    exact .cons (.choice (sameBranches_eq_nil_iff hbs)) (alike_branchesNodes hbs)

theorem alike_pieceNodes : ∀ {p q : Term × Repetition}, samePiece p q →
    List.Forall₂ Node.Alike (pieceNodes p) (pieceNodes q)
  | (t, r), _, h => by
    obtain ⟨u, rfl, ht⟩ := exists_of_samePiece h
    rw [pieceNodes, pieceNodes]
    exact .cons (.rounds r) (alike_termNodes ht)

theorem alike_branchNodes : ∀ {ps qs : List (Term × Repetition)}, sameBranch ps qs →
    List.Forall₂ Node.Alike (branchNodes ps) (branchNodes qs)
  | [], _, h => by
    rw [eq_nil_of_sameBranch h, branchNodes]
    exact .nil
  | p :: ps, _, h => by
    obtain ⟨q, qs, rfl, hp, hps⟩ := exists_of_sameBranch_cons h
    rw [branchNodes, branchNodes]
    exact List.rel_append (alike_pieceNodes hp) (alike_branchNodes hps)

theorem alike_branchesNodes : ∀ {bs cs : List (List (Term × Repetition))}, sameBranches bs cs →
    List.Forall₂ Node.Alike (branchesNodes bs) (branchesNodes cs)
  | [], _, h => by
    rw [eq_nil_of_sameBranches h, branchesNodes]
    exact .nil
  | b :: bs, _, h => by
    obtain ⟨c, cs, rfl, hb, hbs⟩ := exists_of_sameBranches_cons h
    rw [branchesNodes, branchesNodes]
    exact List.rel_append (alike_branchNodes hb) (alike_branchesNodes hbs)

end

theorem alike_nodes {p q : Pattern} (h : p.same q) : List.Forall₂ Node.Alike p.nodes q.nodes :=
  .cons (.choice (sameBranches_eq_nil_iff h)) (alike_branchesNodes h)

mutual

theorem termLanguage_eq_of_same : ∀ {t u : Term}, sameTerm t u →
    termLanguage o t = termLanguage o u
  | .charClass k, _, h => by
    obtain ⟨l, rfl, hkl⟩ := exists_of_sameTerm_charClass h
    rw [termLanguage, termLanguage, hkl.allows_eq]
  | .literal text, _, h => by rw [eq_of_sameTerm_literal h]
  | .group bs, _, h => by
    obtain ⟨cs, rfl, hbs⟩ := exists_of_sameTerm_group h
    rw [termLanguage, termLanguage, branchesLanguage_eq_of_same hbs]

theorem pieceLanguage_eq_of_same : ∀ {p q : Term × Repetition}, samePiece p q →
    pieceLanguage o p = pieceLanguage o q
  | (t, r), _, h => by
    obtain ⟨u, rfl, ht⟩ := exists_of_samePiece h
    rw [pieceLanguage, pieceLanguage, termLanguage_eq_of_same ht]

theorem branchLanguage_eq_of_same : ∀ {ps qs : List (Term × Repetition)}, sameBranch ps qs →
    branchLanguage o ps = branchLanguage o qs
  | [], _, h => by rw [eq_nil_of_sameBranch h]
  | p :: ps, _, h => by
    obtain ⟨q, qs, rfl, hp, hps⟩ := exists_of_sameBranch_cons h
    rw [branchLanguage, branchLanguage, pieceLanguage_eq_of_same hp,
      branchLanguage_eq_of_same hps]

theorem branchesLanguage_eq_of_same :
    ∀ {bs cs : List (List (Term × Repetition))}, sameBranches bs cs →
      branchesLanguage o bs = branchesLanguage o cs
  | [], _, h => by rw [eq_nil_of_sameBranches h]
  | b :: bs, _, h => by
    obtain ⟨c, cs, rfl, hb, hbs⟩ := exists_of_sameBranches_cons h
    rw [branchesLanguage, branchesLanguage, branchLanguage_eq_of_same hb,
      branchesLanguage_eq_of_same hbs]

end

/-- Both are generators and draw the same words, or both are refusals for the same reason. -/
inductive Agree : Except CompileError (Gen String) → Except CompileError (Gen String) → Prop where
  | ok (h : ∀ w, g.Draws w ↔ g'.Draws w) : Agree (.ok g) (.ok g')
  | error (h : d.Alike e) : Agree (.error d) (.error e)

theorem generators_agree {p q : Pattern} (h : p.same q) (o : Options) :
    Agree (p.generator o) (q.generator o) := by
  have hnodes := alike_nodes h
  have hp := judged_generator o p
  have hq := judged_generator o q
  cases hg : p.generator o with
  | ok g =>
    obtain ⟨g', hg'⟩ := hq.exists_ok_iff.2
      (forall_sound_congr hnodes (hp.exists_ok_iff.1 ⟨g, hg⟩))
    rw [hg']
    apply Agree.ok
    intro w
    rw [Gen.draws_iff_yields, Gen.draws_iff_yields, (generates_generator hg).2,
      (generates_generator hg').2, language, language, branchesLanguage_eq_of_same h]
  | error e =>
    obtain ⟨e', he', halike⟩ := (hp.eq_error_iff.1 hg).congr hnodes
    rw [hq.eq_error_iff.2 he']
    exact .error halike

/-- Classes are the same if both or neither are negated and they have the same items in some order,
which is how they compare once their items are sorted. Patterns are the same if their outlines are
equal and their classes are the same, and then they draw the same words or are refused alike. -/
theorem same_and_generators :
    (∀ k l : CharClass, (k.same l ↔ k.negated = l.negated ∧ k.items.Perm l.items) ∧
      k.same l = (k.negated == l.negated && k.items.length == l.items.length &&
        k.sortedItems == l.sortedItems)) ∧
    Equivalence (fun p q : Pattern => p.same q) ∧
    (∀ p q : Pattern, p.same q ↔
      p.outline = q.outline ∧ List.Forall₂ CharClass.Alike p.classes q.classes) ∧
    ∀ p q : Pattern, p.same q → ∀ o, Agree (p.generator o) (q.generator o) := by
  refine ⟨?_, same_equivalence, fun p q => same_iff, fun p q => generators_agree⟩
  intro k l
  exact ⟨CharClass.same_iff, CharClass.same_eq_sorted k l⟩

/-- A negated class in a group, with its items in another order and its caret kept. -/
theorem same_and_generators_reordered :
    let p : Pattern := [[(.group [[(.charClass ⟨true, [.range 'a' 'm', .single 'z']⟩, .once)]],
      .zeroOrMore)]]
    let q : Pattern := [[(.group [[(.charClass ⟨true, [.single 'z', .range 'a' 'm']⟩, .once)]],
      .zeroOrMore)]]
    p.same q ∧ Agree (p.generator {}) (q.generator {}) ∧
      Agree (p.generator { negation := .reject }) (q.generator { negation := .reject }) := by
  intro p q
  have h : p.same q := by decide +kernel
  exact ⟨h, same_and_generators.2.2.2 p q h {}, same_and_generators.2.2.2 p q h _⟩

end Pattern

end PatternGen
