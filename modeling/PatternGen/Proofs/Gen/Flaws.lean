import PatternGen.Gen.Compile
import PatternGen.Proofs.Gen.Multiplicity

namespace PatternGen

namespace Pattern

/-- What can be bad in itself. -/
inductive Node where
  | choice (branches : List Branch)
  | rounds (r : Repetition)
  | charClass (k : CharClass)

mutual

def termNodes : Term → List Node
  | .charClass k => [.charClass k]
  | .literal _ => []
  | .group branches => .choice branches :: branchesNodes branches

def pieceNodes : Term × Repetition → List Node
  | (t, r) => .rounds r :: termNodes t

def branchNodes : List (Term × Repetition) → List Node
  | [] => []
  | p :: ps => pieceNodes p ++ branchNodes ps

def branchesNodes : List (List (Term × Repetition)) → List Node
  | [] => []
  | b :: bs => branchNodes b ++ branchesNodes bs

end

/-- The nodes of a pattern at all depths from left to right, each before those inside it. -/
def nodes (p : Pattern) : List Node := .choice p :: branchesNodes p

namespace Node

/-- The node is not bad in itself. Without a bound, the greatest number of rounds is the cap. -/
def Sound (o : Options) : Node → Prop
  | choice branches => branches ≠ []
  | rounds r => r.min ≤ r.max.getD o.repeatCap ∧ r.max.getD o.repeatCap ≤ o.repeatLimit
  | charClass k => ∃ c, o.negation.Allows k c

/-- The node is bad in itself, and the error tells so. That rounds exceed the limit is told only
where there could be rounds at all. -/
inductive Flawed (o : Options) : Node → CompileError → Prop where
  | noAlternatives : Flawed o (choice []) .noAlternatives
  | invalidRepetition (h : hi < lo) :
    Flawed o (rounds ⟨lo, some hi⟩) (.invalidRepetition lo hi)
  | capBelowMinimum (h : o.repeatCap < lo) :
    Flawed o (rounds ⟨lo, none⟩) (.capBelowMinimum lo o.repeatCap)
  | limitExceeded (hr : r.min ≤ r.max.getD o.repeatCap)
      (h : o.repeatLimit < r.max.getD o.repeatCap) :
    Flawed o (rounds r) (.limitExceeded (r.max.getD o.repeatCap) o.repeatLimit)
  | emptyClass (hk : k.negated → o.negation = .ignore) (h : ∀ c, ¬ k.contains c) :
    Flawed o (charClass k) (.emptyClass (toString k))
  | emptyComplement (hk : k.negated) (hn : o.negation = .complement alphabet)
      (h : ∀ c, alphabet.contains c → k.contains c) :
    Flawed o (charClass k) (.emptyComplement (toString k) (toString alphabet))
  | negatedClass (hk : k.negated) (hn : o.negation = .reject) :
    Flawed o (charClass k) (.negatedClass (toString k))

variable {o : Options} {n : Node}

theorem Flawed.not_sound (h : n.Flawed o e) : ¬ n.Sound o := by
  intro hs
  cases h with
  | noAlternatives => exact hs rfl
  | invalidRepetition h => exact UInt32.not_le.2 h hs.1
  | capBelowMinimum h => exact UInt32.not_le.2 h hs.1
  | limitExceeded _ h => exact UInt32.not_le.2 h hs.2
  | emptyClass hk h =>
    obtain ⟨c, hc⟩ := hs
    exact h c ((Negation.allows_iff_contains hk).1 hc)
  | emptyComplement hk hn h =>
    obtain ⟨c, hc⟩ := hs
    rw [hn, Negation.allows_complement_iff hk] at hc
    exact hc.2 (h c hc.1)
  | negatedClass hk hn =>
    obtain ⟨c, hc⟩ := hs
    rw [hn] at hc
    exact Negation.not_allows_reject hk hc

/-- A bad node has one error. -/
theorem Flawed.unique (h : n.Flawed o e) (h' : n.Flawed o e') : e = e' := by
  cases h with
  | noAlternatives =>
    cases h'
    rfl
  | invalidRepetition h =>
    cases h' with
    | invalidRepetition => rfl
    | limitExceeded hr => exact (UInt32.not_le.2 h hr).elim
  | capBelowMinimum h =>
    cases h' with
    | capBelowMinimum => rfl
    | limitExceeded hr => exact (UInt32.not_le.2 h hr).elim
  | limitExceeded hr =>
    cases h' with
    | invalidRepetition h => exact (UInt32.not_le.2 h hr).elim
    | capBelowMinimum h => exact (UInt32.not_le.2 h hr).elim
    | limitExceeded => rfl
  | emptyClass hk =>
    cases h' with
    | emptyClass => rfl
    | emptyComplement hk' hn => cases (hk hk').symm.trans hn
    | negatedClass hk' hn => cases (hk hk').symm.trans hn
  | emptyComplement hk hn =>
    cases h' with
    | emptyClass hk' => cases (hk' hk).symm.trans hn
    | emptyComplement _ hn' =>
      cases hn.symm.trans hn'
      rfl
    | negatedClass _ hn' => cases hn.symm.trans hn'
  | negatedClass hk hn =>
    cases h' with
    | emptyClass hk' => cases (hk' hk).symm.trans hn
    | emptyComplement _ hn' => cases hn.symm.trans hn'
    | negatedClass => rfl

end Node

/-- The first bad node of a row is the one that the error tells of. -/
inductive FirstFlaw (o : Options) : List Node → CompileError → Prop where
  | here (h : n.Flawed o e) : FirstFlaw o (n :: ns) e
  | later (hn : n.Sound o) (h : FirstFlaw o ns e) : FirstFlaw o (n :: ns) e

variable {α β : Type} {o : Options} {n : Node} {ns ms : List Node}

theorem FirstFlaw.not_sound (h : FirstFlaw o ns e) : ¬ ∀ n ∈ ns, n.Sound o := by
  induction h with
  | here h =>
    intro hs
    exact h.not_sound (hs _ List.mem_cons_self)
  | later _ _ ih =>
    intro hs
    exact ih (List.forall_mem_cons.1 hs).2

theorem FirstFlaw.unique (h : FirstFlaw o ns e) (h' : FirstFlaw o ns e') : e = e' := by
  induction h with
  | here h =>
    cases h' with
    | here h' => exact h.unique h'
    | later hn _ => exact (h.not_sound hn).elim
  | later hn _ ih =>
    cases h' with
    | here h' => exact (h'.not_sound hn).elim
    | later _ h' => exact ih h'

theorem FirstFlaw.append (h : FirstFlaw o ns e) (ms : List Node) : FirstFlaw o (ns ++ ms) e := by
  induction h with
  | here h => exact .here h
  | later hn _ ih => exact .later hn ih

theorem FirstFlaw.prepend (h : FirstFlaw o ms e) (hs : ∀ n ∈ ns, n.Sound o) :
    FirstFlaw o (ns ++ ms) e := by
  induction ns with
  | nil => exact h
  | cons n ns ih =>
    obtain ⟨hn, hs⟩ := List.forall_mem_cons.1 hs
    exact .later hn (ih hs)

/-- Something is made of the nodes if they are all sound, and refused for the first bad one. -/
def Judged (o : Options) (ns : List Node) : Except CompileError α → Prop
  | .ok _ => ∀ n ∈ ns, n.Sound o
  | .error e => FirstFlaw o ns e

theorem judged_ok (a : α) : Judged o [] (.ok a) := List.forall_mem_nil _

theorem Judged.cons {x : Except CompileError α} (h : Judged o ns x) (hn : n.Sound o) :
    Judged o (n :: ns) x := by
  cases x with
  | ok a => exact List.forall_mem_cons.2 ⟨hn, h⟩
  | error e => exact .later hn h

theorem Judged.map {x : Except CompileError α} (h : Judged o ns x) (f : α → β) :
    Judged o ns (x.map f) := by
  cases x with
  | ok a => exact h
  | error e => exact h

theorem Judged.bind {x : Except CompileError α} {f : α → Except CompileError β}
    (h : Judged o ns x) (hf : ∀ a, x = .ok a → Judged o ms (f a)) :
    Judged o (ns ++ ms) (x.bind f) := by
  cases x with
  | error e => exact FirstFlaw.append h ms
  | ok a =>
    have hs : ∀ n ∈ ns, n.Sound o := h
    have ha := hf a rfl
    rw [Except.bind]
    cases hb : f a with
    | error e =>
      rw [hb] at ha
      exact FirstFlaw.prepend ha hs
    | ok b =>
      rw [hb] at ha
      exact List.forall_mem_append.2 ⟨hs, ha⟩

theorem Judged.exists_ok_iff {x : Except CompileError α} (h : Judged o ns x) :
    (∃ a, x = .ok a) ↔ ∀ n ∈ ns, n.Sound o := by
  cases x with
  | ok a => exact ⟨fun _ => h, fun _ => ⟨a, rfl⟩⟩
  | error e => exact ⟨nofun, fun hs => (FirstFlaw.not_sound h hs).elim⟩

theorem Judged.eq_error_iff {x : Except CompileError α} (h : Judged o ns x) :
    x = .error e ↔ FirstFlaw o ns e := by
  cases x with
  | ok a => exact ⟨nofun, fun he => (he.not_sound h).elim⟩
  | error e' =>
    constructor
    · rintro ⟨⟩
      exact h
    · intro he
      rw [FirstFlaw.unique h he]

theorem judged_maxRounds (o : Options) (r : Repetition) :
    Judged o [.rounds r] (o.maxRounds r) := by
  have hlimit {n : UInt32} (hn : n = r.max.getD o.repeatCap) (hr : r.min ≤ n) :
      Judged o [.rounds r] (o.withinLimit n) := by
    subst hn
    rw [Options.withinLimit]
    split
    · next h => exact .here (.limitExceeded hr h)
    · next h => exact List.forall_mem_singleton.2 ⟨hr, UInt32.not_lt.1 h⟩
  obtain ⟨lo, hi⟩ := r
  rw [Options.maxRounds]
  cases hi with
  | some hi =>
    dsimp only
    split
    · next h => exact .here (.invalidRepetition h)
    · next h => exact hlimit rfl (UInt32.not_lt.1 h)
  | none =>
    dsimp only
    split
    · next h => exact .here (.capBelowMinimum h)
    · next h => exact hlimit rfl (UInt32.not_lt.1 h)

theorem Node.flawed_refusal {k : CharClass} (h : ∀ c, ¬ o.negation.Allows k c) :
    Node.Flawed o (.charClass k) (o.negation.refusal k) := by
  have hempty (hk : k.negated → o.negation = .ignore) :
      Node.Flawed o (.charClass k) (.emptyClass (toString k)) :=
    .emptyClass hk fun c => mt (Negation.allows_iff_contains hk).2 (h c)
  unfold Negation.refusal
  cases hk : k.negated with
  | false => exact hempty fun hk' => (Bool.false_ne_true (hk.symm.trans hk')).elim
  | true =>
    cases hn : o.negation with
    | complement alphabet =>
      apply Node.Flawed.emptyComplement hk hn
      intro c hc
      apply Decidable.by_contra
      intro hc'
      apply h c
      rw [hn]
      exact (Negation.allows_complement_iff hk).2 ⟨hc, hc'⟩
    | reject => exact .negatedClass hk hn
    | ignore => exact hempty fun _ => hn

theorem judged_ofClass (o : Options) (k : CharClass) :
    Judged o [.charClass k] (CharPool.ofClass k o.negation) := by
  cases h : CharPool.ofClass k o.negation with
  | ok p => exact List.forall_mem_singleton.2 (CharPool.exists_ofClass_iff.1 ⟨p, h⟩)
  | error e =>
    obtain ⟨hnone, rfl⟩ := CharPool.ofClass_eq_error_iff.1 h
    apply FirstFlaw.here
    apply Node.flawed_refusal
    intro c
    exact Negation.multiplicity_eq_zero_iff.1 (hnone c)

/-- The pool of a class is drawn from without a further refusal. -/
theorem judged_charClass (o : Options) (k : CharClass) :
    Judged o (termNodes (.charClass k)) (compileTerm o (.charClass k)) := by
  rw [compileTerm, termNodes, ← List.append_nil [_]]
  have h := judged_ofClass o k
  apply h.bind
  intro pool hpool
  rw [hpool] at h
  have hs : ∀ n ∈ [Node.charClass k], n.Sound o := h
  obtain ⟨c, hc⟩ := List.forall_mem_singleton.1 hs
  have hcount := CharPool.count_ne_zero_iff.2 ⟨c, (CharPool.holds_ofClass hpool).2 hc⟩
  rw [CharPool.generator, if_neg hcount]
  exact judged_ok _

/-- A choice is refused for having no branches, or for what is inside them. -/
theorem judged_choice {branches : List Branch}
    (h : Judged o (branchesNodes branches) (compileBranches o branches)) :
    Judged o (.choice branches :: branchesNodes branches)
      ((compileBranches o branches).bind chooseBranch) := by
  cases branches with
  | nil => exact .here .noAlternatives
  | cons b bs =>
    have hb : Node.Sound o (.choice (b :: bs)) := List.cons_ne_nil b bs
    have hbind : Judged o (branchesNodes (b :: bs) ++ [])
        ((compileBranches o (b :: bs)).bind chooseBranch) := by
      apply h.bind
      intro gs hgs
      rw [compileBranches] at hgs
      obtain ⟨ps, -, hgs⟩ := bind_eq_ok_iff.1 hgs
      obtain ⟨gs, -, rfl⟩ := map_eq_ok_iff.1 hgs
      exact judged_ok _
    rw [List.append_nil] at hbind
    exact hbind.cons hb

mutual

theorem judged_compileTerm (o : Options) :
    ∀ t : Term, Judged o (termNodes t) (compileTerm o t)
  | .charClass k => judged_charClass o k
  | .literal text => by
    rw [compileTerm, termNodes]
    exact judged_ok _
  | .group branches => by
    rw [compileTerm, termNodes]
    exact judged_choice (judged_compileBranches o branches)

theorem judged_compilePiece (o : Options) :
    ∀ p : Term × Repetition, Judged o (pieceNodes p) (compilePiece o p)
  | (t, r) => by
    rw [compilePiece, pieceNodes]
    apply (judged_maxRounds o r).bind
    intro max _
    exact (judged_compileTerm o t).map _

theorem judged_compilePieces (o : Options) :
    ∀ ps : List (Term × Repetition), Judged o (branchNodes ps) (compilePieces o ps)
  | [] => by
    rw [compilePieces, branchNodes]
    exact judged_ok _
  | p :: ps => by
    rw [compilePieces, branchNodes]
    apply (judged_compilePiece o p).bind
    intro g _
    exact (judged_compilePieces o ps).map _

theorem judged_compileBranches (o : Options) :
    ∀ bs : List (List (Term × Repetition)), Judged o (branchesNodes bs) (compileBranches o bs)
  | [] => by
    rw [compileBranches, branchesNodes]
    exact judged_ok _
  | b :: bs => by
    rw [compileBranches, branchesNodes]
    apply (judged_compilePieces o b).bind
    intro gs _
    exact (judged_compileBranches o bs).map _

end

theorem judged_generator (o : Options) (p : Pattern) : Judged o p.nodes (p.generator o) := by
  rw [generator, compile, nodes]
  exact (judged_choice (judged_compileBranches o p)).map _

/-- A pattern has a generator if and only if all its nodes are sound, and is otherwise refused with
the error of the first node that is not. -/
theorem generator_ok_or_first_flaw (p : Pattern) (o : Options) :
    ((∃ g, p.generator o = .ok g) ↔ ∀ n ∈ p.nodes, n.Sound o) ∧
      ∀ e, p.generator o = .error e ↔ FirstFlaw o p.nodes e := by
  have h := judged_generator o p
  exact ⟨h.exists_ok_iff, fun _ => h.eq_error_iff⟩

example : Pattern.generator [[(.group [], .between 2 1)]] = .error (.invalidRepetition 2 1) := rfl

end Pattern

end PatternGen
