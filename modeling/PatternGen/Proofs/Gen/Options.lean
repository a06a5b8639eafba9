import Mathlib.Algebra.Order.Monoid.Unbundled.Pow
import Mathlib.Order.CompletePartialOrder
import PatternGen.Proofs.Gen.Flaws
import PatternGen.Proofs.Gen.Walk

namespace PatternGen

/-- The two readings of negated classes generate the same characters in the same order. Whether an
alphabet is itself negated makes no difference. -/
inductive Negation.Alike : Negation → Negation → Prop where
  | complement (h : k.items = l.items) : Alike (.complement k) (.complement l)
  | reject : Alike .reject .reject
  | ignore : Alike .ignore .ignore

theorem Negation.Alike.refl (n : Negation) : n.Alike n := by
  cases n with
  | complement alphabet => exact .complement rfl
  | reject => exact .reject
  | ignore => exact .ignore

theorem Negation.Alike.characters_eq {n n' : Negation} (h : n.Alike n') (k : CharClass) :
    n.characters k = n'.characters k := by
  cases h with
  | @complement a b h =>
    have hchars : a.chars = b.chars := congrArg (List.flatMap ClassItem.chars) h
    unfold Negation.characters
    cases k.negated with
    | false => rfl
    | true => exact congrArg (List.filter _) hchars
  | reject => rfl
  | ignore => rfl

theorem Negation.characters_of_not_negated {k : CharClass} (hk : ¬ k.negated) (n n' : Negation) :
    n.characters k = n'.characters k := by
  rw [Bool.not_eq_true] at hk
  unfold Negation.characters
  rw [hk]

namespace Pattern

def Bounded (p : Pattern) : Prop := ∀ r, .rounds r ∈ p.nodes → ¬ r.isUnbounded

def Unnegated (p : Pattern) : Prop := ∀ k, .charClass k ∈ p.nodes → ¬ k.negated

/-- The node is walked through in the same way under both options. -/
def Node.ReadAlike (o o' : Options) : Node → Prop
  | choice _ => True
  | rounds r => r.last o.repeatCap = r.last o'.repeatCap
  | charClass k => o.negation.characters k = o'.negation.characters k

variable {σ : Type} {o o' : Options}

mutual

theorem walkTerm_congr (m : Sampler σ) :
    ∀ t : Term, (∀ n ∈ termNodes t, n.ReadAlike o o') → walkTerm m o t = walkTerm m o' t
  | .charClass k, h => by
    have hk : o.negation.characters k = o'.negation.characters k :=
      h (.charClass k) (List.mem_singleton_self _)
    rw [walkTerm, walkTerm, hk]
  | .literal text, _ => by rw [walkTerm, walkTerm]
  | .group branches, h => by
    rw [walkTerm, walkTerm]
    congr 1
    funext i
    exact walkBranch_congr m branches (List.forall_mem_cons.1 h).2 i

theorem walkPiece_congr (m : Sampler σ) :
    ∀ p : Term × Repetition, (∀ n ∈ pieceNodes p, n.ReadAlike o o') →
      walkPiece m o p = walkPiece m o' p
  | (t, r), h => by
    obtain ⟨hr, ht⟩ := List.forall_mem_cons.1 h
    have hlast : r.last o.repeatCap = r.last o'.repeatCap := hr
    rw [walkPiece, walkPiece, hlast, walkTerm_congr m t ht]

theorem walkPieces_congr (m : Sampler σ) :
    ∀ ps : List (Term × Repetition), (∀ n ∈ branchNodes ps, n.ReadAlike o o') →
      walkPieces m o ps = walkPieces m o' ps
  | [], _ => by rw [walkPieces, walkPieces]
  | p :: ps, h => by
    obtain ⟨hp, hps⟩ := List.forall_mem_append.1 h
    rw [walkPieces, walkPieces, walkPiece_congr m p hp, walkPieces_congr m ps hps]

theorem walkBranch_congr (m : Sampler σ) :
    ∀ bs : List (List (Term × Repetition)), (∀ n ∈ branchesNodes bs, n.ReadAlike o o') →
      ∀ i, walkBranch m o bs i = walkBranch m o' bs i
  | [], _, i => by rw [walkBranch, walkBranch]
  | b :: bs, h, i => by
    obtain ⟨hb, hbs⟩ := List.forall_mem_append.1 h
    cases i with
    | zero =>
      rw [walkBranch, walkBranch]
      exact walkPieces_congr m b hb
    | succ i =>
      rw [walkBranch, walkBranch]
      exact walkBranch_congr m bs hbs i

end

theorem walk_congr (m : Sampler σ) {p : Pattern} (h : ∀ n ∈ p.nodes, n.ReadAlike o o') :
    p.walk m o = p.walk m o' :=
  walkTerm_congr m (.group p) h

theorem readAlike_of_needed {p : Pattern} (hcap : p.Bounded ∨ o.repeatCap = o'.repeatCap)
    (hneg : p.Unnegated ∨ o.negation.Alike o'.negation) : ∀ n ∈ p.nodes, n.ReadAlike o o' := by
  intro n hn
  cases n with
  | choice branches => trivial
  | rounds r =>
    rcases hcap with hb | hcap
    · have hr := hb r hn
      cases hmax : r.max with
      | none => simp [Repetition.isUnbounded, hmax] at hr
      | some hi => simp [Node.ReadAlike, Repetition.last, hmax]
    · exact congrArg r.last hcap
  | charClass k =>
    rcases hneg with hu | hneg
    · exact Negation.characters_of_not_negated (hu k hn) _ _
    · exact hneg.characters_eq k

theorem run_eq_walk {p : Pattern} (h : p.generator o = .ok g) (m : Sampler σ) (s : σ) :
    g.run m s = (String.ofList <$> p.walk m o) s := by
  rw [generator] at h
  obtain ⟨g, hg, rfl⟩ := map_eq_ok_iff.1 h
  rw [← drawing_compile m hg, ← Gen.drawing_map]
  rfl

/-- What is drawn does not depend on options that the pattern has no use for. -/
theorem run_congr {p : Pattern} (hg : p.generator o = .ok g) (hh : p.generator o' = .ok h)
    (hcap : p.Bounded ∨ o.repeatCap = o'.repeatCap)
    (hneg : p.Unnegated ∨ o.negation.Alike o'.negation) (m : Sampler σ) (s : σ) :
    ∃ w t, g.run m s = some (w, t) ∧ h.run m s = some (w, t) := by
  obtain ⟨w, t, hrun, -⟩ := (generates_generator hg).1.run m s
  refine ⟨w, t, hrun, ?_⟩
  rw [run_eq_walk hh, ← walk_congr m (readAlike_of_needed hcap hneg), ← run_eq_walk hg, hrun]

/-- A pattern that has a generator keeps one where its sound nodes stay sound. -/
theorem exists_generator_of_sound {p : Pattern} (h : p.generator o = .ok g)
    (hs : ∀ n, Node.Sound o n → n.Sound o') : ∃ h, p.generator o' = .ok h := by
  have hsound := (judged_generator o p).exists_ok_iff.1 ⟨g, h⟩
  exact (judged_generator o' p).exists_ok_iff.2 fun n hn => hs n (hsound n hn)

theorem Node.Sound.raise_limit {n : Node} (h : n.Sound o) (hle : o.repeatLimit ≤ limit) :
    n.Sound { o with repeatLimit := limit } := by
  cases n with
  | choice branches => exact h
  | rounds r => exact ⟨h.1, UInt32.le_trans h.2 hle⟩
  | charClass k => exact h

theorem Node.Sound.raise_cap {n : Node} (h : n.Sound o) (hle : o.repeatCap ≤ cap)
    (hlimit : cap ≤ o.repeatLimit) : n.Sound { o with repeatCap := cap } := by
  cases n with
  | choice branches => exact h
  | rounds r =>
    obtain ⟨lo, hi⟩ := r
    cases hi with
    | none => exact ⟨UInt32.le_trans h.1 hle, hlimit⟩
    | some hi => exact h
  | charClass k => exact h

theorem last_le_last {cap cap' : UInt32} (h : cap ≤ cap') (r : Repetition) :
    r.last cap ≤ r.last cap' := by
  rw [Repetition.last, Repetition.last]
  cases r.max with
  | none => exact UInt32.le_iff_toNat_le.1 h
  | some hi => exact Nat.le_refl _

mutual

theorem termLanguage_mono (hneg : o.negation = o'.negation) (hcap : o.repeatCap ≤ o'.repeatCap) :
    ∀ t : Term, termLanguage o t ≤ termLanguage o' t
  | .charClass k => by
    rw [termLanguage, termLanguage, hneg]
    exact le_rfl
  | .literal text => by rw [termLanguage, termLanguage]
  | .group branches => by
    rw [termLanguage, termLanguage]
    exact branchesLanguage_mono hneg hcap branches

theorem pieceLanguage_mono (hneg : o.negation = o'.negation) (hcap : o.repeatCap ≤ o'.repeatCap) :
    ∀ p : Term × Repetition, pieceLanguage o p ≤ pieceLanguage o' p
  | (t, r) => by
    rw [pieceLanguage, pieceLanguage]
    intro w hw
    obtain ⟨n, hlo, hhi, hw⟩ := hw
    have hpow : termLanguage o t ^ n ≤ termLanguage o' t ^ n :=
      pow_le_pow_left' (termLanguage_mono hneg hcap t) n
    exact ⟨n, hlo, Nat.le_trans hhi (last_le_last hcap r), hpow hw⟩

theorem branchLanguage_mono (hneg : o.negation = o'.negation) (hcap : o.repeatCap ≤ o'.repeatCap) :
    ∀ ps : List (Term × Repetition), branchLanguage o ps ≤ branchLanguage o' ps
  | [] => by rw [branchLanguage, branchLanguage]
  | p :: ps => by
    rw [branchLanguage, branchLanguage]
    exact mul_le_mul' (pieceLanguage_mono hneg hcap p) (branchLanguage_mono hneg hcap ps)

theorem branchesLanguage_mono (hneg : o.negation = o'.negation)
    (hcap : o.repeatCap ≤ o'.repeatCap) :
    ∀ bs : List (List (Term × Repetition)), branchesLanguage o bs ≤ branchesLanguage o' bs
  | [] => by rw [branchesLanguage, branchesLanguage]
  | b :: bs => by
    rw [branchesLanguage, branchesLanguage]
    exact add_le_add (branchLanguage_mono hneg hcap b) (branchesLanguage_mono hneg hcap bs)

end

/-- No word is lost where repetitions without a bound may go on further. -/
theorem draws_mono {p : Pattern} (hneg : o.negation = o'.negation)
    (hcap : o.repeatCap ≤ o'.repeatCap) (hg : p.generator o = .ok g) (hh : p.generator o' = .ok h)
    (hw : g.Draws w) : h.Draws w := by
  rw [Gen.draws_iff_yields, (generates_generator hg).2] at hw
  rw [Gen.draws_iff_yields, (generates_generator hh).2]
  exact branchesLanguage_mono hneg hcap p hw

/-- Two options draw the same words and leave the source in the same state, unless they differ in
the cap and some rounds have no bound, or in the reading of negated classes and there is one. The
limit makes no difference to what is drawn. Raising it refuses nothing, nor does raising the cap up
to the limit, which keeps all words. -/
theorem generator_options (p : Pattern) (o : Options) :
    (∀ {o' g h}, p.generator o = .ok g → p.generator o' = .ok h →
      (p.Bounded ∨ o.repeatCap = o'.repeatCap) → (p.Unnegated ∨ o.negation.Alike o'.negation) →
        ∀ {σ : Type} (m : Sampler σ) (s : σ),
          ∃ w t, g.run m s = some (w, t) ∧ h.run m s = some (w, t)) ∧
    (∀ limit {g h}, p.generator o = .ok g → p.generator { o with repeatLimit := limit } = .ok h →
      ∀ {σ : Type} (m : Sampler σ) (s : σ),
        ∃ w t, g.run m s = some (w, t) ∧ h.run m s = some (w, t)) ∧
    (∀ limit {g}, p.generator o = .ok g → o.repeatLimit ≤ limit →
      ∃ h, p.generator { o with repeatLimit := limit } = .ok h) ∧
    ∀ cap {g}, p.generator o = .ok g → o.repeatCap ≤ cap → cap ≤ o.repeatLimit →
      ∃ h, p.generator { o with repeatCap := cap } = .ok h ∧ ∀ w, g.Draws w → h.Draws w := by
  refine ⟨?_, ?_, ?_, ?_⟩
  · intro o' g h hg hh hcap hneg σ m s
    exact run_congr hg hh hcap hneg m s
  · intro limit g h hg hh σ m s
    exact run_congr hg hh (.inr rfl) (.inr (Negation.Alike.refl _)) m s
  · intro limit g hg hle
    exact exists_generator_of_sound hg fun n hn => hn.raise_limit hle
  · intro cap g hg hle hlimit
    obtain ⟨h, hh⟩ := exists_generator_of_sound hg fun n hn => hn.raise_cap hle hlimit
    have hneg : o.negation = { o with repeatCap := cap }.negation := rfl
    exact ⟨h, hh, fun w => draws_mono hneg hle hg hh⟩

/-- A class that is not negated, and rounds with a bound inside rounds without one. -/
theorem generator_options_nested :
    let p : Pattern := [[(.group [[(.charClass ⟨false, [.range 'a' 'z']⟩, .between 1 2)]],
      .oneOrMore)]]
    let o : Options := { repeatCap := 3, repeatLimit := 5 }
    let o' : Options := { repeatCap := 3, repeatLimit := 9, negation := .reject }
    ∃ g h k l, p.generator o = .ok g ∧ p.generator o' = .ok h ∧
      p.generator { o with repeatLimit := 9 } = .ok k ∧
      p.generator { o with repeatCap := 5 } = .ok l ∧
      (∃ w t, g.run Source.sampler (.ofSeed 42) = some (w, t) ∧
        h.run Source.sampler (.ofSeed 42) = some (w, t)) ∧
      (∃ w t, g.run Source.sampler (.ofSeed 42) = some (w, t) ∧
        k.run Source.sampler (.ofSeed 42) = some (w, t)) ∧ ∀ w, g.Draws w → l.Draws w := by
  intro p o o'
  have hok : ∃ g h, p.generator o = .ok g ∧ p.generator o' = .ok h := ⟨_, _, rfl, rfl⟩
  obtain ⟨g, h, hg, hh⟩ := hok
  obtain ⟨halike, hlimit, hwiden, hraise⟩ := generator_options p o
  have hplain : p.Unnegated := by
    intro k hk
    simp [p, nodes, branchesNodes, branchNodes, pieceNodes, termNodes] at hk
    simp [hk]
  have hrun := halike hg hh (.inr rfl) (.inl hplain) Source.sampler (.ofSeed 42)
  obtain ⟨k, hk⟩ := hwiden 9 hg (by decide)
  obtain ⟨l, hl, hdraws⟩ := hraise 5 hg (by decide) (by decide)
  exact ⟨g, h, k, l, hg, hh, hk, hl, hrun, hlimit 9 hg hk Source.sampler (.ofSeed 42), hdraws⟩

end Pattern

end PatternGen
