import Mathlib.Data.List.Forall2
import Mathlib.Data.List.Sort
import PatternGen.Proofs.Pattern.Joining

namespace PatternGen

namespace ClassItem

/-- Single characters come before ranges, and either of them in the order of their characters. -/
def le : ClassItem → ClassItem → Bool
  | single c, single d => c ≤ d
  | single _, range _ _ => true
  | range _ _, single _ => false
  | range a b, range c d => a < c || a == c && b ≤ d

theorem le_trans (d e f : ClassItem) (h : d.le e) (h' : e.le f) : d.le f := by
  cases d <;> cases e <;> cases f <;> grind [le]

theorem le_total (d e : ClassItem) : d.le e || e.le d := by
  cases d <;> cases e <;> grind [le]

theorem le_antisymm {d e : ClassItem} (h : d.le e) (h' : e.le d) : d = e := by
  cases d <;> cases e <;> grind [le]

end ClassItem

namespace CharClass

def sortedItems (k : CharClass) : List ClassItem := k.items.mergeSort ClassItem.le

/-- Both or neither are negated, and the items are the same, each as often. -/
def Alike (k l : CharClass) : Prop := k.negated = l.negated ∧ k.items.Perm l.items

theorem same_iff {k l : CharClass} : k.same l ↔ k.Alike l := by
  rw [same, Bool.and_eq_true, beq_iff_eq, List.isPerm_iff, Alike]

theorem Alike.symm {k l : CharClass} (h : k.Alike l) : l.Alike k := ⟨h.1.symm, h.2.symm⟩

theorem Alike.trans {k l m : CharClass} (h : k.Alike l) (h' : l.Alike m) : k.Alike m :=
  ⟨h.1.trans h'.1, h.2.trans h'.2⟩

theorem forall₂_alike_trans {ks ls ms : List CharClass} (h : List.Forall₂ Alike ks ls)
    (h' : List.Forall₂ Alike ls ms) : List.Forall₂ Alike ks ms := by
  induction h generalizing ms with
  | nil => exact h'
  | cons hkl _ ih =>
    cases h' with
    | cons hlm h' => exact .cons (hkl.trans hlm) (ih h')

theorem sortedItems_eq_iff {k l : CharClass} :
    k.sortedItems = l.sortedItems ↔ k.items.Perm l.items := by
  have hperm (m : CharClass) : m.sortedItems.Perm m.items := List.mergeSort_perm _ _
  have hsorted (m : CharClass) : m.sortedItems.Pairwise fun d e => d.le e :=
    List.pairwise_mergeSort ClassItem.le_trans ClassItem.le_total _
  constructor
  · intro h
    have hk := hperm k
    rw [h] at hk
    exact hk.symm.trans (hperm l)
  · intro h
    have hkl : k.sortedItems.Perm l.sortedItems := ((hperm k).trans h).trans (hperm l).symm
    exact hkl.eq_of_pairwise (fun _ _ _ _ => ClassItem.le_antisymm) (hsorted k) (hsorted l)

/-- Classes are compared by their items in ascending order. -/
theorem same_eq_sorted (k l : CharClass) :
    k.same l = (k.negated == l.negated && k.items.length == l.items.length &&
      k.sortedItems == l.sortedItems) := by
  rw [Bool.eq_iff_iff, same_iff, Alike]
  simp only [Bool.and_eq_true, beq_iff_eq, sortedItems_eq_iff]
  constructor
  · intro h
    exact ⟨⟨h.1, h.2.length_eq⟩, h.2⟩
  · intro h
    exact ⟨h.1.1, h.2⟩

end CharClass

namespace Pattern

mutual

def outlineTerm : Term → Term
  | .charClass _ => .charClass ⟨false, []⟩
  | .literal text => .literal text
  | .group branches => .group (outlineBranches branches)

def outlinePieces : List (Term × Repetition) → List (Term × Repetition)
  | [] => []
  | (t, r) :: ps => (outlineTerm t, r) :: outlinePieces ps

def outlineBranches : List (List (Term × Repetition)) → List (List (Term × Repetition))
  | [] => []
  | b :: bs => outlinePieces b :: outlineBranches bs

end

/-- The shape of a pattern, its literals and its repetitions. -/
def outline (p : Pattern) : Pattern := outlineBranches p

mutual

def termClasses : Term → List CharClass
  | .charClass k => [k]
  | .literal _ => []
  | .group branches => branchesClasses branches

def piecesClasses : List (Term × Repetition) → List CharClass
  | [] => []
  | (t, _) :: ps => termClasses t ++ piecesClasses ps

def branchesClasses : List (List (Term × Repetition)) → List CharClass
  | [] => []
  | b :: bs => piecesClasses b ++ branchesClasses bs

end

def classes (p : Pattern) : List CharClass := branchesClasses p

mutual

theorem length_termClasses_outline :
    ∀ t : Term, (termClasses (outlineTerm t)).length = (termClasses t).length
  | .charClass k => by rw [outlineTerm, termClasses, termClasses]; rfl
  | .literal text => by rw [outlineTerm]
  | .group branches => by
    rw [outlineTerm, termClasses, termClasses]
    exact length_branchesClasses_outline branches

theorem length_piecesClasses_outline : ∀ ps : List (Term × Repetition),
    (piecesClasses (outlinePieces ps)).length = (piecesClasses ps).length
  | [] => by rw [outlinePieces]
  | (t, r) :: ps => by
    rw [outlinePieces, piecesClasses, piecesClasses, List.length_append, List.length_append,
      length_termClasses_outline t, length_piecesClasses_outline ps]

theorem length_branchesClasses_outline : ∀ bs : List (List (Term × Repetition)),
    (branchesClasses (outlineBranches bs)).length = (branchesClasses bs).length
  | [] => by rw [outlineBranches]
  | b :: bs => by
    rw [outlineBranches, branchesClasses, branchesClasses, List.length_append,
      List.length_append, length_piecesClasses_outline b, length_branchesClasses_outline bs]

end

theorem forall₂_append_iff {α β : Type} {R : α → β → Prop} {as bs : List α} {cs ds : List β}
    (h : as.length = cs.length) :
    List.Forall₂ R (as ++ bs) (cs ++ ds) ↔ List.Forall₂ R as cs ∧ List.Forall₂ R bs ds := by
  constructor
  · intro h'
    have has := List.forall₂_take as.length h'
    have hbs := List.forall₂_drop as.length h'
    rw [List.take_left, h, List.take_left] at has
    rw [List.drop_left, h, List.drop_left] at hbs
    exact ⟨has, hbs⟩
  · intro h'
    exact List.rel_append h'.1 h'.2

mutual

theorem sameTerm_iff : ∀ t u : Term, sameTerm t u ↔
    outlineTerm t = outlineTerm u ∧ List.Forall₂ CharClass.Alike (termClasses t) (termClasses u)
  | .charClass k, u => by
    cases u <;> simp [sameTerm, outlineTerm, termClasses, CharClass.same_iff]
  | .literal text, u => by
    cases u <;> simp [sameTerm, outlineTerm, termClasses]
  | .group bs, u => by
    cases u with
    | group cs =>
      rw [sameTerm, sameBranches_iff bs cs, outlineTerm, outlineTerm, Term.group.injEq, termClasses,
        termClasses]
    | charClass l => simp [sameTerm, outlineTerm]
    | literal text => simp [sameTerm, outlineTerm]

theorem sameBranch_iff : ∀ ps qs : List (Term × Repetition), sameBranch ps qs ↔
    outlinePieces ps = outlinePieces qs ∧
      List.Forall₂ CharClass.Alike (piecesClasses ps) (piecesClasses qs)
  | [], qs => by
    rcases qs with _ | ⟨⟨u, s⟩, qs⟩ <;> simp [sameBranch, outlinePieces, piecesClasses]
  | (t, r) :: ps, qs => by
    rcases qs with _ | ⟨⟨u, s⟩, qs⟩
    · simp [sameBranch, outlinePieces]
    · rw [sameBranch, samePiece, Bool.and_eq_true, Bool.and_eq_true, sameTerm_iff t u,
        sameBranch_iff ps qs, beq_iff_eq, outlinePieces, outlinePieces, List.cons.injEq,
        Prod.mk.injEq, piecesClasses, piecesClasses]
      constructor
      · rintro ⟨⟨⟨ht, hk⟩, hr⟩, hps, hks⟩
        exact ⟨⟨⟨ht, hr⟩, hps⟩, List.rel_append hk hks⟩
      · rintro ⟨⟨⟨ht, hr⟩, hps⟩, hks⟩
        have hlength : (termClasses t).length = (termClasses u).length := by
          rw [← length_termClasses_outline t, ht, length_termClasses_outline]
        obtain ⟨hk, hks⟩ := (forall₂_append_iff hlength).1 hks
        exact ⟨⟨⟨ht, hk⟩, hr⟩, hps, hks⟩

theorem sameBranches_iff : ∀ bs cs : List (List (Term × Repetition)), sameBranches bs cs ↔
    outlineBranches bs = outlineBranches cs ∧
      List.Forall₂ CharClass.Alike (branchesClasses bs) (branchesClasses cs)
  | [], cs => by
    cases cs <;> simp [sameBranches, outlineBranches, branchesClasses]
  | b :: bs, cs => by
    cases cs with
    | nil => simp [sameBranches, outlineBranches]
    | cons c cs =>
      rw [sameBranches, Bool.and_eq_true, sameBranch_iff b c, sameBranches_iff bs cs,
        outlineBranches, outlineBranches, List.cons.injEq, branchesClasses, branchesClasses]
      constructor
      · rintro ⟨⟨hb, hk⟩, hbs, hks⟩
        exact ⟨⟨hb, hbs⟩, List.rel_append hk hks⟩
      · rintro ⟨⟨hb, hbs⟩, hks⟩
        have hlength : (piecesClasses b).length = (piecesClasses c).length := by
          rw [← length_piecesClasses_outline b, hb, length_piecesClasses_outline]
        obtain ⟨hk, hks⟩ := (forall₂_append_iff hlength).1 hks
        exact ⟨⟨hb, hk⟩, hbs, hks⟩

end

theorem exists_of_sameTerm_charClass (h : sameTerm (.charClass k) t) :
    ∃ l, t = .charClass l ∧ k.Alike l := by
  cases t with
  | charClass l =>
    rw [sameTerm, CharClass.same_iff] at h
    exact ⟨l, rfl, h⟩
  | literal text => simp [sameTerm] at h
  | group branches => simp [sameTerm] at h

theorem eq_of_sameTerm_literal (h : sameTerm (.literal text) t) : t = .literal text := by
  cases t with
  | charClass l => simp [sameTerm] at h
  | literal text' =>
    rw [sameTerm, beq_iff_eq] at h
    rw [h]
  | group branches => simp [sameTerm] at h

theorem exists_of_sameTerm_group (h : sameTerm (.group bs) t) :
    ∃ cs, t = .group cs ∧ sameBranches bs cs := by
  cases t with
  | charClass l => simp [sameTerm] at h
  | literal text => simp [sameTerm] at h
  | group cs =>
    rw [sameTerm] at h
    exact ⟨cs, rfl, h⟩

theorem exists_of_samePiece (h : samePiece (t, r) q) : ∃ u, q = (u, r) ∧ sameTerm t u := by
  obtain ⟨u, s⟩ := q
  rw [samePiece, Bool.and_eq_true, beq_iff_eq] at h
  exact ⟨u, by rw [h.2], h.1⟩

theorem exists_of_sameBranch_cons (h : sameBranch (p :: ps) b) :
    ∃ q qs, b = q :: qs ∧ samePiece p q ∧ sameBranch ps qs := by
  cases b with
  | nil => simp [sameBranch] at h
  | cons q qs =>
    rw [sameBranch, Bool.and_eq_true] at h
    exact ⟨q, qs, rfl, h⟩

theorem exists_of_sameBranches_cons (h : sameBranches (b :: bs) cs) :
    ∃ c ds, cs = c :: ds ∧ sameBranch b c ∧ sameBranches bs ds := by
  cases cs with
  | nil => simp [sameBranches] at h
  | cons c ds =>
    rw [sameBranches, Bool.and_eq_true] at h
    exact ⟨c, ds, rfl, h⟩

theorem eq_nil_of_sameBranch (h : sameBranch [] b) : b = [] := by
  cases b with
  | nil => rfl
  | cons q qs => simp [sameBranch] at h

theorem eq_nil_of_sameBranches (h : sameBranches [] cs) : cs = [] := by
  cases cs with
  | nil => rfl
  | cons c cs => simp [sameBranches] at h

/-- The patterns have the same shape, literals and repetitions, and classes that compare alike. -/
theorem same_iff {p q : Pattern} :
    p.same q ↔ p.outline = q.outline ∧ List.Forall₂ CharClass.Alike p.classes q.classes :=
  sameBranches_iff p q

theorem same_symm {p q : Pattern} (h : p.same q) : q.same p := by
  rw [same_iff] at h ⊢
  exact ⟨h.1.symm, h.2.flip.imp fun _ _ => CharClass.Alike.symm⟩

theorem same_trans {p q r : Pattern} (h : p.same q) (h' : q.same r) : p.same r := by
  rw [same_iff] at h h' ⊢
  exact ⟨h.1.trans h'.1, CharClass.forall₂_alike_trans h.2 h'.2⟩

theorem same_equivalence : Equivalence fun p q : Pattern => p.same q :=
  ⟨same_refl, same_symm, same_trans⟩

end Pattern

end PatternGen
