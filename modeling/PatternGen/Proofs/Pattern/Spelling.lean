import PatternGen.Proofs.Pattern.Bounds
import PatternGen.Proofs.Pattern.ClassBody

namespace PatternGen

open Grammar

/-- A written repetition does not end in a literal character. -/
theorem Repetition.Spells.last {r : Repetition} (h : r.Spells v) :
    r = .once ∧ v = [] ∨ ∃ x, v.getLast? = some x ∧ ¬ isLiteral x := by
  cases h with
  | omitted => exact .inl ⟨rfl, rfl⟩
  | star => exact .inr ⟨'*', rfl, by decide⟩
  | plus => exact .inr ⟨'+', rfl, by decide⟩
  | @exactly low => exact .inr ⟨'\x7d', List.getLast?_concat (l := '\x7b' :: low), by decide⟩
  | @atLeast low =>
    refine .inr ⟨'\x7d', ?_, by decide⟩
    rw [List.append_cons low, ← List.cons_append, List.getLast?_concat]
  | @between low _ high =>
    refine .inr ⟨'\x7d', ?_, by decide⟩
    rw [← List.cons_append, ← List.cons_append, ← List.append_assoc, List.getLast?_concat]

namespace Pattern

/-- No literal at the end of the first text could go on in the second. -/
def Apart (s t : List Char) : Prop := ∀ x ∈ s.getLast?, isLiteral x → Halts isLiteral t

mutual

def SpellsTerm : Term → List Char → Prop
  | .charClass k, s => ∃ body, k = .ofBody body ∧ (∀ x ∈ body, staysInClass x) ∧
      s = '[' :: (body ++ [']'])
  | .literal text, s => s = text.toList ∧ s ≠ [] ∧ ∀ x ∈ s, isLiteral x
  | .group branches, s => ∃ t, SpellsBranches branches t ∧ s = '(' :: (t ++ [')'])

def SpellsPiece : Term × Repetition → List Char → Prop
  | (t, r), s => ∃ u v, SpellsTerm t u ∧ r.Spells v ∧ s = u ++ v

def SpellsPieces : List (Term × Repetition) → List Char → Prop
  | [], s => s = []
  | p :: ps, s => ∃ u v, SpellsPiece p u ∧ SpellsPieces ps v ∧ Apart u v ∧ s = u ++ v

def SpellsBranches : List (List (Term × Repetition)) → List Char → Prop
  | [], _ => False
  | b :: bs, s => ∃ u v, b ≠ [] ∧ SpellsPieces b u ∧ SpellsRest bs v ∧ s = u ++ v

def SpellsRest : List (List (Term × Repetition)) → List Char → Prop
  | [], s => s = []
  | b :: bs, s => ∃ u v, b ≠ [] ∧ SpellsPieces b u ∧ SpellsRest bs v ∧ s = '|' :: (u ++ v)

end

/-- The text stands for the pattern. -/
def Spells (p : Pattern) (s : List Char) : Prop := SpellsBranches p s

theorem Apart.of_append (h : Apart s (t ++ u)) : Apart s t := by
  intro x hx hl
  have hh := h x hx hl
  cases t with
  | nil => exact halts_nil _
  | cons y t => exact halts_cons_iff.2 (halts_cons_iff.1 hh)

theorem Apart.append (h : Apart s t) (hu : Halts isLiteral u) : Apart s (t ++ u) := by
  intro x hx hl
  cases t with
  | nil => exact hu
  | cons y t => exact halts_cons_iff.2 (halts_cons_iff.1 (h x hx hl))

theorem apart_of_last (hl : s.getLast? = some x) (hx : ¬ isLiteral x) (t : List Char) :
    Apart s t := by
  intro y hy hly
  cases hl.symm.trans hy
  exact (hx hly).elim

theorem Apart.prepend (h : Apart t v) (ht : t ≠ []) (s : List Char) : Apart (s ++ t) v := by
  rw [Apart, List.getLast?_append, Option.or_of_isSome (List.getLast?_isSome.2 ht)]
  exact h

theorem apart_cons (hx : ¬ isLiteral x) (s t : List Char) : Apart s (x :: t) := by
  intro y _ _
  exact halts_cons_iff.2 hx

def startsTerm (x : Char) : Bool := x == '[' || x == '(' || isLiteral x

theorem SpellsTerm.starts (h : SpellsTerm t s) : ∃ x u, s = x :: u ∧ startsTerm x := by
  cases t with
  | charClass k =>
    rw [SpellsTerm] at h
    obtain ⟨body, -, -, rfl⟩ := h
    exact ⟨_, _, rfl, by decide⟩
  | literal text =>
    rw [SpellsTerm] at h
    obtain ⟨-, hne, hl⟩ := h
    cases s with
    | nil => exact (hne rfl).elim
    | cons x u =>
      refine ⟨x, u, rfl, ?_⟩
      rw [startsTerm, hl x (by simp), Bool.or_true]
  | group bs =>
    rw [SpellsTerm] at h
    obtain ⟨t, -, rfl⟩ := h
    exact ⟨_, _, rfl, by decide⟩

/-- Only literals begin with a literal character. -/
theorem SpellsTerm.head (h : SpellsTerm t s) :
    (∃ text, t = .literal text) ∨ ∃ x u, s = x :: u ∧ ¬ isLiteral x := by
  cases t with
  | charClass k =>
    rw [SpellsTerm] at h
    obtain ⟨body, -, -, rfl⟩ := h
    exact .inr ⟨_, _, rfl, by decide⟩
  | literal text => exact .inl ⟨text, rfl⟩
  | group bs =>
    rw [SpellsTerm] at h
    obtain ⟨t, -, rfl⟩ := h
    exact .inr ⟨_, _, rfl, by decide⟩

/-- Only literals end in a literal character. -/
theorem SpellsTerm.last (h : SpellsTerm t s) :
    (∃ text, t = .literal text) ∨ ∃ x, s.getLast? = some x ∧ ¬ isLiteral x := by
  cases t with
  | charClass k =>
    rw [SpellsTerm] at h
    obtain ⟨body, -, -, rfl⟩ := h
    exact .inr ⟨']', List.getLast?_concat (l := '[' :: body), by decide⟩
  | literal text => exact .inl ⟨text, rfl⟩
  | group bs =>
    rw [SpellsTerm] at h
    obtain ⟨t, -, rfl⟩ := h
    exact .inr ⟨')', List.getLast?_concat (l := '(' :: t), by decide⟩

theorem SpellsPiece.starts (h : SpellsPiece p s) : ∃ x u, s = x :: u ∧ startsTerm x := by
  obtain ⟨t, r⟩ := p
  rw [SpellsPiece] at h
  obtain ⟨u, v, ht, -, rfl⟩ := h
  obtain ⟨x, w, rfl, hx⟩ := ht.starts
  exact ⟨x, w ++ v, rfl, hx⟩

theorem SpellsPiece.ne_nil (h : SpellsPiece p s) : s ≠ [] := by
  obtain ⟨x, u, rfl, -⟩ := h.starts
  exact List.cons_ne_nil x u

theorem SpellsPieces.ne_nil (h : SpellsPieces ps s) (hne : ps ≠ []) : s ≠ [] := by
  cases ps with
  | nil => exact (hne rfl).elim
  | cons p ps =>
    rw [SpellsPieces] at h
    obtain ⟨u, v, hp, -, -, rfl⟩ := h
    exact List.append_ne_nil_of_left_ne_nil hp.ne_nil v

/-- Texts of pieces that are not apart are those of two literals, the first of them bare. -/
theorem exists_literals_of_not_apart (hp : SpellsPiece p u) (hps : SpellsPieces ps v)
    (h : ¬ Apart u v) :
    ∃ s t r qs, p = (.literal s, .once) ∧ SpellsTerm (.literal s) u ∧
      ps = (.literal t, r) :: qs := by
  obtain ⟨t, r⟩ := p
  rw [SpellsPiece] at hp
  obtain ⟨a, b, ht, hr, rfl⟩ := hp
  rcases hr.last with ⟨rfl, rfl⟩ | ⟨x, hx, hl⟩
  · rw [List.append_nil] at h ⊢
    rcases ht.last with ⟨s, rfl⟩ | ⟨x, hx, hl⟩
    · cases ps with
      | nil =>
        rw [SpellsPieces] at hps
        cases hps
        exact (h fun _ _ _ => halts_nil isLiteral).elim
      | cons q qs =>
        obtain ⟨t, r⟩ := q
        rw [SpellsPieces] at hps
        obtain ⟨_, w, hq, -, -, rfl⟩ := hps
        rw [SpellsPiece] at hq
        obtain ⟨c, d, hc, -, rfl⟩ := hq
        rcases hc.head with ⟨t, rfl⟩ | ⟨x, c, rfl, hx⟩
        · exact ⟨s, t, r, qs, rfl, ht, rfl⟩
        · exact (h (apart_cons hx a _)).elim
    · exact (h (apart_of_last hx hl v)).elim
  · have hlast : (a ++ b).getLast? = some x := by rw [List.getLast?_append, hx, Option.some_or]
    exact (h (apart_of_last hlast hl v)).elim

/-- A literal takes in the bare literal before it. -/
theorem SpellsPieces.merge (h : SpellsPieces ((.literal t, r) :: ps) v)
    (hs : SpellsTerm (.literal s) u) : SpellsPieces ((.literal (s ++ t), r) :: ps) (u ++ v) := by
  rw [SpellsPieces] at h
  obtain ⟨_, w, hp, hps, ha, rfl⟩ := h
  have hne := hp.ne_nil
  rw [SpellsPiece] at hp
  obtain ⟨a, b, ht, hr, rfl⟩ := hp
  rw [SpellsTerm] at ht hs
  obtain ⟨rfl, hs, hsl⟩ := hs
  obtain ⟨rfl, -, htl⟩ := ht
  have hst : SpellsTerm (.literal (s ++ t)) (s.toList ++ t.toList) := by
    rw [SpellsTerm, String.toList_append]
    refine ⟨rfl, List.append_ne_nil_of_left_ne_nil hs _, ?_⟩
    intro x hx
    rcases List.mem_append.1 hx with hx | hx
    · exact hsl x hx
    · exact htl x hx
  rw [SpellsPieces]
  refine ⟨s.toList ++ (t.toList ++ b), w, ?_, hps, ha.prepend hne _, ?_⟩
  · rw [SpellsPiece]
    exact ⟨_, b, hst, hr, (List.append_assoc ..).symm⟩
  · rw [List.append_assoc, List.append_assoc, List.append_assoc]

/-- A term is apart from its repetition and what follows. -/
theorem Apart.repetition {r : Repetition} (h : Apart (u ++ v) rest) (hr : r.Spells v) :
    Apart u (v ++ rest) := by
  cases hr with
  | omitted =>
    rw [List.append_nil] at h
    exact h
  | star => exact apart_cons (by decide) u _
  | plus => exact apart_cons (by decide) u _
  | exactly _ => exact apart_cons (by decide) u _
  | atLeast _ => exact apart_cons (by decide) u _
  | between _ _ _ => exact apart_cons (by decide) u _

def staysInBranch (x : Char) : Bool := x != '|' && x != ')'

def staysInGroup (x : Char) : Bool := x != ')'

theorem staysInGroup_of_staysInBranch (x : Char) (h : staysInBranch x) : staysInGroup x :=
  (Bool.and_eq_true_iff.1 h).2

theorem staysInBranch_of (kind : Char → Bool) (hbar : ¬ kind '|') (hclose : ¬ kind ')') (x : Char)
    (h : kind x) : staysInBranch x := by
  rw [staysInBranch, Bool.and_eq_true, bne_iff_ne, bne_iff_ne]
  refine ⟨?_, ?_⟩
  · rintro rfl
    exact hbar h
  · rintro rfl
    exact hclose h

theorem isLiteral_staysInBranch : ∀ x, isLiteral x → staysInBranch x :=
  staysInBranch_of isLiteral (by decide) (by decide)

theorem startsRepetition_staysInBranch : ∀ x, startsRepetition x → staysInBranch x :=
  staysInBranch_of startsRepetition (by decide) (by decide)

theorem not_startsRepetition_of_startsTerm (h : startsTerm x) : ¬ startsRepetition x := by
  intro hr
  rw [startsRepetition, Bool.or_eq_true, Bool.or_eq_true, beq_iff_eq, beq_iff_eq, beq_iff_eq] at hr
  rcases hr with (rfl | rfl) | rfl <;> exact absurd h (by decide)

/-- No repetition can be read where further pieces, or the end of a branch, stand. -/
theorem SpellsPieces.halts (h : SpellsPieces ps s) (hr : Halts staysInBranch rest) :
    Halts startsRepetition (s ++ rest) := by
  cases ps with
  | nil =>
    rw [SpellsPieces] at h
    cases h
    exact hr.mono startsRepetition_staysInBranch
  | cons p ps =>
    rw [SpellsPieces] at h
    obtain ⟨u, v, hu, -, -, rfl⟩ := h
    obtain ⟨x, w, rfl, hx⟩ := hu.starts
    exact halts_cons_iff.2 (not_startsRepetition_of_startsTerm hx)

theorem SpellsRest.halts (h : SpellsRest bs s) (hr : Halts staysInGroup rest) :
    Halts staysInBranch (s ++ rest) := by
  cases bs with
  | nil =>
    rw [SpellsRest] at h
    cases h
    exact hr.mono staysInGroup_of_staysInBranch
  | cons b bs =>
    rw [SpellsRest] at h
    obtain ⟨u, v, -, -, -, rfl⟩ := h
    exact halts_cons_iff.2 (by decide)

end Pattern

end PatternGen
