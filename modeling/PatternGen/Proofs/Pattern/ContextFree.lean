import PatternGen.Proofs.Pattern.Reading

namespace PatternGen

open Grammar Text

/-- The digits of a number below 2^32, perhaps with leading zeros. -/
def IsNumeral (ds : List Char) (n : Nat) : Prop :=
  ds ≠ [] ∧ (∀ x ∈ ds, x.isDigit) ∧ Nat.ofDigitChars 10 ds 0 = n ∧ n < UInt32.size

inductive Nonterminal where
  | pattern
  | branch
  | piece
  | term
  | repetition

inductive Derives : Nonterminal → List Char → Prop where
  | lastBranch (h : Derives .branch s) : Derives .pattern s
  | branches (h : Derives .branch s) (ht : Derives .pattern t) : Derives .pattern (s ++ '|' :: t)
  | lastPiece (h : Derives .piece s) : Derives .branch s
  | pieces (h : Derives .piece s) (ht : Derives .branch t) : Derives .branch (s ++ t)
  | piece (h : Derives .term s) (ht : Derives .repetition t) : Derives .piece (s ++ t)
  | charClass (h : ∀ x ∈ s, x ≠ ']') : Derives .term ('[' :: (s ++ [']']))
  | literal (hne : s ≠ []) (h : ∀ x ∈ s, x.isAlphanum ∨ x ∈ "$@#%&_-".toList) : Derives .term s
  | group (h : Derives .pattern s) : Derives .term ('(' :: (s ++ [')']))
  | once : Derives .repetition []
  | star : Derives .repetition ['*']
  | plus : Derives .repetition ['+']
  | exactly (hn : IsNumeral low n) : Derives .repetition ('\x7b' :: (low ++ ['\x7d']))
  | atLeast (hn : IsNumeral low n) : Derives .repetition ('\x7b' :: (low ++ [',', '\x7d']))
  | between (hn : IsNumeral low n) (hm : IsNumeral high m) (h : n ≤ m) :
    Derives .repetition ('\x7b' :: (low ++ ',' :: (high ++ ['\x7d'])))

theorem isNumeral_of_count? {n : UInt32} (h : count? ds = some n) : IsNumeral ds n.toNat := by
  obtain ⟨hne, hd⟩ := digits_of_count? h
  rw [count?, Option.bind_eq_some_iff] at h
  obtain ⟨m, hm, h⟩ := h
  split at h
  · next hlt =>
    cases h
    rw [numeral?] at hm
    split at hm
    · cases hm
      refine ⟨hne, hd, ?_, UInt32.toNat_lt_size _⟩
      rw [UInt32.toNat_ofNat_of_lt' hlt]
    · cases hm
  · cases h

theorem IsNumeral.count? (h : IsNumeral ds n) : ∃ k : UInt32, count? ds = some k ∧ k.toNat = n := by
  obtain ⟨hne, hd, rfl, hlt⟩ := h
  have hnumeral : numeral? ds = some (Nat.ofDigitChars 10 ds 0) := by
    rw [numeral?, List.isEmpty_eq_false_iff.2 hne, List.all_eq_true.2 hd]
    rfl
  refine ⟨.ofNat (Nat.ofDigitChars 10 ds 0), ?_, UInt32.toNat_ofNat_of_lt' hlt⟩
  rw [Text.count?, hnumeral, Option.bind_some, if_pos hlt]

theorem isLiteral_iff : isLiteral x ↔ x.isAlphanum ∨ x ∈ "$@#%&_-".toList := by
  rw [isLiteral, Bool.or_eq_true, List.contains_iff_mem]

theorem Repetition.Spells.derives {r : Repetition} (h : r.Spells v) : Derives .repetition v := by
  cases h with
  | omitted => exact .once
  | star => exact .star
  | plus => exact .plus
  | exactly hn => exact .exactly (isNumeral_of_count? hn)
  | atLeast hn => exact .atLeast (isNumeral_of_count? hn)
  | between hn hm h => exact .between (isNumeral_of_count? hn) (isNumeral_of_count? hm) h

namespace Pattern

mutual

theorem SpellsTerm.derives {t : Term} (h : SpellsTerm t s) : Derives .term s := by
  cases t with
  | charClass k =>
    rw [SpellsTerm] at h
    obtain ⟨body, -, hb, rfl⟩ := h
    apply Derives.charClass
    intro x hx
    exact staysInClass_iff.1 (hb x hx)
  | literal text =>
    rw [SpellsTerm] at h
    obtain ⟨-, hne, hl⟩ := h
    apply Derives.literal hne
    intro x hx
    exact isLiteral_iff.1 (hl x hx)
  | group branches =>
    rw [SpellsTerm] at h
    obtain ⟨t, ht, rfl⟩ := h
    exact .group (SpellsBranches.derives ht)

theorem SpellsPieces.derives {ps : List (Term × Repetition)} (hne : ps ≠ [])
    (h : SpellsPieces ps s) : Derives .branch s := by
  cases ps with
  | nil => exact (hne rfl).elim
  | cons p ps =>
    obtain ⟨t, r⟩ := p
    rw [SpellsPieces] at h
    obtain ⟨u, v, hp, hps, -, rfl⟩ := h
    rw [SpellsPiece] at hp
    obtain ⟨a, b, ht, hr, rfl⟩ := hp
    have hpiece : Derives .piece (a ++ b) := .piece (SpellsTerm.derives ht) hr.derives
    by_cases hlast : ps = []
    · rw [hlast, SpellsPieces] at hps
      rw [hps, List.append_nil]
      exact .lastPiece hpiece
    · exact .pieces hpiece (SpellsPieces.derives hlast hps)

theorem SpellsBranches.derives {bs : List (List (Term × Repetition))} (h : SpellsBranches bs s) :
    Derives .pattern s := by
  cases bs with
  | nil =>
    rw [SpellsBranches] at h
    exact h.elim
  | cons b bs =>
    rw [SpellsBranches] at h
    obtain ⟨u, v, hne, hb, hbs, rfl⟩ := h
    exact SpellsRest.derives (SpellsPieces.derives hne hb) hbs

theorem SpellsRest.derives {bs : List (List (Term × Repetition))} (hu : Derives .branch u)
    (h : SpellsRest bs v) : Derives .pattern (u ++ v) := by
  cases bs with
  | nil =>
    rw [SpellsRest] at h
    rw [h, List.append_nil]
    exact .lastBranch hu
  | cons b bs =>
    rw [SpellsRest] at h
    obtain ⟨s, t, hne, hb, hbs, rfl⟩ := h
    exact .branches hu (SpellsRest.derives (SpellsPieces.derives hne hb) hbs)

end

/-- The text can be read as what the nonterminal stands for. -/
def Spelled : Nonterminal → List Char → Prop
  | .pattern, s => ∃ p, SpellsBranches p s
  | .branch, s => ∃ ps, ps ≠ [] ∧ SpellsPieces ps s
  | .piece, s => ∃ p, SpellsPiece p s
  | .term, s => ∃ t, SpellsTerm t s
  | .repetition, s => ∃ r : Repetition, r.Spells s

theorem spellsBranches_singleton (hne : b ≠ []) (hb : SpellsPieces b s) :
    SpellsBranches [b] s := by
  rw [SpellsBranches]
  refine ⟨s, [], hne, hb, ?_, (List.append_nil s).symm⟩
  rw [SpellsRest]

theorem SpellsBranches.cons {p : Pattern} (hne : b ≠ []) (hb : SpellsPieces b s)
    (hp : SpellsBranches p t) : SpellsBranches (b :: p) (s ++ '|' :: t) := by
  rw [SpellsBranches]
  refine ⟨s, '|' :: t, hne, hb, ?_, rfl⟩
  cases p with
  | nil =>
    rw [SpellsBranches] at hp
    exact hp.elim
  | cons c bs =>
    rw [SpellsBranches] at hp
    obtain ⟨u, v, hc, hu, hv, rfl⟩ := hp
    rw [SpellsRest]
    exact ⟨u, v, hc, hu, hv, rfl⟩

theorem spellsPieces_singleton {p : Piece} (hp : SpellsPiece p s) : SpellsPieces [p] s := by
  rw [SpellsPieces]
  refine ⟨s, [], hp, ?_, fun _ _ _ => halts_nil isLiteral, (List.append_nil s).symm⟩
  rw [SpellsPieces]

theorem spelled_pattern_of_branch (h : Spelled .branch s) : Spelled .pattern s := by
  obtain ⟨b, hne, hb⟩ := h
  exact ⟨[b], spellsBranches_singleton hne hb⟩

theorem Spelled.branches (h : Spelled .branch s) (ht : Spelled .pattern t) :
    Spelled .pattern (s ++ '|' :: t) := by
  obtain ⟨b, hne, hb⟩ := h
  obtain ⟨p, hp⟩ := ht
  exact ⟨b :: p, hp.cons hne hb⟩

theorem spelled_branch_of_piece (h : Spelled .piece s) : Spelled .branch s := by
  obtain ⟨p, hp⟩ := h
  exact ⟨[p], List.cons_ne_nil p [], spellsPieces_singleton hp⟩

/-- Literals in a row are one literal, which is the only way to read them. -/
theorem Spelled.pieces (h : Spelled .piece s) (ht : Spelled .branch t) :
    Spelled .branch (s ++ t) := by
  obtain ⟨p, hp⟩ := h
  obtain ⟨ps, -, hps⟩ := ht
  by_cases hapart : Apart s t
  · refine ⟨p :: ps, List.cons_ne_nil p ps, ?_⟩
    rw [SpellsPieces]
    exact ⟨s, t, hp, hps, hapart, rfl⟩
  · obtain ⟨a, b, r, qs, -, ha, rfl⟩ := exists_literals_of_not_apart hp hps hapart
    exact ⟨_, List.cons_ne_nil _ qs, hps.merge ha⟩

theorem spelled_of_derives (h : Derives n s) : Spelled n s := by
  induction h with
  | lastBranch _ ih => exact spelled_pattern_of_branch ih
  | branches _ _ ih iht => exact ih.branches iht
  | lastPiece _ ih => exact spelled_branch_of_piece ih
  | pieces _ _ ih iht => exact ih.pieces iht
  | @piece s t _ _ ih iht =>
    obtain ⟨u, hu⟩ := ih
    obtain ⟨r, hr⟩ := iht
    refine ⟨(u, r), ?_⟩
    rw [SpellsPiece]
    exact ⟨s, t, hu, hr, rfl⟩
  | @charClass s h =>
    refine ⟨.charClass (.ofBody s), ?_⟩
    rw [SpellsTerm]
    exact ⟨s, rfl, fun x hx => staysInClass_iff.2 (h x hx), rfl⟩
  | @literal s hne h =>
    refine ⟨.literal (String.ofList s), ?_⟩
    rw [SpellsTerm, String.toList_ofList]
    exact ⟨rfl, hne, fun x hx => isLiteral_iff.2 (h x hx)⟩
  | @group s _ ih =>
    obtain ⟨p, hp⟩ := ih
    refine ⟨.group p, ?_⟩
    rw [SpellsTerm]
    exact ⟨s, hp, rfl⟩
  | once => exact ⟨.once, .omitted⟩
  | star => exact ⟨.zeroOrMore, .star⟩
  | plus => exact ⟨.oneOrMore, .plus⟩
  | exactly hn =>
    obtain ⟨k, hk, -⟩ := hn.count?
    exact ⟨.exactly k, .exactly hk⟩
  | atLeast hn =>
    obtain ⟨k, hk, -⟩ := hn.count?
    exact ⟨.atLeast k, .atLeast hk⟩
  | between hn hm h =>
    obtain ⟨k, hk, rfl⟩ := hn.count?
    obtain ⟨l, hl, rfl⟩ := hm.count?
    exact ⟨.between k l, .between hk hl h⟩

/-- A text can be read as a pattern if and only if the grammar derives it. -/
theorem parse_ok_iff_derives {text : String} :
    (∃ p, Pattern.parse text = .ok p) ↔ Derives .pattern text.toList := by
  simp only [parse_eq_ok_iff]
  constructor
  · intro h
    obtain ⟨p, hp⟩ := h
    exact SpellsBranches.derives hp
  · intro h
    exact spelled_of_derives h

end Pattern

end PatternGen
