import PatternGen.Proofs.Pattern.Language
import PatternGen.Proofs.Pattern.Joining

namespace PatternGen

/-- What the notation leaves open: the characters of a class and the numbers of rounds. -/
structure Interpretation where
  classes : CharClass → Set Char
  rounds : Repetition → Set Nat
  rounds_once : rounds .once = {1}

namespace Interpretation

theorem within_one_one : {n : Nat | 1 ≤ n ∧ n ≤ 1} = {1} := by
  ext n
  constructor
  · intro h
    exact Nat.le_antisymm h.2 h.1
  · rintro rfl
    exact ⟨Nat.le_refl 1, Nat.le_refl 1⟩

def unbounded : Interpretation where
  classes k := {c | k.accepts c}
  rounds r := {n | r.min.toNat ≤ n ∧ ∀ m ∈ r.max, n ≤ m.toNat}
  rounds_once := by simpa [Repetition.once] using within_one_one

/-- What generators make of classes and of missing bounds. -/
def ofOptions (o : Options) : Interpretation where
  classes k := {c | o.negation.Allows k c}
  rounds r := {n | r.min.toNat ≤ n ∧ n ≤ r.last o.repeatCap}
  rounds_once := within_one_one

variable {r : Repetition}

theorem min_mem_rounds (h : r.isValid) : r.min.toNat ∈ unbounded.rounds r := by
  refine ⟨Nat.le_refl _, ?_⟩
  intro m hm
  rw [Repetition.isValid, Option.mem_def.1 hm] at h
  exact UInt32.le_iff_toNat_le.1 (of_decide_eq_true h)

/-- There can be a second round wherever there is not exactly one. -/
theorem two_mem_rounds (h : r.isValid) (hmin : r.min = 1) (hne : r ≠ .once) :
    2 ∈ unbounded.rounds r := by
  obtain ⟨lo, hi⟩ := r
  obtain rfl : lo = 1 := hmin
  refine ⟨Nat.le_succ 1, ?_⟩
  intro m hm
  obtain rfl : hi = some m := hm
  have hle : 1 ≤ m := of_decide_eq_true h
  have hm : 1 ≠ m := by
    rintro rfl
    exact hne rfl
  exact UInt32.lt_iff_toNat_lt.1 (UInt32.lt_of_le_of_ne hle hm)

end Interpretation

namespace Pattern

mutual

def termWords (I : Interpretation) : Term → Language Char
  | .charClass k => {w | ∃ c ∈ I.classes k, w = [c]}
  | .literal text => {text.toList}
  | .group branches => branchesWords I branches

def pieceWords (I : Interpretation) : Term × Repetition → Language Char
  | (t, r) => {w | ∃ n ∈ I.rounds r, w ∈ termWords I t ^ n}

def branchWords (I : Interpretation) : List (Term × Repetition) → Language Char
  | [] => 1
  | p :: ps => pieceWords I p * branchWords I ps

def branchesWords (I : Interpretation) : List (List (Term × Repetition)) → Language Char
  | [] => 0
  | b :: bs => branchWords I b + branchesWords I bs

end

def words (I : Interpretation) (p : Pattern) : Language Char := branchesWords I p

mutual

theorem termLanguage_eq_words (o : Options) (t : Term) :
    termLanguage o t = termWords (.ofOptions o) t := by
  cases t with
  | charClass k =>
    rw [termLanguage, termWords]
    rfl
  | literal text => rw [termLanguage, termWords]
  | group branches => rw [termLanguage, termWords, branchesLanguage_eq_words o branches]

theorem branchLanguage_eq_words (o : Options) (ps : List (Term × Repetition)) :
    branchLanguage o ps = branchWords (.ofOptions o) ps := by
  cases ps with
  | nil => rw [branchLanguage, branchWords]
  | cons p ps =>
    obtain ⟨t, r⟩ := p
    have hpiece : pieceLanguage o (t, r) = pieceWords (.ofOptions o) (t, r) := by
      apply Language.ext
      intro w
      rw [pieceLanguage, pieceWords, termLanguage_eq_words o t]
      exact exists_congr fun n => and_assoc.symm
    rw [branchLanguage, branchWords, hpiece, branchLanguage_eq_words o ps]

theorem branchesLanguage_eq_words (o : Options) (bs : List (List (Term × Repetition))) :
    branchesLanguage o bs = branchesWords (.ofOptions o) bs := by
  cases bs with
  | nil => rw [branchesLanguage, branchesWords]
  | cons b bs =>
    rw [branchesLanguage, branchesWords, branchLanguage_eq_words o b,
      branchesLanguage_eq_words o bs]

end

/-- What is drawn from a pattern are its words in one of the interpretations. -/
theorem language_eq_words (o : Options) (p : Pattern) : p.language o = p.words (.ofOptions o) :=
  branchesLanguage_eq_words o p

/-- The piece is a literal without a repetition, and a literal with one comes next. -/
def RunsIntoRepeated : Term × Repetition → List (Term × Repetition) → Prop
  | (.literal _, q), (.literal _, r) :: _ => q = .once ∧ r ≠ .once
  | _, _ => False

mutual

def UnmixedTerm : Term → Prop
  | .charClass _ => True
  | .literal _ => True
  | .group branches => UnmixedBranches branches

def UnmixedPieces : List (Term × Repetition) → Prop
  | [] => True
  | (t, r) :: ps => UnmixedTerm t ∧ ¬ RunsIntoRepeated (t, r) ps ∧ UnmixedPieces ps

def UnmixedBranches : List (List (Term × Repetition)) → Prop
  | [] => True
  | b :: bs => UnmixedPieces b ∧ UnmixedBranches bs

end

/-- No literal without a repetition stands before one with a repetition, at any depth. -/
def Unmixed (p : Pattern) : Prop := UnmixedBranches p

theorem pieceWords_once (I : Interpretation) (t : Term) :
    pieceWords I (t, .once) = termWords I t := by
  apply Language.ext
  intro w
  rw [pieceWords, I.rounds_once]
  constructor
  · intro h
    obtain ⟨_, rfl, hw⟩ := h
    rwa [pow_one] at hw
  · intro h
    exact ⟨1, rfl, by rwa [pow_one]⟩

theorem branchWords_literals (I : Interpretation) (s t : String) (ps : List (Term × Repetition)) :
    branchWords I ((.literal (s ++ t), .once) :: ps) =
      branchWords I ((.literal s, .once) :: (.literal t, .once) :: ps) := by
  have hst : ({(s ++ t).toList} : Language Char) = {s.toList} * {t.toList} := by
    rw [String.toList_append]
    exact Set.image2_singleton.symm
  simp only [branchWords, pieceWords_once, termWords, hst, mul_assoc]

theorem exists_literal_of_joinTerm (h : joinTerm t = .literal s) : ∃ u, t = .literal u := by
  cases t with
  | charClass k => rw [joinTerm] at h; cases h
  | literal u => exact ⟨u, rfl⟩
  | group bs => rw [joinTerm] at h; cases h

/-- A branch that begins with a repeated literal after the joining did so before. -/
theorem exists_head_of_joinPieces {ps : List (Term × Repetition)} (h : UnmixedPieces ps)
    (hj : joinPieces ps = (.literal t, r) :: qs) :
    ∃ u q ls, ps = (.literal u, q) :: ls ∧ (q = .once → r = .once) := by
  induction ps generalizing t r qs with
  | nil => rw [joinPieces] at hj; cases hj
  | cons p ps ih =>
    obtain ⟨u, q⟩ := p
    rw [UnmixedPieces] at h
    obtain ⟨-, hmixed, hps⟩ := h
    rw [joinPieces] at hj
    by_cases hruns : RunsOn (joinTerm u, q) (joinPieces ps)
    -- the head is made of two literals and repeated as the second, which the induction tells of
    · obtain ⟨a, b, k, ls, hp, hls⟩ := exists_literals_of_runsOn hruns
      rw [hp, hls, attach_literal] at hj
      cases hj
      obtain ⟨hu, rfl⟩ := Prod.mk.inj hp
      obtain ⟨a, rfl⟩ := exists_literal_of_joinTerm hu
      obtain ⟨b, k, ls, rfl, hk⟩ := ih hps hls
      refine ⟨a, .once, _, rfl, ?_⟩
      intro _
      apply hk
      exact Classical.byContradiction fun hne => hmixed ⟨rfl, hne⟩
    · rw [attach_of_not_runsOn hruns] at hj
      obtain ⟨hp, -⟩ := List.cons.inj hj
      obtain ⟨hu, rfl⟩ := Prod.mk.inj hp
      obtain ⟨a, rfl⟩ := exists_literal_of_joinTerm hu
      exact ⟨a, q, ps, rfl, id⟩

mutual

theorem termWords_joinTerm (I : Interpretation) {t : Term} (h : UnmixedTerm t) :
    termWords I (joinTerm t) = termWords I t := by
  cases t with
  | charClass k => rw [joinTerm]
  | literal text => rw [joinTerm]
  | group branches =>
    rw [UnmixedTerm] at h
    rw [joinTerm, termWords, termWords, branchesWords_joinBranches I h]

theorem branchWords_joinPieces (I : Interpretation) {ps : List (Term × Repetition)}
    (h : UnmixedPieces ps) : branchWords I (joinPieces ps) = branchWords I ps := by
  cases ps with
  | nil => rw [joinPieces]
  | cons p ps =>
    obtain ⟨t, r⟩ := p
    rw [UnmixedPieces] at h
    obtain ⟨ht, hmixed, hps⟩ := h
    have hpiece : pieceWords I (joinTerm t, r) = pieceWords I (t, r) := by
      rw [pieceWords, pieceWords, termWords_joinTerm I ht]
    have hps' := branchWords_joinPieces I hps
    have hbranch : branchWords I ((t, r) :: ps) = pieceWords I (t, r) * branchWords I ps := by
      rw [branchWords]
    rw [joinPieces, hbranch]
    by_cases hruns : RunsOn (joinTerm t, r) (joinPieces ps)
    · obtain ⟨s, u, q, qs, hp, hqs⟩ := exists_literals_of_runsOn hruns
      obtain ⟨hs, rfl⟩ := Prod.mk.inj hp
      obtain ⟨_, rfl⟩ := exists_literal_of_joinTerm hs
      obtain ⟨v, k, ls, rfl, hk⟩ := exists_head_of_joinPieces hps hqs
      -- the next literal has no repetition either, since the pattern is unmixed
      have hq : q = .once := hk (Classical.byContradiction fun hne => hmixed ⟨rfl, hne⟩)
      rw [hq] at hqs
      rw [hqs] at hps'
      rw [hs] at hpiece
      rw [hs, hqs, attach_literal, branchWords_literals, branchWords, hpiece, hps']
    · rw [attach_of_not_runsOn hruns, branchWords, hpiece, hps']

theorem branchesWords_joinBranches (I : Interpretation) {bs : List (List (Term × Repetition))}
    (h : UnmixedBranches bs) : branchesWords I (joinBranches bs) = branchesWords I bs := by
  cases bs with
  | nil => rw [joinBranches]
  | cons b bs =>
    rw [UnmixedBranches] at h
    rw [joinBranches, branchesWords, branchesWords, branchWords_joinPieces I h.1,
      branchesWords_joinBranches I h.2]

end

theorem words_joined (I : Interpretation) {p : Pattern} (h : p.Unmixed) :
    p.joined.words I = p.words I :=
  branchesWords_joinBranches I h

theorem mem_literal_pow_iff {t w : List Char} :
    w ∈ ({t} : Language Char) ^ n ↔ w = (List.replicate n t).flatten := by
  rw [Language.mem_pow]
  constructor
  · intro h
    obtain ⟨ws, rfl, hlen, hws⟩ := h
    rw [List.eq_replicate_iff.2 ⟨hlen, hws⟩]
  · rintro rfl
    exact ⟨_, rfl, List.length_replicate, fun w hw => List.eq_of_mem_replicate hw⟩

theorem mem_pieceWords_literal_iff {I : Interpretation} {t : String} :
    w ∈ pieceWords I (.literal t, r) ↔
      ∃ n ∈ I.rounds r, w = (List.replicate n t.toList).flatten := by
  rw [pieceWords, termWords]
  exact exists_congr fun n => and_congr_right fun _ => mem_literal_pow_iff

theorem mem_words_literal_iff {I : Interpretation} {t : String} :
    w ∈ words I [[(.literal t, r)]] ↔
      ∃ n ∈ I.rounds r, w = (List.replicate n t.toList).flatten := by
  rw [words, branchesWords, branchesWords, branchWords, branchWords, mul_one, add_zero,
    mem_pieceWords_literal_iff]

theorem mem_words_literals_iff {I : Interpretation} {s t : String} :
    w ∈ words I [[(.literal s, .once), (.literal t, r)]] ↔
      ∃ n ∈ I.rounds r, w = s.toList ++ (List.replicate n t.toList).flatten := by
  rw [words, branchesWords, branchesWords, branchWords, branchWords, branchWords, mul_one, add_zero,
    pieceWords_once, termWords, Language.mem_mul]
  constructor
  · intro h
    obtain ⟨_, rfl, _, hv, rfl⟩ := h
    obtain ⟨n, hn, rfl⟩ := mem_pieceWords_literal_iff.1 hv
    exact ⟨n, hn, rfl⟩
  · intro h
    obtain ⟨n, hn, rfl⟩ := h
    exact ⟨_, rfl, _, mem_pieceWords_literal_iff.2 ⟨n, hn, rfl⟩, rfl⟩

/-- Where a bare and a repeated literal have the words of both as one repeated literal, this is what
the lengths of the words say. -/
theorem exists_rounds_of_words_eq {s t : List Char} {rounds : Set Nat}
    (h : ∀ w : List Char, (∃ n ∈ rounds, w = (List.replicate n (s ++ t)).flatten) ↔
      ∃ n ∈ rounds, w = s ++ (List.replicate n t).flatten) :
    (∀ n ∈ rounds, s.length ≤ n * (s.length + t.length)) ∧
      ∀ m ∈ rounds, ∃ n ∈ rounds, n * (s.length + t.length) = s.length + m * t.length := by
  constructor
  · intro n hn
    obtain ⟨m, -, hm⟩ := (h _).1 ⟨n, hn, rfl⟩
    have hlen := congrArg List.length hm
    simp only [List.length_flatten, List.map_replicate, List.sum_replicate_nat,
      List.length_append] at hlen
    omega
  · intro m hm
    obtain ⟨n, hn, hw⟩ := (h _).2 ⟨m, hm, rfl⟩
    have hlen := congrArg List.length hw
    simp only [List.length_flatten, List.map_replicate, List.sum_replicate_nat,
      List.length_append] at hlen
    exact ⟨n, hn, hlen.symm⟩

/-- A bare literal and a repeated one have other words than the two as one repeated literal. -/
theorem words_joined_ne {s t : String} {r : Repetition} (hs : s.toList ≠ []) (ht : t.toList ≠ [])
    (hr : r.isValid) (hne : r ≠ .once) :
    let p : Pattern := [[(.literal s, .once), (.literal t, r)]]
    p.joined.words .unbounded ≠ p.words .unbounded := by
  intro p heq
  have hs := List.length_pos_iff.2 hs
  have ht := List.length_pos_iff.2 ht
  have hjoined : p.joined = [[(.literal (s ++ t), r)]] :=
    congrArg (fun b => [b]) (attach_literal s t r [])
  have hwords (w : List Char) : (∃ n ∈ Interpretation.unbounded.rounds r,
        w = (List.replicate n (s.toList ++ t.toList)).flatten) ↔
      ∃ n ∈ Interpretation.unbounded.rounds r,
        w = s.toList ++ (List.replicate n t.toList).flatten := by
    rw [← String.toList_append, ← mem_words_literal_iff, ← mem_words_literals_iff, ← hjoined, heq]
  obtain ⟨hlong, hsame⟩ := exists_rounds_of_words_eq hwords
  have hmin := Interpretation.min_mem_rounds hr
  -- no word is empty, but the joined literal may have no rounds
  have hpos : r.min.toNat ≠ 0 := by
    intro h
    have hlong := hlong _ hmin
    rw [h, Nat.zero_mul] at hlong
    omega
  -- the fewest rounds of both are as long, so there is one
  have hone : r.min.toNat = 1 := by
    obtain ⟨n, ⟨hn, -⟩, h⟩ := hsame _ hmin
    have ht' : r.min.toNat * t.toList.length ≤ n * t.toList.length := Nat.mul_le_mul_right _ hn
    rw [Nat.mul_add] at h
    have hs' : n * s.toList.length ≤ 1 * s.toList.length := by omega
    have hn' := Nat.le_of_mul_le_mul_right hs' hs
    omega
  -- the word of two rounds is too short for two of the other kind
  have htwo := Interpretation.two_mem_rounds hr (UInt32.toNat_inj.1 hone) hne
  obtain ⟨n, ⟨hn, -⟩, h⟩ := hsame 2 htwo
  rw [Nat.mul_add] at h
  rw [hone] at hn
  obtain rfl | hn := Nat.eq_or_lt_of_le hn
  · omega
  · have hs' : 2 * s.toList.length ≤ n * s.toList.length := Nat.mul_le_mul_right _ hn
    have ht' : 2 * t.toList.length ≤ n * t.toList.length := Nat.mul_le_mul_right _ hn
    omega

end Pattern

end PatternGen
