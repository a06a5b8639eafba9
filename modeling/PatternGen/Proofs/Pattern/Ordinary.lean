import PatternGen.Proofs.Gen.Compile
import PatternGen.Proofs.Pattern.Canonical
import PatternGen.Proofs.Pattern.ContextFree

namespace PatternGen

open Text

/-- How far back a repetition reaches into letters and digits in a row. -/
inductive Reach where
  | character
  | run
  deriving DecidableEq

/-- The bounds that a text gives for the number of rounds, the second of them none if it is open. -/
inductive Rounds : List Char → Nat → Option Nat → Prop where
  | omitted : Rounds [] 1 (some 1)
  | star : Rounds ['*'] 0 none
  | plus : Rounds ['+'] 1 none
  | exactly (hn : IsNumeral low n) : Rounds ('\x7b' :: (low ++ ['\x7d'])) n (some n)
  | atLeast (hn : IsNumeral low n) : Rounds ('\x7b' :: (low ++ [',', '\x7d'])) n none
  | between (hn : IsNumeral low n) (hm : IsNumeral high m) (h : n ≤ m) :
    Rounds ('\x7b' :: (low ++ ',' :: (high ++ ['\x7d']))) n (some m)

def repeated (L : Language Char) (lo : Nat) (hi : Option Nat) : Language Char :=
  {w | ∃ n, lo ≤ n ∧ (∀ m ∈ hi, n ≤ m) ∧ w ∈ L ^ n}

/-- The characters that letters, digits and ranges of them stand for in a class. -/
inductive ClassLists : List Char → Set Char → Prop where
  | nil : ClassLists [] ∅
  | single (hx : x.isAlphanum) (h : ClassLists s S) : ClassLists (x :: s) ({x} ∪ S)
  | range (hx : x.isAlphanum) (hy : y.isAlphanum) (hxy : x ≤ y) (h : ClassLists s S) :
    ClassLists (x :: '-' :: y :: s) ({c | x ≤ c ∧ c ≤ y} ∪ S)

/-- The text is a regular expression for the language. -/
inductive Denotes (r : Reach) : Nonterminal → List Char → Language Char → Prop where
  | lastBranch (h : Denotes r .branch s L) : Denotes r .pattern s L
  | branches (h : Denotes r .branch s L) (ht : Denotes r .pattern t M) :
    Denotes r .pattern (s ++ '|' :: t) (L + M)
  | lastPiece (h : Denotes r .piece s L) : Denotes r .branch s L
  | pieces (h : Denotes r .piece s L) (ht : Denotes r .branch t M)
      (ha : r = .run → Pattern.Apart s t) :
    Denotes r .branch (s ++ t) (L * M)
  | piece (h : Denotes r .term s L) (ht : Rounds t lo hi) :
    Denotes r .piece (s ++ t) (repeated L lo hi)
  | charClass (h : ClassLists s S) : Denotes r .term ('[' :: (s ++ [']'])) {w | ∃ c ∈ S, w = [c]}
  | literal (hne : s ≠ []) (h : ∀ x ∈ s, x.isAlphanum) (hr : r = .character → s.length = 1) :
    Denotes r .term s {s}
  | group (h : Denotes r .pattern s L) : Denotes r .term ('(' :: (s ++ [')'])) L

theorem Denotes.character (hx : x.isAlphanum) : Denotes r .term [x] {[x]} :=
  .literal (List.cons_ne_nil x []) (List.forall_mem_singleton.2 hx) fun _ => rfl

/-- The text is a regular expression, and the word is one of its words. -/
def Matches (r : Reach) (text w : List Char) : Prop :=
  (∃ L, Denotes r .pattern text L) ∧ ∀ L, Denotes r .pattern text L → w ∈ L

def ClassItem.isPlain : ClassItem → Bool
  | single c => c.isAlphanum
  | range first last => first.isAlphanum && last.isAlphanum

def CharClass.isPlain (k : CharClass) : Bool := !k.negated && k.items.all ClassItem.isPlain

namespace Pattern

mutual

def isPlainTerm : Term → Bool
  | .charClass k => k.isPlain
  | .literal text => text.toList.all Char.isAlphanum
  | .group branches => isPlainBranches branches

def isPlainBranch : List (Term × Repetition) → Bool
  | [] => true
  | (t, _) :: ps => isPlainTerm t && isPlainBranch ps

def isPlainBranches : List (List (Term × Repetition)) → Bool
  | [] => true
  | b :: bs => isPlainBranch b && isPlainBranches bs

end

/-- Only letters and digits stand for themselves, and no class is negated or lists anything else. -/
def isPlain (p : Pattern) : Bool := isPlainBranches p

/-- The repetition does not apply to several literal characters. -/
def repeatsOne : Term → Repetition → Bool
  | .literal text, r => r = .once || text.toList.length = 1
  | _, _ => true

mutual

def isOrdinaryTerm : Term → Bool
  | .group branches => isOrdinaryBranches branches
  | _ => true

def isOrdinaryBranch : List (Term × Repetition) → Bool
  | [] => true
  | (t, r) :: ps => isOrdinaryTerm t && repeatsOne t r && isOrdinaryBranch ps

def isOrdinaryBranches : List (List (Term × Repetition)) → Bool
  | [] => true
  | b :: bs => isOrdinaryBranch b && isOrdinaryBranches bs

end

def isOrdinary (p : Pattern) : Bool := isOrdinaryBranches p

end Pattern

theorem isLiteral_of_isAlphanum (h : x.isAlphanum) : Grammar.isLiteral x := by
  rw [Grammar.isLiteral, h, Bool.true_or]

theorem Rounds.exists_spells (h : Rounds v lo hi) :
    ∃ r : Repetition, r.Spells v ∧ r.min.toNat = lo ∧ r.max.map UInt32.toNat = hi := by
  cases h with
  | omitted => exact ⟨.once, .omitted, rfl, rfl⟩
  | star => exact ⟨.zeroOrMore, .star, rfl, rfl⟩
  | plus => exact ⟨.oneOrMore, .plus, rfl, rfl⟩
  | exactly hn =>
    obtain ⟨k, hk, rfl⟩ := hn.count?
    exact ⟨.exactly k, .exactly hk, rfl, rfl⟩
  | atLeast hn =>
    obtain ⟨k, hk, rfl⟩ := hn.count?
    exact ⟨.atLeast k, .atLeast hk, rfl, rfl⟩
  | between hn hm h =>
    obtain ⟨k, hk, rfl⟩ := hn.count?
    obtain ⟨l, hl, rfl⟩ := hm.count?
    exact ⟨.between k l, .between hk hl h, rfl, rfl⟩

theorem Repetition.Spells.exists_rounds {r : Repetition} (h : r.Spells v) :
    ∃ lo hi, Rounds v lo hi := by
  cases h with
  | omitted => exact ⟨_, _, .omitted⟩
  | star => exact ⟨_, _, .star⟩
  | plus => exact ⟨_, _, .plus⟩
  | exactly hn => exact ⟨_, _, .exactly (isNumeral_of_count? hn)⟩
  | atLeast hn => exact ⟨_, _, .atLeast (isNumeral_of_count? hn)⟩
  | between hn hm h =>
    exact ⟨_, _, .between (isNumeral_of_count? hn) (isNumeral_of_count? hm) h⟩

namespace ClassLists

open CharClass

theorem head (h : ClassLists (x :: s) S) : x.isAlphanum := by
  cases h with
  | single hx _ => exact hx
  | range hx _ _ _ => exact hx

theorem scanItems_cons (h : ClassLists s S) (x : Char) :
    scanItems (x :: s) = .single x :: scanItems s := by
  rw [scanItems]
  rintro y cs rfl
  exact absurd h.head (by decide)

theorem ofBody_eq (h : ClassLists s S) : ofBody s = ⟨false, scanItems s⟩ := by
  rw [ofBody]
  rintro cs rfl
  exact absurd h.head (by decide)

theorem staysInClass (h : ClassLists s S) : ∀ x ∈ s, Grammar.staysInClass x := by
  have halnum {x : Char} (hx : x.isAlphanum) : Grammar.staysInClass x := by
    rw [Grammar.staysInClass, bne_iff_ne]
    rintro rfl
    exact absurd hx (by decide)
  induction h with
  | nil => exact fun _ hx => (List.not_mem_nil hx).elim
  | single hx _ ih => exact List.forall_mem_cons.2 ⟨halnum hx, ih⟩
  | range hx hy _ _ ih =>
    simp only [List.forall_mem_cons]
    exact ⟨halnum hx, by decide, halnum hy, ih⟩

theorem exists_contains_iff (h : ClassLists s S) :
    (∃ e ∈ scanItems s, e.contains c) ↔ c ∈ S := by
  induction h with
  | nil => simp [scanItems]
  | @single x s S hx h ih =>
    rw [h.scanItems_cons, List.exists_mem_cons_iff, ih, ClassItem.contains, beq_iff_eq, eq_comm]
    exact Iff.rfl
  | range hx hy hxy h ih =>
    rw [scanItems, if_pos hxy, List.exists_mem_cons_iff, ih, ClassItem.contains, Bool.and_eq_true,
      decide_eq_true_eq, decide_eq_true_eq]
    exact Iff.rfl

theorem allows_iff (h : ClassLists s S) (n : Negation) : n.Allows (ofBody s) c ↔ c ∈ S := by
  rw [h.ofBody_eq, ← h.exists_contains_iff, ← CharClass.contains_iff (k := ⟨false, scanItems s⟩)]
  cases n <;> rfl

end ClassLists

namespace Pattern

theorem mem_pow_of_mem {L M : Language Char} (h : ∀ w ∈ L, w ∈ M) (hw : w ∈ L ^ n) :
    w ∈ M ^ n := by
  obtain ⟨ws, rfl, hlen, hws⟩ := Language.mem_pow.1 hw
  exact Language.mem_pow.2 ⟨ws, rfl, hlen, fun v hv => h v (hws v hv)⟩

theorem mem_repeated {o : Options} {t : Term} {r : Repetition}
    (h : ∀ w ∈ termLanguage o t, w ∈ L) (hw : w ∈ pieceLanguage o (t, r)) :
    w ∈ repeated L r.min.toNat (r.max.map UInt32.toNat) := by
  rw [pieceLanguage] at hw
  obtain ⟨n, hlo, hhi, hw⟩ := hw
  refine ⟨n, hlo, ?_, mem_pow_of_mem h hw⟩
  intro m hm
  obtain ⟨k, hk, rfl⟩ := Option.map_eq_some_iff.1 hm
  rw [Repetition.last, hk] at hhi
  exact hhi

theorem pieceLanguage_once (o : Options) (t : Term) :
    pieceLanguage o (t, .once) = termLanguage o t := by
  apply Language.ext
  intro w
  rw [pieceLanguage]
  constructor
  · intro h
    obtain ⟨n, hlo, hhi, hw⟩ := h
    obtain rfl : n = 1 := Nat.le_antisymm hhi hlo
    rwa [pow_one] at hw
  · intro h
    refine ⟨1, Nat.le_refl 1, Nat.le_refl 1, ?_⟩
    rwa [pow_one]

/-- The text can be read as something whose words are among those of the language. In the ordinary
reading, this is sure only where no repetition applies to several literal characters. -/
def Realizes (r : Reach) : Nonterminal → List Char → Language Char → Prop
  | .pattern, s, L => ∃ p, SpellsBranches p s ∧
    ((r = .character → isOrdinaryBranches p) → ∀ o, ∀ w ∈ branchesLanguage o p, w ∈ L)
  | .branch, s, L => ∃ ps, ps ≠ [] ∧ SpellsPieces ps s ∧
    ((r = .character → isOrdinaryBranch ps) → ∀ o, ∀ w ∈ branchLanguage o ps, w ∈ L)
  | .piece, s, L => ∃ p, SpellsPiece p s ∧
    ((r = .character → isOrdinaryBranch [p]) → ∀ o, ∀ w ∈ pieceLanguage o p, w ∈ L)
  | .term, s, L => ∃ t, SpellsTerm t s ∧
    ((r = .character → isOrdinaryTerm t) → ∀ o, ∀ w ∈ termLanguage o t, w ∈ L)
  | .repetition, _, _ => False

theorem toList_ne_nil_of_spellsPieces (h : SpellsPieces ((.literal text, r) :: ps) s) :
    text.toList ≠ [] := by
  rw [SpellsPieces] at h
  obtain ⟨_, _, hp, -⟩ := h
  rw [SpellsPiece] at hp
  obtain ⟨_, _, ht, -⟩ := hp
  rw [SpellsTerm] at ht
  obtain ⟨rfl, hne, -⟩ := ht
  exact hne

/-- A literal of several characters is not repeated in an ordinary pattern. -/
theorem eq_once_of_repeatsOne {a b : String} (ha : a.toList ≠ []) (hb : b.toList ≠ [])
    (h : repeatsOne (.literal (a ++ b)) k) : k = .once := by
  have hapos := List.length_pos_iff.2 ha
  have hbpos := List.length_pos_iff.2 hb
  rw [repeatsOne, Bool.or_eq_true, decide_eq_true_eq, decide_eq_true_eq, String.toList_append,
    List.length_append] at h
  rcases h with h | h
  · exact h
  · omega

/-- A bare literal that another one takes in adds its text to the words. -/
theorem mem_mul_of_merged {a b : String} {L M : Language Char}
    (h : w ∈ branchLanguage o ((.literal (a ++ b), .once) :: qs))
    (ha : ∀ x ∈ pieceLanguage o (.literal a, .once), x ∈ L)
    (hb : ∀ x ∈ branchLanguage o ((.literal b, .once) :: qs), x ∈ M) : w ∈ L * M := by
  rw [branchLanguage, pieceLanguage_once, termLanguage, String.toList_append] at h
  obtain ⟨x, hx, y, hy, rfl⟩ := Language.mem_mul.1 h
  obtain rfl : x = a.toList ++ b.toList := hx
  have haL : a.toList ∈ L := by
    apply ha
    rw [pieceLanguage_once, termLanguage]
    exact Set.mem_singleton _
  have hbM : b.toList ++ y ∈ M := by
    apply hb
    rw [branchLanguage, pieceLanguage_once, termLanguage]
    exact Language.mem_mul.2 ⟨b.toList, rfl, y, hy, rfl⟩
  rw [List.append_assoc]
  exact Language.mem_mul.2 ⟨a.toList, haL, b.toList ++ y, hbM, rfl⟩

theorem Realizes.pieces (h : Realizes r .piece s L) (ha : r = .run → Apart s t)
    (ht : Realizes r .branch t M) : Realizes r .branch (s ++ t) (L * M) := by
  obtain ⟨⟨u, k⟩, hp, hL⟩ := h
  obtain ⟨ps, hne, hps, hM⟩ := ht
  by_cases hapart : Apart s t
  · refine ⟨(u, k) :: ps, List.cons_ne_nil _ ps, ?_, ?_⟩
    · rw [SpellsPieces]
      exact ⟨s, t, hp, hps, hapart, rfl⟩
    · intro hr o w hw
      simp only [isOrdinaryBranch, Bool.and_eq_true, Bool.and_true] at hr hL
      rw [branchLanguage] at hw
      obtain ⟨x, hx, y, hy, rfl⟩ := Language.mem_mul.1 hw
      have hxL := hL (fun h => (hr h).1) o x hx
      have hyM := hM (fun h => (hr h).2) o y hy
      exact Language.mem_mul.2 ⟨x, hxL, y, hyM, rfl⟩
  · -- The tree has one literal where the ordinary reading has two pieces.
    obtain ⟨a, b, j, qs, hpa, hsa, rfl⟩ := exists_literals_of_not_apart hp hps hapart
    obtain ⟨rfl, rfl⟩ := Prod.mk.inj hpa
    have hr : r = .character := by
      cases r with
      | character => rfl
      | run => exact (hapart (ha rfl)).elim
    have ha : a.toList ≠ [] := toList_ne_nil_of_spellsPieces (spellsPieces_singleton hp)
    have hb : b.toList ≠ [] := toList_ne_nil_of_spellsPieces hps
    refine ⟨_, List.cons_ne_nil _ qs, hps.merge hsa, ?_⟩
    intro hord o w hw
    have hall := hord hr
    rw [isOrdinaryBranch, Bool.and_eq_true, Bool.and_eq_true] at hall
    obtain ⟨⟨-, hone⟩, hqs⟩ := hall
    obtain rfl := eq_once_of_repeatsOne ha hb hone
    have hbare : isOrdinaryBranch ((.literal b, .once) :: qs) := by
      rw [isOrdinaryBranch, hqs]
      rfl
    exact mem_mul_of_merged hw (hL (fun _ => rfl) o) (hM (fun _ => hbare) o)

theorem realizes_of_denotes (h : Denotes r n s L) : Realizes r n s L := by
  induction h with
  | lastBranch _ ih =>
    obtain ⟨b, hne, hb, hL⟩ := ih
    refine ⟨[b], spellsBranches_singleton hne hb, ?_⟩
    intro hr o w hw
    simp only [isOrdinaryBranches, Bool.and_true] at hr
    rw [branchesLanguage, branchesLanguage, add_zero] at hw
    exact hL hr o w hw
  | branches _ _ ih iht =>
    obtain ⟨b, hne, hb, hL⟩ := ih
    obtain ⟨p, hp, hM⟩ := iht
    refine ⟨b :: p, hp.cons hne hb, ?_⟩
    intro hr o w hw
    simp only [isOrdinaryBranches, Bool.and_eq_true] at hr
    rw [branchesLanguage, Language.mem_add] at hw
    rcases hw with hw | hw
    · exact .inl (hL (fun h => (hr h).1) o w hw)
    · exact .inr (hM (fun h => (hr h).2) o w hw)
  | lastPiece _ ih =>
    obtain ⟨p, hp, hL⟩ := ih
    refine ⟨[p], List.cons_ne_nil p [], spellsPieces_singleton hp, ?_⟩
    intro hr o w hw
    rw [branchLanguage, branchLanguage, mul_one] at hw
    exact hL hr o w hw
  | pieces _ _ ha ih iht => exact ih.pieces ha iht
  | @piece s L t lo hi _ ht ih =>
    obtain ⟨u, hu, hL⟩ := ih
    obtain ⟨k, hk, rfl, rfl⟩ := ht.exists_spells
    refine ⟨(u, k), ?_, ?_⟩
    · rw [SpellsPiece]
      exact ⟨s, t, hu, hk, rfl⟩
    · intro hr o w hw
      simp only [isOrdinaryBranch, Bool.and_eq_true] at hr
      exact mem_repeated (hL (fun h => (hr h).1.1) o) hw
  | @charClass s S h =>
    refine ⟨.charClass (.ofBody s), ?_, ?_⟩
    · rw [SpellsTerm]
      exact ⟨s, rfl, h.staysInClass, rfl⟩
    · intro _ o w hw
      rw [termLanguage] at hw
      obtain ⟨c, hc, rfl⟩ := hw
      exact ⟨c, (h.allows_iff o.negation).1 hc, rfl⟩
  | @literal s hne h hr =>
    refine ⟨.literal (String.ofList s), ?_, ?_⟩
    · rw [SpellsTerm, String.toList_ofList]
      exact ⟨rfl, hne, fun x hx => isLiteral_of_isAlphanum (h x hx)⟩
    · intro _ o w hw
      rw [termLanguage, String.toList_ofList] at hw
      exact hw
  | @group s L _ ih =>
    obtain ⟨p, hp, hL⟩ := ih
    refine ⟨.group p, ?_, ?_⟩
    · rw [SpellsTerm]
      exact ⟨s, hp, rfl⟩
    · intro hr o w hw
      rw [isOrdinaryTerm] at hr
      rw [termLanguage] at hw
      exact hL hr o w hw

theorem exists_classLists (h : (CharClass.scanItems s).all ClassItem.isPlain) :
    ∃ S, ClassLists s S := by
  fun_induction CharClass.scanItems s with
  | case1 x y s hxy ih =>
    rw [List.all_cons, ClassItem.isPlain, Bool.and_eq_true, Bool.and_eq_true] at h
    obtain ⟨⟨hx, hy⟩, h⟩ := h
    obtain ⟨S, hS⟩ := ih h
    exact ⟨_, .range hx hy hxy hS⟩
  | case2 x y s hxy ih =>
    rw [List.all_cons, Bool.and_eq_true] at h
    obtain ⟨S, hS⟩ := ih h.2
    exact absurd hS.head (by decide)
  | case3 x s _ ih =>
    rw [List.all_cons, ClassItem.isPlain, Bool.and_eq_true] at h
    obtain ⟨S, hS⟩ := ih h.2
    exact ⟨_, .single h.1 hS⟩
  | case4 => exact ⟨_, .nil⟩

theorem exists_denotes_append (h : Denotes r .piece s L) (ha : r = .run → Apart s t)
    (ht : t = [] ∨ ∃ M, Denotes r .branch t M) : ∃ M, Denotes r .branch (s ++ t) M := by
  rcases ht with rfl | ⟨M, ht⟩
  · rw [List.append_nil]
    exact ⟨_, .lastPiece h⟩
  · exact ⟨_, .pieces h ht ha⟩

/-- In the ordinary reading each character of a literal is a piece of its own. -/
theorem exists_denotes_literal (hne : s ≠ []) (hs : ∀ x ∈ s, x.isAlphanum) (hv : Rounds v lo hi)
    (ha : r = .run → Apart (s ++ v) t) (ht : t = [] ∨ ∃ M, Denotes r .branch t M) :
    ∃ M, Denotes r .branch (s ++ v ++ t) M := by
  cases r with
  | run => exact exists_denotes_append (.piece (.literal hne hs nofun) hv) ha ht
  | character =>
    induction s with
    | nil => exact (hne rfl).elim
    | cons x s ih =>
      obtain ⟨hx, hs⟩ := List.forall_mem_cons.1 hs
      by_cases hlast : s = []
      · rw [hlast]
        exact exists_denotes_append (.piece (.character hx) hv) nofun ht
      · have hbare : Denotes .character .piece ([x] ++ []) (repeated {[x]} 1 (some 1)) :=
          .piece (.character hx) .omitted
        have h := exists_denotes_append hbare nofun (.inr (ih hlast hs nofun))
        exact h

mutual

theorem exists_denotes_term {t : Term} (h : SpellsTerm t s) (hp : isPlainTerm t)
    (ht : ∀ text, t ≠ .literal text) : ∃ L, Denotes r .term s L := by
  cases t with
  | charClass k =>
    rw [SpellsTerm] at h
    obtain ⟨body, rfl, hb, rfl⟩ := h
    rw [isPlainTerm, CharClass.isPlain, Bool.and_eq_true, Bool.not_eq_true'] at hp
    obtain ⟨hneg, hitems⟩ := hp
    have hbody : CharClass.ofBody body = ⟨false, CharClass.scanItems body⟩ := by
      fun_cases CharClass.ofBody body with
      | case1 cs => cases hneg
      | case2 cs _ => rfl
    rw [hbody] at hitems
    obtain ⟨S, hS⟩ := exists_classLists hitems
    exact ⟨_, .charClass hS⟩
  | literal text => exact (ht text rfl).elim
  | group branches =>
    rw [SpellsTerm] at h
    obtain ⟨u, hu, rfl⟩ := h
    rw [isPlainTerm] at hp
    obtain ⟨L, hL⟩ := exists_denotes_branches hu hp
    exact ⟨L, .group hL⟩

theorem exists_denotes_pieces {ps : List (Term × Repetition)} (h : SpellsPieces ps s)
    (hp : isPlainBranch ps) : s = [] ∨ ∃ L, Denotes r .branch s L := by
  cases ps with
  | nil =>
    rw [SpellsPieces] at h
    exact .inl h
  | cons p ps =>
    obtain ⟨t, k⟩ := p
    rw [SpellsPieces] at h
    obtain ⟨u, v, hu, hps, hapart, rfl⟩ := h
    rw [isPlainBranch, Bool.and_eq_true] at hp
    obtain ⟨ht, hp⟩ := hp
    have hv : v = [] ∨ ∃ L, Denotes r .branch v L := exists_denotes_pieces hps hp
    rw [SpellsPiece] at hu
    obtain ⟨a, b, ha, hk, rfl⟩ := hu
    obtain ⟨lo, hi, hb⟩ := hk.exists_rounds
    apply Or.inr
    by_cases hlit : ∃ text, t = .literal text
    · obtain ⟨text, rfl⟩ := hlit
      rw [SpellsTerm] at ha
      obtain ⟨rfl, hne, -⟩ := ha
      rw [isPlainTerm, List.all_eq_true] at ht
      exact exists_denotes_literal hne ht hb (fun _ => hapart) hv
    · obtain ⟨L, hL⟩ := exists_denotes_term ha ht fun text htext => hlit ⟨text, htext⟩
      exact exists_denotes_append (.piece hL hb) (fun _ => hapart) hv

theorem exists_denotes_branches {bs : List (List (Term × Repetition))} (h : SpellsBranches bs s)
    (hp : isPlainBranches bs) : ∃ L, Denotes r .pattern s L := by
  cases bs with
  | nil =>
    rw [SpellsBranches] at h
    exact h.elim
  | cons b bs =>
    rw [SpellsBranches] at h
    obtain ⟨u, v, hne, hb, hbs, rfl⟩ := h
    rw [isPlainBranches, Bool.and_eq_true] at hp
    obtain ⟨L, hL⟩ := (exists_denotes_pieces hb hp.1).resolve_left (hb.ne_nil hne)
    exact exists_denotes_rest hbs hp.2 hL

theorem exists_denotes_rest {bs : List (List (Term × Repetition))} (h : SpellsRest bs v)
    (hp : isPlainBranches bs) (hu : Denotes r .branch u L) :
    ∃ M, Denotes r .pattern (u ++ v) M := by
  cases bs with
  | nil =>
    rw [SpellsRest] at h
    rw [h, List.append_nil]
    exact ⟨L, .lastBranch hu⟩
  | cons b bs =>
    rw [SpellsRest] at h
    obtain ⟨s, t, hne, hb, hbs, rfl⟩ := h
    rw [isPlainBranches, Bool.and_eq_true] at hp
    obtain ⟨M, hM⟩ := (exists_denotes_pieces hb hp.1).resolve_left (hb.ne_nil hne)
    obtain ⟨N, hN⟩ := exists_denotes_rest hbs hp.2 hM
    exact ⟨_, .branches hu hN⟩

end

/-- However the text of a pattern is read, the words of the pattern are among those read. -/
theorem mem_of_denotes {text : String} {p : Pattern} (hp : Pattern.parse text = .ok p)
    (hr : r = .character → p.isOrdinary) (h : Denotes r .pattern text.toList L)
    (hw : w ∈ p.language o) : w ∈ L := by
  obtain ⟨q, hq, hL⟩ := realizes_of_denotes h
  obtain rfl : q = p := Except.ok.inj ((parse_eq_ok_iff.2 hq).symm.trans hp)
  exact hL hr o w hw

theorem matches_of_mem_language {text : String} {p : Pattern} (hp : Pattern.parse text = .ok p)
    (hplain : p.isPlain) (hr : r = .character → p.isOrdinary) (hw : w ∈ p.language o) :
    Matches r text.toList w :=
  ⟨exists_denotes_branches (parse_eq_ok_iff.1 hp) hplain, fun _ h => mem_of_denotes hp hr h hw⟩

end Pattern

namespace Gen

/-- What is drawn for a pattern of letters, digits and classes of them matches its text, where a
repetition belongs to all the letters and digits in a row before it. If there is never more than
one of them before a repetition, it matches the text as an ordinary regular expression. -/
theorem ofPattern_run_matches {text : String} {p : Pattern} (hp : Pattern.parse text = .ok p)
    (hplain : p.isPlain) (hg : ofPattern text = .ok g) (m : Sampler σ) (s : σ) :
    ∃ w t, g.run m s = some (w, t) ∧ Matches .run text.toList w.toList ∧
      (p.isOrdinary → Matches .character text.toList w.toList) := by
  rw [ofPattern, hp] at hg
  have hgen : p.generator = .ok g := mapError_eq_ok_iff.1 hg
  obtain ⟨ha, hy⟩ := Pattern.generates_generator hgen
  obtain ⟨w, t, hrun, hyields⟩ := ha.run m s
  have hw := (hy w).1 hyields
  refine ⟨w, t, hrun, Pattern.matches_of_mem_language hp hplain nofun hw, ?_⟩
  intro hord
  exact Pattern.matches_of_mem_language hp hplain (fun _ => hord) hw

theorem ofPattern_run_matches_group :
    ∃ p g w t, Pattern.parse "x[0-9]\x7b2\x7d(ab|c)+" = .ok p ∧ p.isPlain ∧ p.isOrdinary ∧
      ofPattern "x[0-9]\x7b2\x7d(ab|c)+" = .ok g ∧
      g.run Source.sampler (.ofSeed 42) = some (w, t) ∧
      Matches .run "x[0-9]\x7b2\x7d(ab|c)+".toList w.toList ∧
      Matches .character "x[0-9]\x7b2\x7d(ab|c)+".toList w.toList := by
  have hparse : (Pattern.parse "x[0-9]\x7b2\x7d(ab|c)+").toOption.any
    (fun p => p.isPlain && p.isOrdinary) := by decide +kernel
  have hof : (ofPattern "x[0-9]\x7b2\x7d(ab|c)+").toBool := by decide +kernel
  cases hp : Pattern.parse "x[0-9]\x7b2\x7d(ab|c)+" with
  | error e =>
    rw [hp] at hparse
    cases hparse
  | ok p =>
    rw [hp] at hparse
    obtain ⟨hplain, hord⟩ := Bool.and_eq_true_iff.1 hparse
    cases hg : ofPattern "x[0-9]\x7b2\x7d(ab|c)+" with
    | error e =>
      rw [hg] at hof
      cases hof
    | ok g =>
      obtain ⟨w, t, hrun, hm, hm'⟩ := ofPattern_run_matches hp hplain hg Source.sampler (.ofSeed 42)
      exact ⟨p, g, w, t, rfl, hplain, hord, rfl, hrun, hm, hm' hord⟩

theorem length_of_mem_repeated (h : w ∈ repeated {[x]} n (some n)) : w.length = n := by
  obtain ⟨k, hlo, hhi, hw⟩ := h
  obtain rfl : k = n := Nat.le_antisymm (hhi n rfl) hlo
  obtain ⟨ws, rfl, hlen, hws⟩ := Language.mem_pow.1 hw
  obtain rfl : ws = List.replicate k [x] := List.eq_replicate_iff.2 ⟨hlen, hws⟩
  simp

/-- An ordinary repetition after two letters leaves the first of them alone. -/
theorem not_matches_repeated_literal :
    ∃ p g w t, Pattern.parse "ab\x7b2\x7d" = .ok p ∧ p.isPlain ∧
      ofPattern "ab\x7b2\x7d" = .ok g ∧ g.run Source.sampler (.ofSeed 1) = some (w, t) ∧
      ¬ Matches .character "ab\x7b2\x7d".toList w.toList := by
  have hparse : (Pattern.parse "ab\x7b2\x7d").toOption.any Pattern.isPlain := by decide +kernel
  have hof : (ofPattern "ab\x7b2\x7d").toOption.any fun g =>
      (g.run Source.sampler (.ofSeed 1)).any fun (w, _) => w.toList = "abab".toList := by
    decide +kernel
  cases hp : Pattern.parse "ab\x7b2\x7d" with
  | error e =>
    rw [hp] at hparse
    cases hparse
  | ok p =>
    rw [hp] at hparse
    cases hg : ofPattern "ab\x7b2\x7d" with
    | error e =>
      rw [hg] at hof
      cases hof
    | ok g =>
      rw [hg] at hof
      change (g.run Source.sampler (.ofSeed 1)).any _ at hof
      obtain ⟨⟨w, t⟩, hrun, hw⟩ := (Option.any_eq_true _ _).1 hof
      refine ⟨p, g, w, t, rfl, hparse, rfl, hrun, ?_⟩
      rw [of_decide_eq_true hw]
      have ha : Denotes .character .piece ['a'] (repeated {['a']} 1 (some 1)) :=
        .piece (.character (by decide)) .omitted
      have htwo : Rounds ['\x7b', '2', '\x7d'] 2 (some 2) :=
        @Rounds.exactly ['2'] 2
          ⟨List.cons_ne_nil _ _, List.forall_mem_singleton.2 rfl, rfl, by decide⟩
      have hb : Denotes .character .piece ['b', '\x7b', '2', '\x7d']
          (repeated {['b']} 2 (some 2)) :=
        .piece (.character (by decide)) htwo
      intro h
      have hmem := h.2 _ (.lastBranch (.pieces ha (.lastPiece hb) nofun))
      obtain ⟨u, hu, v, hv, huv⟩ := Language.mem_mul.1 hmem
      have hlen := congrArg List.length huv
      rw [List.length_append, length_of_mem_repeated hu, length_of_mem_repeated hv] at hlen
      exact absurd hlen (by decide)

end Gen

end PatternGen
