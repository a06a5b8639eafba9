import Mathlib.Computability.Language
import PatternGen.Gen.Options
import PatternGen.Pattern.Basic

namespace PatternGen

/-- The class can stand for the character. -/
def Negation.Allows (n : Negation) (k : CharClass) (c : Char) : Prop :=
  match k.negated, n with
  | false, _ => k.contains c
  | true, .complement alphabet => alphabet.contains c ∧ ¬ k.contains c
  | true, .reject => False
  | true, .ignore => k.contains c

/-- The greatest number of rounds, where `cap` stands in for a missing bound. -/
def Repetition.last (cap : UInt32) (r : Repetition) : Nat := (r.max.getD cap).toNat

namespace Pattern

mutual

def termLanguage (o : Options) : Term → Language Char
  | .charClass k => {w | ∃ c, o.negation.Allows k c ∧ w = [c]}
  | .literal text => {text.toList}
  | .group branches => branchesLanguage o branches

def pieceLanguage (o : Options) : Term × Repetition → Language Char
  | (t, r) => {w | ∃ n, r.min.toNat ≤ n ∧ n ≤ r.last o.repeatCap ∧ w ∈ termLanguage o t ^ n}

def branchLanguage (o : Options) : List (Term × Repetition) → Language Char
  | [] => 1
  | p :: ps => pieceLanguage o p * branchLanguage o ps

def branchesLanguage (o : Options) : List (List (Term × Repetition)) → Language Char
  | [] => 0
  | b :: bs => branchLanguage o b + branchesLanguage o bs

end

def language (o : Options) (p : Pattern) : Language Char := branchesLanguage o p

theorem mem_charClass_pow_iff {o : Options} {k : CharClass} {n : Nat} {w : List Char} :
    w ∈ termLanguage o (.charClass k) ^ n ↔ w.length = n ∧ ∀ c ∈ w, o.negation.Allows k c := by
  induction n generalizing w with
  | zero =>
    rw [pow_zero, Language.mem_one, List.length_eq_zero_iff]
    constructor
    · rintro rfl
      exact ⟨rfl, List.forall_mem_nil _⟩
    · exact And.left
  | succ n ih =>
    rw [pow_succ', Language.mem_mul]
    constructor
    · intro h
      obtain ⟨u, hu, v, hv, rfl⟩ := h
      rw [termLanguage] at hu
      obtain ⟨c, hc, rfl⟩ := hu
      obtain ⟨hlength, hall⟩ := ih.1 hv
      exact ⟨congrArg (· + 1) hlength, List.forall_mem_cons.2 ⟨hc, hall⟩⟩
    · intro h
      obtain ⟨hlength, hall⟩ := h
      obtain ⟨c, v, rfl⟩ := List.exists_cons_of_length_eq_add_one hlength
      obtain ⟨hc, hall⟩ := List.forall_mem_cons.1 hall
      refine ⟨[c], ?_, v, ih.2 ⟨Nat.succ.inj hlength, hall⟩, rfl⟩
      rw [termLanguage]
      exact ⟨c, hc, rfl⟩

/-- The words of a repeated class: no order or choice of its members is left out. -/
theorem mem_pieceLanguage_charClass_iff {o : Options} {k : CharClass} {r : Repetition}
    {w : List Char} :
    w ∈ pieceLanguage o (.charClass k, r) ↔
      r.min.toNat ≤ w.length ∧ w.length ≤ r.last o.repeatCap ∧
        ∀ c ∈ w, o.negation.Allows k c := by
  rw [pieceLanguage]
  constructor
  · intro h
    obtain ⟨n, hmin, hlast, hw⟩ := h
    obtain ⟨rfl, hall⟩ := mem_charClass_pow_iff.1 hw
    exact ⟨hmin, hlast, hall⟩
  · intro h
    obtain ⟨hmin, hlast, hall⟩ := h
    exact ⟨w.length, hmin, hlast, mem_charClass_pow_iff.2 ⟨rfl, hall⟩⟩

end Pattern

end PatternGen
