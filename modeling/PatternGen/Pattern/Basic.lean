import PatternGen.Pattern.CharClass
import PatternGen.Text.Basic

namespace PatternGen

open Text

structure Repetition where
  min : UInt32
  /-- None if there is no bound. -/
  max : Option UInt32
  deriving DecidableEq, Repr

namespace Repetition

def once : Repetition := ⟨1, some 1⟩

def zeroOrMore : Repetition := ⟨0, none⟩

def oneOrMore : Repetition := ⟨1, none⟩

def exactly (n : UInt32) : Repetition := ⟨n, some n⟩

def atLeast (n : UInt32) : Repetition := ⟨n, none⟩

def between (min max : UInt32) : Repetition := ⟨min, some max⟩

instance : Inhabited Repetition := ⟨once⟩

def isUnbounded (r : Repetition) : Bool := r.max.isNone

def isRepeating (r : Repetition) : Bool := r.max.all (1 < ·)

/-- Some number of rounds lies within the bounds. -/
def isValid (r : Repetition) : Bool := r.max.all (r.min ≤ ·)

def printCount (n : UInt32) : List Char := decimal n.toNat

/-- The shortest spelling: none for one round, a sign where there is one, else bounds in braces. -/
def print : Repetition → List Char
  | ⟨min, none⟩ =>
    if min = 0 then ['*'] else if min = 1 then ['+'] else '\x7b' :: printCount min ++ [',', '\x7d']
  | ⟨min, some max⟩ =>
    if min = 1 ∧ max = 1 then []
    else if min = max then '\x7b' :: printCount min ++ ['\x7d']
    else '\x7b' :: printCount min ++ ',' :: printCount max ++ ['\x7d']

end Repetition

inductive Term where
  | charClass (k : CharClass)
  | literal (text : String)
  | group (branches : List (List (Term × Repetition)))

abbrev Piece := Term × Repetition

abbrev Branch := List Piece

abbrev Pattern := List Branch

namespace Pattern

mutual

def printTerm : Term → List Char
  | .charClass k => k.print
  | .literal text => text.toList
  | .group branches => '(' :: printBranches branches ++ [')']

def printPiece : Term × Repetition → List Char
  | (t, r) => printTerm t ++ r.print

def printBranch : List (Term × Repetition) → List Char
  | [] => []
  | p :: ps => printPiece p ++ printBranch ps

def printBranches : List (List (Term × Repetition)) → List Char
  | [] => []
  | b :: bs => printBranch b ++ printRest bs

def printRest : List (List (Term × Repetition)) → List Char
  | [] => []
  | b :: bs => '|' :: printBranch b ++ printRest bs

end

def print (p : Pattern) : List Char := printBranches p

def toText (p : Pattern) : String := String.ofList p.print

mutual

def sameTerm : Term → Term → Bool
  | .charClass k, .charClass l => k.same l
  | .literal s, .literal t => s == t
  | .group p, .group q => sameBranches p q
  | _, _ => false

def samePiece : Term × Repetition → Term × Repetition → Bool
  | (t, r), (u, s) => sameTerm t u && r == s

def sameBranch : List (Term × Repetition) → List (Term × Repetition) → Bool
  | [], [] => true
  | p :: ps, q :: qs => samePiece p q && sameBranch ps qs
  | _, _ => false

def sameBranches : List (List (Term × Repetition)) → List (List (Term × Repetition)) → Bool
  | [], [] => true
  | b :: bs, c :: cs => sameBranch b c && sameBranches bs cs
  | _, _ => false

end

/-- The patterns differ at most in the order of the items in their classes. -/
def same (p q : Pattern) : Bool := sameBranches p q

end Pattern

end PatternGen
