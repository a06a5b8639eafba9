import PatternGen.Regex.CharSet

namespace PatternGen

namespace Regex

inductive Assertion where
  | startOfText
  | endOfText
  | wordBoundary
  | noWordBoundary
  | startOfWord
  | endOfWord
  /-- No word character stands before the place. -/
  | noWordBefore
  /-- No word character stands after the place. -/
  | noWordAfter
  deriving DecidableEq

/-- Whether an assertion holds between two characters, each none at an end of the text. -/
def Assertion.holds (a : Assertion) (before after : Option Char) : Bool :=
  let isWord (c : Option Char) : Bool := c.any CharSet.word.contains
  match a with
  | startOfText => before.isNone
  | endOfText => after.isNone
  | wordBoundary => isWord before != isWord after
  | noWordBoundary => isWord before == isWord after
  | startOfWord => !isWord before && isWord after
  | endOfWord => isWord before && !isWord after
  | noWordBefore => !isWord before
  | noWordAfter => !isWord after

end Regex

/-- Branches and factors lean to the right. -/
inductive Regex where
  | empty
  | text (cs : List Char)
  | charIn (set : Regex.CharSet)
  | check (a : Regex.Assertion)
  | append (r s : Regex)
  | orElse (r s : Regex)
  | group (index : Nat) (r : Regex)
  /-- At least `min` rounds, and at most `max` if it is given. -/
  | repeated (r : Regex) (min : Nat) (max : Option Nat) (greedy : Bool)
  deriving DecidableEq

namespace Regex

/-- The length of the shortest text that an expression can match. None if a part of it matches
nothing at all. -/
def minLength? : Regex → Option Nat
  | empty | check _ => some 0
  | text cs => some cs.length
  | charIn set => if set = .none then none else some 1
  | append r s => do return (← r.minLength?) + (← s.minLength?)
  | orElse r s => do return min (← r.minLength?) (← s.minLength?)
  | group _ r => r.minLength?
  | repeated r min _ _ => r.minLength?.map (min * ·)

/-- The length of the longest text that an expression can match. None if there is no longest one,
or if a part of the expression matches nothing at all. -/
def maxLength? : Regex → Option Nat
  | empty | check _ => some 0
  | text cs => some cs.length
  | charIn set => if set = .none then none else some 1
  | append r s => do return (← r.maxLength?) + (← s.maxLength?)
  | orElse r s => do return max (← r.maxLength?) (← s.maxLength?)
  | group _ r => r.maxLength?
  | repeated r _ max _ => do return (← max) * (← r.maxLength?)

/-- Whether nothing shows that every match of an expression takes a character. -/
def mayBeEmpty (r : Regex) : Bool := r.minLength?.getD 0 = 0

def factors : Regex → List Regex
  | empty => []
  | append r s => r :: s.factors
  | r => [r]

def ofFactors : List Regex → Regex
  | [] => empty
  | [r] => r
  | r :: rs => append r (ofFactors rs)

/-- Two sequences as one, where texts that meet are joined. -/
def joinFactors : List Regex → List Regex → List Regex
  | [], ss => ss
  | [text cs], text ds :: ss => text (cs ++ ds) :: ss
  | r :: rs, ss => r :: joinFactors rs ss

def followedBy (r s : Regex) : Regex := ofFactors (joinFactors r.factors s.factors)

def branches : Regex → List Regex
  | orElse r s => r :: s.branches
  | r => [r]

def ofBranches : List Regex → Regex
  | [] => charIn .none
  | [r] => r
  | r :: rs => orElse r (ofBranches rs)

/-- A set of one character is a text. -/
def chars (set : CharSet) : Regex := set.only?.elim (charIn set) fun c => text [c]

def onlyChar? : Regex → Option Char
  | text [c] => some c
  | _ => none

def set? : Regex → Option CharSet
  | charIn set => some set
  | _ => none

/-- The one set that branches amount to if all are single characters, or all are sets. -/
def charBranches? (rs : List Regex) : Option CharSet :=
  ((rs.mapM onlyChar?).map fun cs => CharSet.unionAll (cs.map .single)).or
    ((rs.mapM set?).map CharSet.unionAll)

/-- A choice in which characters are brought together. -/
def choice (rs : List Regex) : Regex :=
  let rs := rs.flatMap branches
  if rs.length = 1 then ofBranches rs else (charBranches? rs).elim (ofBranches rs) chars

def commonPrefix : List Regex → List Regex → List Regex
  | r :: rs, s :: ss => if r = s then r :: commonPrefix rs ss else []
  | _, _ => []

/-- The factors that all of several sequences begin with; none if one is no sequence. -/
def sharedFactors (rs : List Regex) : List Regex :=
  let sequences := rs.map factors
  if sequences.all (2 ≤ ·.length) then
    match sequences with
    | [] => []
    | fs :: rest => rest.foldl commonPrefix fs
  else []

/-- A choice in which the factors that all branches share come first. -/
def alternatives (rs : List Regex) : Regex :=
  let rs := rs.flatMap branches
  let shared := sharedFactors rs
  if rs.length = 1 ∨ shared = [] then choice rs
  else
    (ofFactors shared).followedBy <|
      choice (rs.map fun r => ofFactors (r.factors.drop shared.length))

/-- Rounds of an expression, where those that can match nothing but the empty text are one at most.
One round is no repetition. -/
def rounds (r : Regex) (lo : Nat) (hi : Option Nat) (greedy : Bool) : Regex :=
  let idle := r.maxLength? = some 0
  let lo := if idle then min lo 1 else lo
  let hi := if idle then some (min (hi.getD 1) 1) else hi
  if lo = 0 ∧ hi = some 0 then empty
  else if lo = 1 ∧ hi = some 1 then r
  else repeated r lo hi greedy

/-- Whether every match begins where the text does. -/
def isAnchored : Regex → Bool
  | check a => a = .startOfText
  | append r s => r.isAnchored || r.maxLength? = some 0 && s.isAnchored
  | orElse r s => r.isAnchored && s.isAnchored
  | group _ r => r.isAnchored
  | repeated r min _ _ => min != 0 && r.isAnchored
  | _ => false

end Regex

end PatternGen

namespace PatternGen.Regex

/-- Sequences and alternatives lean to the right. -/
inductive Written where
  | empty
  | literal (c : Char)
  /-- The depth is that of the brackets and operators which the set is written with. -/
  | charIn (set : CharSet) (depth : Nat)
  | check (a : Assertion)
  | append (r s : Written)
  | orElse (r s : Written)
  /-- Parentheses; those that capture what they match are a group. -/
  | enclosed (captures : Bool) (r : Written)
  | repeated (r : Written) (min : Nat) (max : Option Nat) (greedy : Bool)

namespace Written

def ofList : List Written → Written
  | [] => empty
  | [r] => r
  | r :: rs => append r (ofList rs)

def ofAlternatives : List Written → Written
  | [] => empty
  | [r] => r
  | r :: rs => orElse r (ofAlternatives rs)

inductive Items where
  | sequence
  | alternatives
  deriving DecidableEq

/-- The number of constructs around the innermost one, itself included, in an expression that goes
on with `within` if that is given. Literals, assertions and names of sets are no constructs. -/
def depthWithin : Option Items → Written → Nat
  | _, empty | _, literal _ | _, check _ => 0
  | _, charIn _ depth => depth
  | within, append r s =>
    max (depthWithin none r) (depthWithin (some .sequence) s) +
      if within = some .sequence then 0 else 1
  | within, orElse r s =>
    max (depthWithin none r) (depthWithin (some .alternatives) s) +
      if within = some .alternatives then 0 else 1
  | _, enclosed _ r | _, repeated r _ _ _ => depthWithin none r + 1

def depth : Written → Nat := depthWithin none

def groups : Written → Nat
  | empty | literal _ | charIn _ _ | check _ => 0
  | append r s | orElse r s => r.groups + s.groups
  | enclosed captures r => r.groups + if captures then 1 else 0
  | repeated r _ _ _ => r.groups

/-- The plain forms of the branches, where `before` groups begin before the expression. Groups are
numbered from one, in the order in which they begin. -/
def plainBranches (before : Nat) : Written → List Regex
  | empty => [.empty]
  | literal c => [.text [c]]
  | charIn set _ => [chars set]
  | check a => [.check a]
  | append r s =>
    [(alternatives (r.plainBranches before)).followedBy
      (alternatives (s.plainBranches (before + r.groups)))]
  | orElse r s =>
    alternatives (r.plainBranches before) :: s.plainBranches (before + r.groups)
  | enclosed true r => [.group (before + 1) (alternatives (r.plainBranches (before + 1)))]
  | enclosed false r => [alternatives (r.plainBranches before)]
  | repeated r min max greedy =>
    [rounds (alternatives (r.plainBranches before)) min max greedy]

def plain (r : Written) : Regex := alternatives (r.plainBranches 0)

end Written

end PatternGen.Regex
