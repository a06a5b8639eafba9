import PatternGen.Gen.Basic
import PatternGen.Gen.Options

namespace PatternGen

inductive CharPool.Part where
  /-- What a class lists, whether it is negated or not. -/
  | listed (k : CharClass)
  | chars (cs : List Char)
  deriving DecidableEq, Repr

/-- Characters to draw from. One that is in a pool more than once is drawn more often. -/
structure CharPool where
  parts : List CharPool.Part
  deriving DecidableEq, Repr

namespace CharPool

def Part.count : Part → Nat
  | listed k => k.count
  | chars cs => cs.length

def Part.get? : Part → Nat → Option Char
  | listed k, i => k.get? i
  | chars cs, i => cs[i]?

theorem Part.isSome_get?_iff {part : Part} {i : Nat} :
    (part.get? i).isSome ↔ i < part.count := by
  cases part with
  | listed k => exact CharClass.isSome_getItem?_iff
  | chars cs => simp [Part.get?, Part.count]

def countParts : List Part → Nat
  | [] => 0
  | part :: parts => part.count + countParts parts

/-- The indices of the first part come first. -/
def getPart? : List Part → Nat → Option Char
  | [], _ => none
  | part :: parts, i => if i < part.count then part.get? i else getPart? parts (i - part.count)

theorem isSome_getPart?_iff {parts : List Part} {i : Nat} :
    (getPart? parts i).isSome ↔ i < countParts parts := by
  induction parts generalizing i with
  | nil => simp [getPart?, countParts]
  | cons part parts ih =>
    rw [getPart?, countParts]
    split
    · next h => exact ⟨fun _ => by omega, fun _ => Part.isSome_get?_iff.2 h⟩
    · next h => rw [ih]; omega

def count (p : CharPool) : Nat := countParts p.parts

def get? (p : CharPool) (i : Nat) : Option Char := getPart? p.parts i

def get (p : CharPool) (i : Fin p.count) : Char := (p.get? i).get (isSome_getPart?_iff.2 i.isLt)

/-- The characters of an alphabet that a class does not list. -/
def unlisted (k alphabet : CharClass) : List Char :=
  ((List.range alphabet.count).filterMap alphabet.get?).filter fun c => !k.contains c

/-- What a class generates, where it may still be that it lists nothing. -/
def partOf (k : CharClass) (negation : Negation) : Except CompileError Part :=
  if k.negated then
    match negation with
    | .ignore => .ok (.listed k)
    | .reject => .error (.negatedClass (toString k))
    | .complement alphabet =>
      if (unlisted k alphabet).isEmpty then
        .error (.emptyComplement (toString k) (toString alphabet))
      else .ok (.chars (unlisted k alphabet))
  else .ok (.listed k)

def ofClass (k : CharClass) (negation : Negation) : Except CompileError CharPool :=
  (partOf k negation).bind fun part =>
    if part.count = 0 then .error (.emptyClass (toString k)) else .ok ⟨[part]⟩

def union (pools : List CharPool) : CharPool := ⟨pools.flatMap parts⟩

def generator (p : CharPool) : Except CompileError (Gen Char) :=
  if p.count = 0 then .error (.emptyClass "") else .ok ((Gen.choose .word64 p.count).map p.get)

end CharPool

end PatternGen
