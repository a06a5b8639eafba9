import PatternGen.Pattern.Basic
import PatternGen.Pattern.CharClass
import PatternGen.Pattern.Grammar

namespace PatternGen

/-- Why a pattern has no generator. Classes are given as they are printed. -/
inductive CompileError where
  | noAlternatives
  | emptyClass (charClass : String)
  | emptyComplement (charClass alphabet : String)
  | negatedClass (charClass : String)
  | invalidRepetition (min max : UInt32)
  | capBelowMinimum (min cap : UInt32)
  | limitExceeded (max limit : UInt32)
  deriving DecidableEq, Repr

def CompileError.message : CompileError → String
  | noAlternatives => "pattern has no alternatives"
  | emptyClass k => "character class " ++ k ++ " contains no characters"
  | emptyComplement k alphabet =>
    "negated character class " ++ k ++ " excludes the whole alphabet " ++ alphabet
  | negatedClass k => "negated character class " ++ k ++ " is not supported"
  | invalidRepetition min max =>
    "multiplicity \x7b" ++ toString min.toNat ++ "," ++ toString max.toNat ++
      "\x7d has its maximum below its minimum"
  | capBelowMinimum min cap =>
    "repetition cap " ++ toString cap.toNat ++ " is below the minimum repetition count " ++
      toString min.toNat
  | limitExceeded max limit =>
    "repetition count " ++ toString max.toNat ++ " exceeds the limit of " ++ toString limit.toNat

inductive GenError where
  | pattern (e : PatternError)
  | compile (e : CompileError)
  | shortPassword (length classes : Nat)
  | emptyChoice
  /-- The bounds as they are shown. -/
  | emptyRange (min max : String)
  deriving DecidableEq

def GenError.message : GenError → String
  | pattern e => e.message
  | compile e => e.message
  | shortPassword length classes =>
    "password length " ++ toString length ++ " is less than the number of character classes (" ++
      toString classes ++ ")"
  | emptyChoice => "cannot choose from an empty list"
  | emptyRange min max => "empty range [" ++ min ++ ", " ++ max ++ ")"

/-- What a negated class generates. -/
inductive Negation where
  /-- The characters that the alphabet lists and the class does not. -/
  | complement (alphabet : CharClass)
  /-- Nothing; it is refused. -/
  | reject
  /-- The characters it lists, as if it were not negated. -/
  | ignore
  deriving DecidableEq, Repr

def printableAscii : CharClass := ⟨false, [.range ' ' '~']⟩

instance : Inhabited Negation := ⟨.complement printableAscii⟩

structure Options where
  /-- The greatest number of rounds where a pattern gives no bound. -/
  repeatCap : UInt32 := 20
  /-- The greatest number of rounds that is allowed at all. -/
  repeatLimit : UInt32 := 10000
  negation : Negation := default
  deriving DecidableEq, Repr

instance : Inhabited Options := ⟨{}⟩

namespace Options

/-- The number of rounds, unless it exceeds the limit. -/
def withinLimit (o : Options) (max : UInt32) : Except CompileError UInt32 :=
  if o.repeatLimit < max then .error (.limitExceeded max o.repeatLimit) else .ok max

def maxRounds (o : Options) (r : Repetition) : Except CompileError UInt32 :=
  match r.max with
  | some max =>
    if max < r.min then .error (.invalidRepetition r.min max) else o.withinLimit max
  | none =>
    if o.repeatCap < r.min then .error (.capBelowMinimum r.min o.repeatCap)
    else o.withinLimit o.repeatCap

end Options

end PatternGen
