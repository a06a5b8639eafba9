import PatternGen.Gen.CharPool
import PatternGen.Gen.Range
import PatternGen.Pattern.Grammar

namespace PatternGen

namespace Pattern

def chooseBranch (branches : List (Gen (List Char))) : Except CompileError (Gen (List Char)) :=
  if branches.isEmpty then .error .noAlternatives
  else .ok ((Gen.choose .word64 branches.length).bind branches.get)

mutual

def compileTerm (o : Options) : Term → Except CompileError (Gen (List Char))
  | .charClass k =>
    (CharPool.ofClass k o.negation).bind fun pool => pool.generator.map (·.map fun c => [c])
  | .literal text => .ok (.constant text.toList)
  | .group branches => (compileBranches o branches).bind chooseBranch

def compilePiece (o : Options) : Term × Repetition → Except CompileError (Gen (List Char))
  | (t, r) => (o.maxRounds r).bind fun max => (compileTerm o t).map fun g =>
    (g.sequenceIn r.min.toNat (max.toNat + 1)).map List.flatten

def compilePieces (o : Options) :
    List (Term × Repetition) → Except CompileError (List (Gen (List Char)))
  | [] => .ok []
  | p :: ps => (compilePiece o p).bind fun g => (compilePieces o ps).map (g :: ·)

def compileBranches (o : Options) :
    List (List (Term × Repetition)) → Except CompileError (List (Gen (List Char)))
  | [] => .ok []
  | b :: bs => (compilePieces o b).bind fun gs =>
    (compileBranches o bs).map ((Gen.pivot gs).map List.flatten :: ·)

end

def compile (o : Options) (p : Pattern) : Except CompileError (Gen (List Char)) :=
  (compileBranches o p).bind chooseBranch

def generator (p : Pattern) (o : Options := {}) : Except CompileError (Gen String) :=
  (p.compile o).map (·.map String.ofList)

end Pattern

namespace Gen

def ofPattern (text : String) (o : Options := {}) : Except GenError (Gen String) :=
  ((Pattern.parse text).mapError .pattern).bind fun p => (p.generator o).mapError .compile

/-- The pool of a class that is given by the inside of its brackets. -/
def poolOf (text : String) : Except GenError CharPool :=
  ((CharClass.parseBody text).mapError .pattern).bind fun k =>
    (CharPool.ofClass k default).mapError .compile

/-- A character of a class that is given by the inside of its brackets. -/
def character (text : String) : Except GenError (Gen Char) :=
  (poolOf text).bind fun pool => pool.generator.mapError .compile

end Gen

end PatternGen

namespace PatternGen.Gen

/-- Texts of the given length. Each class, given by the inside of its brackets, has a position of
its own, and the other positions draw from all classes together. -/
def password (length : Nat) (classes : List String) : Except GenError (Gen String) := do
  if length < classes.length then throw (.shortPassword length classes.length)
  let pools ← classes.mapM poolOf
  let required ← pools.mapM fun pool => pool.generator.mapError .compile
  let free ←
    if classes.length < length then
      let any ← (CharPool.union pools).generator.mapError .compile
      pure (List.replicate (length - classes.length) any)
    else pure []
  return ((shuffle (required ++ free)).bind pivot).map String.ofList

end PatternGen.Gen
