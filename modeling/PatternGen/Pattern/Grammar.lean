import PatternGen.Parser.Failure
import PatternGen.Parser.Peg
import PatternGen.Pattern.Basic
import PatternGen.Text.Basic
import PatternGen.Text.Quoted

namespace PatternGen

open Text

structure PatternError where
  pattern : String
  /-- In bytes from the beginning of the pattern. -/
  offset : Nat
  position : Position
  expected : List String
  deriving DecidableEq

namespace PatternError

def ofFailure (pattern : String) (f : Failure) : PatternError :=
  ⟨pattern, f.offset, .ofOffset pattern.toList f.offset, f.expected.items⟩

def message (e : PatternError) : String :=
  "invalid pattern " ++ quoted e.pattern ++ " at line " ++ toString e.position.line ++
    ", column " ++ toString e.position.column ++
    if e.expected.isEmpty then "" else ": expected " ++ " or ".intercalate e.expected

end PatternError

namespace Grammar

open Peg

variable {Γ : List Type}

/-- Any character can stand in a class, except the bracket that ends it. -/
def classChar : Peg Γ Char := anyChar.except (quotedChar ']') ']'

def single : Peg Γ ClassItem := classChar.map .single

def range : Peg Γ ClassItem :=
  (((classChar.thenIgnore (char '-')).zip classChar).filter "a range in ascending order"
    fun (first, last) => first ≤ last).map fun (first, last) => .range first last

def classBody : Peg Γ CharClass :=
  ((char '^').optional.zip (range.orElse single).many).map fun (caret, items) =>
    ⟨caret.isSome, items⟩

def charClass : Peg Γ CharClass := ((char '[').ignoreThen classBody).thenIgnore (char ']')

/-- The characters that stand for themselves outside of classes. -/
def isLiteral (c : Char) : Bool := c.isAlphanum || "$@#%&_-".toList.contains c

def literal : Peg Γ String := (run "/[A-Za-z0-9$@#%&_-]+/" isLiteral).map String.ofList

/-- The digits of the bounds in braces, and the number of characters with the braces. A comma with
no digits after it leaves the upper bound open. -/
def scanBounds : List Char → Option ((List Char × Option (List Char)) × Nat)
  | '\x7b' :: cs =>
    let low := cs.takeWhile Char.isDigit
    if low.isEmpty then none
    else match cs.dropWhile Char.isDigit with
      | '\x7d' :: _ => some ((low, none), low.length + 2)
      | ',' :: cs =>
        let high := cs.takeWhile Char.isDigit
        match cs.dropWhile Char.isDigit with
        | '\x7d' :: _ => some ((low, some high), low.length + high.length + 3)
        | _ => none
      | _ => none
  | _ => none

/-- The repetition that bounds in braces stand for; none if a number has more than 32 bits. -/
def repetitionOf? : List Char × Option (List Char) → Option Repetition
  | (low, none) => (count? low).map .exactly
  | (low, some []) => (count? low).map .atLeast
  | (low, some high) =>
    (count? low).bind fun min => (count? high).map fun max => .between min max

def boundedRepetition : Peg Γ Repetition :=
  (token "/\\\x7b([0-9]+)(,([0-9]+)?)?\\\x7d/" scanBounds).bind fun digits =>
    match repetitionOf? digits with
    | some r => if r.isValid then success r else fail
    | none => fail

def repetition : Peg Γ Repetition :=
  oneOf [boundedRepetition, (char '*').map fun _ => .zeroOrMore, (char '+').map fun _ => .oneOrMore,
    success .once]

def group (inner : Peg Γ Pattern) : Peg Γ Pattern :=
  ((char '(').ignoreThen inner).thenIgnore (char ')')

def term (inner : Peg Γ Pattern) : Peg Γ Term :=
  oneOf [charClass.map .charClass, literal.map .literal, (group inner).map .group]

def piece (inner : Peg Γ Pattern) : Peg Γ Piece := (term inner).zip repetition

def branch (inner : Peg Γ Pattern) : Peg Γ Branch := (piece inner).atLeastOne

def alternatives : Peg Γ Pattern :=
  recursive ((branch (ref .innermost)).separatedBy (char '|'))

end Grammar

def readWhole (p : Peg [] α) (text : String) : Except PatternError α :=
  match (p.thenIgnore .endOfInput).parser.parse text.toList with
  | .done a _ _ => .ok a
  | .failed f => .error (.ofFailure text f)
  | .stuck _ => .error (.ofFailure text (.unexplained 0))

def Pattern.parse (text : String) : Except PatternError Pattern :=
  readWhole Grammar.alternatives text

/-- The class that a text stands for between brackets. -/
def CharClass.parseBody (text : String) : Except PatternError CharClass :=
  readWhole Grammar.classBody text

end PatternGen
