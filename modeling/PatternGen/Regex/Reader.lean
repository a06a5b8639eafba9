import PatternGen.Parser.Peg
import PatternGen.Regex.Basic

namespace PatternGen.Regex

open Text Peg

/-- The characters that do not stand for themselves. -/
def isSpecial (c : Char) : Bool := "\\.+*?()|[\x7b^$".toList.contains c

inductive Atom where
  | char (c : Char)
  | set (s : CharSet)
  | check (a : Assertion)

/-- What a character stands for after a backslash. -/
def meaning? : Char → Option Atom
  | 'a' => some (.char '\x07')
  | 'f' => some (.char '\x0c')
  | 'n' => some (.char '\n')
  | 'r' => some (.char '\r')
  | 't' => some (.char '\t')
  | 'v' => some (.char '\x0b')
  | 'd' => some (.set .digit)
  | 's' => some (.set .blank)
  | 'w' => some (.set .word)
  | 'D' => some (.set CharSet.digit.complement)
  | 'S' => some (.set CharSet.blank.complement)
  | 'W' => some (.set CharSet.word.complement)
  | 'A' => some (.check .startOfText)
  | 'z' => some (.check .endOfText)
  | 'b' => some (.check .wordBoundary)
  | 'B' => some (.check .noWordBoundary)
  | '<' => some (.check .startOfWord)
  | '>' => some (.check .endOfWord)
  | c => if c.toNat < 0x80 && !c.isAlphanum then some (.char c) else none

def isHexDigit (c : Char) : Bool := c.isDigit || 'a' ≤ c && c ≤ 'f' || 'A' ≤ c && c ≤ 'F'

def hexDigit (c : Char) : Nat :=
  if c.isDigit then c.toNat - '0'.toNat else c.toLower.toNat - 'a'.toNat + 10

/-- The character whose code point has the given hexadecimal digits. -/
def codePoint? (digits : List Char) : Option Char :=
  let n := digits.foldl (fun n c => 16 * n + hexDigit c) 0
  if n.isValidChar then some (Char.ofNat n) else none

/-- What `body` reads between braces. -/
def braced (body : Peg Γ α) : Peg Γ α :=
  ((char '\x7b').ignoreThen body).thenIgnore (char '\x7d')

def hexadecimal : Peg Γ Char :=
  let exactly (n : Nat) : Peg Γ (List Char) := token "hexadecimal digits" fun cs =>
    if n ≤ cs.length ∧ (cs.take n).all isHexDigit then some (cs.take n, n) else none
  let digits (letter : Char) (n : Nat) : Peg Γ (List Char) :=
    (char letter).ignoreThen ((braced (run "hexadecimal digits" isHexDigit)).orElse (exactly n))
  (oneOf [digits 'x' 2, digits 'u' 4, digits 'U' 8]).bind fun ds =>
    (codePoint? ds).elim fail success

def category : Peg Γ CharSet :=
  let name := (braced (run "the name of a category" (· != '\x7d'))).orElse
    (anyChar.map fun c => [c])
  (((char 'p').map fun _ => id).orElse ((char 'P').map fun _ => CharSet.complement)).bind fun f =>
    name.bind fun cs => (CharSet.ofCategoryName? cs).elim fail fun s => success (f s)

def wordPlace : Peg Γ Assertion :=
  (char 'b').ignoreThen <| braced <| oneOf [
    (literal "start-half").map fun _ => .noWordBefore,
    (literal "end-half").map fun _ => .noWordAfter,
    (literal "start").map fun _ => .startOfWord,
    (literal "end").map fun _ => .endOfWord]

def escaped : Peg Γ Atom :=
  (char '\\').ignoreThen <| oneOf [hexadecimal.map .char, category.map .set, wordPlace.map .check,
    anyChar.bind fun c => (meaning? c).elim fail success]

structure ClassPart where
  set : CharSet
  depth : Nat

namespace ClassPart

def ofItems : List ClassPart → ClassPart
  | [] => ⟨.none, 0⟩
  | [p] => p
  | ps => ⟨.unionAll (ps.map (·.set)), (ps.map (·.depth)).foldl max 0 + 1⟩

def operate (f : CharSet → CharSet → CharSet) (p q : ClassPart) : ClassPart :=
  ⟨f p.set q.set, max p.depth q.depth + 1⟩

def bracketed (complemented : Bool) (p : ClassPart) : ClassPart :=
  ⟨if complemented then p.set.complement else p.set, p.depth + 1⟩

end ClassPart

/-- An operator between parts of a class. -/
def classOperator : Peg Γ (CharSet → CharSet → CharSet) :=
  oneOf [(literal "&&").map fun _ => .inter, (literal "--").map fun _ => .diff,
    (literal "~~").map fun _ => .symmDiff]

/-- A character of a class that stands for itself. An operator is none. -/
def classChar : Peg Γ Char := token "a character of a class" fun
  | '&' :: '&' :: _ | '-' :: '-' :: _ | '~' :: '~' :: _ => none
  | c :: _ => if "\\[]".toList.contains c then none else some (c, 1)
  | [] => none

/-- A dash between the ends of a range: neither the last in its brackets nor part of an operator. -/
def rangeDash : Peg Γ Unit := token "a range" fun
  | '-' :: c :: _ => if c = ']' ∨ c = '-' then none else some ((), 1)
  | _ => none

def classRange : Peg Γ CharSet :=
  let last := escaped.orElse
    ((anyChar.filter "a character of a class" (· != '\\')).map Atom.char)
  (escaped.orElse (classChar.map .char)).bind fun first =>
    (rangeDash.ignoreThen last).optional.bind fun last =>
      match first, last with
      | .char c, none => success (.single c)
      | .set s, none => success s
      | .char c, some (.char d) => if c ≤ d then success (.range c d) else fail
      | _, _ => fail

def asciiClass : Peg Γ CharSet :=
  (literal "[:").ignoreThen <| (char '^').optional.bind fun caret =>
    ((run "the name of a class" Char.isAlpha).thenIgnore (literal ":]")).bind fun name =>
      (CharSet.asciiClasses.lookup (String.ofList name)).elim fail fun s =>
        success (if caret.isSome then s.complement else s)

/-- A class in brackets, with classes inside. Dashes stand for themselves at its beginning, and so
does a closing bracket without dashes before it. -/
def charClass : Peg Γ ClassPart :=
  let plain (s : CharSet) : ClassPart := ⟨s, 0⟩
  let leading : Peg _ (List Char) := (char '-').many.bind fun dashes =>
    if dashes.isEmpty then (char ']').optional.map Option.toList else success dashes
  let items : Peg _ (List ClassPart) :=
    (oneOf [asciiClass.map plain, ref .innermost, classRange.map plain]).many
  let more : Peg _ (List ((CharSet → CharSet → CharSet) × ClassPart)) :=
    (classOperator.zip (items.map .ofItems)).many
  recursive <| ((char '[').ignoreThen (char '^').optional).bind fun caret =>
    leading.bind fun cs => items.bind fun ps =>
      (more.thenIgnore (char ']')).map fun qs =>
        let first := ClassPart.ofItems (cs.map (fun c => plain (.single c)) ++ ps)
        (qs.foldl (fun p (f, q) => p.operate f q) first).bracketed caret.isSome

/-- A number below 2^32, with blanks around it. -/
def count : Peg Γ UInt32 :=
  let blanks : Peg Γ (List Char) := token "blanks" fun cs =>
    let s := cs.takeWhile CharSet.blank.contains
    some (s, s.length)
  (blanks.ignoreThen integer).thenIgnore blanks

/-- The bounds of a repetition in braces. -/
def bounds : Peg Γ (Nat × Option Nat) :=
  ((char '\x7b').ignoreThen count).bind fun min =>
    oneOf [
      (char '\x7d').map fun _ => (min.toNat, some min.toNat),
      (literal ",\x7d").map fun _ => (min.toNat, none),
      (((char ',').ignoreThen count).thenIgnore (char '\x7d')).bind fun max =>
        if min ≤ max then success (min.toNat, some max.toNat) else fail]

/-- A sign of repetition; a question mark after it prefers fewer rounds. -/
def repetition : Peg Γ (Written → Written) :=
  (oneOf [(char '*').map fun _ => (0, none), (char '+').map fun _ => (1, none),
    (char '?').map fun _ => (0, some 1), bounds]).bind fun (min, max) =>
      (char '?').optional.map fun lazy r => .repeated r min max lazy.isNone

def Atom.written : Atom → Written
  | char c => .literal c
  | set s => .charIn s 0
  | check a => .check a

/-- What a sign of repetition applies to; `inner` reads between parentheses. -/
def operand (inner : Peg Γ Written) : Peg Γ Written :=
  oneOf [
    ((literal "(?:").ignoreThen (inner.map (.enclosed false))).thenIgnore (char ')'),
    ((char '(').ignoreThen (inner.map (.enclosed true))).thenIgnore (char ')'),
    charClass.map fun p => .charIn p.set p.depth,
    (char '.').map fun _ => .charIn .withinLine 0,
    (char '^').map fun _ => .check .startOfText,
    (char '$').map fun _ => .check .endOfText,
    escaped.map Atom.written,
    (anyChar.filter "a plain character" fun c => !isSpecial c).map .literal]

def expression : Peg Γ Written :=
  let piece := (operand (ref .innermost)).bind fun r =>
    repetition.many.map fun signs => signs.foldl (fun r sign => sign r) r
  recursive (((piece.many.map .ofList).separatedBy (char '|')).map .ofAlternatives)

def read? (text : List Char) : Option Written :=
  match (expression.thenIgnore endOfInput).parser.parse text with
  | .done r _ _ => some r
  | _ => none

end PatternGen.Regex
