import PatternGen.Parser.Failure
import PatternGen.Text.Basic

namespace PatternGen

open Text

structure Cursor where
  /-- In bytes from the beginning of the text. -/
  offset : Nat
  /-- The text from the offset on; none if the offset splits a character. -/
  rest? : Option (List Char)
  deriving DecidableEq

namespace Cursor

/-- The place of a byte offset of a text. -/
def ofOffset (text : List Char) (offset : Nat) : Cursor := ⟨offset, dropBytes offset text⟩

def start (text : List Char) : Cursor := ⟨0, some text⟩

def size (c : Cursor) : Nat := (c.rest?.getD []).length

def advance (c : Cursor) (n : Nat) : Cursor :=
  match c.rest? with
  | none => c
  | some rest => ⟨c.offset + byteSize (rest.take n), some (rest.drop n)⟩

theorem ofOffset_zero (text : List Char) : ofOffset text 0 = start text := by
  simp [ofOffset, start]

end Cursor

/-- Why a parser has no answer. -/
inductive Fault where
  /-- A character was to be read from its middle. -/
  | splitCharacter
  /-- A round of a loop or of a recursion reads nothing, so it would go on forever. -/
  | endless
  deriving DecidableEq, Repr

inductive Outcome (α : Type) where
  | done (value : α) (next : Cursor) (furthest : Option Failure)
  | failed (failure : Failure)
  | stuck (fault : Fault)

namespace Outcome

/-- The outcome of a step before which the failure `earlier` was swept aside. -/
def recalling (earlier : Option Failure) : Outcome α → Outcome α
  | done a next furthest => done a next (Failure.furthest earlier furthest)
  | failed f => failed (earlier.elim f (·.merge f))
  | stuck fault => stuck fault

@[simp] theorem recalling_none (o : Outcome α) : o.recalling none = o := by
  cases o <;> simp [recalling]

theorem recalling_recalling (d e : Option Failure) (o : Outcome α) :
    (o.recalling e).recalling d = o.recalling (Failure.furthest d e) := by
  cases o with
  | done => simp [recalling, Failure.furthest_assoc]
  | failed => cases d <;> cases e <;> simp [recalling, Failure.merge_assoc]
  | stuck => rfl

end Outcome

abbrev Parser (α : Type) := Cursor → Outcome α

namespace Parser

def parseAt (p : Parser α) (text : List Char) (offset : Nat) : Outcome α :=
  p (.ofOffset text offset)

def parse (p : Parser α) (text : List Char) : Outcome α := p.parseAt text 0

/-- Reads what `scan` accepts: it gives a value and the number of characters that belong to it. -/
def token (what : String) (scan : List Char → Option (α × Nat)) : Parser α := fun c =>
  match c.rest? with
  | none => .stuck .splitCharacter
  | some rest =>
    match scan rest with
    | none => .failed (.expecting c.offset what)
    | some (a, n) => .done a (c.advance n) none

def success (a : α) : Parser α := fun c => .done a c none

def fail : Parser α := fun c => .failed (.unexplained c.offset)

def endOfInput : Parser Unit := fun c =>
  if c.rest? = some [] then .done () c none else .failed (.expecting c.offset "end of input")

/-- One parser, then the parser that its value calls for. A failure of the second is final. -/
def bind (p : Parser α) (f : α → Parser β) : Parser β := fun c =>
  match p c with
  | .done a next furthest => (f a next).recalling furthest
  | .failed e => .failed e
  | .stuck fault => .stuck fault

/-- Ordered choice: the second parser reads from the same place if the first fails. -/
def orElse (p q : Parser α) : Parser α := fun c =>
  match p c with
  | .failed e => (q c).recalling (some e)
  | o => o

def firstOf (tried : Option Failure) : List (Parser α) → Parser α
  | [], c => .failed (tried.getD (.unexplained c.offset))
  | p :: ps, c =>
    match p c with
    | .failed e => firstOf (Failure.furthest tried (some e)) ps c
    | o => o.recalling tried

/-- Ordered choice among any number of parsers; of none, it fails. -/
def oneOf (ps : List (Parser α)) : Parser α := firstOf none ps

/-- Refuses the values that fail a test. The refusal stands at the beginning of what was read, and
the failures inside it are forgotten. -/
def filter (what : String) (keep : α → Bool) (p : Parser α) : Parser α := fun c =>
  match p c with
  | .done a next furthest =>
    if keep a then .done a next furthest else .failed (.expecting c.offset what)
  | o => o

end Parser

end PatternGen

namespace PatternGen.Parser

/-- Repeats a parser after the values read so far, the latest first. A success that reads nothing
is kept once and ends the repetition, as a failure does. -/
def collect (p : Parser α) (values : List α) (furthest : Option Failure) (c : Cursor) :
    Outcome (List α) :=
  match p c with
  | .done a next e =>
    if next.size < c.size then collect p (a :: values) (Failure.furthest furthest e) next
    else .done (a :: values).reverse next (Failure.furthest furthest e)
  | .failed e => .done values.reverse c (Failure.furthest furthest (some e))
  | .stuck fault => .stuck fault
termination_by c.size

def many (p : Parser α) : Parser (List α) := collect p [] none

def atLeastOne (p : Parser α) : Parser (List α) := fun c =>
  match p c with
  | .done a next furthest => collect p [a] furthest next
  | .failed e => .failed e
  | .stuck fault => .stuck fault

/-- Repeats a separator and a value after the values read so far, the latest first. A separator
that no value follows is given back, and so are the failures inside it. -/
def collectSeparated (p : Parser α) (separator : Parser β) (values : List α)
    (furthest : Option Failure) (c : Cursor) : Outcome (List α) :=
  match separator c with
  | .failed e => .done values.reverse c (Failure.furthest furthest (some e))
  | .stuck fault => .stuck fault
  | .done _ between aside =>
    match p between with
    | .failed e => .done values.reverse c (Failure.furthest furthest (some e))
    | .stuck fault => .stuck fault
    | .done a next e =>
      if next.size < c.size then
        collectSeparated p separator (a :: values)
          (Failure.furthest furthest (Failure.furthest aside e)) next
      else .stuck .endless
termination_by c.size

def separatedBy (p : Parser α) (separator : Parser β) : Parser (List α) := fun c =>
  match p c with
  | .done a next furthest => collectSeparated p separator [a] furthest next
  | .failed e => .failed e
  | .stuck fault => .stuck fault

/-- The parser that `define` gives when it is given that same parser. It can be called again only
after something was read. -/
def recursive (define : Parser α → Parser α) (c : Cursor) : Outcome α :=
  define (fun d => if d.size < c.size then recursive define d else .stuck .endless) c
termination_by c.size

end PatternGen.Parser
