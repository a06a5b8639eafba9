import PatternGen.Parser.Peg

namespace PatternGen

namespace Regex

/-- Where the groups of an expression begin and end, in characters; none for a group that took no
part. Group 0 is the whole match. -/
abbrev Captures := List (Option (Nat × Nat))

/-- A library of regular expressions. -/
structure Engine where
  /-- The search for the match that comes first in a text; none if the first text is no
  expression. -/
  search? : String → Option (List Char → Option Captures)

end Regex

/-- What a token matched: the whole of it and its groups, each none if it took no part. -/
structure RegexMatch where
  groups : List (Option (List Char))
  deriving DecidableEq, Repr

namespace RegexMatch

def group (m : RegexMatch) (i : Nat) : Option (List Char) := m.groups[i]?.join

def text (m : RegexMatch) : List Char := (m.group 0).getD []

/-- In bytes. -/
def length (m : RegexMatch) : Nat := Text.byteSize m.text

def isEmpty (m : RegexMatch) : Bool := m.length = 0

end RegexMatch

namespace Regex

def slice (text : List Char) (span : Nat × Nat) : List Char :=
  (text.drop span.1).take (span.2 - span.1)

/-- What was captured of a text, and the number of characters up to the end of the match. -/
def Captures.taken (caps : Captures) (text : List Char) : RegexMatch × Nat :=
  (⟨caps.map (·.map (slice text))⟩, caps[0]?.join.elim 0 (·.2))

/-- An expression between an anchor and the end of a group. A parenthesis in it that closes this
group leaves what follows without the anchor. -/
def enclosed (pattern : String) : String := "^(?:" ++ pattern ++ ")"

/-- A parser for what an expression matches first, reading up to the end of the match; none if the
text is no expression. -/
def token? (e : Engine) (pattern : String) : Option (Peg Γ RegexMatch) :=
  (e.search? (enclosed pattern)).map fun search =>
    .token ("/" ++ pattern ++ "/") fun text => (search text).map (·.taken text)

end Regex

end PatternGen
